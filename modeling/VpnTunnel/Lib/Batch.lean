import Mathlib.Data.List.Induction
import Mathlib.Data.List.Nodup

namespace Except

universe u v

variable {ε ε' : Type v} {α β : Type u} {x : Except ε α} {f : α → Except ε β} {a a' : α} {b : β}

theorem bind_eq_ok : x >>= f = .ok b ↔ ∃ a, x = .ok a ∧ f a = .ok b := by
  cases x <;> simp [bind, Except.bind]

theorem map_eq_ok {g : α → β} : g <$> x = .ok b ↔ ∃ a, x = .ok a ∧ g a = b := by
  cases x <;> simp [Functor.map, Except.map]

theorem mapError_eq_ok {g : ε → ε'} : x.mapError g = .ok a ↔ x = .ok a := by
  cases x <;> simp [Except.mapError]

theorem bind_eq_error {e : ε} :
    x >>= f = .error e ↔ x = .error e ∨ ∃ a, x = .ok a ∧ f a = .error e := by
  cases x <;> simp [bind, Except.bind]

theorem mapError_eq_error {g : ε → ε'} {e' : ε'} :
    x.mapError g = .error e' ↔ ∃ e, x = .error e ∧ g e = e' := by
  cases x <;> simp [Except.mapError]

theorem pure_eq_ok : (pure a : Except ε α) = .ok a' ↔ a = a' := by
  simp [pure, Except.pure]

theorem toOption_eq_some : x.toOption = some a ↔ x = .ok a := by
  cases x <;> simp [Except.toOption]

theorem toOption_bind : (x >>= f).toOption = x.toOption >>= fun a => (f a).toOption := by
  cases x <;> rfl

end Except

namespace List

-- A fold that succeeds, with an invariant on what it has gone over and what it has got to.
theorem foldlM_invariant {ε σ α : Type*} {f : σ → α → Except ε σ} {l : List α} {s s' : σ}
    {P : List α → σ → Prop} (h₀ : P [] s)
    (hs : ∀ {xs s a s'}, P xs s → f s a = .ok s' → P (xs ++ [a]) s')
    (h : l.foldlM f s = .ok s') : P l s' := by
  induction l using reverseRecOn generalizing s'
  case nil =>
    rw [foldlM_nil, Except.pure_eq_ok] at h
    exact h ▸ h₀
  case append_singleton xs a hi =>
    rw [foldlM_append, Except.bind_eq_ok] at h
    have ⟨s₁, h₁, h⟩ := h
    rw [foldlM_cons, Except.bind_eq_ok] at h
    have ⟨s₂, h₂, h⟩ := h
    exact Except.pure_eq_ok.mp h ▸ hs (hi h₁) h₂

theorem forM_eq_ok {ε α : Type} {l : List α} {f : α → Except ε Unit} {u : Unit} :
    forM l f = .ok u ↔ ∀ a ∈ l, f a = .ok () := by
  induction l
  case nil => simp [pure, Except.pure]
  case cons a l hi =>
    rw [forM_cons, Except.bind_eq_ok, forall_mem_cons]
    exact ⟨fun ⟨_, ha, hl⟩ => ⟨ha, hi.mp hl⟩, fun ⟨ha, hl⟩ => ⟨_, ha, hi.mpr hl⟩⟩

theorem mapM_eq_ok_iff {ε α β : Type} {l : List α} {l' : List β} {f : α → Except ε β} :
    l.mapM f = .ok l' ↔ l.map f = l'.map .ok := by
  induction l generalizing l'
  case nil => simp [pure, Except.pure, eq_comm]
  case cons a l hi =>
    simp only [mapM_cons, Except.bind_eq_ok, Except.pure_eq_ok, hi]
    cases l'
    case nil          => simp
    case cons b l' => simp [eq_comm]

theorem mem_of_mapM_eq_ok {ε α β : Type} {l : List α} {l' : List β} {f : α → Except ε β} {b : β}
    (h : l.mapM f = .ok l') : b ∈ l' ↔ ∃ a ∈ l, f a = .ok b := by
  have hm : (Except.ok b : Except ε β) ∈ l.map f ↔ (Except.ok b : Except ε β) ∈ l'.map .ok := by
    rw [mapM_eq_ok_iff.mp h]
  simpa using hm.symm

theorem Nodup.length_le_one_iff {α : Type*} {l : List α} (h : l.Nodup) :
    l.length ≤ 1 ↔ ∀ a ∈ l, ∀ b ∈ l, a = b := by
  match l with
  | []          => simp
  | [_]         => simp
  | a :: b :: l =>
    have hne : a ≠ b := by
      rintro rfl
      simp at h
    exact iff_of_false (by simp) fun he => hne (he a (by simp) b (by simp))

-- A batch visits different keys, and changes what is seen at a key only when it visits that key.
section Visits

variable {ε σ κ γ : Type*} {s s' : σ} {ks : List κ} {k : κ} {f : σ → κ → Except ε σ}
  (view : σ → κ → γ) (hf : ∀ s k s', f s k = .ok s' → ∀ k' ≠ k, view s' k' = view s k')

include hf

theorem foldlM_of_not_mem (h : ks.foldlM f s = .ok s') (hk : k ∉ ks) : view s' k = view s k := by
  induction ks generalizing s
  case nil =>
    rw [foldlM_nil, Except.pure_eq_ok] at h
    rw [h]
  case cons k₁ ks hi =>
    rw [foldlM_cons, Except.bind_eq_ok] at h
    have ⟨s₁, h₁, h⟩ := h
    have ⟨hn, hk⟩ := not_or.mp <| mt mem_cons.mpr hk
    rw [hi h hk, hf _ _ _ h₁ k hn]

-- The visit of a key finds and leaves there what the whole batch does.
theorem foldlM_visit (hn : ks.Nodup) (h : ks.foldlM f s = .ok s') (hk : k ∈ ks) :
    ∃ s₁ s₂, f s₁ k = .ok s₂ ∧ view s₁ k = view s k ∧ view s' k = view s₂ k := by
  induction ks generalizing s
  case nil => contradiction
  case cons k₁ ks hi =>
    rw [foldlM_cons, Except.bind_eq_ok] at h
    obtain ⟨s₁, h₁, h⟩ := h
    have ⟨hk₁, hn⟩ := nodup_cons.mp hn
    cases mem_cons.mp hk
    case inl he =>
      subst he
      exact ⟨s, s₁, h₁, rfl, foldlM_of_not_mem view hf h hk₁⟩
    case inr hk =>
      have ⟨s₂, s₃, h₂, hv, hv'⟩ := hi hn h hk
      exact ⟨s₂, s₃, h₂, hv.trans (hf _ _ _ h₁ k (ne_of_mem_of_not_mem hk hk₁)), hv'⟩

-- A batch succeeds if each visit does, with what is seen at its key before the batch.
theorem foldlM_eq_ok {P : κ → γ → Prop} (ho : ∀ s k, P k (view s k) → ∃ s', f s k = .ok s')
    (hn : ks.Nodup) (hp : ∀ k ∈ ks, P k (view s k)) : ∃ s', ks.foldlM f s = .ok s' := by
  induction ks generalizing s
  case nil => exact ⟨s, rfl⟩
  case cons k ks hi =>
    have ⟨hk, hn⟩ := nodup_cons.mp hn
    have ⟨hp, hps⟩ := forall_mem_cons.mp hp
    have ⟨s₁, h₁⟩ := ho s k hp
    have hv (k') (hk' : k' ∈ ks) := hf _ _ _ h₁ k' (ne_of_mem_of_not_mem hk' hk)
    have ⟨s₂, h₂⟩ := hi (s := s₁) hn fun k' hk' => hv k' hk' ▸ hps k' hk'
    exact ⟨s₂, by rw [foldlM_cons, h₁]; exact h₂⟩

end Visits

variable {ε σ κ γ : Type*} [DecidableEq κ] {s s' : σ} {ks : List κ}

theorem foldlM_pointwise {f : σ → κ → Except ε σ} (view : σ → κ → γ) (g : γ → γ)
    (hf : ∀ s k s', f s k = .ok s' → view s' k = g (view s k) ∧ ∀ k' ≠ k, view s' k' = view s k')
    (hn : ks.Nodup) (h : ks.foldlM f s = .ok s') (k : κ) :
    view s' k = if k ∈ ks then g (view s k) else view s k := by
  have hf' := fun s k s' h => (hf s k s' h).right
  split
  case isTrue hk =>
    have ⟨_, _, h₁, hv, hv'⟩ := foldlM_visit view hf' hn h hk
    rw [hv', (hf _ _ _ h₁).left, hv]
  case isFalse hk => exact foldlM_of_not_mem view hf' h hk

section Update

variable {α ν : Type*} {l l₁ l₂ : List α} {a : α} {f : α → κ} {g : α → ν}

-- The last of several updates of a key is the one that counts.
theorem foldl_update (m : κ → ν) (h : ∀ b ∈ l₂, f b ≠ f a) :
    (l₁ ++ a :: l₂).foldl (fun m b => Function.update m (f b) (g b)) m (f a) = g a := by
  have hl : ∀ m : κ → ν, l₂.foldl (fun m b => Function.update m (f b) (g b)) m (f a) = m (f a) := by
    induction l₂
    case nil => simp
    case cons b l₂ hi =>
      have ⟨hb, h⟩ := forall_mem_cons.mp h
      intro m
      rw [foldl_cons, hi h, Function.update_of_ne hb.symm]
  rw [foldl_append, foldl_cons, hl, Function.update_self]

theorem exists_last (f : α → κ) (h : a ∈ l) :
    ∃ l₁ b l₂, l = l₁ ++ b :: l₂ ∧ f b = f a ∧ ∀ c ∈ l₂, f c ≠ f b := by
  induction l generalizing a
  case nil => simp at h
  case cons x l hi =>
    by_cases hm : ∃ c ∈ l, f c = f a
    case pos =>
      have ⟨c, hc, hf⟩ := hm
      have ⟨l₁, b, l₂, hl, hb, hn⟩ := hi hc
      exact ⟨x :: l₁, b, l₂, by simp [hl], hb.trans hf, hn⟩
    case neg =>
      have hx : a = x := (mem_cons.mp h).resolve_right fun hl => hm ⟨a, hl, rfl⟩
      exact ⟨[], x, l, rfl, by rw [hx], fun c hc hf => hm ⟨c, hc, hx ▸ hf⟩⟩

end Update

end List
