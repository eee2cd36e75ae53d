import Mathlib.Data.List.Basic
import Mathlib.Data.List.Infix

-- A transition system: the events are what the scheduler of the threads and the environment choose,
-- and `step s e = none` means that `e` is not enabled in `s`.
structure System (σ ε : Type*) where
  init : σ
  step : σ → ε → Option σ

namespace System

variable {σ ε : Type*}

-- The state that a list of events leads to, if each event is enabled when its turn comes.
def exec (sys : System σ ε) (es : List ε) : Option σ :=
  es.foldlM sys.step sys.init

-- Runs grow at their end, so that an induction over a run peels off the step that was taken last.
inductive Run (sys : System σ ε) : List ε → σ → Prop
  | init : Run sys [] sys.init
  | step {es s₁ s₂ e} : Run sys es s₁ → (sys.step s₁ e = some s₂) → Run sys (es ++ [e]) s₂

def Reachable (sys : System σ ε) (s : σ) : Prop :=
  ∃ es, sys.Run es s

variable {sys : System σ ε} {s s₁ s₂ : σ} {e : ε} {es es₁ es₂ : List ε}

namespace Run

theorem reachable (r : sys.Run es s) : sys.Reachable s :=
  ⟨es, r⟩

theorem snoc_elim (r : sys.Run (es ++ [e]) s₂) : ∃ s₁, sys.Run es s₁ ∧ sys.step s₁ e = some s₂ := by
  generalize h : es ++ [e] = es' at r
  cases r
  case init => simp at h
  case step es'' s₁ e' r hs =>
    have ⟨h₁, h₂⟩ := List.append_inj' h rfl
    simp only [List.cons.injEq, and_true] at h₂
    subst h₁ h₂
    exact ⟨s₁, r, hs⟩

theorem nil_eq (r : sys.Run [] s) : s = sys.init := by
  generalize h : [] = es at r
  cases r
  case init => rfl
  case step => simp at h

theorem deterministic (r₁ : sys.Run es s₁) (r₂ : sys.Run es s₂) : s₁ = s₂ := by
  induction r₁ generalizing s₂
  case init => exact r₂.nil_eq.symm
  case step hs hi =>
    have ⟨s, r, hs'⟩ := r₂.snoc_elim
    cases hi r
    exact Option.some.inj <| hs ▸ hs'

-- Every prefix of a run is a run.
theorem of_append (r : sys.Run (es₁ ++ es₂) s) : ∃ s₁, sys.Run es₁ s₁ := by
  induction es₂ using List.reverseRecOn generalizing s
  case nil => exact ⟨s, by simpa using r⟩
  case append_singleton es₂ e hi =>
    rw [← List.append_assoc] at r
    have ⟨s', r', _⟩ := r.snoc_elim
    exact hi r'

-- An invariant may be shown with the run that leads up to each step at hand.
theorem invariant_of_run {P : List ε → σ → Prop} (hi : P [] sys.init)
    (hs : ∀ es s₁ e s₂, sys.Run es s₁ → P es s₁ → sys.step s₁ e = some s₂ → P (es ++ [e]) s₂)
    (r : sys.Run es s) : P es s := by
  induction r
  case init => exact hi
  case step r h ih => exact hs _ _ _ _ r ih h

theorem of_exec_from (r : sys.Run es s₁) (h : es₂.foldlM sys.step s₁ = some s) :
    sys.Run (es ++ es₂) s := by
  induction es₂ generalizing es s₁
  case nil =>
    simp only [List.foldlM_nil, Option.pure_def, Option.some.injEq] at h
    simpa [h] using r
  case cons e es₂ hi =>
    simp only [List.foldlM_cons, Option.bind_eq_bind, Option.bind_eq_some_iff] at h
    have ⟨s', h₁, h₂⟩ := h
    simpa using hi (r.step h₁) h₂

theorem of_exec (h : sys.exec es = some s) : sys.Run es s := by
  simpa using of_exec_from .init h

theorem exec_eq (r : sys.Run es s) : sys.exec es = some s := by
  induction r
  case init => rfl
  case step h hi =>
    rw [exec] at hi
    simp [exec, List.foldlM_append, hi, h]

theorem of_isSome (h : (sys.exec es).isSome) : sys.Run es ((sys.exec es).get h) :=
  of_exec (Option.some_get h).symm

end Run

namespace Reachable

theorem init : sys.Reachable sys.init :=
  ⟨[], .init⟩

theorem step (r : sys.Reachable s₁) (h : sys.step s₁ e = some s₂) : sys.Reachable s₂ :=
  have ⟨_, r⟩ := r
  ⟨_, r.step h⟩

-- The induction behind every safety property: it holds at first, and each step preserves it.
theorem invariant {P : σ → Prop} (hi : P sys.init)
    (hs : ∀ s₁ e s₂, P s₁ → sys.step s₁ e = some s₂ → P s₂) (r : sys.Reachable s) : P s := by
  have ⟨_, r⟩ := r
  induction r
  case init => exact hi
  case step h ih => exact hs _ _ _ (ih ⟨_, ‹_›⟩) h

-- The same induction, relative to what is known of the reachable states already.
theorem invariant_of_reachable {P : σ → Prop} (hi : P sys.init)
    (hs : ∀ s₁ e s₂, sys.Reachable s₁ → P s₁ → sys.step s₁ e = some s₂ → P s₂)
    (r : sys.Reachable s) : P s := by
  have ⟨_, r⟩ := r
  exact r.invariant_of_run (P := fun _ s => P s) hi (fun _ _ _ _ r => hs _ _ _ r.reachable)

-- If each step of a system is a step of a component, or does not concern it, then the component only
-- reaches its own states.
theorem project {σ' ε' : Type*} (sys' : System σ' ε') (f : σ → σ') (hi : f sys.init = sys'.init)
    (hs : ∀ s₁ e s₂, sys.step s₁ e = some s₂ →
      f s₂ = f s₁ ∨ ∃ e', sys'.step (f s₁) e' = some (f s₂))
    (r : sys.Reachable s) : sys'.Reachable (f s) := by
  apply r.invariant (P := fun s => sys'.Reachable (f s))
  case hi => exact hi ▸ .init
  intro s₁ e s₂ r h
  cases hs s₁ e s₂ h
  case inl h => exact h ▸ r
  case inr h =>
    have ⟨_, h⟩ := h
    exact r.step h

-- The same with a relation in the place of a function: the other system keeps up with each step, or has
-- nothing to do in it.
theorem simulate {σ' ε' : Type*} {sys' : System σ' ε'} {R : σ → σ' → Prop} (hi : R sys.init sys'.init)
    (hs : ∀ s₁ e s₂ t₁, sys.step s₁ e = some s₂ → sys'.Reachable t₁ → R s₁ t₁ →
      R s₂ t₁ ∨ ∃ e' t₂, sys'.step t₁ e' = some t₂ ∧ R s₂ t₂)
    (r : sys.Reachable s) : ∃ t, sys'.Reachable t ∧ R s t := by
  apply r.invariant (P := fun s => ∃ t, sys'.Reachable t ∧ R s t)
  case hi => exact ⟨_, .init, hi⟩
  intro s₁ e s₂ hp h
  have ⟨t₁, r₁, hr⟩ := hp
  cases hs s₁ e s₂ t₁ h r₁ hr
  case inl hr => exact ⟨t₁, r₁, hr⟩
  case inr h' =>
    have ⟨_, t₂, h₂, hr⟩ := h'
    exact ⟨t₂, r₁.step h₂, hr⟩

end Reachable

-- An invariant may also be established in the middle of a run, and may rely on a condition that holds
-- from there on.
theorem Run.invariant_while {P : σ → Prop} {K : σ → ε → Prop} (r₁ : sys.Run es₁ s₁) (h : P s₁)
    (hs : ∀ s₁ e s₂, sys.Reachable s₁ → K s₁ e → P s₁ → sys.step s₁ e = some s₂ → P s₂)
    (hk : ∀ l₁ e l₂ s, es₂ = l₁ ++ e :: l₂ → sys.Run (es₁ ++ l₁) s → K s e)
    (r : sys.Run (es₁ ++ es₂) s) : P s := by
  induction es₂ using List.reverseRecOn generalizing s
  case nil =>
    rw [List.append_nil] at r
    exact r₁.deterministic r ▸ h
  case append_singleton es₂ e hi =>
    rw [← List.append_assoc] at r
    have ⟨s', r', h'⟩ := r.snoc_elim
    have hp := hi (fun l₁ e' l₂ s hl => hk l₁ e' (l₂ ++ [e]) s (by simp [hl])) r'
    exact hs _ _ _ r'.reachable (hk es₂ e [] s' rfl r') hp h'

theorem Run.invariant_from {P : σ → Prop} (r₁ : sys.Run es₁ s₁) (h : P s₁)
    (hs : ∀ s₁ e s₂, sys.Reachable s₁ → P s₁ → sys.step s₁ e = some s₂ → P s₂)
    (r : sys.Run (es₁ ++ es₂) s) : P s :=
  r₁.invariant_while (K := fun _ _ => True) h (fun _ _ _ r _ => hs _ _ _ r) (by simp) r

-- The steps that are taken after `es₁` meet a condition.
def MeetsFrom (sys : System σ ε) (C : σ → ε → Prop) (es₁ es₂ : List ε) : Prop :=
  ∀ l₁ e l₂ s, es₂ = l₁ ++ e :: l₂ → sys.Run (es₁ ++ l₁) s → C s e

namespace MeetsFrom

variable {C : σ → ε → Prop}

theorem of_append {es₃ : List ε} (m : sys.MeetsFrom C es₁ (es₂ ++ es₃)) : sys.MeetsFrom C es₁ es₂ := by
  intro l₁ e l₂ s h
  exact m l₁ e (l₂ ++ es₃) s (by simp [h])

theorem of_exec (h : ∀ i (hi : i < es₂.length), ∀ s ∈ sys.exec (es₁ ++ es₂.take i), C s es₂[i]) :
    sys.MeetsFrom C es₁ es₂ := by
  intro l₁ e l₂ s he r
  subst he
  have hs : s ∈ sys.exec (es₁ ++ (l₁ ++ e :: l₂).take l₁.length) := by simpa using r.exec_eq
  simpa using h l₁.length (by simp) s hs

end MeetsFrom

-- A run meets a condition on steps, if each event is taken in a state, and after events, in which the
-- condition allows it.
def MeetsAfter (sys : System σ ε) (C : List ε → σ → ε → Prop) (es : List ε) : Prop :=
  ∀ es₁ e es₂ s, es = es₁ ++ e :: es₂ → sys.Run es₁ s → C es₁ s e

namespace MeetsAfter

variable {C : List ε → σ → ε → Prop}

theorem nil : sys.MeetsAfter C [] := by
  intro es₁ e es₂ s h
  simp at h

theorem of_append (m : sys.MeetsAfter C (es₁ ++ es₂)) : sys.MeetsAfter C es₁ := by
  intro l₁ e l₂ s h
  exact m l₁ e (l₂ ++ es₂) s (by simp [h])

theorem last (m : sys.MeetsAfter C (es ++ [e])) (r : sys.Run es s) : C es s e :=
  m es e [] s rfl r

theorem snoc (m : sys.MeetsAfter C es) (r : sys.Run es s) (h : C es s e) : sys.MeetsAfter C (es ++ [e]) := by
  intro es₁ e' es₂ s' he r'
  cases es₂ using List.reverseRecOn
  case nil =>
    have ⟨h₁, h₂⟩ := List.append_inj' he rfl
    simp only [List.cons.injEq, and_true] at h₂
    subst h₁ h₂
    exact r.deterministic r' ▸ h
  case append_singleton es₂ e'' _ =>
    rw [← List.cons_append, ← List.append_assoc] at he
    exact m es₁ e' es₂ s' (List.append_inj' he rfl).left r'

theorem snoc_iff (r : sys.Run es s) :
    sys.MeetsAfter C (es ++ [e]) ↔ sys.MeetsAfter C es ∧ C es s e :=
  ⟨fun m => ⟨m.of_append, m.last r⟩, fun m => m.left.snoc r m.right⟩

-- For a given run, a decidable condition can be evaluated.
theorem of_exec (h : ∀ i (hi : i < es.length), ∀ s ∈ sys.exec (es.take i), C (es.take i) s es[i]) :
    sys.MeetsAfter C es := by
  intro es₁ e es₂ s he r
  subst he
  have hs : s ∈ sys.exec ((es₁ ++ e :: es₂).take es₁.length) := by simpa using r.exec_eq
  simpa using h es₁.length (by simp) s hs

-- Two conditions that agree on the steps that a run takes.
theorem congr {D : List ε → σ → ε → Prop} (r : sys.Run es s)
    (h : ∀ es₁ s₁ e s₂, e ∈ es → sys.Run es₁ s₁ → sys.step s₁ e = some s₂ → (C es₁ s₁ e ↔ D es₁ s₁ e)) :
    sys.MeetsAfter C es ↔ sys.MeetsAfter D es := by
  induction r
  case init => exact iff_of_true .nil .nil
  case step r hs hi =>
    rw [snoc_iff r, snoc_iff r, h _ _ _ _ (by simp) r hs]
    rw [hi fun es₁ s₁ e s₂ he => h es₁ s₁ e s₂ (by simp [he])]

end MeetsAfter

-- A condition that is about the state alone.
def Meets (sys : System σ ε) (C : σ → ε → Prop) (es : List ε) : Prop :=
  ∀ es₁ e es₂ s, es = es₁ ++ e :: es₂ → sys.Run es₁ s → C s e

namespace Meets

variable {C : σ → ε → Prop}

theorem nil : sys.Meets C [] :=
  MeetsAfter.nil

theorem of_exec (h : ∀ i (hi : i < es.length), ∀ s ∈ sys.exec (es.take i), C s es[i]) :
    sys.Meets C es :=
  MeetsAfter.of_exec h

theorem of_append (m : sys.Meets C (es₁ ++ es₂)) : sys.Meets C es₁ :=
  MeetsAfter.of_append m

theorem last (m : sys.Meets C (es ++ [e])) (r : sys.Run es s) : C s e :=
  MeetsAfter.last m r

theorem snoc (m : sys.Meets C es) (r : sys.Run es s) (h : C s e) : sys.Meets C (es ++ [e]) :=
  MeetsAfter.snoc m r h

theorem congr {D : σ → ε → Prop} (r : sys.Run es s)
    (h : ∀ s₁ e s₂, e ∈ es → sys.Reachable s₁ → sys.step s₁ e = some s₂ → (C s₁ e ↔ D s₁ e)) :
    sys.Meets C es ↔ sys.Meets D es :=
  MeetsAfter.congr r fun _ _ _ _ he r => h _ _ _ he r.reachable

theorem snoc_iff (r : sys.Run es s) : sys.Meets C (es ++ [e]) ↔ sys.Meets C es ∧ C s e :=
  MeetsAfter.snoc_iff r

end Meets

theorem Run.invariant_of_meets {C : σ → ε → Prop} {P : σ → Prop} (hi : P sys.init)
    (hs : ∀ s₁ e s₂, sys.Reachable s₁ → P s₁ → C s₁ e → sys.step s₁ e = some s₂ → P s₂)
    (r : sys.Run es s) (m : sys.Meets C es) : P s := by
  induction r
  case init => exact hi
  case step r h ih => exact hs _ _ _ r.reachable (ih m.of_append) (m.last r) h

-- A property holds in all states that a run goes through, including the first and the last one.
def Always (sys : System σ ε) (P : σ → Prop) (es : List ε) : Prop :=
  ∀ es₁ es₂ s, es = es₁ ++ es₂ → sys.Run es₁ s → P s

namespace Always

variable {P : σ → Prop}

theorem last (a : sys.Always P es) (r : sys.Run es s) : P s :=
  a es [] s (by simp) r

theorem snoc_iff (r : sys.Run (es ++ [e]) s) : sys.Always P (es ++ [e]) ↔ sys.Always P es ∧ P s := by
  refine ⟨fun a => ⟨fun es₁ es₂ s₁ he => a es₁ (es₂ ++ [e]) s₁ (by simp [he]), a.last r⟩, ?_⟩
  rintro ⟨a, hp⟩ es₁ es₂ s₁ he r₁
  cases es₂ using List.reverseRecOn
  case nil =>
    rw [List.append_nil] at he
    subst he
    exact r.deterministic r₁ ▸ hp
  case append_singleton es₂ e' _ =>
    rw [← List.append_assoc] at he
    exact a es₁ es₂ s₁ (List.append_inj' he rfl).left r₁

end Always

-- A property that cannot be restored holds throughout a run if it holds at its end.
theorem Run.always_iff_last {P : σ → Prop}
    (hs : ∀ s₁ e s₂, sys.Reachable s₁ → sys.step s₁ e = some s₂ → P s₂ → P s₁) (r : sys.Run es s) :
    sys.Always P es ↔ P s := by
  refine ⟨fun a => a.last r, fun h => ?_⟩
  induction r
  case init =>
    intro es₁ es₂ s he r
    cases (List.append_eq_nil_iff.mp he.symm).left
    exact r.nil_eq ▸ h
  case step r hs' hi => exact (Always.snoc_iff (r.step hs')).mpr ⟨hi (hs _ _ _ r.reachable hs' h), h⟩

-- If the events of some kind use something up, then a run goes on with them until none is enabled.
theorem Run.exists_stuck {A : ε → Prop} (μ : σ → Nat)
    (hμ : ∀ s₁ e s₂, A e → sys.step s₁ e = some s₂ → μ s₂ < μ s₁) (r : sys.Run es s) :
    ∃ es' s', sys.Run (es ++ es') s' ∧ (∀ e ∈ es', A e) ∧ ∀ e, A e → sys.step s' e = none := by
  induction h : μ s using Nat.strong_induction_on generalizing es s
  case h n hi =>
    by_cases hn : ∀ e, A e → sys.step s e = none
    case pos => exact ⟨[], s, by simpa using r, by simp, hn⟩
    case neg =>
      push Not at hn
      have ⟨e, ha, hs⟩ := hn
      have ⟨s₁, hs⟩ := Option.ne_none_iff_exists'.mp hs
      have ⟨es', s', r', ha', hn⟩ := hi _ (h ▸ hμ _ _ _ ha hs) (r.step hs) rfl
      exact ⟨e :: es', s', by simpa using r', List.forall_mem_cons.mpr ⟨ha, ha'⟩, hn⟩

-- If `C` tells the steps that keep a property from those that break it, then the property holds
-- throughout a run just in case all steps of the run meet `C`.
theorem Run.always_iff {P : σ → Prop} {C : σ → ε → Prop} (hi : P sys.init)
    (hs : ∀ s₁ e s₂, sys.Reachable s₁ → P s₁ → sys.step s₁ e = some s₂ → (P s₂ ↔ C s₁ e))
    (r : sys.Run es s) : sys.Always P es ↔ sys.Meets C es := by
  induction r
  case init =>
    refine iff_of_true (fun es₁ es₂ s h r => ?_) .nil
    cases (List.append_eq_nil_iff.mp h.symm).left
    exact r.nil_eq ▸ hi
  case step r h ih =>
    rw [Always.snoc_iff (r.step h), Meets.snoc_iff r, ← ih]
    exact and_congr_right fun a => hs _ _ _ r.reachable (a.last r) h

-- What can be seen of a run from outside, if `f` says what is seen of a single step.
def observe (sys : System σ ε) (f : σ → ε → List α) (es : List ε) : List α :=
  (es.foldl (fun a e => (a.1 >>= (sys.step · e), a.2 ++ a.1.elim [] (f · e))) (some sys.init, [])).2

section Observe

variable {f : σ → ε → List α}

@[simp]
theorem observe_nil : sys.observe f [] = [] :=
  rfl

theorem observe_snoc (r : sys.Run es s) : sys.observe f (es ++ [e]) = sys.observe f es ++ f s e := by
  have hs : (es.foldl (fun (a : Option σ × List α) e =>
      (a.1 >>= (sys.step · e), a.2 ++ a.1.elim [] (f · e))) (some sys.init, [])).1 = some s := by
    induction r
    case init => rfl
    case step h ih => simp only [List.foldl_append, List.foldl_cons, List.foldl_nil, ih, ← h]; rfl
  simp only [observe, List.foldl_append, List.foldl_cons, List.foldl_nil, hs, Option.elim_some]

-- Something has been seen unless no step shows it.
theorem not_mem_observe_iff (r : sys.Run es s) {a : α} :
    a ∉ sys.observe f es ↔ sys.Meets (fun s e => a ∉ f s e) es := by
  induction r
  case init => simpa using .nil
  case step r h hi => rw [observe_snoc r, Meets.snoc_iff r, List.mem_append, not_or, hi]

-- What is seen of a run is related pairwise, if each step shows only what is related to all before.
theorem pairwise_observe_iff {R : α → α → Prop} (r : sys.Run es s) :
    (sys.observe f es).Pairwise R ↔ sys.MeetsAfter (fun es₁ s e =>
      (f s e).Pairwise R ∧ ∀ a ∈ sys.observe f es₁, ∀ b ∈ f s e, R a b) es := by
  induction r
  case init => exact iff_of_true .nil .nil
  case step r h hi => rw [observe_snoc r, MeetsAfter.snoc_iff r, List.pairwise_append, hi]

section Lookup

variable {κ ν : Type*} [BEq κ] [LawfulBEq κ] {f : σ → ε → List (κ × ν)} {k : κ} {v : ν}

-- What has been seen last of a key, after a step that shows something of it and after one that does not.
theorem lookup_observe_of_eq (r : sys.Run es s) (h : f s e = [(k, v)]) :
    (sys.observe f (es ++ [e])).reverse.lookup k = some v := by
  simp [observe_snoc r, h]

theorem lookup_observe_of_not_mem (r : sys.Run es s) (h : ∀ v, (k, v) ∉ f s e) :
    (sys.observe f (es ++ [e])).reverse.lookup k = (sys.observe f es).reverse.lookup k := by
  have hn : (f s e).reverse.lookup k = none := by
    refine List.lookup_eq_none_iff.mpr fun x hx => ?_
    simp only [bne_iff_ne, ne_eq]
    intro hk
    exact h x.2 (by simpa [hk] using hx)
  rw [observe_snoc r, List.reverse_append, List.lookup_append, hn, Option.none_or]

end Lookup

end Observe

-- If a state in which `A` holds is entered only from such a state, by a step that `Q` describes, or
-- by a step that establishes `B`, then `B` held at some point of the run and all steps taken since
-- are of the first kind.
theorem Run.since {A B : σ → Prop} {Q : σ → ε → σ → Prop} (hi : A sys.init → B sys.init)
    (hs : ∀ s₁ e s₂, sys.Reachable s₁ → sys.step s₁ e = some s₂ → A s₂ →
      (A s₁ ∧ Q s₁ e s₂) ∨ B s₂)
    (r : sys.Run es s) (ha : A s) :
    ∃ es₁ es₂ m, es = es₁ ++ es₂ ∧ sys.Run es₁ m ∧ B m ∧
      (∀ l₁ l₂ n, es₂ = l₁ ++ l₂ → sys.Run (es₁ ++ l₁) n → A n) ∧
      (∀ l₁ e l₂ n₁, es₂ = l₁ ++ e :: l₂ → sys.Run (es₁ ++ l₁) n₁ →
        ∃ n₂, sys.step n₁ e = some n₂ ∧ Q n₁ e n₂) := by
  induction r
  case init =>
    refine ⟨[], [], _, rfl, .init, hi ha, ?_, ?_⟩
    · intro l₁ l₂ n hl r
      have hl := (List.append_eq_nil_iff.mp hl.symm).left
      subst hl
      exact r.nil_eq ▸ ha
    · intro l₁ e l₂ n₁ hl
      simp at hl
  case step es s₁ s₂ e r h ih =>
    cases hs _ _ _ r.reachable h ha
    case inr hb =>
      refine ⟨es ++ [e], [], _, by simp, r.step h, hb, ?_, ?_⟩
      · intro l₁ l₂ n hl r'
        have hl := (List.append_eq_nil_iff.mp hl.symm).left
        subst hl
        rw [List.append_nil] at r'
        exact (r.step h).deterministic r' ▸ ha
      · intro l₁ e l₂ n₁ hl
        simp at hl
    case inl hq =>
      have ⟨es₁, es₂, m, he, rm, hb, hA, hQ⟩ := ih hq.left
      subst he
      refine ⟨es₁, es₂ ++ [e], m, by simp, rm, hb, ?_, ?_⟩
      · intro l₁ l₂ n hl rn
        cases l₂ using List.reverseRecOn
        case nil =>
          rw [List.append_nil] at hl
          subst hl
          rw [← List.append_assoc] at rn
          exact (r.step h).deterministic rn ▸ ha
        case append_singleton l₂ e' _ =>
          rw [← List.append_assoc] at hl
          exact hA l₁ l₂ n (List.append_inj' hl rfl).left rn
      · intro l₁ e' l₂ n₁ hl rn
        cases l₂ using List.reverseRecOn
        case nil =>
          have ⟨h₁, h₂⟩ := List.append_inj' hl rfl
          simp only [List.cons.injEq, and_true] at h₂
          subst h₁ h₂
          cases r.deterministic rn
          exact ⟨_, h, hq.right⟩
        case append_singleton l₂ e'' _ =>
          rw [← List.cons_append, ← List.append_assoc] at hl
          exact hQ l₁ e' l₂ n₁ (List.append_inj' hl rfl).left rn

end System
