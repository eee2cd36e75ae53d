import VpnTunnel.Lib.Bytes

namespace ByteString

-- Texts that are made of elements of the cutset.
inductive Blank (cutset : List ByteString) : ByteString → Prop
  | nil : Blank cutset []
  | cons {e w} : e ∈ cutset → Blank cutset w → Blank cutset (e ++ w)

-- A text can be made of the elements of a code in one way only.
structure IsCode (cutset : List ByteString) : Prop where
  ne_nil       : [] ∉ cutset
  eq_of_prefix : ∀ e ∈ cutset, ∀ e' ∈ cutset, e <+: e' → e = e'

variable {cutset : List ByteString} {s t t₁ t₂ w w₁ w₂ e : ByteString} {c : UInt8}

theorem prefix_append_elim (h : e <+: t₁ ++ t₂) : e <+: t₁ ∨ ∃ c r, c :: r <+: t₂ ∧ e = t₁ ++ c :: r := by
  cases List.prefix_or_prefix_of_prefix h ⟨_, rfl⟩
  case inl h' => exact .inl h'
  case inr h' =>
    have ⟨r, hr⟩ := h'
    cases r
    case nil => exact .inl ⟨[], by simpa using hr.symm⟩
    case cons c r => exact .inr ⟨c, r, (List.prefix_append_right_inj t₁).mp (hr ▸ h), hr.symm⟩

namespace Blank

theorem append (h₁ : Blank cutset w₁) (h₂ : Blank cutset w₂) : Blank cutset (w₁ ++ w₂) := by
  induction h₁
  case nil => exact h₂
  case cons he _ hi =>
    rw [List.append_assoc]
    exact .cons he hi

theorem of_mem (h : e ∈ cutset) : Blank cutset e := by
  simpa using cons h nil

theorem reverse (h : Blank cutset w) : Blank (cutset.map .reverse) w.reverse := by
  induction h
  case nil => exact .nil
  case cons he _ hi =>
    rw [List.reverse_append]
    exact hi.append <| .of_mem (List.mem_map_of_mem he)

theorem not_mem (h : Blank cutset w) (hc : ∀ e ∈ cutset, c ∉ e) : c ∉ w := by
  induction h
  case nil => simp
  case cons he _ hi => simp [hc _ he, hi]

theorem reverse_iff : Blank (cutset.map .reverse) w.reverse ↔ Blank cutset w :=
  ⟨fun h => by simpa [Function.comp_def] using h.reverse, reverse⟩

-- What is left after a blank text has been taken off the front is determined, unless more of it can be
-- taken off.
theorem tail_unique (code : IsCode cutset) (h₁ : Blank cutset w₁) (h₂ : Blank cutset w₂)
    (ht₁ : ∀ e ∈ cutset, ¬e <+: t₁) (ht₂ : ∀ e ∈ cutset, ¬e <+: t₂) (h : w₁ ++ t₁ = w₂ ++ t₂) :
    t₁ = t₂ := by
  induction h₁ generalizing w₂
  case nil =>
    cases h₂
    case nil => exact h
    case cons e₂ _ he₂ _ => exact absurd ⟨_, by simpa using h.symm⟩ (ht₁ e₂ he₂)
  case cons e₁ w₁ he₁ _ hi =>
    cases h₂
    case nil => exact absurd ⟨_, by simpa using h⟩ (ht₂ e₁ he₁)
    case cons e₂ w₂ he₂ h₂ =>
      simp only [List.append_assoc] at h
      have he : e₁ = e₂ := by
        have h₁ : e₁ <+: e₁ ++ (w₁ ++ t₁) := ⟨_, rfl⟩
        cases List.prefix_or_prefix_of_prefix h₁ ⟨_, h.symm⟩
        case inl hp => exact code.eq_of_prefix _ he₁ _ he₂ hp
        case inr hp => exact (code.eq_of_prefix _ he₂ _ he₁ hp).symm
      subst he
      exact hi h₂ (List.append_cancel_left h)

end Blank

namespace trimLeft

theorem go_spec (hn : [] ∉ cutset) {n : Nat} (h : s.length ≤ n) :
    ∃ w, Blank cutset w ∧ s = w ++ go cutset n s ∧ ∀ e ∈ cutset, ¬e <+: go cutset n s := by
  induction n generalizing s
  case zero =>
    refine ⟨[], .nil, by simp [go], fun e he hp => hn ?_⟩
    cases List.eq_nil_of_length_eq_zero (Nat.le_zero.mp h)
    cases List.prefix_nil.mp hp
    exact he
  case succ n hi =>
    cases hf : cutset.findSome? s.dropPrefix?
    case none =>
      have hg : go cutset (n + 1) s = s := by simp [go, hf]
      rw [hg]
      refine ⟨[], .nil, rfl, fun e he hp => ?_⟩
      have ⟨t, ht⟩ := hp
      have hd : s.dropPrefix? e = some t := List.dropPrefix?_eq_some_iff.mpr ⟨e, ht.symm, BEq.rfl⟩
      rw [List.findSome?_eq_none_iff.mp hf e he] at hd
      contradiction
    case some t =>
      have hg : go cutset (n + 1) s = go cutset n t := by simp [go, hf]
      have ⟨e, he, hd⟩ := List.exists_of_findSome?_eq_some hf
      have hs : s = e ++ t := by
        have ⟨e', hs, he'⟩ := List.dropPrefix?_eq_some_iff.mp hd
        rw [hs, eq_of_beq he']
      have hl : e ≠ [] := fun hl => hn (hl ▸ he)
      have hl := List.length_pos_iff.mpr hl
      have ⟨w, hw, ht, hp⟩ := hi (s := t) (by simp [hs] at h; omega)
      rw [hg]
      exact ⟨e ++ w, .cons he hw, by rw [List.append_assoc, ← ht, hs], hp⟩

end trimLeft

section Trim

variable (code : IsCode cutset)

include code

theorem trimLeft_spec (s : ByteString) :
    ∃ w, Blank cutset w ∧ s = w ++ trimLeft cutset s ∧ ∀ e ∈ cutset, ¬e <+: trimLeft cutset s :=
  trimLeft.go_spec code.ne_nil (Nat.le_refl _)

theorem trimLeft_append (h : Blank cutset w) (ht : ∀ e ∈ cutset, ¬e <+: t) :
    trimLeft cutset (w ++ t) = t := by
  have ⟨_, hw, hs, hp⟩ := trimLeft_spec code (w ++ t)
  exact (h.tail_unique code hw ht hp hs).symm

theorem trimLeft_blank_append (h : Blank cutset w) : trimLeft cutset (w ++ s) = trimLeft cutset s := by
  have ⟨u, hu, hs, hp⟩ := trimLeft_spec code s
  have := trimLeft_append code (h.append hu) hp
  rwa [List.append_assoc, ← hs] at this

theorem trimLeft_eq_self (ht : ∀ e ∈ cutset, ¬e <+: t) : trimLeft cutset t = t :=
  trimLeft_append code .nil ht

-- A byte that is in no element of the cutset stops the trimming.
theorem trimLeft_append_cons (hc : ∀ e ∈ cutset, c ∉ e) :
    trimLeft cutset (s ++ c :: t) = trimLeft cutset s ++ c :: t := by
  have ⟨w, hw, hs, hp⟩ := trimLeft_spec code s
  have ht : ∀ e ∈ cutset, ¬e <+: trimLeft cutset s ++ c :: t := by
    intro e he h
    cases prefix_append_elim h
    case inl h => exact hp e he h
    case inr h =>
      have ⟨b, r, hb, hr⟩ := h
      exact hc e he (by simp [hr, (List.cons_prefix_cons.mp hb).left])
  have := trimLeft_append code hw ht
  rwa [← List.append_assoc, ← hs] at this

end Trim

section TrimRight

variable (code : IsCode (cutset.map .reverse))

include code

theorem trimRight_spec (s : ByteString) :
    ∃ w, Blank cutset w ∧ s = trimRight cutset s ++ w ∧ ∀ e ∈ cutset, ¬e <:+ trimRight cutset s := by
  have ⟨w, hw, hs, hp⟩ := trimLeft_spec code s.reverse
  refine ⟨w.reverse, Blank.reverse_iff.mp (by simpa using hw), ?_, fun e he h => ?_⟩
  · simpa [trimRight] using congrArg List.reverse hs
  · exact hp e.reverse (List.mem_map_of_mem he) (by simpa [trimRight] using List.reverse_prefix.mpr h)

theorem trimRight_append (h : Blank cutset w) : trimRight cutset (s ++ w) = trimRight cutset s := by
  have ⟨u, hu, hs, hp⟩ := trimLeft_spec code s.reverse
  have := trimLeft_append code (h.reverse.append hu) hp
  rw [List.append_assoc, ← hs, ← List.reverse_append] at this
  rw [trimRight, this, trimRight]

theorem trimRight_append_cons (hc : ∀ e ∈ cutset, c ∉ e) :
    trimRight cutset (s ++ c :: t) = s ++ c :: trimRight cutset t := by
  have := trimLeft_append_cons code (s := t.reverse) (t := s.reverse) (c := c) fun e he =>
    have ⟨e', he', h⟩ := List.mem_map.mp he
    h ▸ by simpa using hc e' he'
  simp [trimRight, this]

theorem trimRight_eq_self (ht : ∀ e ∈ cutset, ¬e <:+ t) : trimRight cutset t = t := by
  have := trimLeft_eq_self code (t := t.reverse) fun e he =>
    have ⟨e', he', h⟩ := List.mem_map.mp he
    h ▸ by simpa using ht e' he'
  simp [trimRight, this]

end TrimRight

theorem isCode_spaces : IsCode spaces where
  ne_nil       := by decide
  eq_of_prefix := by decide

theorem isCode_reverse_spaces : IsCode (spaces.map .reverse) where
  ne_nil       := by decide
  eq_of_prefix := by decide

-- The first byte of a space does not occur further behind in a space.
theorem head_spaces : ∀ e ∈ spaces, ∀ e' ∈ spaces, ∀ c ∈ e.head?, c ∉ e'.tail := by
  -- A quantifier over a byte would be decided by going through all bytes.
  have h : ∀ e ∈ spaces, ∀ e' ∈ spaces, e.head?.all (· ∉ e'.tail) := by decide +kernel
  intro e he e' he' c hc
  have h := h e he e' he'
  rw [Option.mem_def.mp hc] at h
  simpa using h

-- No part of a text that is not blank makes a space together with what follows.
theorem not_prefix_append_of_blank (h : Blank spaces w) (hn : t ≠ []) (ht : ∀ e ∈ spaces, ¬e <+: t) :
    ∀ e ∈ spaces, ¬e <+: t ++ w := by
  cases h
  case nil => simpa using ht
  case cons e' w he' _ =>
    intro e he hp
    cases prefix_append_elim hp
    case inl hp => exact ht e he hp
    case inr hp =>
      have ⟨c, r, hc, hr⟩ := hp
      cases e'
      case nil => exact isCode_spaces.ne_nil he'
      case cons =>
        have ⟨b, t', ht'⟩ := List.exists_cons_of_ne_nil hn
        rw [List.cons_append, List.cons_prefix_cons] at hc
        refine head_spaces _ he' e he _ rfl ?_
        simp [hr, ht', hc.left]

theorem trimSpace_append (h : Blank spaces w) : trimSpace (s ++ w) = trimSpace s := by
  have ⟨u, hu, hs, hp⟩ := trimLeft_spec isCode_spaces s
  generalize trimLeft spaces s = t at hs hp
  subst hs
  cases t
  case nil =>
    have ht : ∀ e ∈ spaces, ¬e <+: [] := hp
    have h₁ := trimLeft_append isCode_spaces (hu.append h) ht
    have h₂ := trimLeft_append isCode_spaces hu ht
    simp only [List.append_nil] at h₁ h₂ ⊢
    rw [trimSpace, trimSpace, h₁, h₂]
  case cons c t =>
    have hw := not_prefix_append_of_blank h (by simp) hp
    rw [trimSpace, trimSpace, List.append_assoc, trimLeft_append isCode_spaces hu hw,
      trimLeft_append isCode_spaces hu hp, trimRight_append isCode_reverse_spaces h]

theorem trimSpace_blank_append (h : Blank spaces w) : trimSpace (w ++ s) = trimSpace s := by
  rw [trimSpace, trimLeft_blank_append isCode_spaces h, ← trimSpace]

theorem trimSpace_blank (h : Blank spaces w) : trimSpace w = [] :=
  trimSpace_append (s := []) h

theorem trimSpace_trimRight (s : ByteString) : trimSpace (trimRight spaces s) = trimSpace s := by
  have ⟨w, hw, hs, _⟩ := trimRight_spec isCode_reverse_spaces s
  nth_rw 2 [hs]
  exact (trimSpace_append hw).symm

theorem trimSpace_trimLeft (s : ByteString) : trimSpace (trimLeft spaces s) = trimSpace s := by
  have ⟨_, _, _, hp⟩ := trimLeft_spec isCode_spaces s
  rw [trimSpace, trimLeft_eq_self isCode_spaces hp, ← trimSpace]

-- A text with a byte in it that is not part of a space is trimmed at both sides of it.
theorem trimSpace_append_cons (hc : ∀ e ∈ spaces, c ∉ e) :
    trimSpace (s ++ c :: t) = trimLeft spaces s ++ c :: trimRight spaces t := by
  rw [trimSpace, trimLeft_append_cons isCode_spaces hc, trimRight_append_cons isCode_reverse_spaces hc]

theorem trimSpace_trimSpace (s : ByteString) : trimSpace (trimSpace s) = trimSpace s := by
  rw [show trimSpace s = trimRight spaces (trimLeft spaces s) from rfl, trimSpace_trimRight,
    trimSpace_trimLeft, trimSpace]

theorem trimSpace_eq_self (h : ∀ e ∈ spaces, ∀ c ∈ e, c ∉ s) : trimSpace s = s := by
  have hn {e : ByteString} (he : e ∈ spaces) (hs : e ⊆ s) : False := by
    have ⟨c, hc⟩ := List.exists_mem_of_ne_nil e fun hn => isCode_spaces.ne_nil (hn ▸ he)
    exact h e he c hc (hs hc)
  rw [trimSpace, trimLeft_eq_self isCode_spaces fun e he h => hn he h.subset]
  exact trimRight_eq_self isCode_reverse_spaces fun e he h => hn he h.subset

end ByteString
