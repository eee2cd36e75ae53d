import Mathlib.Data.List.Basic

inductive Ledger.Entry (ρ : Type*)
  | opened (r : ρ)
  | closed (r : ρ)
  deriving DecidableEq, Repr

-- What happened to the resources of one kind and when, newest entry first. The state of affairs at an
-- earlier moment is therefore a suffix of the ledger.
abbrev Ledger (ρ : Type*) :=
  List (Nat × Ledger.Entry ρ)

namespace Ledger

open Entry

variable {ρ : Type*} {l l₁ l₂ : Ledger ρ} {r r₁ r₂ : ρ} {cur : Option ρ} {t t₁ t₂ gap : Nat}

def WasOpened (l : Ledger ρ) (r : ρ) : Prop :=
  ∃ t, (t, opened r) ∈ l

def WasClosed (l : Ledger ρ) (r : ρ) : Prop :=
  ∃ t, (t, closed r) ∈ l

def IsOpen (l : Ledger ρ) (r : ρ) : Prop :=
  l.WasOpened r ∧ ¬l.WasClosed r

instance [DecidableEq ρ] : Decidable (l.WasOpened r) :=
  decidable_of_iff (∃ e ∈ l, e.2 = opened r) (by simp [WasOpened])

instance [DecidableEq ρ] : Decidable (l.WasClosed r) :=
  decidable_of_iff (∃ e ∈ l, e.2 = closed r) (by simp [WasClosed])

instance [DecidableEq ρ] : Decidable (l.IsOpen r) :=
  inferInstanceAs (Decidable (_ ∧ _))

def openings [DecidableEq ρ] (l : Ledger ρ) (r : ρ) : Nat :=
  l.countP (·.2 = opened r)

def closings [DecidableEq ρ] (l : Ledger ρ) (r : ρ) : Nat :=
  l.countP (·.2 = closed r)

@[simp]
theorem not_wasOpened_nil : ¬WasOpened ([] : Ledger ρ) r := by
  simp [WasOpened]

@[simp]
theorem not_wasClosed_nil : ¬WasClosed ([] : Ledger ρ) r := by
  simp [WasClosed]

@[simp]
theorem wasOpened_cons_opened : WasOpened ((t, opened r₁) :: l) r ↔ r = r₁ ∨ l.WasOpened r := by
  simp [WasOpened, exists_or]

@[simp]
theorem wasOpened_cons_closed : WasOpened ((t, closed r₁) :: l) r ↔ l.WasOpened r := by
  simp [WasOpened]

@[simp]
theorem wasClosed_cons_opened : WasClosed ((t, opened r₁) :: l) r ↔ l.WasClosed r := by
  simp [WasClosed]

@[simp]
theorem wasClosed_cons_closed : WasClosed ((t, closed r₁) :: l) r ↔ r = r₁ ∨ l.WasClosed r := by
  simp [WasClosed, exists_or]

theorem closings_eq_zero [DecidableEq ρ] (h : ¬l.WasClosed r) : l.closings r = 0 := by
  simp only [closings, List.countP_eq_zero, decide_eq_true_eq]
  intro ⟨t, e⟩ hm he
  exact h ⟨t, he ▸ hm⟩

theorem openings_eq_zero [DecidableEq ρ] (h : ¬l.WasOpened r) : l.openings r = 0 := by
  simp only [openings, List.countP_eq_zero, decide_eq_true_eq]
  intro ⟨t, e⟩ hm he
  exact h ⟨t, he ▸ hm⟩

-- The discipline of an owner that holds one resource at a time: a resource is opened while none is
-- held, at least `gap` after all that was closed before, and only the held one is closed.
inductive Exclusive (gap : Nat) : Ledger ρ → Option ρ → Prop
  | nil : Exclusive gap [] none
  | opened {l : Ledger ρ} {r : ρ} {t : Nat} : Exclusive gap l none → ¬l.WasOpened r →
      (∀ t' r', (t', closed r') ∈ l → t' + gap ≤ t) → Exclusive gap ((t, opened r) :: l) (some r)
  | closed {l : Ledger ρ} {r : ρ} {t : Nat} :
      Exclusive gap l (some r) → Exclusive gap ((t, closed r) :: l) none

namespace Exclusive

theorem wasOpened_of_wasClosed (e : Exclusive gap l cur) (h : l.WasClosed r) : l.WasOpened r := by
  induction e generalizing r
  case nil => simp at h
  case opened hi => exact wasOpened_cons_opened.mpr <| .inr <| hi <| wasClosed_cons_opened.mp h
  case closed e hi =>
    cases wasClosed_cons_closed.mp h
    case inl h =>
      subst h
      cases e
      simp
    case inr h => exact wasOpened_cons_closed.mpr <| hi h

theorem isOpen_iff (e : Exclusive gap l cur) : l.IsOpen r ↔ cur = some r := by
  induction e generalizing r
  case nil => simp [IsOpen]
  case opened l r' t e hn _ hi =>
    have hc : ¬l.WasClosed r' := mt e.wasOpened_of_wasClosed hn
    have hi : l.WasOpened r → l.WasClosed r := by simpa [IsOpen] using hi (r := r)
    simp only [IsOpen, wasOpened_cons_opened, wasClosed_cons_opened, Option.some.injEq]
    constructor
    · intro ⟨h₁, h₂⟩
      cases h₁
      case inl h => exact h.symm
      case inr h => exact absurd (hi h) h₂
    · intro h
      subst h
      exact ⟨.inl rfl, hc⟩
  case closed l r' t e hi =>
    have hi : l.WasOpened r ∧ ¬l.WasClosed r ↔ r' = r := by simpa [IsOpen] using hi (r := r)
    simp only [IsOpen, wasOpened_cons_closed, wasClosed_cons_closed, reduceCtorEq, iff_false,
      not_and, not_not]
    intro h
    by_cases hc : l.WasClosed r
    case pos => exact .inr hc
    case neg => exact .inl (hi.mp ⟨h, hc⟩).symm

theorem suffix (e : Exclusive gap (l₁ ++ l₂) cur) : ∃ cur', Exclusive gap l₂ cur' := by
  induction l₁ generalizing cur
  case nil => exact ⟨cur, e⟩
  case cons hi =>
    cases e
    case opened e _ _ => exact hi e
    case closed e => exact hi e

-- At no moment are two resources open.
theorem open_unique (e : Exclusive gap (l₁ ++ l₂) cur) (h₁ : l₂.IsOpen r₁) (h₂ : l₂.IsOpen r₂) :
    r₁ = r₂ := by
  have ⟨_, e⟩ := e.suffix
  exact Option.some.inj <| (e.isOpen_iff.mp h₁).symm.trans (e.isOpen_iff.mp h₂)

theorem gap_le (e : Exclusive gap (l₁ ++ (t₂, .opened r₂) :: l₂) cur) (h : (t₁, .closed r₁) ∈ l₂) :
    t₁ + gap ≤ t₂ := by
  have ⟨_, e⟩ := e.suffix
  cases e
  case opened hg _ => exact hg _ _ h

variable [DecidableEq ρ]

theorem closings_of_isOpen (e : Exclusive gap l (some r)) : l.closings r = 0 :=
  closings_eq_zero (e.isOpen_iff.mpr rfl).right

theorem openings_eq_one (e : Exclusive gap l cur) (h : l.WasOpened r) : l.openings r = 1 := by
  induction e generalizing r
  case nil => simp at h
  case opened l r' t _ hn _ hi =>
    by_cases hr : r' = r
    case pos =>
      subst hr
      have h := openings_eq_zero hn
      simp only [openings] at h ⊢
      simp [h]
    case neg =>
      have := hi <| (wasOpened_cons_opened.mp h).resolve_left (Ne.symm hr)
      simp_all [openings]
  case closed hi =>
    have := hi <| wasOpened_cons_closed.mp h
    simp_all [openings]

-- What is not held anymore has been closed exactly once.
theorem closings_eq_one (e : Exclusive gap l cur) (h : l.WasOpened r) (hc : cur ≠ some r) :
    l.closings r = 1 := by
  induction e generalizing r
  case nil => simp at h
  case opened l r' t _ hn _ hi =>
    have hr : r ≠ r' := fun hr => hc (hr ▸ rfl)
    have := hi ((wasOpened_cons_opened.mp h).resolve_left hr) (by simp)
    simp_all [closings]
  case closed l r' t e hi =>
    by_cases hr : r' = r
    case pos =>
      subst hr
      have h := e.closings_of_isOpen
      simp only [closings] at h ⊢
      simp [h]
    case neg =>
      have := hi (wasOpened_cons_closed.mp h) (by simpa using hr)
      simp_all [closings]

end Exclusive
end Ledger
