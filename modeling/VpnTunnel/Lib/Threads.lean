import Mathlib.Algebra.BigOperators.Group.List.Basic
import Mathlib.Algebra.Order.Ring.Nat

-- The threads of a system are a list of their local states, and a thread is identified by its index.
-- A step updates one of them, and a new thread is added at the end.

namespace List

variable {α : Type*} {l : List α} {i j : Nat} {a : α} {f : α → Nat} {g : α → α}

theorem getElem?_modify_eq_some :
    (l.modify i g)[j]? = some a ↔
      (i = j ∧ ∃ b, l[j]? = some b ∧ g b = a) ∨ (i ≠ j ∧ l[j]? = some a) := by
  by_cases h : i = j <;> simp [h]

theorem mem_or_exists_of_mem_modify (h : a ∈ l.modify i g) : a ∈ l ∨ ∃ b, l[i]? = some b ∧ g b = a := by
  have ⟨j, hj⟩ := getElem?_of_mem h
  cases getElem?_modify_eq_some.mp hj
  case inl h => exact .inr <| h.left ▸ h.right
  case inr h => exact .inl <| mem_of_getElem? h.right

theorem eq_or_mem_of_mem_modify {b : α} (h : a ∈ l.modify i fun _ => b) : a = b ∨ a ∈ l := by
  cases mem_or_exists_of_mem_modify h
  case inl h => exact .inr h
  case inr h =>
    have ⟨_, _, h⟩ := h
    exact .inl h.symm

theorem mem_modify_self {b : α} (h : l[i]? = some a) : b ∈ l.modify i fun _ => b :=
  mem_of_getElem? (i := i) <| getElem?_modify_eq_some.mpr <| .inl ⟨rfl, a, h, rfl⟩

theorem mem_modify_of_ne {b c : α} (h : l[i]? = some a) (hb : b ∈ l) (hn : b ≠ a) :
    b ∈ l.modify i fun _ => c := by
  have ⟨j, hj⟩ := getElem?_of_mem hb
  refine mem_of_getElem? (i := j) <| getElem?_modify_eq_some.mpr <| .inr ⟨?_, hj⟩
  rintro rfl
  exact hn <| Option.some.inj <| hj.symm.trans h

theorem map_modify_const {β : Type*} {f : α → β} {b : α} :
    (l.modify i fun _ => b).map f = (l.map f).modify i fun _ => f b := by
  apply ext_getElem?
  intro j
  by_cases h : i = j
  case pos =>
    simp only [getElem?_map, h, getElem?_modify_eq, Option.map_eq_map, Option.map_map]
    rfl
  case neg => simp [h]

theorem modify_const_self (h : l[i]? = some a) : (l.modify i fun _ => a) = l := by
  apply ext_getElem?
  intro j
  by_cases hj : i = j
  case pos => simp [← hj, h]
  case neg => simp [hj]

theorem getElem?_snoc_eq_some {b : α} :
    (l ++ [b])[i]? = some a ↔ l[i]? = some a ∨ (i = l.length ∧ b = a) := by
  rw [getElem?_append]
  split
  case isTrue h  => simp [Nat.ne_of_lt h]
  case isFalse h =>
    have : i - l.length = 0 ↔ i = l.length := by omega
    simp [getElem?_singleton, this, getElem?_eq_none (Nat.le_of_not_lt h)]

theorem getElem?_snoc_of_ne {b : α} (h : i ≠ l.length) : (l ++ [b])[i]? = l[i]? := by
  cases Nat.lt_or_gt_of_ne h
  case inl h => exact getElem?_append_left h
  case inr h => rw [getElem?_eq_none (by simp; omega), getElem?_eq_none (Nat.le_of_lt h)]

-- What updating one element does to a sum over the list.
theorem sum_map_modify (h : l[i]? = some a) :
    ((l.modify i g).map f).sum + f a = (l.map f).sum + f (g a) := by
  induction l generalizing i
  case nil => simp at h
  case cons b l hi =>
    cases i
    case zero =>
      cases Option.some.inj h
      simp only [modify_zero_cons, map_cons, sum_cons]
      omega
    case succ i =>
      have := hi (i := i) (by simpa using h)
      simp only [modify_succ_cons, map_cons, sum_cons]
      omega

theorem countP_modify {q : α → Bool} (h : l[i]? = some a) :
    (l.modify i g).countP q + (q a).toNat = l.countP q + (q (g a)).toNat := by
  induction l generalizing i
  case nil => simp at h
  case cons b l hi =>
    cases i
    case zero =>
      cases Option.some.inj h
      cases h₁ : q a <;> cases h₂ : q (g a) <;> simp [h₁, h₂]
    case succ i =>
      have := hi (i := i) (by simpa using h)
      simp only [modify_succ_cons, countP_cons]
      omega

end List
