import Mathlib.Algebra.Order.BigOperators.Group.List
import Mathlib.Algebra.Order.Group.Multiset
import Mathlib.Algebra.Order.Ring.Nat
import Mathlib.Data.List.AList

-- A map from keys to queues. Reading a key without a queue yields the empty queue.
abbrev Queues (κ α : Type*) :=
  AList fun _ : κ => List α

namespace Queues

variable {κ α : Type*} {qs : Queues κ α} {k k₁ k₂ : κ} {l : List α} {a : α}

-- The elements of all queues. The order in which the queues are visited is not observable.
def all (qs : Queues κ α) : Multiset α :=
  (qs.entries.flatMap (·.2) : List α)

@[simp]
theorem all_empty : all (∅ : Queues κ α) = 0 := by
  simp [all]

variable [DecidableEq κ]

def queued (qs : Queues κ α) (k : κ) : List α :=
  qs.lookup k |>.getD []

@[simp]
theorem queued_empty : queued (∅ : Queues κ α) k = [] := by
  simp [queued]

@[simp]
theorem queued_insert : queued (qs.insert k l) k = l := by
  simp [queued]

theorem queued_insert_ne (h : k₁ ≠ k₂) : queued (qs.insert k₂ l) k₁ = qs.queued k₁ := by
  simp [queued, AList.lookup_insert_ne h]

@[simp]
theorem queued_erase : queued (qs.erase k) k = [] := by
  simp [queued]

theorem queued_erase_ne (h : k₁ ≠ k₂) : queued (qs.erase k₂) k₁ = qs.queued k₁ := by
  simp [queued, AList.lookup_erase_ne h]

theorem queued_eq_nil (h : k ∉ qs) : qs.queued k = [] := by
  simp [queued, AList.lookup_eq_none.mpr h]

-- Removing a queue removes exactly its elements.
theorem all_eq_erase_add : qs.all = all (qs.erase k) + qs.queued k := by
  by_cases h : k ∈ qs
  case neg =>
    have he : (qs.erase k).entries = qs.entries := List.kerase_of_notMem_keys h
    simp [all, he, queued_eq_nil h]
  case pos =>
    have ⟨b, l₁, l₂, _, he, hk⟩ := List.exists_of_kerase (AList.mem_keys.mp h)
    have hl : qs.lookup k = some b := AList.mem_lookup_iff.mpr (he ▸ by simp)
    have hk : (qs.erase k).entries = l₁ ++ l₂ := hk
    simp only [all, queued, hl, hk, he, Option.getD_some, List.flatMap_append, List.flatMap_cons,
      Multiset.coe_add, Multiset.coe_eq_coe]
    rw [List.append_assoc]
    exact (List.perm_append_comm).append_left _

theorem all_insert : all (qs.insert k l) = all (qs.erase k) + l := by
  have h : (qs.insert k l).entries = ⟨k, l⟩ :: (qs.erase k).entries := rfl
  simp only [all, h, List.flatMap_cons, Multiset.coe_add, Multiset.coe_eq_coe]
  exact List.perm_append_comm

theorem all_enqueue : all (qs.insert k (qs.queued k ++ [a])) = a ::ₘ qs.all := by
  rw [all_insert, @all_eq_erase_add _ _ qs k, ← Multiset.coe_add, ← add_assoc,
    Multiset.coe_singleton, add_comm, Multiset.singleton_add]

theorem mem_all : a ∈ qs.all ↔ ∃ k, a ∈ qs.queued k := by
  simp only [all, Multiset.mem_coe, List.mem_flatMap, queued]
  constructor
  · intro ⟨e, he, ha⟩
    have hl : qs.lookup e.1 = some e.2 := AList.mem_lookup_iff.mpr he
    exact ⟨e.1, by simpa [hl] using ha⟩
  · intro ⟨k, ha⟩
    cases hl : qs.lookup k <;> simp only [hl, Option.getD_none, Option.getD_some] at ha
    case none   => simp at ha
    case some l => exact ⟨⟨k, l⟩, AList.mem_lookup_iff.mp hl, ha⟩

theorem count_all [DecidableEq α] (h : ∀ k₁, a ∈ qs.queued k₁ → k₁ = k) :
    qs.all.count a = (qs.queued k).count a := by
  have hn : a ∉ all (qs.erase k) := by
    intro ha
    have ⟨k₁, ha⟩ := mem_all.mp ha
    by_cases hk : k₁ = k
    case pos => simp [hk] at ha
    case neg => exact hk <| h k₁ (queued_erase_ne hk ▸ ha)
  rw [all_eq_erase_add (k := k), Multiset.count_add, Multiset.count_eq_zero.mpr hn, Nat.zero_add,
    Multiset.coe_count]

end Queues
