import Mathlib.Data.List.AList
import Mathlib.Data.List.Induction
import Mathlib.Data.List.Nodup

namespace AList

variable {κ α β γ : Type*} [DecidableEq κ] {m : AList fun _ : κ => α} {k : κ} {a : α}

def mapVal (f : α → β) (m : AList fun _ : κ => α) : AList fun _ : κ => β where
  entries   := m.entries.map fun e => ⟨e.1, f e.2⟩
  nodupKeys := by
    rw [List.NodupKeys, List.keys, List.map_map]
    exact m.nodupKeys

def filterKeys (p : κ → Bool) (m : AList fun _ : κ => α) : AList fun _ : κ => α where
  entries   := m.entries.filter (p ·.1)
  nodupKeys := m.nodupKeys.sublist List.filter_sublist

theorem lookup_eq_some_iff : m.lookup k = some a ↔ ⟨k, a⟩ ∈ m.entries :=
  mem_lookup_iff

@[simp]
theorem lookup_mapVal (f : α → β) : (m.mapVal f).lookup k = (m.lookup k).map f := by
  ext b
  simp [lookup_eq_some_iff, mapVal, Sigma.ext_iff]

@[simp]
theorem lookup_filterKeys (p : κ → Bool) :
    (m.filterKeys p).lookup k = if p k then m.lookup k else none := by
  ext b
  cases hp : p k <;> simp [lookup_eq_some_iff, filterKeys, hp]

-- The lists of the elements that belong to a key, in their order.
def groupBy (key : β → κ) (val : β → γ) (l : List β) : AList fun _ : κ => List γ :=
  l.foldl (fun m b => m.insert (key b) ((m.lookup (key b)).getD [] ++ [val b])) ∅

variable {key : β → κ} {val : β → γ} {l : List β}

theorem groupBy_snoc {b : β} : groupBy key val (l ++ [b]) =
    (groupBy key val l).insert (key b) (((groupBy key val l).lookup (key b)).getD [] ++ [val b]) := by
  simp [groupBy]

theorem lookup_groupBy : (groupBy key val l).lookup k =
    if ∃ b ∈ l, key b = k then some ((l.filter (key · = k)).map val) else none := by
  induction l using List.reverseRecOn
  case nil => rfl
  case append_singleton l b hi =>
    rw [groupBy_snoc]
    by_cases hk : k = key b
    case pos =>
      subst hk
      rw [lookup_insert, hi]
      split
      case isTrue => simp
      case isFalse hn =>
        have hl : l.filter (key · = key b) = [] := by
          simpa [List.filter_eq_nil_iff] using fun c hc he => hn ⟨c, hc, he⟩
        simp [hl]
    case neg => simp [lookup_insert_ne hk, hi, Ne.symm hk, List.filter_append]

end AList
