import VpnTunnel.Lib.Queues

namespace List

variable {α : Type*} [DecidableEq α] {l : List α} {a : α}

theorem eraseDups_filter (p : α → Bool) (l : List α) : (l.filter p).eraseDups = l.eraseDups.filter p := by
  -- The recursion of `eraseDups` is on the length of the list.
  induction hn : l.length using Nat.strong_induction_on generalizing l
  case h n hi =>
    cases l
    case nil => rfl
    case cons a l =>
      have hl : (l.filter fun b => !b == a).length < n := by
        have := length_filter_le (fun b => !b == a) l
        simp only [length_cons] at hn
        omega
      have hf := hi _ hl _ rfl
      rw [eraseDups_cons]
      cases hp : p a
      case true =>
        rw [filter_cons_of_pos hp, eraseDups_cons, filter_cons_of_pos hp, ← hf, filter_filter,
          filter_filter]
        simp only [Bool.and_comm]
      case false =>
        rw [filter_cons_of_neg (by simp [hp]), filter_cons_of_neg (by simp [hp]), ← hf, filter_filter]
        congr 1
        refine filter_congr fun b _ => ?_
        by_cases hb : b = a <;> simp [hb, hp]

theorem nodup_eraseDups (l : List α) : l.eraseDups.Nodup := by
  induction hn : l.length using Nat.strong_induction_on generalizing l
  case h n hi =>
    cases l
    case nil => exact nodup_nil
    case cons a l =>
      rw [eraseDups_cons, nodup_cons]
      refine ⟨by simp [mem_eraseDups], hi _ ?_ _ rfl⟩
      have := length_filter_le (fun b => !b == a) l
      simp only [length_cons] at hn
      omega

theorem eraseDups_erase : l.eraseDups.erase a = (l.filter (· ≠ a)).eraseDups := by
  rw [(nodup_eraseDups l).erase_eq_filter, eraseDups_filter]
  exact filter_congr fun b _ => by by_cases hb : b = a <;> simp [hb]

theorem eraseDups_snoc : (l ++ [a]).eraseDups = if a ∈ l then l.eraseDups else l.eraseDups ++ [a] := by
  rw [eraseDups_append]
  split <;> simp_all [removeAll, eraseDups_cons]

theorem Sublist.filter_mem {l₁ l₂ : List α} (h : l₁.Sublist l₂) (hn : l₂.Nodup) :
    l₂.filter (· ∈ l₁) = l₁ := by
  induction h
  case slnil => rfl
  case cons l₁ l₂ a h hi =>
    have ⟨ha, hn⟩ := nodup_cons.mp hn
    rw [filter_cons_of_neg (by simpa using fun hm => ha (h.subset hm)), hi hn]
  case cons_cons l₁ l₂ a h hi =>
    have ⟨ha, hn⟩ := nodup_cons.mp hn
    rw [filter_cons_of_pos (by simp)]
    congr 1
    refine (filter_congr fun b hb => ?_).trans (hi hn)
    have : b ≠ a := fun hba => ha (hba ▸ hb)
    simp [this]

end List

-- A map of queues and a list of its keys, which together stand for one list of elements: `l` holds them
-- in the order in which they were added, and `order` holds the keys in the order in which the first
-- element that is left of each key was added.
structure Backlog {κ α : Type*} [DecidableEq κ] (key : α → κ) (l : List α) (qs : Queues κ α)
    (order : List κ) : Prop where
  queued : ∀ k, qs.queued k = l.filter (key · = k)
  mem    : ∀ k, k ∈ qs ↔ ∃ a ∈ l, key a = k
  order  : order = (l.map key).eraseDups

namespace Backlog

variable {κ α : Type*} [DecidableEq κ] {key : α → κ} {l : List α} {qs : Queues κ α} {order : List κ}
  {a : α} {k : κ}

theorem nil : Backlog key [] ∅ [] where
  queued := by simp
  mem    := by simp
  order  := rfl

theorem push (b : Backlog key l qs order) (a : α) :
    Backlog key (l ++ [a]) (qs.insert (key a) (qs.queued (key a) ++ [a]))
      (if key a ∈ qs then order else order ++ [key a]) where
  queued k := by
    by_cases hk : k = key a
    case pos => subst hk; simp [b.queued]
    case neg => simp [Queues.queued_insert_ne hk, b.queued, Ne.symm hk]
  mem k := by simp [b.mem, or_comm, eq_comm]
  order := by
    rw [List.map_append, List.map_singleton, List.eraseDups_snoc, b.order]
    simp only [b.mem, List.mem_map]

theorem take (b : Backlog key l qs order) (k : κ) :
    Backlog key (l.filter (key · ≠ k)) (qs.erase k) (order.erase k) where
  queued k' := by
    by_cases hk : k' = k
    case pos =>
      subst hk
      rw [Queues.queued_erase, List.filter_filter, eq_comm, List.filter_eq_nil_iff]
      simp
    case neg =>
      rw [Queues.queued_erase_ne hk, b.queued, List.filter_filter]
      refine List.filter_congr fun x _ => ?_
      by_cases hx : key x = k' <;> simp [hx, hk]
  mem k' := by
    rw [AList.mem_erase, b.mem]
    constructor
    · intro ⟨hn, x, hx, hk⟩
      exact ⟨x, by simp [hx, hk, hn], hk⟩
    · intro ⟨x, hx, hk⟩
      have ⟨hx, hn⟩ := List.mem_filter.mp hx
      exact ⟨by simpa [hk] using hn, x, hx, hk⟩
  order := by
    rw [b.order, List.eraseDups_erase]
    congr 1
    simp [List.filter_map, Function.comp_def]

variable (b : Backlog key l qs order)

include b

theorem nodup : order.Nodup :=
  b.order ▸ List.nodup_eraseDups _

theorem queued_ne_nil : qs.queued k ≠ [] ↔ ∃ a ∈ l, key a = k := by
  simp [b.queued]

theorem mem_order : k ∈ order ↔ qs.queued k ≠ [] := by
  rw [b.queued_ne_nil, b.order, List.mem_eraseDups, List.mem_map]

theorem mem_queued : a ∈ qs.queued (key a) ↔ a ∈ l := by
  simp [b.queued]

theorem eq_nil_iff : l = [] ↔ ∀ k, qs.queued k = [] := by
  constructor
  · intro hl k
    simp [b.queued, hl]
  · intro hq
    refine List.eq_nil_iff_forall_not_mem.mpr fun a ha => ?_
    simp [← b.mem_queued, hq] at ha

-- There is nothing to compact.
theorem order_filter : (order.filter fun k => 0 < (qs.queued k).length) = order := by
  refine List.filter_eq_self.mpr fun k hk => ?_
  simpa [List.length_pos_iff] using b.mem_order.mp hk

-- The first key is that of the oldest element.
theorem order_head? : order.head? = l.head?.map key := by
  cases l <;> simp [b.order, List.eraseDups_cons]

-- New keys queue up behind the old ones.
theorem idxOf_push (ha : a ∈ l) (a' : α) :
    (if key a' ∈ qs then order else order ++ [key a']).idxOf (key a) = order.idxOf (key a) := by
  split
  case isTrue  => rfl
  case isFalse => exact List.idxOf_append_of_mem <| b.mem_order.mpr <| b.queued_ne_nil.mpr ⟨a, ha, rfl⟩

-- When the oldest key is taken, all others move up.
theorem idxOf_take {k' : κ} (hk : k ≠ k') (hh : l.head?.map key = some k') :
    (order.erase k').idxOf k + 1 = order.idxOf k := by
  rw [← b.order_head?, List.head?_eq_some_iff] at hh
  have ⟨order', hh⟩ := hh
  rw [hh, List.erase_cons_head, List.idxOf_cons_ne _ hk.symm]

end Backlog
