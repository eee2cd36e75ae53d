import VpnTunnel.Lib.Regexp.Basic

namespace Regexp

-- Every match takes at least one character.
def consuming : Regexp α → Bool
  | cls _   => true
  | seq a b => a.consuming || b.consuming
  | alt a b => a.consuming && b.consuming
  | _       => false

structure Pattern (α : Type) where
  expr      : Regexp α
  consuming : expr.consuming

-- The text is replaced from a position on, except for characters that belong to the last match.
def replaceFrom (e : Pattern α) (f : List α → List α) : Nat → List α → List α → List α
  | _,     _, []     => []
  | n + 1, l, c :: s => replaceFrom e f n (c :: l) s
  | 0,     l, c :: s =>
    match (e.expr.ends (l, c :: s)).head? with
    | none   => c :: replaceFrom e f 0 (c :: l) s
    | some y => f ((c :: s).take (s.length + 1 - y.2.length)) ++ replaceFrom e f (s.length - y.2.length) (c :: l) s

-- The matches are searched from left to right, and none of them overlap.
def replaceAll (e : Pattern α) (f : List α → List α) (s : List α) : List α :=
  replaceFrom e f 0 [] s

-- The same as a relation.
inductive Replaces (e : Pattern α) (f : List α → List α) : (l s out : List α) → Prop
  | nil {l} : Replaces e f l [] []
  | keep {l c s out} :
      (∀ w r, c :: s = w ++ r → ¬e.expr.Matches l w r) → Replaces e f (c :: l) s out →
      Replaces e f l (c :: s) (c :: out)
  | replace {l w r out} :
      e.expr.First l w r → Replaces e f (w.reverse ++ l) r out → Replaces e f l (w ++ r) (f w ++ out)

-- There is no match at any position of a text.
def Free (e : Regexp α) (l s : List α) : Prop :=
  ∀ x w r, s = x ++ w ++ r → ¬e.Matches (x.reverse ++ l) w r

variable {a b : Regexp α} {e : Pattern α} {f : List α → List α} {c : α} {l s w r out : List α}

theorem Matches.ne_nil (h : a.Matches l w r) (hc : a.consuming) : w ≠ [] := by
  induction h
  case cls => simp
  case seq ha hb =>
    cases (Bool.or_eq_true _ _).mp hc
    case inl hc => simp [ha hc]
    case inr hc => simp [hb hc]
  case left h => exact h ((Bool.and_eq_true _ _).mp hc).1
  case right h => exact h ((Bool.and_eq_true _ _).mp hc).2
  all_goals contradiction

theorem replaceFrom_append : replaceFrom e f w.length l (w ++ r) = replaceFrom e f 0 (w.reverse ++ l) r := by
  induction w generalizing l
  case nil => rfl
  case cons c w hi => simp [replaceFrom, hi]

theorem First.replaceFrom (h : e.expr.First l w r) :
    replaceFrom e f 0 l (w ++ r) = f w ++ replaceFrom e f 0 (w.reverse ++ l) r := by
  cases w
  case nil => exact absurd rfl (h.matches.ne_nil e.consuming)
  case cons c w =>
    have hn : w.length + r.length + 1 - r.length = w.length + 1 := by omega
    rw [First, List.cons_append] at h
    simp [replaceFrom, h, hn, replaceFrom_append]

theorem replaces_replaceFrom : Replaces e f l s (replaceFrom e f 0 l s) := by
  induction h : s.length using Nat.strong_induction_on generalizing l s
  case h n hi =>
    cases s
    case nil =>
      rw [replaceFrom]
      exact .nil
    case cons c s =>
      cases hy : (e.expr.ends (l, c :: s)).head?
      case none =>
        rw [replaceFrom, hy]
        refine .keep (fun w r hs hm => ?_) (hi s.length (by simp [← h]) rfl)
        have hm : (w.reverse ++ l, r) ∈ e.expr.ends (l, c :: s) := mem_ends_iff.mpr ⟨w, hs, rfl, hm⟩
        simp [List.head?_eq_none_iff.mp hy] at hm
      case some y =>
        have ⟨w, hs, hl, hm⟩ := mem_ends_iff.mp (List.mem_of_mem_head? hy)
        have hf : e.expr.First l w y.2 := by
          rw [First, ← hs, hy]
          exact congrArg some (Prod.ext hl rfl)
        change c :: s = w ++ y.2 at hs
        have hw := List.length_pos_iff.mpr (hm.ne_nil e.consuming)
        rw [hs] at h ⊢
        rw [hf.replaceFrom]
        exact .replace hf (hi y.2.length (by simp [← h]; omega) rfl)

theorem replaces_replaceAll : Replaces e f [] s (replaceAll e f s) :=
  replaces_replaceFrom

theorem Free.tail (h : Free a l (w ++ s)) : Free a (w.reverse ++ l) s := by
  intro x w' r hs
  simpa using h (w ++ x) w' r (by simp [hs])

-- Nothing is done to a text without matches.
theorem Replaces.eq_self (h : Replaces e f l s out) (hf : Free e.expr l s) : out = s := by
  induction h
  case nil => rfl
  case keep c s out _ _ hi => rw [hi (hf.tail (w := [c]))]
  case replace w r out hw _ _ => exact absurd hw.matches (hf [] w r rfl)

end Regexp
