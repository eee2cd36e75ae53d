import Mathlib.Data.List.Basic
import Mathlib.Data.List.Infix

-- The positions in a text, with what is to the left in reverse order.
abbrev Regexp.Pos (α : Type) :=
  List α × List α

-- Expressions over some characters, with assertions about the text to both sides of a position.
inductive Regexp (α : Type)
  | empty
  | cls (p : α → Bool)
  | assert (q : Regexp.Pos α → Bool)
  | seq (a b : Regexp α)
  | alt (a b : Regexp α)
  | star (a : Regexp α)

namespace Regexp

def plus (a : Regexp α) : Regexp α :=
  seq a (star a)

-- An optional part is rather there than not.
def opt (a : Regexp α) : Regexp α :=
  alt a empty

def times (a : Regexp α) : Nat → Regexp α
  | 0     => empty
  | n + 1 => seq a (a.times n)

def upTo (a : Regexp α) : Nat → Regexp α
  | 0     => empty
  | n + 1 => opt (seq a (a.upTo n))

def lit [BEq α] : List α → Regexp α
  | []     => empty
  | c :: s => seq (cls (· == c)) (lit s)

def start : Regexp α :=
  assert (·.1.isEmpty)

-- Whether there is a character of a word at the start of a text.
def wordAt (word : α → Bool) (s : List α) : Bool :=
  s.head?.any word

def boundary (word : α → Bool) : Regexp α :=
  assert fun x => wordAt word x.1 != wordAt word x.2

-- A step that does not get further is not repeated.
def iterate (f : Pos α → List (Pos α)) : Nat → Pos α → List (Pos α)
  | 0,     x => [x]
  | n + 1, x => ((f x).filter (·.2.length < x.2.length)).flatMap (iterate f n) ++ [x]

-- Where the matches that start at a position end, in the order in which they are preferred.
def ends : Regexp α → Pos α → List (Pos α)
  | empty,    x           => [x]
  | cls _,    (_, [])     => []
  | cls p,    (l, c :: s) => if p c then [(c :: l, s)] else []
  | assert q, x           => if q x then [x] else []
  | seq a b,  x           => (a.ends x).flatMap b.ends
  | alt a b,  x           => a.ends x ++ b.ends x
  | star a,   x           => iterate a.ends x.2.length x

-- What it means that an expression matches `w`, with `l` to the left in reverse order and `r` to the right.
inductive Matches : Regexp α → (l w r : List α) → Prop
  | empty {l r} : Matches empty l [] r
  | cls {p c l r} : (p c) → Matches (cls p) l [c] r
  | assert {q l r} : (q (l, r)) → Matches (assert q) l [] r
  | seq {a b l u v r} : Matches a l u (v ++ r) → Matches b (u.reverse ++ l) v r → Matches (seq a b) l (u ++ v) r
  | left {a b l w r} : Matches a l w r → Matches (alt a b) l w r
  | right {a b l w r} : Matches b l w r → Matches (alt a b) l w r
  | done {a l r} : Matches (star a) l [] r
  | more {a l u v r} :
      (u ≠ []) → Matches a l u (v ++ r) → Matches (star a) (u.reverse ++ l) v r → Matches (star a) l (u ++ v) r

-- A match leads from one position to another one.
def Leads (e : Regexp α) (x y : Pos α) : Prop :=
  ∃ w, x.2 = w ++ y.2 ∧ y.1 = w.reverse ++ x.1 ∧ e.Matches x.1 w y.2

-- The match that is preferred.
def First (e : Regexp α) (l w r : List α) : Prop :=
  (e.ends (l, w ++ r)).head? = some (w.reverse ++ l, r)

variable {a b e : Regexp α} {p : α → Bool} {c : α} {l l' r r' s u v w : List α} {x y z : Pos α}

section Ends

theorem leads_of_nil (h : e.Matches x.1 [] x.2) : e.Leads x x :=
  ⟨[], rfl, rfl, h⟩

theorem leads_seq_iff : (seq a b).Leads x z ↔ ∃ y, a.Leads x y ∧ b.Leads y z := by
  constructor
  case mp =>
    intro ⟨w, hw, hl, h⟩
    cases h
    case seq u v ha hb =>
      exact ⟨(u.reverse ++ x.1, v ++ z.2), ⟨u, by simp [hw], rfl, ha⟩, ⟨v, rfl, by simp [hl], hb⟩⟩
  case mpr =>
    intro ⟨y, ⟨u, hu, hl, ha⟩, ⟨v, hv, hl', hb⟩⟩
    exact ⟨u ++ v, by rw [hu, hv, List.append_assoc], by simp [hl, hl'], .seq (hv ▸ ha) (hl ▸ hb)⟩

-- A repetition stops, or it goes on with a step that gets further.
theorem leads_star_iff :
    (star a).Leads x z ↔ z = x ∨ ∃ y, a.Leads x y ∧ y.2.length < x.2.length ∧ (star a).Leads y z := by
  constructor
  case mp =>
    intro ⟨w, hw, hl, h⟩
    cases h
    case done => exact .inl (Prod.ext hl hw.symm)
    case more u v hu ha hs =>
      refine .inr ⟨(u.reverse ++ x.1, v ++ z.2), ⟨u, by simp [hw], rfl, ha⟩, ?_, ⟨v, rfl, by simp [hl], hs⟩⟩
      have hp := List.length_pos_iff.mpr hu
      simpa [hw, Nat.add_assoc] using hp
  case mpr =>
    rintro (rfl | ⟨y, ⟨u, hu, hl, ha⟩, hlt, ⟨v, hv, hl', hs⟩⟩)
    · exact leads_of_nil .done
    · have hn : u ≠ [] := by
        rintro rfl
        simp [hu] at hlt
      exact ⟨u ++ v, by rw [hu, hv, List.append_assoc], by simp [hl, hl'], .more hn (hv ▸ ha) (hl ▸ hs)⟩

theorem mem_iterate_iff {f : Pos α → List (Pos α)} {n : Nat} (hf : ∀ {x y}, y ∈ f x ↔ a.Leads x y)
    (hn : x.2.length ≤ n) : z ∈ iterate f n x ↔ (star a).Leads x z := by
  induction n generalizing x
  case zero =>
    rw [leads_star_iff, iterate, List.mem_singleton]
    refine (or_iff_left fun ⟨y, _, hlt, _⟩ => ?_).symm
    omega
  case succ n hi =>
    rw [leads_star_iff, or_comm]
    simp only [iterate, List.mem_append, List.mem_flatMap, List.mem_filter, List.mem_singleton, hf,
      decide_eq_true_eq, and_assoc]
    refine or_congr_left <| exists_congr fun y => and_congr_right fun _ => and_congr_right fun hlt => ?_
    exact hi (by omega)

-- The enumeration has all matches.
theorem mem_ends_iff : z ∈ e.ends x ↔ e.Leads x z := by
  induction e generalizing x z
  case empty =>
    rw [ends, List.mem_singleton]
    refine ⟨fun h => h ▸ leads_of_nil .empty, fun ⟨w, hw, hl, h⟩ => ?_⟩
    cases h
    exact Prod.ext hl hw.symm
  case cls p =>
    constructor
    case mp =>
      intro h
      match x with
      | (l, [])     => contradiction
      | (l, c :: s) =>
        rw [ends] at h
        split at h
        case isFalse => contradiction
        case isTrue hc => exact List.mem_singleton.mp h ▸ ⟨[c], rfl, rfl, .cls hc⟩
    case mpr =>
      intro ⟨w, hw, hl, h⟩
      cases h
      case cls c hc =>
        have hx : x = (x.1, c :: z.2) := Prod.ext rfl hw
        rw [hx, ends, if_pos hc, List.mem_singleton]
        exact Prod.ext hl rfl
  case assert q =>
    rw [ends]
    constructor
    case mp =>
      intro h
      split at h
      case isFalse => contradiction
      case isTrue hq =>
        rw [List.mem_singleton.mp h]
        exact leads_of_nil (.assert hq)
    case mpr =>
      intro ⟨w, hw, hl, h⟩
      cases h
      case assert hq =>
        have hz : z = x := Prod.ext hl hw.symm
        subst hz
        rw [if_pos hq, List.mem_singleton]
  case seq a b ha hb => simp only [ends, List.mem_flatMap, ha, hb, leads_seq_iff]
  case alt a b ha hb =>
    rw [ends, List.mem_append, ha, hb]
    constructor
    case mp =>
      rintro (⟨w, hw, hl, h⟩ | ⟨w, hw, hl, h⟩)
      · exact ⟨w, hw, hl, .left h⟩
      · exact ⟨w, hw, hl, .right h⟩
    case mpr =>
      intro ⟨w, hw, hl, h⟩
      cases h
      case left h  => exact .inl ⟨w, hw, hl, h⟩
      case right h => exact .inr ⟨w, hw, hl, h⟩
  case star a ha => exact mem_iterate_iff ha (Nat.le_refl _)

end Ends

section First

theorem First.matches (h : e.First l w r) : e.Matches l w r := by
  have ⟨w', hw, hl, hm⟩ := mem_ends_iff.mp (List.mem_of_mem_head? h)
  simp only [List.append_cancel_right_eq] at hw
  exact hw ▸ hm

-- The first match of a sequence ends with a first match of its second part.
theorem First.seq (h : (seq a b).First l w r) :
    ∃ u v, w = u ++ v ∧ a.Matches l u (v ++ r) ∧ b.First (u.reverse ++ l) v r := by
  rw [First, ends, List.head?_flatMap] at h
  have ⟨y, hy, h⟩ := List.exists_of_findSome?_eq_some h
  have ⟨u, hu, hl, ha⟩ := mem_ends_iff.mp hy
  have ⟨v, hv, _, _⟩ := mem_ends_iff.mp (List.mem_of_mem_head? h)
  have hy : y = (u.reverse ++ l, v ++ r) := Prod.ext hl hv
  subst hy
  have hw : w = u ++ v := by simpa [← List.append_assoc] using hu
  subst hw
  exact ⟨u, v, rfl, ha, by rw [First, h, List.reverse_append, List.append_assoc]⟩

theorem iterate_ne_nil {f : Pos α → List (Pos α)} {n : Nat} : iterate f n x ≠ [] := by
  cases n <;> simp [iterate]

theorem iterate_cls {n : Nat} (hn : x.2.length ≤ n) (h : (iterate (cls p).ends n x).head? = some z) :
    ∀ c ∈ z.2.head?, ¬p c := by
  induction n generalizing x
  case zero =>
    cases h
    simp [List.length_eq_zero_iff.mp (Nat.le_zero.mp hn)]
  case succ n hi =>
    match x with
    | (l, [])     =>
      cases h
      simp
    | (l, c :: s) =>
      rw [iterate, ends] at h
      split at h
      case isTrue hc =>
        have hs : s.length < s.length + 1 := Nat.lt_succ_self _
        simp only [List.filter_cons, List.length_cons, hs, decide_true, if_true, List.filter_nil,
          List.flatMap_cons, List.flatMap_nil, List.append_nil, List.head?_append_of_ne_nil _ iterate_ne_nil] at h
        exact hi (Nat.le_of_succ_le_succ hn) h
      case isFalse hc =>
        cases h
        simpa using hc

-- A repetition does not stop before a character that it could take.
theorem First.star (h : (star (cls p)).First l w r) : ∀ c ∈ r.head?, ¬p c :=
  iterate_cls (Nat.le_refl _) h

end First

section Context

-- What the assertions of an expression look at: nothing else than what two texts that are related have in
-- common.
def Local (R : List α → List α → Prop) : Regexp α → Prop
  | assert q => ∀ l l' r r', R l l' → R r r' → q (l, r) = q (l', r')
  | seq a b  => a.Local R ∧ b.Local R
  | alt a b  => a.Local R ∧ b.Local R
  | star a   => a.Local R
  | _        => True

section Local

variable {R : List α → List α → Prop}

theorem local_lit [BEq α] : (lit s).Local R := by
  induction s
  case nil         => trivial
  case cons c s hi => exact ⟨trivial, hi⟩

theorem Local.times {n : Nat} (h : a.Local R) : (a.times n).Local R := by
  induction n
  case zero      => trivial
  case succ n hi => exact ⟨h, hi⟩

theorem Local.upTo {n : Nat} (h : a.Local R) : (a.upTo n).Local R := by
  induction n
  case zero      => trivial
  case succ n hi => exact ⟨⟨h, hi⟩, trivial⟩

end Local

-- Characters that both texts start with can be taken off, or put in front.
theorem Matches.congr {R : List α → List α → Prop} (hR : ∀ w l l', R l l' → R (w ++ l) (w ++ l'))
    (he : e.Local R) (hl : R l l') (hr : R r r') (h : e.Matches l w r) : e.Matches l' w r' := by
  induction h generalizing l' r'
  case empty => exact .empty
  case cls hp => exact .cls hp
  case assert hq => exact .assert (he _ _ _ _ hl hr ▸ hq)
  case seq ha hb => exact .seq (ha he.1 hl (hR _ _ _ hr)) (hb he.2 (hR _ _ _ hl) hr)
  case left h => exact .left (h he.1 hl hr)
  case right h => exact .right (h he.2 hl hr)
  case done => exact .done
  case more hn _ _ ha hs => exact .more hn (ha he hl (hR _ _ _ hr)) (hs he (hR _ _ _ hl) hr)

end Context

section Characters

-- The characters that a match may consist of.
def mentions (c : α) : Regexp α → Bool
  | cls p   => p c
  | seq a b => a.mentions c || b.mentions c
  | alt a b => a.mentions c || b.mentions c
  | star a  => a.mentions c
  | _       => false

theorem Matches.mentions (h : e.Matches l w r) (hc : c ∈ w) : e.mentions c := by
  induction h
  case cls hp => exact List.mem_singleton.mp hc ▸ hp
  case seq ha hb => exact (Bool.or_eq_true _ _).mpr <| (List.mem_append.mp hc).imp ha hb
  case left h => exact (Bool.or_eq_true _ _).mpr (.inl (h hc))
  case right h => exact (Bool.or_eq_true _ _).mpr (.inr (h hc))
  case more ha hs => exact (List.mem_append.mp hc).elim ha hs
  all_goals contradiction

def StartsIn (p : α → Bool) (e : Regexp α) : Prop :=
  ∀ ⦃l w r⦄, e.Matches l w r → ∃ c ∈ w.head?, p c

def EndsIn (p : α → Bool) (e : Regexp α) : Prop :=
  ∀ ⦃l w r⦄, e.Matches l w r → ∃ c ∈ w.getLast?, p c

namespace StartsIn

theorem cls : (cls p).StartsIn p := by
  intro l w r h
  cases h
  case cls c hc => exact ⟨c, rfl, hc⟩

theorem seq (h : a.StartsIn p) : (seq a b).StartsIn p := by
  intro l w r hm
  cases hm
  case seq u v ha hb =>
    have ⟨c, hc, hp⟩ := h ha
    exact ⟨c, by simp_all, hp⟩

theorem assert_seq {q : Pos α → Bool} (h : b.StartsIn p) : StartsIn p (.seq (assert q) b) := by
  intro l w r hm
  cases hm
  case seq u v ha hb =>
    cases ha
    exact h hb

end StartsIn

namespace EndsIn

theorem seq (h : b.EndsIn p) : (seq a b).EndsIn p := by
  intro l w r hm
  cases hm
  case seq u v ha hb =>
    have ⟨c, hc, hp⟩ := h hb
    exact ⟨c, by simp_all, hp⟩

theorem seq_assert {q : Pos α → Bool} (h : a.EndsIn p) : EndsIn p (.seq a (assert q)) := by
  intro l w r hm
  cases hm
  case seq u v ha hb =>
    cases hb
    simpa using h ha

theorem plus : (plus (cls p)).EndsIn p := by
  intro l w r hm
  have ⟨c, hc, _⟩ := StartsIn.cls.seq hm
  have hn := List.ne_nil_of_mem (List.mem_of_mem_head? hc)
  have hp := hm.mentions (List.getLast_mem hn)
  exact ⟨w.getLast hn, List.getLast?_eq_some_getLast hn, by simpa [Regexp.plus, Regexp.mentions] using hp⟩

end EndsIn

end Characters

section Final

-- What a match ends with.
def final : Regexp α → Regexp α
  | seq _ b => b.final
  | e       => e

theorem First.final (h : e.First l w r) : ∃ u v, w = u ++ v ∧ e.final.First (u.reverse ++ l) v r := by
  induction e generalizing l w
  case seq a b _ hi =>
    have ⟨u, v, hw, _, hb⟩ := h.seq
    have ⟨u', v', hv, hf⟩ := hi hb
    exact ⟨u ++ u', v', by simp [hw, hv], by simpa [Regexp.final] using hf⟩
  all_goals exact ⟨[], w, rfl, h⟩

end Final

end Regexp
