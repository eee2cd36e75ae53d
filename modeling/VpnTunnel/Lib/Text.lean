import Mathlib.Data.List.Infix
import Mathlib.Data.List.TakeWhile
import VpnTunnel.Lib.Trim

namespace List

variable {α : Type*} [BEq α] {a c : α} {l elem : List α}

theorem mem_of_mem_splitOn (h : elem ∈ l.splitOn c) (ha : a ∈ elem) : a ∈ l := by
  rw [splitOn_eq_splitOnP] at h
  induction l generalizing elem
  case nil => simp_all
  case cons b l hi =>
    rw [splitOnP_cons_eq_if_modifyHead] at h
    split at h
    case isTrue =>
      have he := (mem_cons.mp h).resolve_left (ne_nil_of_mem ha)
      exact mem_cons_of_mem _ (hi he ha)
    case isFalse =>
      have ⟨e, rest, hp⟩ := exists_cons_of_ne_nil (splitOnP_ne_nil (· == c) l)
      rw [hp] at h hi
      rcases mem_cons.mp h with rfl | h
      · exact (mem_cons.mp ha).elim (· ▸ mem_cons_self) fun ha => mem_cons_of_mem _ (hi mem_cons_self ha)
      · exact mem_cons_of_mem _ (hi (mem_cons_of_mem _ h) ha)

variable [LawfulBEq α]

theorem splitOn_of_not_mem (h : c ∉ l) : l.splitOn c = [l] := by
  rw [splitOn_eq_splitOnP, splitOnP_eq_singleton]
  intro b hb
  simpa using fun he : b = c => h (he ▸ hb)

theorem splitOn_append_cons (l₁ l₂ : List α) :
    (l₁ ++ c :: l₂).splitOn c = l₁.splitOn c ++ l₂.splitOn c := by
  simp only [splitOn_eq_splitOnP]
  exact splitOnP_append_cons l₁ l₂ (by simp)

theorem not_mem_of_mem_splitOn (h : elem ∈ l.splitOn c) : c ∉ elem := by
  rw [splitOn_eq_splitOnP] at h
  induction l generalizing elem
  case nil => simp_all
  case cons a l hi =>
    rw [splitOnP_cons_eq_if_modifyHead] at h
    split at h
    case isTrue => exact (mem_cons.mp h).elim (fun h => by simp [h]) hi
    case isFalse ha =>
      have ⟨e, rest, hp⟩ := exists_cons_of_ne_nil (splitOnP_ne_nil (· == c) l)
      rw [hp] at h hi
      rcases mem_cons.mp h with rfl | h
      · simpa using ⟨fun hc => ha (by simp [hc]), hi mem_cons_self⟩
      · exact hi (mem_cons_of_mem _ h)

-- Splitting only loses separators.
theorem exists_mem_splitOn (h : a ∈ l) (hn : a ≠ c) : ∃ elem ∈ l.splitOn c, a ∈ elem := by
  induction l
  case nil => contradiction
  case cons b l hi =>
    rw [splitOn_eq_splitOnP, splitOnP_cons_eq_if_modifyHead, ← splitOn_eq_splitOnP]
    split
    case isTrue hb =>
      have hl := (mem_cons.mp h).resolve_left fun he => hn (he.trans (eq_of_beq hb))
      have ⟨elem, he, ha⟩ := hi hl
      exact ⟨elem, mem_cons_of_mem _ he, ha⟩
    case isFalse =>
      have ⟨e, rest, hp⟩ := exists_cons_of_ne_nil (splitOnP_ne_nil (· == c) l)
      rw [splitOn_eq_splitOnP, hp] at hi ⊢
      cases mem_cons.mp h
      case inl he => exact ⟨b :: e, by simp, by simp [he]⟩
      case inr hl =>
        have ⟨elem, he, ha⟩ := hi hl
        cases mem_cons.mp he
        case inl he => exact ⟨b :: e, by simp, by simp [← he, ha]⟩
        case inr he => exact ⟨elem, by simp [he], ha⟩

end List

namespace ByteString

abbrev newline : UInt8 := 0x0A
abbrev equals : UInt8 := 0x3D

-- The text before the first occurrence of a byte, and the text after it.
def cut (c : UInt8) : ByteString → Option (ByteString × ByteString)
  | []     => none
  | b :: s => if b = c then some ([], s) else (cut c s).map fun x => (b :: x.1, x.2)

-- The value that a line gives to a key that is written in lower case, if the line is an assignment to it.
def valueOf (table : CaseTable) (key line : ByteString) : Option ByteString :=
  (cut equals line).bind fun x =>
    if toLower table (trimSpace x.1) = key then some (trimSpace x.2) else none

-- `strings.EqualFold`, for a second text that consists of ASCII characters. None of its letters may be
-- a `k` or an `s`, because other characters fold to these.
def equalFold (s t : ByteString) : Bool :=
  s.map lowerByte = t.map lowerByte

def lines (s : ByteString) : List ByteString :=
  s.splitOn newline

def unlines (ls : List ByteString) : ByteString :=
  [newline].intercalate ls

def dropCR (s : ByteString) : ByteString :=
  if s.getLast? = some 0x0D then s.dropLast else s

def maxScanTokenSize : Nat :=
  64 * 1024

-- What a `bufio.Scanner` makes of a text: the lines up to the first one that is too long, and whether
-- there is one. There is no empty line after the last newline.
def scan (s : ByteString) : List ByteString × Bool :=
  let all  := if s.lines.getLast? = some [] then s.lines.dropLast else s.lines
  let read := all.takeWhile (·.length < maxScanTokenSize)
  (read.map dropCR, read.length < all.length)

variable {c b : UInt8} {s t x y : ByteString} {ls : List ByteString}

theorem cut_eq_some_iff : cut c s = some (x, y) ↔ s = x ++ c :: y ∧ c ∉ x := by
  induction s generalizing x
  case nil => simp [cut]
  case cons b s hi =>
    by_cases hb : b = c
    case pos =>
      subst hb
      simp only [cut, if_true, Option.some.injEq, Prod.mk.injEq]
      cases x
      case nil       => simp [eq_comm]
      case cons a x' =>
        simp only [reduceCtorEq, false_and, List.cons_append, List.cons.injEq, List.mem_cons, not_or,
          false_iff, not_and]
        exact fun h hn => absurd h.left hn
    case neg =>
      simp only [cut, hb, if_false, Option.map_eq_some_iff, Prod.exists, Prod.mk.injEq]
      cases x
      case nil       => simp [hb]
      case cons a x' =>
        simp only [List.cons.injEq, List.cons_append, List.mem_cons, not_or]
        constructor
        · rintro ⟨_, _, h, ⟨rfl, rfl⟩, rfl⟩
          have ⟨h₁, h₂⟩ := hi.mp h
          exact ⟨⟨rfl, h₁⟩, fun h => hb h.symm, h₂⟩
        · rintro ⟨⟨rfl, h₁⟩, _, h₂⟩
          exact ⟨x', y, hi.mpr ⟨h₁, h₂⟩, ⟨rfl, rfl⟩, rfl⟩

theorem cut_append_cons (h : c ∉ x) : cut c (x ++ c :: y) = some (x, y) :=
  cut_eq_some_iff.mpr ⟨rfl, h⟩

theorem cut_eq_none_iff : cut c s = none ↔ c ∉ s := by
  induction s
  case nil => simp [cut]
  case cons b s hi =>
    by_cases hb : b = c
    case pos => simp [cut, hb]
    case neg => simp [cut, hb, hi, Ne.symm hb]

theorem cut_append_of_not_mem (h : c ∉ x) :
    cut c (x ++ y) = (cut c y).map fun z => (x ++ z.1, z.2) := by
  induction x
  case nil => simp
  case cons b x hi =>
    rw [List.mem_cons, not_or] at h
    simp [cut, Ne.symm h.left, hi h.right, Function.comp_def]

section Spaces

theorem mem_of_mem_trimLeft (h : c ∈ trimLeft spaces s) : c ∈ s := by
  have ⟨_, _, hs, _⟩ := trimLeft_spec isCode_spaces s
  exact hs ▸ List.mem_append_right _ h

theorem mem_of_mem_trimRight (h : c ∈ trimRight spaces s) : c ∈ s := by
  have ⟨_, _, hs, _⟩ := trimRight_spec isCode_reverse_spaces s
  exact hs ▸ List.mem_append_left _ h

theorem mem_of_mem_trimSpace (h : c ∈ trimSpace s) : c ∈ s :=
  mem_of_mem_trimLeft (mem_of_mem_trimRight h)

-- Trimming only removes bytes that are part of spaces.
theorem mem_trimSpace (hc : ∀ e ∈ spaces, c ∉ e) (h : c ∈ s) : c ∈ trimSpace s := by
  have ⟨x, y, hs⟩ := List.append_of_mem h
  rw [hs, trimSpace_append_cons hc]
  simp

theorem equals_not_mem_spaces : ∀ e ∈ spaces, equals ∉ e := by
  decide

end Spaces

section ValueOf

variable {table : CaseTable} {key val line : ByteString}

theorem valueOf_eq_some_iff : valueOf table key line = some val ↔
    ∃ k v, line = k ++ equals :: v ∧ equals ∉ k ∧ toLower table (trimSpace k) = key ∧
      trimSpace v = val := by
  simp [valueOf, Option.bind_eq_some_iff, cut_eq_some_iff, and_assoc]

-- Both scanners may trim the line before they look for the equals sign.
theorem valueOf_trimSpace (s : ByteString) : valueOf table key (trimSpace s) = valueOf table key s := by
  cases h : cut equals s
  case none =>
    have hn : cut equals (trimSpace s) = none :=
      cut_eq_none_iff.mpr fun hm => cut_eq_none_iff.mp h (mem_of_mem_trimSpace hm)
    simp [valueOf, h, hn]
  case some z =>
    have ⟨hs, hk⟩ := (cut_eq_some_iff (x := z.1) (y := z.2)).mp h
    have hc : cut equals (trimSpace s) = some (trimLeft spaces z.1, trimRight spaces z.2) := by
      rw [hs, trimSpace_append_cons equals_not_mem_spaces]
      exact cut_append_cons fun hm => hk (mem_of_mem_trimLeft hm)
    simp [valueOf, h, hc, trimSpace_trimLeft, trimSpace_trimRight]

end ValueOf

theorem not_mem_of_mem_lines (h : t ∈ s.lines) : newline ∉ t :=
  List.not_mem_of_mem_splitOn h

theorem lines_unlines (h : ∀ l ∈ ls, newline ∉ l) (hn : ls ≠ []) : (unlines ls).lines = ls :=
  List.splitOn_intercalate newline h hn

theorem scan_of_short (h : ∀ l ∈ s.lines, l.length < maxScanTokenSize) : ∃ ls, scan s = (ls, false) := by
  refine ⟨_, Prod.ext rfl ?_⟩
  simp only [scan, decide_eq_false_iff_not, Nat.not_lt]
  rw [List.takeWhile_eq_self_iff.mpr]
  intro l hl
  refine decide_eq_true (h l ?_)
  split at hl
  case isTrue  => exact List.dropLast_subset _ hl
  case isFalse => exact hl

theorem scan_elim (h : scan s = (ls, false)) :
    ∃ all, ls = all.map dropCR ∧ (∀ l ∈ all, l.length < maxScanTokenSize) ∧
      (s.lines = all ∨ s.lines = all ++ [[]]) := by
  have ⟨hl, ht⟩ := Prod.mk.inj h
  have he {l : List ByteString} (h : ¬(l.takeWhile (·.length < maxScanTokenSize)).length < l.length) :
      l.takeWhile (·.length < maxScanTokenSize) = l :=
    (List.takeWhile_sublist _).eq_of_length_le (Nat.le_of_not_lt h)
  have ht := he (of_decide_eq_false ht)
  rw [ht] at hl
  refine ⟨_, hl.symm, fun l hl => of_decide_eq_true <| List.takeWhile_eq_self_iff.mp ht l hl, ?_⟩
  split
  case isTrue h  => exact .inr (List.dropLast_append_getLast? _ h).symm
  case isFalse h => exact .inl rfl

theorem mem_of_mem_dropCR (h : b ∈ dropCR s) : b ∈ s := by
  rw [dropCR] at h
  split at h
  case isTrue  => exact List.mem_of_mem_dropLast h
  case isFalse => exact h

theorem not_mem_of_mem_scan (h : t ∈ (scan s).1) : newline ∉ t := by
  have ⟨l, hl, ht⟩ := List.mem_map.mp h
  have hl := (List.takeWhile_sublist _).subset hl
  have hs : l ∈ s.lines := by
    split at hl
    case isTrue  => exact List.mem_of_mem_dropLast hl
    case isFalse => exact hl
  exact fun hn => not_mem_of_mem_lines hs (mem_of_mem_dropCR (ht ▸ hn))

theorem short_of_scan (h : scan s = (ls, false)) : ∀ l ∈ s.lines, l.length < maxScanTokenSize := by
  have ⟨all, _, ha, hs⟩ := scan_elim h
  cases hs
  case inl hs => exact hs ▸ ha
  case inr hs => exact hs ▸ List.forall_mem_append.mpr ⟨ha, by decide⟩

end ByteString
