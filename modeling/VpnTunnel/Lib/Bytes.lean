import Mathlib.Data.List.Basic

-- Strings are bytes that usually, but not necessarily, are UTF-8.
abbrev ByteString :=
  List UInt8

namespace ByteString

instance : LawfulBEq ByteString :=
  inferInstanceAs (LawfulBEq (List UInt8))

def ofString (s : String) : ByteString :=
  s.toByteArray.data.toList

-- A fact about all bytes can be decided.
theorem forall_byte {p : UInt8 → Prop} (h : ∀ b : Fin 256, p (.ofFin b)) (b : UInt8) : p b :=
  h b.toFin

def isLower (b : UInt8) : Bool :=
  0x61 ≤ b && b ≤ 0x7A

def isUpper (b : UInt8) : Bool :=
  0x41 ≤ b && b ≤ 0x5A

def isAlnum (b : UInt8) : Bool :=
  isLower b || isUpper b || (0x30 ≤ b && b ≤ 0x39)

def replaceFirst (old new : ByteString) : ByteString → ByteString
  | []     => if old = [] then new else []
  | b :: s => ((b :: s).dropPrefix? old).elim (b :: replaceFirst old new s) (new ++ ·)

-- The encodings of the characters that `unicode.IsSpace` accepts.
def spaces : List ByteString := [
  [0x09], [0x0A], [0x0B], [0x0C], [0x0D], [0x20], [0xC2, 0x85], [0xC2, 0xA0], [0xE1, 0x9A, 0x80],
  [0xE2, 0x80, 0x80], [0xE2, 0x80, 0x81], [0xE2, 0x80, 0x82], [0xE2, 0x80, 0x83],
  [0xE2, 0x80, 0x84], [0xE2, 0x80, 0x85], [0xE2, 0x80, 0x86], [0xE2, 0x80, 0x87],
  [0xE2, 0x80, 0x88], [0xE2, 0x80, 0x89], [0xE2, 0x80, 0x8A], [0xE2, 0x80, 0xA8],
  [0xE2, 0x80, 0xA9], [0xE2, 0x80, 0xAF], [0xE2, 0x81, 0x9F], [0xE3, 0x80, 0x80]
]

def trimLeft (cutset : List ByteString) (s : ByteString) : ByteString :=
  go s.length s
where
  go : Nat → ByteString → ByteString
    | 0,     s => s
    | n + 1, s => (cutset.findSome? s.dropPrefix?).elim s (go n)

def trimRight (cutset : List ByteString) (s : ByteString) : ByteString :=
  (trimLeft (cutset.map .reverse) s.reverse).reverse

def trimSpace (s : ByteString) : ByteString :=
  trimRight spaces (trimLeft spaces s)

end ByteString

namespace Utf8

-- The ranges in which the bytes after a leading byte have to lie.
def trail (b : UInt8) : Option (List (UInt8 × UInt8)) :=
  if b < 0x80 then some []
  else if b < 0xC2 then none
  else if b < 0xE0 then some [(0x80, 0xBF)]
  else if b = 0xE0 then some [(0xA0, 0xBF), (0x80, 0xBF)]
  else if b = 0xED then some [(0x80, 0x9F), (0x80, 0xBF)]
  else if b < 0xF0 then some [(0x80, 0xBF), (0x80, 0xBF)]
  else if b = 0xF0 then some [(0x90, 0xBF), (0x80, 0xBF), (0x80, 0xBF)]
  else if b < 0xF4 then some [(0x80, 0xBF), (0x80, 0xBF), (0x80, 0xBF)]
  else if b = 0xF4 then some [(0x80, 0x8F), (0x80, 0xBF), (0x80, 0xBF)]
  else none

def follows : List (UInt8 × UInt8) → ByteString → Bool
  | [],             _       => true
  | _ :: _,         []      => false
  | (lo, hi) :: rs, b :: bs => lo ≤ b && b ≤ hi && follows rs bs

-- The encoding of U+FFFD.
def replacement : ByteString :=
  [0xEF, 0xBF, 0xBD]

-- Replaces each byte that is not part of a well-formed character.
def toValid (s : ByteString) : ByteString :=
  go 0 s
where
  -- The first argument counts the bytes that still belong to the current character.
  go : Nat → ByteString → ByteString
    | _,     []      => []
    | n + 1, b :: bs => b :: go n bs
    | 0,     b :: bs =>
      match trail b with
      | some rs => if follows rs bs then b :: go rs.length bs else replacement ++ go 0 bs
      | none    => replacement ++ go 0 bs

-- Whether each byte is part of a well-formed character.
def valid (s : ByteString) : Bool :=
  go 0 s
where
  go : Nat → ByteString → Bool
    | _,     []      => true
    | n + 1, _ :: bs => go n bs
    | 0,     b :: bs =>
      match trail b with
      | some rs => follows rs bs && go rs.length bs
      | none    => false

-- The encodings of the characters. A byte that is not part of a well-formed one is replaced.
def chars (s : ByteString) : List ByteString :=
  go 0 s
where
  -- The first argument counts the bytes that were part of the previous character.
  go : Nat → ByteString → List ByteString
    | _,     []      => []
    | n + 1, _ :: bs => go n bs
    | 0,     b :: bs =>
      match trail b with
      | some rs =>
        if follows rs bs then (b :: bs.take rs.length) :: go rs.length bs else replacement :: go 0 bs
      | none    => replacement :: go 0 bs

theorem chars_ne_nil {s : ByteString} (h : s ≠ []) : chars s ≠ [] := by
  have ⟨b, bs, hs⟩ := List.exists_cons_of_ne_nil h
  subst hs
  unfold chars chars.go
  split
  case h_1 => split <;> simp
  case h_2 => simp

theorem le_of_trail {b : UInt8} {rs : List (UInt8 × UInt8)} (h : trail b = some rs) :
    ∀ r ∈ rs, 0x80 ≤ r.1 := by
  unfold trail at h
  repeat' split at h
  all_goals first | contradiction | (cases h; simp)

theorem mem_drop_of_follows {rs : List (UInt8 × UInt8)} {bs : ByteString} {b : UInt8}
    (h : follows rs bs) (hr : ∀ r ∈ rs, 0x80 ≤ r.1) (hb : b < 0x80) (hm : b ∈ bs) :
    b ∈ bs.drop rs.length := by
  induction rs generalizing bs
  case nil => simpa using hm
  case cons r rs hi =>
    cases bs
    case nil => simp at hm
    case cons a bs =>
      have ⟨hr, hrs⟩ := List.forall_mem_cons.mp hr
      simp only [follows, Bool.and_eq_true, decide_eq_true_eq] at h
      have ha : b ≠ a := by
        rintro rfl
        exact absurd hb (UInt8.not_lt.mpr (UInt8.le_trans hr h.left.left))
      exact hi h.right hrs (by simpa [ha] using hm)

-- A byte of a single-byte character is not part of another one.
theorem mem_chars {s : ByteString} {b : UInt8} (hb : b < 0x80) (h : b ∈ s) : [b] ∈ chars s := by
  have go (n : Nat) (h : b ∈ s.drop n) : [b] ∈ chars.go n s := by
    clear * - hb h
    induction s generalizing n
    case nil => simp at h
    case cons a s hi =>
      cases n
      case succ n => exact hi n (by simpa using h)
      case zero =>
        by_cases ha : a = b
        case pos =>
          subst ha
          have ht : trail a = some [] := if_pos hb
          simp [chars.go, ht, follows]
        case neg =>
          have hs : b ∈ s := by simpa [Ne.symm ha] using h
          unfold chars.go
          split
          case h_1 rs ht =>
            split
            case isTrue hf =>
              exact List.mem_cons_of_mem _ <| hi _ (mem_drop_of_follows hf (le_of_trail ht) hb hs)
            case isFalse => exact List.mem_cons_of_mem _ (hi 0 hs)
          case h_2 => exact List.mem_cons_of_mem _ (hi 0 hs)
  exact go 0 h

def Ascii (s : ByteString) : Prop :=
  ∀ b ∈ s, b < 0x80

theorem trail_of_lt {b : UInt8} (h : b < 0x80) : trail b = some [] :=
  if_pos h

theorem toValid_cons_of_lt {b : UInt8} {s : ByteString} (h : b < 0x80) :
    toValid (b :: s) = b :: toValid s := by
  simp [toValid, toValid.go, trail_of_lt h, follows]

theorem toValid_of_ascii {s : ByteString} (h : Ascii s) : toValid s = s := by
  induction s
  case nil => rfl
  case cons b s hi =>
    have ⟨hb, hs⟩ := List.forall_mem_cons.mp h
    rw [toValid_cons_of_lt hb, hi hs]

-- A byte that is not part of a character, and one that starts a longer one, leave a trace.
theorem ascii_of_toValid {s : ByteString} (h : Ascii (toValid s)) : Ascii s := by
  induction s
  case nil => exact h
  case cons b s hi =>
    by_cases hb : b < 0x80
    case pos =>
      rw [toValid_cons_of_lt hb] at h
      exact List.forall_mem_cons.mpr ⟨hb, hi (List.forall_mem_cons.mp h).2⟩
    case neg =>
      have hn : ¬Ascii (replacement ++ toValid.go 0 s) := fun h => by
        simpa using h 0xEF (by simp [replacement])
      simp only [toValid, toValid.go] at h
      split at h
      case h_1 =>
        split at h
        case isTrue => exact absurd (h b List.mem_cons_self) hb
        case isFalse => exact absurd h hn
      case h_2 => exact absurd h hn

theorem toValid_eq_iff {s t : ByteString} (h : Ascii t) : toValid s = t ↔ s = t := by
  constructor
  · rintro rfl
    exact (toValid_of_ascii (ascii_of_toValid h)).symm
  · rintro rfl
    exact toValid_of_ascii h

-- The text that is put in place of a byte is no such byte itself.
theorem replacement_ne {b : UInt8} {bs s : ByteString}
    (h : ∀ rs, trail b = some rs → ¬follows rs bs) : replacement ++ s ≠ b :: bs := by
  intro he
  simp only [replacement, List.cons_append, List.nil_append, List.cons.injEq] at he
  have ⟨hb, hs⟩ := he
  subst hb hs
  exact h _ rfl rfl

theorem toValid_eq_self_iff {s : ByteString} : toValid s = s ↔ valid s := by
  have go (n : Nat) : toValid.go n s = s ↔ valid.go n s := by
    induction s generalizing n
    case nil => simp [toValid.go, valid.go]
    case cons b s hi =>
      cases n
      case succ n => simpa [toValid.go, valid.go] using hi n
      case zero =>
        simp only [toValid.go, valid.go]
        split
        case h_1 rs ht =>
          split
          case isTrue hf  => simp [hf, hi]
          case isFalse hf => simpa [hf] using replacement_ne (by simpa [ht] using hf)
        case h_2 ht => simpa using replacement_ne (by simp [ht])
  exact go 0

theorem follows_toValid_go {rs : List (UInt8 × UInt8)} {s : ByteString} :
    follows rs (toValid.go rs.length s) = follows rs s := by
  induction rs generalizing s
  case nil => rfl
  case cons r rs hi =>
    cases s
    case nil => rfl
    case cons b s => simp [toValid.go, follows, hi]

theorem valid_toValid (s : ByteString) : valid (toValid s) := by
  have go (n : Nat) : valid.go n (toValid.go n s) := by
    have hr (s : ByteString) : valid.go 0 (replacement ++ s) = valid.go 0 s := rfl
    induction s generalizing n
    case nil => simp [toValid.go, valid.go]
    case cons b s hi =>
      cases n
      case succ n => exact hi n
      case zero =>
        unfold toValid.go
        split
        case h_1 rs ht =>
          split
          case isTrue hf  => simp [valid.go, ht, follows_toValid_go, hf, hi]
          case isFalse hf => exact hr _ ▸ hi 0
        case h_2 => exact hr _ ▸ hi 0
  exact go 0

end Utf8

namespace ByteString

-- The lower case of the characters that are longer than a byte, by their encodings.
structure CaseTable where
  lower        : ByteString → ByteString
  lower_ne_nil : ∀ c, lower c ≠ []

-- The table that knows no characters.
instance : Inhabited CaseTable where
  default := { lower := fun _ => Utf8.replacement, lower_ne_nil := by simp [Utf8.replacement] }

def lowerByte (b : UInt8) : UInt8 :=
  if isUpper b then b + 0x20 else b

def CaseTable.toLower (table : CaseTable) : ByteString → ByteString
  | [b] => [lowerByte b]
  | c   => table.lower c

def toLower (table : CaseTable) (s : ByteString) : ByteString :=
  (Utf8.chars s).flatMap table.toLower

theorem CaseTable.toLower_ne_nil {table : CaseTable} {c : ByteString} : table.toLower c ≠ [] := by
  unfold CaseTable.toLower
  split
  case h_1 => simp
  case h_2 => exact table.lower_ne_nil _

theorem toLower_ne_nil {table : CaseTable} {s : ByteString} (h : s ≠ []) : toLower table s ≠ [] := by
  intro hl
  have ⟨c, hc⟩ := List.exists_mem_of_ne_nil _ (Utf8.chars_ne_nil h)
  exact CaseTable.toLower_ne_nil (List.flatMap_eq_nil_iff.mp hl c hc)

theorem lowerByte_mem_toLower {table : CaseTable} {s : ByteString} {b : UInt8} (hb : b < 0x80) (h : b ∈ s) :
    lowerByte b ∈ toLower table s :=
  List.mem_flatMap.mpr ⟨[b], Utf8.mem_chars hb h, by simp [CaseTable.toLower]⟩

theorem toLower_of_ascii {table : CaseTable} {s : ByteString} (h : Utf8.Ascii s) :
    toLower table s = s.map lowerByte := by
  induction s
  case nil => rfl
  case cons b s hi =>
    have ⟨hb, hs⟩ := List.forall_mem_cons.mp h
    have hc : Utf8.chars (b :: s) = [b] :: Utf8.chars s := by
      simp [Utf8.chars, Utf8.chars.go, Utf8.trail_of_lt hb, Utf8.follows]
    rw [toLower, hc, List.flatMap_cons, ← toLower, hi hs]
    rfl

theorem isUpper_iff {b : UInt8} : isUpper b ↔ 0x41 ≤ b.toNat ∧ b.toNat ≤ 0x5A := by
  simp [isUpper, UInt8.le_iff_toNat_le]

theorem toNat_lowerByte (b : UInt8) :
    (lowerByte b).toNat = if 0x41 ≤ b.toNat ∧ b.toNat ≤ 0x5A then b.toNat + 0x20 else b.toNat := by
  unfold lowerByte
  simp only [isUpper_iff]
  split
  case isTrue h =>
    have hm : (b.toNat + 0x20) % 2 ^ 8 = b.toNat + 0x20 := by omega
    exact (UInt8.toNat_add b 0x20).trans hm
  case isFalse => rfl

theorem lowerByte_lowerByte (b : UInt8) : lowerByte (lowerByte b) = lowerByte b := by
  apply UInt8.toNat_inj.mp
  rw [toNat_lowerByte (lowerByte b)]
  refine if_neg ?_
  rw [toNat_lowerByte]
  split <;> omega

theorem lowerByte_lt_iff {b : UInt8} : lowerByte b < 0x80 ↔ b < 0x80 := by
  simp only [UInt8.lt_iff_toNat_lt, toNat_lowerByte]
  have h : (0x80 : UInt8).toNat = 128 := rfl
  split <;> omega

theorem lowerByte_of_not_lt {b : UInt8} (h : ¬b < 0x80) : lowerByte b = b := by
  apply UInt8.toNat_inj.mp
  rw [toNat_lowerByte]
  refine if_neg fun hu => h (UInt8.lt_iff_toNat_lt.mpr ?_)
  exact Nat.lt_of_le_of_lt hu.right (by decide)

-- The bytes inside of a longer character have no case.
theorem lowerByte_range {b lo hi : UInt8} (h : 0x80 ≤ lo) :
    (lo ≤ lowerByte b && lowerByte b ≤ hi) = (lo ≤ b && b ≤ hi) := by
  by_cases hb : b < 0x80
  case pos =>
    have hn {a : UInt8} (ha : a < 0x80) : ¬lo ≤ a := fun hl =>
      UInt8.not_lt.mpr (UInt8.le_trans h hl) ha
    simp [hn hb, hn (lowerByte_lt_iff.mpr hb)]
  case neg => rw [lowerByte_of_not_lt hb]

theorem follows_map_lowerByte {rs : List (UInt8 × UInt8)} {s : ByteString} (hr : ∀ r ∈ rs, 0x80 ≤ r.1) :
    Utf8.follows rs (s.map lowerByte) = Utf8.follows rs s := by
  induction rs generalizing s
  case nil => simp [Utf8.follows]
  case cons r rs hi =>
    have ⟨hr, hrs⟩ := List.forall_mem_cons.mp hr
    cases s
    case nil => rfl
    case cons b s =>
      rw [List.map_cons, Utf8.follows, Utf8.follows, lowerByte_range hr, hi hrs]

theorem take_map_lowerByte {rs : List (UInt8 × UInt8)} {s : ByteString} (hr : ∀ r ∈ rs, 0x80 ≤ r.1)
    (h : Utf8.follows rs s) : (s.map lowerByte).take rs.length = s.take rs.length := by
  induction rs generalizing s
  case nil => simp
  case cons r rs hi =>
    have ⟨hr, hrs⟩ := List.forall_mem_cons.mp hr
    cases s
    case nil => rfl
    case cons b s =>
      simp only [Utf8.follows, Bool.and_eq_true, decide_eq_true_eq] at h
      have hb : ¬b < 0x80 := UInt8.not_lt.mpr (UInt8.le_trans hr h.left.left)
      rw [List.map_cons, List.length_cons, List.take_succ_cons, List.take_succ_cons, hi hrs h.right,
        lowerByte_of_not_lt hb]

-- Lower case does not depend on the case of the letters.
theorem toLower_map_lowerByte {table : CaseTable} (s : ByteString) :
    toLower table (s.map lowerByte) = toLower table s := by
  have go (n : Nat) : (Utf8.chars.go n (s.map lowerByte)).flatMap table.toLower =
      (Utf8.chars.go n s).flatMap table.toLower := by
    induction s generalizing n
    case nil => rfl
    case cons b s hi =>
      cases n
      case succ n => exact hi n
      case zero =>
        by_cases hb : b < 0x80
        case pos =>
          simp [Utf8.chars.go, Utf8.trail_of_lt hb, Utf8.trail_of_lt (lowerByte_lt_iff.mpr hb),
            Utf8.follows, hi, CaseTable.toLower, lowerByte_lowerByte]
        case neg =>
          rw [List.map_cons, lowerByte_of_not_lt hb]
          simp only [Utf8.chars.go]
          split
          case h_1 rs ht =>
            have hr := Utf8.le_of_trail ht
            rw [follows_map_lowerByte hr]
            split
            case isTrue hf  => rw [take_map_lowerByte hr hf, List.flatMap_cons, List.flatMap_cons, hi]
            case isFalse hf => rw [List.flatMap_cons, List.flatMap_cons, hi]
          case h_2 => rw [List.flatMap_cons, List.flatMap_cons, hi]
  exact go 0

theorem toLower_eq_of_map_lowerByte_eq {table : CaseTable} {s t : ByteString}
    (h : s.map lowerByte = t.map lowerByte) : toLower table s = toLower table t := by
  rw [← toLower_map_lowerByte s, h, toLower_map_lowerByte]

-- The text whose characters stand for the bytes.
def text (s : ByteString) : String :=
  .ofList <| s.map fun b => Char.ofNat b.toNat

end ByteString
