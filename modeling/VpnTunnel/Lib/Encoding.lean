import VpnTunnel.Lib.Bytes

-- The standard encoding with padding.
namespace Base64

abbrev pad : UInt8 := 0x3D

variable {n : Nat} {c : UInt8} {s t : ByteString}

def digit (n : Nat) : UInt8 :=
  if n < 26 then .ofNat (0x41 + n)
  else if n < 52 then .ofNat (0x61 + (n - 26))
  else if n < 62 then .ofNat (0x30 + (n - 52))
  else if n = 62 then 0x2B
  else 0x2F

def value? (c : UInt8) : Option Nat :=
  if ByteString.isUpper c then some (c.toNat - 0x41)
  else if ByteString.isLower c then some (c.toNat - 0x61 + 26)
  else if 0x30 ≤ c ∧ c ≤ 0x39 then some (c.toNat - 0x30 + 52)
  else if c = 0x2B then some 62
  else if c = 0x2F then some 63
  else none

def encode : ByteString → ByteString
  | a :: b :: c :: s =>
    digit (a.toNat / 4) :: digit (a.toNat % 4 * 16 + b.toNat / 16) ::
      digit (b.toNat % 16 * 4 + c.toNat / 64) :: digit (c.toNat % 64) :: encode s
  | [a, b] =>
    [digit (a.toNat / 4), digit (a.toNat % 4 * 16 + b.toNat / 16), digit (b.toNat % 16 * 4), pad]
  | [a] => [digit (a.toNat / 4), digit (a.toNat % 4 * 16), pad, pad]
  | []  => []

-- Padding only occurs at the end, and the bits that it leaves over are not looked at.
def decodeGroups : ByteString → Option ByteString
  | []                   => some []
  | a :: b :: c :: d :: s => do
    let a ← value? a
    let b ← value? b
    let x := .ofNat (a * 4 + b / 16)
    if c = pad then
      if d = pad ∧ s = [] then some [x] else none
    else
      let c ← value? c
      let y := .ofNat (b % 16 * 16 + c / 4)
      if d = pad then
        if s = [] then some [x, y] else none
      else
        let d ← value? d
        return x :: y :: .ofNat (c % 4 * 64 + d) :: (← decodeGroups s)
  | _ => none

def isNewline (c : UInt8) : Bool :=
  c = 0x0A ∨ c = 0x0D

-- Newlines are skipped wherever they are.
def decode (s : ByteString) : Option ByteString :=
  decodeGroups (s.filter (!isNewline ·))

def isChar (c : UInt8) : Bool :=
  (value? c).isSome || c = pad

theorem value?_digit (h : n < 64) : value? (digit n) = some n := by
  have : ∀ n : Fin 64, value? (digit n) = some n.val := by decide
  exact this ⟨n, h⟩

theorem digit_ne_pad (h : n < 64) : digit n ≠ pad := by
  have : ∀ n : Fin 64, digit n ≠ pad := by decide
  exact this ⟨n, h⟩

theorem isChar_digit (h : n < 64) : isChar (digit n) := by
  simp [isChar, value?_digit h]

theorem isChar_of_mem_encode (h : c ∈ encode s) : isChar c := by
  induction s using encode.induct
  case case1 a b d s hi =>
    have ha := a.toNat_lt
    have hb := b.toNat_lt
    have hd := d.toNat_lt
    simp only [encode, List.mem_cons] at h
    rcases h with h | h | h | h | h
    case inr.inr.inr.inr => exact hi h
    all_goals exact h ▸ isChar_digit (by omega)
  case case2 a b =>
    have ha := a.toNat_lt
    have hb := b.toNat_lt
    simp only [encode, List.mem_cons, List.not_mem_nil, or_false] at h
    rcases h with h | h | h | h
    case inr.inr.inr => exact h ▸ rfl
    all_goals exact h ▸ isChar_digit (by omega)
  case case3 a =>
    have ha := a.toNat_lt
    simp only [encode, List.mem_cons, List.not_mem_nil, or_false] at h
    rcases h with h | h | h | h
    case inr.inr.inl | inr.inr.inr => exact h ▸ rfl
    all_goals exact h ▸ isChar_digit (by omega)
  case case4 => simp [encode] at h

theorem ofNat_of_eq {b : UInt8} (h : n = b.toNat) : UInt8.ofNat n = b := by
  rw [h, UInt8.ofNat_toNat]

theorem decodeGroups_encode : decodeGroups (encode s) = some s := by
  induction s using encode.induct
  case case1 a b c s hi =>
    have ha := a.toNat_lt
    have hb := b.toNat_lt
    have hc := c.toNat_lt
    have h₁ : a.toNat / 4 < 64 := by omega
    have h₂ : a.toNat % 4 * 16 + b.toNat / 16 < 64 := by omega
    have h₃ : b.toNat % 16 * 4 + c.toNat / 64 < 64 := by omega
    have h₄ : c.toNat % 64 < 64 := by omega
    have hx : UInt8.ofNat (a.toNat / 4 * 4 + (a.toNat % 4 * 16 + b.toNat / 16) / 16) = a :=
      ofNat_of_eq (by omega)
    have hy : UInt8.ofNat ((a.toNat % 4 * 16 + b.toNat / 16) % 16 * 16 +
        (b.toNat % 16 * 4 + c.toNat / 64) / 4) = b :=
      ofNat_of_eq (by omega)
    have hz : UInt8.ofNat ((b.toNat % 16 * 4 + c.toNat / 64) % 4 * 64 + c.toNat % 64) = c :=
      ofNat_of_eq (by omega)
    simp only [encode, decodeGroups, value?_digit h₁, value?_digit h₂, value?_digit h₃, value?_digit h₄,
      if_neg (digit_ne_pad h₃), if_neg (digit_ne_pad h₄), Option.bind_eq_bind, Option.bind_some, hi, hx,
      hy, hz, Option.pure_def]
  case case2 a b =>
    have ha := a.toNat_lt
    have hb := b.toNat_lt
    have h₁ : a.toNat / 4 < 64 := by omega
    have h₂ : a.toNat % 4 * 16 + b.toNat / 16 < 64 := by omega
    have h₃ : b.toNat % 16 * 4 < 64 := by omega
    have hx : UInt8.ofNat (a.toNat / 4 * 4 + (a.toNat % 4 * 16 + b.toNat / 16) / 16) = a :=
      ofNat_of_eq (by omega)
    have hy : UInt8.ofNat ((a.toNat % 4 * 16 + b.toNat / 16) % 16 * 16 + b.toNat % 16 * 4 / 4) = b :=
      ofNat_of_eq (by omega)
    simp only [encode, decodeGroups, value?_digit h₁, value?_digit h₂, value?_digit h₃,
      if_neg (digit_ne_pad h₃), if_true, Option.bind_eq_bind, Option.bind_some, hx, hy]
  case case3 a =>
    have ha := a.toNat_lt
    have h₁ : a.toNat / 4 < 64 := by omega
    have h₂ : a.toNat % 4 * 16 < 64 := by omega
    have hx : UInt8.ofNat (a.toNat / 4 * 4 + a.toNat % 4 * 16 / 16) = a := ofNat_of_eq (by omega)
    simp only [encode, decodeGroups, value?_digit h₁, value?_digit h₂, and_self, if_true,
      Option.bind_eq_bind, Option.bind_some, hx]
  case case4 => rfl

theorem decode_encode (s : ByteString) : decode (encode s) = some s := by
  have hn : ∀ c, isChar c → !isNewline c := by
    intro c h
    simp only [isNewline, Bool.not_eq_true', decide_eq_false_iff_not]
    rintro (rfl | rfl) <;> contradiction
  rw [decode, List.filter_eq_self.mpr fun c hc => hn c (isChar_of_mem_encode hc), decodeGroups_encode]

example : encode (.ofString "light wo") = .ofString "bGlnaHQgd28=" ∧
    decode (.ofString "bGlnaHQgd28=") = some (.ofString "light wo") := by
  decide

theorem isChar_of_value? (h : value? c = some n) : isChar c := by
  simp [isChar, h]

theorem isChar_of_decodeGroups (h : decodeGroups s = some t) (hc : c ∈ s) : isChar c := by
  induction s using decodeGroups.induct generalizing t
  case case1 => simp at hc
  case case2 x y z w s hi =>
    simp only [decodeGroups, Option.bind_eq_bind, Option.bind_eq_some_iff] at h
    have ⟨_, hx, _, hy, h⟩ := h
    have hx := isChar_of_value? hx
    have hy := isChar_of_value? hy
    split at h
    case isTrue hz =>
      have ⟨hw, hs⟩ := (Option.ite_none_right_eq_some.mp h).left
      have hp : isChar pad := rfl
      grind
    case isFalse =>
      simp only [Option.bind_eq_some_iff] at h
      have ⟨_, hz, h⟩ := h
      have hz := isChar_of_value? hz
      split at h
      case isTrue hw =>
        have hs := (Option.ite_none_right_eq_some.mp h).left
        have hp : isChar pad := rfl
        grind
      case isFalse =>
        simp only [Option.bind_eq_some_iff] at h
        have ⟨_, hw, _, hs, _⟩ := h
        have hw := isChar_of_value? hw
        have hs := hi hs
        grind
  case case3 h₁ h₂ => simp [decodeGroups] at h

-- All of a text that can be decoded belongs to the alphabet, apart from the newlines.
theorem isChar_of_decode (h : decode s = some t) (hc : c ∈ s) (hn : ¬isNewline c) : isChar c :=
  isChar_of_decodeGroups h (List.mem_filter.mpr ⟨hc, by simpa using hn⟩)

theorem encode_ne_nil (h : s ≠ []) : encode s ≠ [] := by
  cases s using encode.induct <;> simp_all [encode]

end Base64

namespace Hex

def digit (n : Nat) : UInt8 :=
  if n < 10 then .ofNat (0x30 + n) else .ofNat (0x61 + (n - 10))

def encode (s : ByteString) : ByteString :=
  s.flatMap fun b => [digit (b.toNat / 16), digit (b.toNat % 16)]

end Hex
