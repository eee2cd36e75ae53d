import Mathlib.Data.List.TakeWhile
import VpnTunnel.Lib.Netip.Basic
import VpnTunnel.Lib.Batch

namespace Netip

variable {n d g : Nat} {s t zone : ByteString} {fields ip : List UInt8} {e : Option Nat}
  {gs ls : List Nat}

theorem isDigit_digit (h : d < 10) : isDigit (digit d) ∧ (digit d).toNat - 0x30 = d := by
  have : ∀ d : Fin 10, isDigit (digit d) ∧ (digit d).toNat - 0x30 = d := by decide
  exact this ⟨d, h⟩

theorem hexVal_digit (h : d < 16) : hexVal (digit d) = some d := by
  have : ∀ d : Fin 16, hexVal (digit d) = some d.val := by decide
  exact this ⟨d, h⟩

section IPv4

open parseIPv4Fields (go)

theorem go_digit {val digLen : Nat} (h : d < 10) (hz : ¬(digLen = 1 ∧ val = 0))
    (hv : val * 10 + d ≤ 255) :
    go val digLen fields (digit d :: s) = go (val * 10 + d) (digLen + 1) fields s := by
  have ⟨h₁, h₂⟩ := isDigit_digit h
  rw [go, if_pos h₁, if_neg hz, h₂, if_neg (by omega)]

theorem go_decimal (fields : List UInt8) (s : ByteString) (h : n < 256) :
    ∃ digLen > 0, go 0 0 fields (decimal n ++ s) = go n digLen fields s := by
  by_cases h₁ : n ≥ 100
  case pos =>
    refine ⟨3, by simp, ?_⟩
    have h₂ : n ≥ 10 := by omega
    simp only [decimal, if_pos h₁, if_pos h₂, List.cons_append, List.nil_append]
    rw [go_digit (by omega) (by omega) (by omega), go_digit (by omega) (by omega) (by omega),
      go_digit (by omega) (by omega) (by omega)]
    congr
    omega
  case neg =>
    by_cases h₂ : n ≥ 10
    case pos =>
      refine ⟨2, by simp, ?_⟩
      simp only [decimal, if_neg h₁, if_pos h₂, List.cons_append, List.nil_append]
      rw [go_digit (by omega) (by omega) (by omega), go_digit (by omega) (by omega) (by omega)]
      congr
      omega
    case neg =>
      refine ⟨1, by simp, ?_⟩
      simp only [decimal, if_neg h₁, if_neg h₂, List.cons_append, List.nil_append]
      rw [go_digit (by omega) (by omega) (by omega)]
      congr
      omega

theorem go_dot {val digLen : Nat} (hd : digLen > 0) (hs : s ≠ []) (hf : fields.length < 3) :
    go val digLen fields (dot :: s) = go 0 0 (fields ++ [.ofNat val]) s := by
  rw [go, if_neg (by decide), if_pos rfl, if_neg (by simp [hs]; omega), if_neg (by omega)]

theorem decimal_ne_nil : decimal n ≠ [] := by
  simp [decimal]

-- An octet that is followed by another one, and the last octet.
theorem go_octet (h : n < 256) (hs : s ≠ []) (hf : fields.length < 3) :
    go 0 0 fields (decimal n ++ dot :: s) = go 0 0 (fields ++ [.ofNat n]) s := by
  have ⟨_, hd, he⟩ := go_decimal fields (dot :: s) h
  rw [he, go_dot hd hs hf]

theorem go_octet_end (h : n < 256) (hf : fields.length = 3) :
    go 0 0 fields (decimal n) = .ok (fields ++ [.ofNat n]) := by
  have ⟨_, hd, he⟩ := go_decimal fields [] h
  rw [List.append_nil] at he
  rw [he, go, if_neg (by omega)]

theorem parseIPv4Fields_string4 (a : BitVec 32) :
    parseIPv4Fields (string4 a) = .ok ((octets a).map .ofNat) := by
  have ha := a.isLt
  simp only [parseIPv4Fields, string4, octets, List.intercalate, List.map_cons, List.map_nil,
    List.intersperse, List.flatten_cons, List.flatten_nil, List.append_nil, List.cons_append,
    List.nil_append]
  rw [go_octet (by omega) (by simp [decimal_ne_nil]) (by simp),
    go_octet (by omega) (by simp [decimal_ne_nil]) (by simp),
    go_octet (by omega) decimal_ne_nil (by simp), go_octet_end (by omega) (by simp)]
  simp

theorem ofBytes_octets (a : BitVec 32) : ofBytes 32 ((octets a).map .ofNat) = a := by
  have ha := a.isLt
  apply BitVec.eq_of_toNat_eq
  simp [ofBytes, octets]
  omega

end IPv4

section IPv6

theorem parseHex_digit {off acc : Nat} (h : d < 16) (ho : off ≤ 3) (ha : acc * 16 + d ≤ 0xffff) :
    parseHex off acc (digit d :: s) = parseHex (off + 1) (acc * 16 + d) s := by
  rw [parseHex, hexVal_digit h]
  simp only
  rw [if_neg (by omega), if_neg (by omega)]

-- A group ends where no digit follows.
theorem parseHex_stop {off acc : Nat} (h : ∀ c ∈ t.head?, hexVal c = none) :
    parseHex off acc t = .ok (off, acc, t) := by
  cases t
  case nil => rfl
  case cons c s => rw [parseHex, h c rfl]

theorem parseHex_hex (hn : n < 0x10000) (h : ∀ c ∈ t.head?, hexVal c = none) :
    ∃ off > 0, parseHex 0 0 (hex n ++ t) = .ok (off, n, t) := by
  by_cases h₁ : n ≥ 0x1000
  case pos =>
    refine ⟨4, by simp, ?_⟩
    have h₂ : n ≥ 0x100 := by omega
    have h₃ : n ≥ 0x10 := by omega
    simp only [hex, if_pos h₁, if_pos h₂, if_pos h₃, List.cons_append, List.nil_append]
    rw [parseHex_digit (by omega) (by omega) (by omega),
      parseHex_digit (by omega) (by omega) (by omega),
      parseHex_digit (by omega) (by omega) (by omega),
      parseHex_digit (by omega) (by omega) (by omega), parseHex_stop h]
    congr
    omega
  case neg =>
    by_cases h₂ : n ≥ 0x100
    case pos =>
      refine ⟨3, by simp, ?_⟩
      have h₃ : n ≥ 0x10 := by omega
      simp only [hex, if_neg h₁, if_pos h₂, if_pos h₃, List.cons_append, List.nil_append]
      rw [parseHex_digit (by omega) (by omega) (by omega),
        parseHex_digit (by omega) (by omega) (by omega),
        parseHex_digit (by omega) (by omega) (by omega), parseHex_stop h]
      congr
      omega
    case neg =>
      by_cases h₃ : n ≥ 0x10
      case pos =>
        refine ⟨2, by simp, ?_⟩
        simp only [hex, if_neg h₁, if_neg h₂, if_pos h₃, List.cons_append, List.nil_append]
        rw [parseHex_digit (by omega) (by omega) (by omega),
          parseHex_digit (by omega) (by omega) (by omega), parseHex_stop h]
        congr
        omega
      case neg =>
        refine ⟨1, by simp, ?_⟩
        simp only [hex, if_neg h₁, if_neg h₂, if_neg h₃, List.cons_append, List.nil_append]
        rw [parseHex_digit (by omega) (by omega) (by omega), parseHex_stop h]
        congr
        omega

-- The two bytes of a group.
def groupBytes (g : Nat) : List UInt8 :=
  [.ofNat (g / 256), .ofNat (g % 256)]

theorem parseGroups_end (hg : g < 0x10000) :
    parseGroups (n + 1) ip e (hex g) = .ok (ip ++ groupBytes g, e, []) := by
  have ⟨off, ho, he⟩ := parseHex_hex (t := []) hg (by simp)
  rw [List.append_nil] at he
  simp [parseGroups, he, bind, Except.bind, pure, Except.pure, groupBytes, Nat.ne_of_gt ho]

theorem parseGroups_colon (hg : g < 0x10000) {c : UInt8} (hc : c ≠ colon) :
    parseGroups (n + 1) ip e (hex g ++ colon :: c :: s) =
      parseGroups n (ip ++ groupBytes g) e (c :: s) := by
  have ⟨off, ho, he⟩ := parseHex_hex (t := colon :: c :: s) hg (by simp; decide)
  have hd : colon ≠ dot := by decide
  simp [parseGroups, he, bind, Except.bind, groupBytes, Nat.ne_of_gt ho, hc, hd]

theorem parseGroups_ellipsis (hg : g < 0x10000) :
    parseGroups (n + 1) ip none (hex g ++ colon :: colon :: s) =
      if s = [] then .ok (ip ++ groupBytes g, some (ip.length + 2), [])
      else parseGroups n (ip ++ groupBytes g) (some (ip.length + 2)) s := by
  have ⟨off, ho, he⟩ := parseHex_hex (t := colon :: colon :: s) hg (by simp; decide)
  have hd : colon ≠ dot := by decide
  simp [parseGroups, he, bind, Except.bind, pure, Except.pure, groupBytes, Nat.ne_of_gt ho, hd]

-- The digits are none of the characters that structure an address.
theorem isSome_hexVal_of_mem_hex {c : UInt8} (hn : n < 0x10000) (h : c ∈ hex n) :
    (hexVal c).isSome := by
  have hd {d : Nat} (hd : d < 16) (h : c = digit d) : (hexVal c).isSome := by
    rw [h, hexVal_digit hd]
    rfl
  simp only [hex, List.mem_append, List.mem_ite_nil_right, List.mem_singleton] at h
  rcases h with ((h | h) | h) | h
  · exact hd (by omega) h.right
  · exact hd (by omega) h.right
  · exact hd (by omega) h.right
  · exact hd (by omega) h

theorem hex_ne_nil : hex n ≠ [] := by
  simp [hex]

theorem joinGroups_cons : joinGroups (g :: gs) =
    hex g ++ (if gs = [] then [] else colon :: joinGroups gs) := by
  cases gs <;> simp [joinGroups, List.intercalate]

-- A list of groups starts with a digit.
theorem joinGroups_eq_cons (hn : gs ≠ []) (hg : ∀ g ∈ gs, g < 0x10000) :
    ∃ c s, joinGroups gs = c :: s ∧ (hexVal c).isSome := by
  have ⟨g, gs', h⟩ := List.exists_cons_of_ne_nil hn
  subst h
  have ⟨c, s, h⟩ := List.exists_cons_of_ne_nil (hex_ne_nil (n := g))
  refine ⟨c, _, by rw [joinGroups_cons, h, List.cons_append], ?_⟩
  exact isSome_hexVal_of_mem_hex (hg g (by simp)) (h ▸ List.mem_cons_self)

theorem ne_colon_of_isSome_hexVal {c : UInt8} (h : (hexVal c).isSome) : c ≠ colon := by
  intro hc
  subst hc
  exact absurd h (by decide)

theorem parseGroups_joinGroups (hn : gs ≠ []) (hl : gs.length ≤ n) (hg : ∀ g ∈ gs, g < 0x10000) :
    parseGroups n ip e (joinGroups gs) = .ok (ip ++ gs.flatMap groupBytes, e, []) := by
  induction gs generalizing n ip
  case nil => contradiction
  case cons g gs hi =>
    have ⟨n, hn⟩ := Nat.exists_eq_add_one.mpr (Nat.lt_of_lt_of_le (by simp) hl)
    subst hn
    simp only [List.mem_cons, forall_eq_or_imp] at hg
    rw [joinGroups_cons]
    split
    case isTrue h => simp [h, parseGroups_end hg.left]
    case isFalse h =>
      have ⟨c, s, hs, hc⟩ := joinGroups_eq_cons h hg.right
      rw [hs, parseGroups_colon hg.left (ne_colon_of_isSome_hexVal hc), ← hs,
        hi h (by simpa using hl) hg.right]
      simp

theorem parseGroups_joinGroups_ellipsis (hn : ls ≠ []) (hl : ls.length ≤ n)
    (hg : ∀ g ∈ ls, g < 0x10000) :
    parseGroups n ip none (joinGroups ls ++ colon :: colon :: s) =
      if s = [] then
        .ok (ip ++ ls.flatMap groupBytes, some (ip.length + 2 * ls.length), [])
      else
        parseGroups (n - ls.length) (ip ++ ls.flatMap groupBytes)
          (some (ip.length + 2 * ls.length)) s := by
  induction ls generalizing n ip
  case nil => contradiction
  case cons g ls hi =>
    have ⟨n, hn⟩ := Nat.exists_eq_add_one.mpr (Nat.lt_of_lt_of_le (by simp) hl)
    subst hn
    simp only [List.mem_cons, forall_eq_or_imp] at hg
    rw [joinGroups_cons]
    by_cases h : ls = []
    case pos => simp [h, parseGroups_ellipsis hg.left]
    case neg =>
      have ⟨c, s', hs, hc⟩ := joinGroups_eq_cons h hg.right
      rw [if_neg h, hs, List.append_assoc, List.cons_append, List.cons_append,
        parseGroups_colon hg.left (ne_colon_of_isSome_hexVal hc), ← List.cons_append, ← hs,
        hi h (by simpa using hl) hg.right]
      have hb : (groupBytes g).length = 2 := rfl
      have hk : ip.length + 2 + 2 * ls.length = ip.length + 2 * (ls.length + 1) := by omega
      simp [hb, hk]

-- The run that is written as an ellipsis consists of zeros.
structure ZeroRun (gs : List Nat) (i j : Nat) : Prop where
  two_le    : i + 2 ≤ j
  le_length : j ≤ gs.length
  eq_append : gs = gs.take i ++ .replicate (j - i) 0 ++ gs.drop j

theorem ZeroRun.of_takeWhile {i : Nat} (hi : i ≤ gs.length)
    (h : 2 ≤ ((gs.drop i).takeWhile (· = 0)).length) :
    ZeroRun gs i (i + ((gs.drop i).takeWhile (· = 0)).length) where
  two_le := by omega
  le_length := by
    have := (List.takeWhile_sublist (· = 0) (l := gs.drop i)).length_le
    rw [List.length_drop] at this
    omega
  eq_append := by
    have hz : (gs.drop i).takeWhile (· = 0) = .replicate ((gs.drop i).takeWhile (· = 0)).length 0 :=
      List.eq_replicate_iff.mpr ⟨rfl, fun b hb => by simpa using List.mem_takeWhile_imp hb⟩
    have ht := List.prefix_iff_eq_take.mp (List.takeWhile_prefix (l := gs.drop i) (· = 0))
    have hd := List.take_append_drop ((gs.drop i).takeWhile (· = 0)).length (gs.drop i)
    rw [← ht] at hd
    rw [Nat.add_sub_cancel_left, ← hz, ← List.drop_drop, List.append_assoc, hd,
      List.take_append_drop]

theorem zeroRun_spec {i j : Nat} (h : zeroRun gs = some (i, j)) : ZeroRun gs i j := by
  suffices hs : ∀ r ∈ zeroRun gs, ZeroRun gs r.1 r.2 from hs _ h
  unfold zeroRun
  refine List.foldlRecOn (motive := fun run : Option (Nat × Nat) => ∀ r ∈ run, ZeroRun gs r.1 r.2)
    _ _ (by simp) ?_
  intro run hr i hi
  simp only
  split
  case isTrue h =>
    intro r hr
    cases Option.some.inj hr
    exact .of_takeWhile (by simpa using (List.mem_range.mp hi).le) (by simpa using h.left)
  case isFalse => exact hr

theorem foldl_groupBytes (hg : ∀ g ∈ gs, g < 0x10000) :
    (gs.flatMap groupBytes).foldl (fun n b => n * 256 + b.toNat) n =
      gs.foldl (fun n g => n * 2 ^ 16 + g) n := by
  induction gs generalizing n
  case nil => rfl
  case cons g gs hi =>
    simp only [List.mem_cons, forall_eq_or_imp] at hg
    have hs : (n * 256 + g / 256 % 256) * 256 + g % 256 = n * 2 ^ 16 + g := by omega
    simp [groupBytes, hi hg.right, hs]

theorem div_pow_step (m k : Nat) : m / 2 ^ (k + 16) * 2 ^ 16 + m / 2 ^ k % 2 ^ 16 = m / 2 ^ k := by
  rw [Nat.pow_add, ← Nat.div_div_eq_div_mul]
  omega

theorem groups_lt (a : BitVec 128) : ∀ g ∈ groups a, g < 0x10000 := by
  have ha : a.toNat / 2 ^ 112 < 0x10000 := Nat.div_lt_of_lt_mul a.isLt
  have hm (m : Nat) : m % 2 ^ 16 < 0x10000 := Nat.mod_lt _ (by decide)
  simp only [groups, List.forall_mem_cons, List.not_mem_nil, false_implies, implies_true, and_true]
  exact ⟨ha, hm _, hm _, hm _, hm _, hm _, hm _, hm _⟩

theorem ofBytes_groups (a : BitVec 128) : ofBytes 128 ((groups a).flatMap groupBytes) = a := by
  have hs := div_pow_step a.toNat
  have hg : (groups a).foldl (fun n g => n * 2 ^ 16 + g) 0 = a.toNat := by
    simp only [groups, List.foldl_cons, List.foldl_nil, Nat.zero_mul, Nat.zero_add]
    rw [hs 96, hs 80, hs 64, hs 48, hs 32, hs 16]
    exact Nat.div_add_mod' ..
  rw [ofBytes, foldl_groupBytes (groups_lt a), hg, BitVec.ofNat_toNat]
  rfl

theorem length_flatMap_groupBytes : (gs.flatMap groupBytes).length = 2 * gs.length := by
  simp [List.length_flatMap, groupBytes, Nat.mul_comm]

theorem leadingEllipsis_cons {c : UInt8} (hc : c ≠ colon) :
    leadingEllipsis (c :: s) = (none, c :: s) := by
  cases s <;> simp [leadingEllipsis, hc]

-- An ellipsis stands for as many zeros as there is room for.
theorem parseUnzoned_ellipsis (left : List UInt8) {right : List UInt8} {e : Option Nat}
    (he : leadingEllipsis s = (e, t)) (hn : t ≠ [])
    (hp : parseGroups 8 [] e t = .ok (left ++ right, some left.length, []))
    (hl : left.length + right.length < 16) :
    parseUnzoned zone s =
      .ok (.v6 (ofBytes 128 (left ++ .replicate (16 - (left.length + right.length)) 0 ++ right))
        zone) := by
  simp [parseUnzoned, he, hn, hp, bind, Except.bind, pure, Except.pure, hl]

theorem parseUnzoned_joinGroups (hg : ∀ g ∈ gs, g < 0x10000) (hl : gs.length = 8) :
    parseUnzoned zone (joinGroups gs) = .ok (.v6 (ofBytes 128 (gs.flatMap groupBytes)) zone) := by
  have hn : gs ≠ [] := List.ne_nil_of_length_pos (by omega)
  have ⟨c, s, hs, hc⟩ := joinGroups_eq_cons hn hg
  have hp : parseGroups 8 [] none (joinGroups gs) = _ := parseGroups_joinGroups hn hl.le hg
  have he := leadingEllipsis_cons (s := s) (ne_colon_of_isSome_hexVal hc)
  rw [← hs] at he
  simp [parseUnzoned, he, hp, bind, Except.bind, pure, Except.pure, length_flatMap_groupBytes, hl,
    -List.length_flatMap]

theorem ZeroRun.flatMap_groupBytes {i j : Nat} (r : ZeroRun gs i j) :
    gs.flatMap groupBytes = (gs.take i).flatMap groupBytes ++ .replicate (2 * (j - i)) 0 ++
      (gs.drop j).flatMap groupBytes := by
  have hz (k : Nat) : (List.replicate k 0).flatMap groupBytes = .replicate (2 * k) 0 := by
    induction k
    case zero => rfl
    case succ k hi => simp [List.replicate_succ, hi, groupBytes, Nat.mul_add]
  conv_lhs => rw [r.eq_append]
  simp [hz]

theorem joinGroups_eq_nil_iff : joinGroups gs = [] ↔ gs = [] := by
  cases gs <;> simp [joinGroups_cons, hex_ne_nil]
  rfl

-- The groups before and after an ellipsis that stands for `k` groups.
theorem parseUnzoned_append {rs : List Nat} {k : Nat} (hl : ∀ g ∈ ls, g < 0x10000)
    (hr : ∀ g ∈ rs, g < 0x10000) (hk : ls.length + k + rs.length = 8) (hk' : 0 < k) :
    parseUnzoned zone (joinGroups ls ++ [colon, colon] ++ joinGroups rs) =
      .ok (.v6 (ofBytes 128 (ls.flatMap groupBytes ++ .replicate (2 * k) 0 ++
        rs.flatMap groupBytes)) zone) := by
  have hz : 2 * k = 16 - ((ls.flatMap groupBytes).length + (rs.flatMap groupBytes).length) := by
    simp only [length_flatMap_groupBytes]
    omega
  rw [hz, List.append_assoc]
  by_cases hln : ls = []
  case pos =>
    subst hln
    by_cases hrn : rs = []
    case pos =>
      subst hrn
      rfl
    case neg =>
      refine parseUnzoned_ellipsis [] rfl ?_ ?_ ?_
      · simpa [joinGroups_eq_nil_iff] using hrn
      · exact parseGroups_joinGroups hrn (by omega) hr
      · simp only [length_flatMap_groupBytes, List.length_nil]
        omega
  case neg =>
    have ⟨c, s, hs, hc⟩ := joinGroups_eq_cons hln hl
    refine parseUnzoned_ellipsis _ (e := none)
      (t := joinGroups ls ++ ([colon, colon] ++ joinGroups rs)) ?_ ?_ ?_ ?_
    · rw [hs, List.cons_append, leadingEllipsis_cons (ne_colon_of_isSome_hexVal hc)]
    · simp
    · rw [List.cons_append, List.cons_append, List.nil_append,
        parseGroups_joinGroups_ellipsis hln (by omega) hl]
      split
      case isTrue h => simp [joinGroups_eq_nil_iff.mp h, length_flatMap_groupBytes, -List.length_flatMap]
      case isFalse h =>
        rw [parseGroups_joinGroups (mt joinGroups_eq_nil_iff.mpr h) (by omega) hr]
        simp [length_flatMap_groupBytes, -List.length_flatMap]
    · simp only [length_flatMap_groupBytes]
      omega

theorem parseUnzoned_stringGroups (hg : ∀ g ∈ gs, g < 0x10000) (hl : gs.length = 8) :
    parseUnzoned zone (stringGroups gs) =
      .ok (.v6 (ofBytes 128 (gs.flatMap groupBytes)) zone) := by
  cases hz : zeroRun gs <;> simp only [stringGroups, hz]
  case none => exact parseUnzoned_joinGroups hg hl
  case some r =>
    rcases r with ⟨i, j⟩
    have r := zeroRun_spec hz
    rw [r.flatMap_groupBytes]
    have h₁ := r.two_le
    have h₂ := r.le_length
    exact parseUnzoned_append (fun g h => hg g (List.mem_of_mem_take h))
      (fun g h => hg g (List.mem_of_mem_drop h)) (by simp; omega) (by omega)

-- The first octet of an embedded IPv4 address is read as a group at first.
theorem parseHex_decimal (hn : n < 256) (h : ∀ c ∈ t.head?, hexVal c = none) :
    ∃ off > 0, ∃ acc, parseHex 0 0 (decimal n ++ t) = .ok (off, acc, t) := by
  have hd {off acc d : Nat} (h : d < 10) (ho : off ≤ 3) (ha : acc ≤ 0xfff) (s : ByteString) :
      parseHex off acc (digit d :: s) = parseHex (off + 1) (acc * 16 + d) s :=
    parseHex_digit (by omega) ho (by omega)
  by_cases h₁ : n ≥ 100
  case pos =>
    refine ⟨3, by simp, ((0 * 16 + n / 100) * 16 + n / 10 % 10) * 16 + n % 10, ?_⟩
    have h₂ : n ≥ 10 := by omega
    simp only [decimal, if_pos h₁, if_pos h₂, List.cons_append, List.nil_append]
    rw [hd (by omega) (by omega) (by omega), hd (by omega) (by omega) (by omega),
      hd (by omega) (by omega) (by omega), parseHex_stop h]
  case neg =>
    by_cases h₂ : n ≥ 10
    case pos =>
      refine ⟨2, by simp, (0 * 16 + n / 10 % 10) * 16 + n % 10, ?_⟩
      simp only [decimal, if_neg h₁, if_pos h₂, List.cons_append, List.nil_append]
      rw [hd (by omega) (by omega) (by omega), hd (by omega) (by omega) (by omega), parseHex_stop h]
    case neg =>
      refine ⟨1, by simp, 0 * 16 + n % 10, ?_⟩
      simp only [decimal, if_neg h₁, if_neg h₂, List.cons_append, List.nil_append]
      rw [hd (by omega) (by omega) (by omega), parseHex_stop h]

theorem string4_eq (a : BitVec 32) : ∃ s, string4 a = decimal (a.toNat / 2 ^ 24) ++ dot :: s := by
  simp [string4, octets, List.intercalate]

theorem parseGroups_string4 {k : Nat} (a : BitVec 32) (h : ip.length + 4 ≤ 16) :
    parseGroups (n + 1) ip (some k) (string4 a) =
      .ok (ip ++ (octets a).map .ofNat, some k, []) := by
  have ⟨s, hs⟩ := string4_eq a
  have hp := parseIPv4Fields_string4 a
  have hl : a.toNat / 2 ^ 24 < 256 := Nat.div_lt_of_lt_mul a.isLt
  have ⟨off, ho, acc, he⟩ := parseHex_decimal (t := dot :: s) hl (by simp; decide)
  rw [← hs] at he
  have hi : ¬16 < ip.length + 4 := by omega
  simp [parseGroups, he, hp, bind, Except.bind, pure, Except.pure, Nat.ne_of_gt ho, hi]

theorem ofBytes_mapped {a : BitVec 128} (h : a >>> 32 = 0xffff) :
    ofBytes 128 (.replicate 10 0 ++ (groupBytes 0xffff ++ (octets (a.setWidth 32)).map .ofNat)) = a := by
  have ha := a.isLt
  have h : a.toNat / 2 ^ 32 = 0xffff := by
    simpa [Nat.shiftRight_eq_div_pow] using congrArg BitVec.toNat h
  apply BitVec.eq_of_toNat_eq
  simp [ofBytes, octets, groupBytes, List.replicate]
  omega

theorem isSome_hexVal_of_mem_decimal {c : UInt8} (hn : n < 256) (h : c ∈ decimal n) :
    (hexVal c).isSome := by
  have hd {d : Nat} (hd : d < 10) (h : c = digit d) : (hexVal c).isSome := by
    rw [h, hexVal_digit (by omega)]
    rfl
  simp only [decimal, List.mem_append, List.mem_ite_nil_right, List.mem_singleton] at h
  rcases h with (h | h) | h
  · exact hd (by omega) h.right
  · exact hd (by omega) h.right
  · exact hd (by omega) h

theorem octets_lt (a : BitVec 32) : ∀ n ∈ octets a, n < 256 := by
  have ha : a.toNat / 2 ^ 24 < 256 := Nat.div_lt_of_lt_mul a.isLt
  have hm (m : Nat) : m % 256 < 256 := Nat.mod_lt _ (by decide)
  simp only [octets, List.forall_mem_cons, List.not_mem_nil, false_implies, implies_true, and_true]
  exact ⟨ha, hm _, hm _, hm _⟩

theorem parseGroups_mapped (a : BitVec 32) :
    parseGroups 8 [] (some 0) (hex 0xffff ++ colon :: string4 a) =
      .ok (groupBytes 0xffff ++ (octets a).map .ofNat, some 0, []) := by
  have ⟨s, hs⟩ := string4_eq a
  have ⟨c, s', hc⟩ := List.exists_cons_of_ne_nil (decimal_ne_nil (n := a.toNat / 2 ^ 24))
  have hc' : c ≠ colon := ne_colon_of_isSome_hexVal <|
    isSome_hexVal_of_mem_decimal (octets_lt a _ List.mem_cons_self) (hc ▸ List.mem_cons_self)
  rw [hs, hc, List.cons_append, parseGroups_colon (by omega) hc', ← List.cons_append, ← hc, ← hs,
    parseGroups_string4 _ (by simp [groupBytes])]
  rfl

theorem parseUnzoned_mapped {a : BitVec 128} (h : a >>> 32 = 0xffff) :
    parseUnzoned zone (.ofString "::ffff:" ++ string4 (a.setWidth 32)) = .ok (.v6 a zone) := by
  have he : leadingEllipsis (.ofString "::ffff:" ++ string4 (a.setWidth 32)) =
    (some 0, hex 0xffff ++ colon :: string4 (a.setWidth 32)) := rfl
  have hp := parseGroups_mapped (a.setWidth 32)
  refine (parseUnzoned_ellipsis [] he (by simp) hp (by simp [octets])).trans ?_
  exact congrArg (fun x => Except.ok (Addr.v6 x zone)) (ofBytes_mapped h)

end IPv6

-- The characters of an address without its zone.
def isPlain (c : UInt8) : Bool :=
  (hexVal c).isSome ∨ c = colon ∨ c = dot

theorem isPlain_of_mem_intercalate {c sep : UInt8} {l : List ByteString} (hs : isPlain sep)
    (hl : ∀ s ∈ l, ∀ c ∈ s, (hexVal c).isSome) (h : c ∈ [sep].intercalate l) : isPlain c := by
  induction l
  case nil => simp [List.intercalate] at h
  case cons a l hi =>
    simp only [List.forall_mem_cons] at hl
    have ha (h : c ∈ a) : isPlain c := by simp [isPlain, hl.left c h]
    cases l
    case nil => exact ha (by simpa [List.intercalate] using h)
    case cons b l =>
      have h : c ∈ a ∨ c = sep ∨ c ∈ [sep].intercalate (b :: l) := by
        simpa [List.intercalate] using h
      rcases h with h | h | h
      · exact ha h
      · exact h ▸ hs
      · exact hi hl.right h

theorem isPlain_of_mem_string4 {c : UInt8} {a : BitVec 32} (h : c ∈ string4 a) : isPlain c := by
  refine isPlain_of_mem_intercalate (by decide) ?_ h
  intro s hs c hc
  have ⟨n, hn, hs⟩ := List.mem_map.mp hs
  exact isSome_hexVal_of_mem_decimal (octets_lt a n hn) (hs ▸ hc)

theorem isPlain_of_mem_joinGroups {c : UInt8} (hg : ∀ g ∈ gs, g < 0x10000)
    (h : c ∈ joinGroups gs) : isPlain c := by
  refine isPlain_of_mem_intercalate (by decide) ?_ h
  intro s hs c hc
  have ⟨g, hg', hs⟩ := List.mem_map.mp hs
  exact isSome_hexVal_of_mem_hex (hg g hg') (hs ▸ hc)

theorem isPlain_of_mem_stringGroups {c : UInt8} (hg : ∀ g ∈ gs, g < 0x10000)
    (h : c ∈ stringGroups gs) : isPlain c := by
  simp only [stringGroups] at h
  split at h
  case h_1 => exact isPlain_of_mem_joinGroups hg h
  case h_2 i j _ =>
    simp only [List.mem_append] at h
    rcases h with (h | h) | h
    · exact isPlain_of_mem_joinGroups (fun g h => hg g (List.mem_of_mem_take h)) h
    · have : c = colon := by simpa using h
      simp [isPlain, this]
    · exact isPlain_of_mem_joinGroups (fun g h => hg g (List.mem_of_mem_drop h)) h

theorem isPlain_of_mem_mapped {c : UInt8} {a : BitVec 32}
    (h : c ∈ ByteString.ofString "::ffff:" ++ string4 a) : isPlain c := by
  have hf : ∀ c ∈ ByteString.ofString "::ffff:", isPlain c := List.all_eq_true.mp (by decide)
  cases List.mem_append.mp h
  case inl h => exact hf c h
  case inr h => exact isPlain_of_mem_string4 h

theorem splitZone_append (zone : ByteString) (h : percent ∉ s) :
    splitZone (s ++ zoneSuffix zone) = .ok (s, zone) := by
  have hw : ∀ c ∈ s, decide (c ≠ percent) := by
    intro c hc
    simpa using fun he : c = percent => h (he ▸ hc)
  have ht : (s ++ percent :: zone).takeWhile (· ≠ percent) = s := by
    rw [List.takeWhile_append_of_pos hw]
    simp
  have hd : (s ++ percent :: zone).dropWhile (· ≠ percent) = percent :: zone := by
    rw [List.dropWhile_append_of_pos hw]
    simp
  by_cases hz : zone = []
  case pos => simp [splitZone, zoneSuffix, hz, h]
  case neg =>
    simp only [splitZone, zoneSuffix, if_neg hz, ht, hd, List.drop_one, List.tail_cons]
    rw [if_pos (by simp)]

-- An address is read in the format of the first of its characters that is no digit.
theorem find_special {c : UInt8} (hs : ∀ c ∈ s, (hexVal c).isSome)
    (hc : c = dot ∨ c = colon ∨ c = percent) :
    (s ++ c :: t).find? (fun c => c = dot ∨ c = colon ∨ c = percent) = some c := by
  rw [List.find?_append, List.find?_eq_none.mpr, Option.none_or, List.find?_cons_of_pos (by simpa using hc)]
  intro d hd
  have := hs d hd
  simp only [decide_eq_true_eq]
  rintro (h | h | h) <;> subst h <;> exact absurd this (by decide)

-- Digits, and then a colon.
def IsColonText (s : ByteString) : Prop :=
  ∃ ds t, s = ds ++ colon :: t ∧ ∀ c ∈ ds, (hexVal c).isSome

theorem isColonText_hex (hg : g < 0x10000) : IsColonText (hex g ++ colon :: s) :=
  ⟨hex g, s, rfl, fun _ => isSome_hexVal_of_mem_hex hg⟩

theorem isColonText_joinGroups (hg : ∀ g ∈ gs, g < 0x10000) :
    IsColonText (joinGroups gs ++ colon :: s) := by
  cases gs
  case nil => exact ⟨[], s, rfl, by simp⟩
  case cons g gs =>
    rw [joinGroups_cons]
    split
    case isTrue => simpa using isColonText_hex (hg g (by simp))
    case isFalse => simpa using isColonText_hex (hg g (by simp))

theorem isColonText_stringGroups (hg : ∀ g ∈ gs, g < 0x10000) (hl : 2 ≤ gs.length) :
    IsColonText (stringGroups gs) := by
  simp only [stringGroups]
  split
  case h_1 =>
    have ⟨g, g', gs', h⟩ : ∃ g g' gs', gs = g :: g' :: gs' := by
      match gs, hl with
      | g :: g' :: gs', _ => exact ⟨g, g', gs', rfl⟩
    subst h
    rw [joinGroups_cons, if_neg (by simp)]
    exact isColonText_hex (hg g (by simp))
  case h_2 =>
    simpa using isColonText_joinGroups fun g h => hg g (List.mem_of_mem_take h)

theorem IsColonText.append (h : IsColonText s) : IsColonText (s ++ t) := by
  have ⟨ds, s', hs, hd⟩ := h
  exact ⟨ds, s' ++ t, by simp [hs], hd⟩

theorem isColonText_mapped {a : BitVec 32} : IsColonText (.ofString "::ffff:" ++ string4 a) :=
  ⟨[], _, rfl, by simp⟩

theorem isColonText_string (a : BitVec 128) (zone : ByteString) :
    IsColonText (Addr.v6 a zone).string := by
  simp only [Addr.string]
  split
  case isTrue  => exact isColonText_mapped.append
  case isFalse => exact (isColonText_stringGroups (groups_lt a) (by simp [groups])).append

theorem parseAddr_zoned (hc : IsColonText s) (hp : ∀ c ∈ s, isPlain c) :
    parseAddr (s ++ zoneSuffix zone) = parseUnzoned zone s := by
  have hs := splitZone_append zone fun h => absurd (hp _ h) (by decide)
  have ⟨ds, t, h, hd⟩ := hc
  have hf := find_special (t := t ++ zoneSuffix zone) hd (.inr (.inl rfl))
  rw [← List.cons_append, ← List.append_assoc, ← h] at hf
  simp only [parseAddr, hf, parseIPv6, hs, bind, Except.bind]
  rfl

theorem parseAddr_string4 (a : BitVec 32) : parseAddr (string4 a) = .ok (.v4 a) := by
  have ⟨s, hs⟩ := string4_eq a
  have hd : ∀ c ∈ decimal (a.toNat / 2 ^ 24), (hexVal c).isSome := fun _ =>
    isSome_hexVal_of_mem_decimal (octets_lt a _ List.mem_cons_self)
  have hf := find_special (t := s) hd (.inl rfl)
  rw [← hs] at hf
  simp only [parseAddr, hf, parseIPv4, parseIPv4Fields_string4, bind, Except.bind, ofBytes_octets]
  rfl

theorem parseAddr_string {ip : Addr} (h : ip ≠ .invalid) : parseAddr ip.string = .ok ip := by
  cases ip
  case invalid => contradiction
  case v4 a => exact parseAddr_string4 a
  case v6 a zone =>
    simp only [Addr.string]
    split
    case isTrue hm =>
      have hm : a >>> 32 = 0xffff := by simpa [Addr.is4In6] using hm
      rw [parseAddr_zoned isColonText_mapped (fun _ => isPlain_of_mem_mapped),
        parseUnzoned_mapped hm]
    case isFalse =>
      rw [parseAddr_zoned (isColonText_stringGroups (groups_lt a) (by simp [groups]))
        (fun _ => isPlain_of_mem_stringGroups (groups_lt a)),
        parseUnzoned_stringGroups (groups_lt a) rfl, ofBytes_groups]

-- Only the zone can bring in other characters.
theorem string_eq {ip : Addr} (h : ip ≠ .invalid) :
    ∃ s, ip.string = s ++ zoneSuffix ip.zone ∧ ∀ c ∈ s, isPlain c := by
  cases ip
  case invalid => contradiction
  case v4 a => exact ⟨string4 a, by simp [Addr.string, Addr.zone, zoneSuffix],
    fun _ => isPlain_of_mem_string4⟩
  case v6 a zone =>
    simp only [Addr.string, Addr.zone]
    split
    case isTrue  => exact ⟨_, rfl, fun _ => isPlain_of_mem_mapped⟩
    case isFalse => exact ⟨_, rfl, fun _ => isPlain_of_mem_stringGroups (groups_lt a)⟩

end Netip
