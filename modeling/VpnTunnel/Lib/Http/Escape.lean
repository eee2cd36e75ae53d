import VpnTunnel.Lib.Http.Url

-- What is escaped can be read again, and escaping leaves none of the bytes that separate the parts of a URL.

namespace Http

open ByteString

variable {mode : Encoding} {s t d : ByteString} {c : UInt8}

def hashSign : UInt8 := 0x23

def questionMark : UInt8 := 0x3F

def atSign : UInt8 := 0x40

-- The bytes that no URL may have.
def isCTL (c : UInt8) : Bool :=
  c < 0x20 || c = 0x7F

theorem hexVal_upperhex (c : UInt8) :
    Netip.hexVal (upperhex (c >>> 4)) = some (c.toNat / 16) ∧
      Netip.hexVal (upperhex (c &&& 0xF)) = some (c.toNat % 16) := by
  revert c
  exact forall_byte (by decide +kernel)

theorem shouldEscape_percent : shouldEscape percent mode := by
  cases mode <;> decide

theorem escape_cons : escape mode (c :: s) =
    (if shouldEscape c mode then [percent, upperhex (c >>> 4), upperhex (c &&& 0xF)] else [c]) ++
      escape mode s :=
  rfl

theorem unescape_cons_of_ne (hc : c ≠ percent) : unescape (c :: s) = (unescape s).map (c :: ·) := by
  rw [unescape.eq_def]
  simp only [hc, if_false]
  cases unescape s <;> rfl

theorem unescape_percent {a b : UInt8} : unescape (percent :: a :: b :: s) =
    (Netip.hexVal a).bind fun hi => (Netip.hexVal b).bind fun lo =>
      (unescape s).map (.ofNat (16 * hi + lo) :: ·) := by
  rw [unescape.eq_def]
  simp only [if_true]
  cases Netip.hexVal a <;> cases Netip.hexVal b <;> cases unescape s <;> rfl

theorem unescape_escape : unescape (escape mode s) = some s := by
  induction s
  case nil => rfl
  case cons c s hi =>
    rw [escape_cons]
    split
    case isTrue =>
      obtain ⟨hh, hl⟩ := hexVal_upperhex c
      have hc : UInt8.ofNat (16 * (c.toNat / 16) + c.toNat % 16) = c := by
        rw [Nat.div_add_mod, UInt8.ofNat_toNat]
      rw [List.cons_append, List.cons_append, List.singleton_append, unescape_percent, hh, hl, hi]
      simp only [Option.bind_some, Option.map_some, hc]
    case isFalse h =>
      have hc : c ≠ percent := by
        rintro rfl
        exact h shouldEscape_percent
      rw [List.singleton_append, unescape_cons_of_ne hc, hi]
      rfl

theorem shouldEscape_upperhex (mode : Encoding) (c : UInt8) : shouldEscape (upperhex (c >>> 4)) mode = false ∧
    shouldEscape (upperhex (c &&& 0xF)) mode = false := by
  revert c
  cases mode <;> exact forall_byte (by decide +kernel)

theorem mem_escape (h : c ∈ escape mode s) : c = percent ∨ shouldEscape c mode = false := by
  obtain ⟨b, _, hc⟩ := List.mem_flatMap.mp h
  split at hc
  case isTrue =>
    simp only [List.mem_cons, List.not_mem_nil, or_false] at hc
    obtain rfl | rfl | rfl := hc
    · exact .inl rfl
    · exact .inr (shouldEscape_upperhex mode b).left
    · exact .inr (shouldEscape_upperhex mode b).right
  case isFalse hb => exact .inr (by simpa [List.mem_singleton.mp hc] using hb)

-- What is read of a text does not depend on what comes behind it.
theorem unescape_append (h : unescape s = some d) : unescape (s ++ t) = (unescape t).map (d ++ ·) := by
  induction s using unescape.induct generalizing d
  case case1 =>
    cases h
    simp
  case case2 a b s hi =>
    rw [unescape_percent] at h
    obtain ⟨x, hx, h⟩ := Option.bind_eq_some_iff.mp h
    obtain ⟨y, hy, h⟩ := Option.bind_eq_some_iff.mp h
    obtain ⟨d, hd, rfl⟩ := Option.map_eq_some_iff.mp h
    rw [List.cons_append, List.cons_append, List.cons_append, unescape_percent, hx, hy, hi hd]
    simp [Function.comp_def]
  case case3 s hs =>
    rw [unescape.eq_def] at h
    simp at h
  case case4 c s hc hi =>
    rw [unescape_cons_of_ne hc] at h
    obtain ⟨d, hd, rfl⟩ := Option.map_eq_some_iff.mp h
    rw [List.cons_append, unescape_cons_of_ne hc, hi hd]
    simp [Function.comp_def]

-- A byte that is no digit does not complete an escape.
theorem unescape_append_elim (hc : Netip.hexVal c = none) (h : unescape (s ++ c :: t) = some d) :
    ∃ d₁ d₂, unescape s = some d₁ ∧ unescape (c :: t) = some d₂ ∧ d = d₁ ++ d₂ := by
  suffices hs : (unescape s).isSome by
    obtain ⟨d₁, hd⟩ := Option.isSome_iff_exists.mp hs
    rw [unescape_append hd] at h
    obtain ⟨d₂, h₂, rfl⟩ := Option.map_eq_some_iff.mp h
    exact ⟨d₁, d₂, hd, h₂, rfl⟩
  induction s using unescape.induct generalizing d
  case case1 => rfl
  case case2 a b s hi =>
    rw [List.cons_append, List.cons_append, List.cons_append, unescape_percent] at h
    obtain ⟨x, hx, h⟩ := Option.bind_eq_some_iff.mp h
    obtain ⟨y, hy, h⟩ := Option.bind_eq_some_iff.mp h
    obtain ⟨d, hd, rfl⟩ := Option.map_eq_some_iff.mp h
    simp [unescape_percent, hx, hy, hi hd]
  case case3 s hs =>
    obtain _ | ⟨a, _ | ⟨b, s⟩⟩ := s
    · cases t <;> simp [unescape, hc] at h
    · simp [unescape_percent, hc] at h
    · exact (hs a b s rfl).elim
  case case4 b s hb hi =>
    rw [List.cons_append, unescape_cons_of_ne hb] at h
    obtain ⟨d, hd, rfl⟩ := Option.map_eq_some_iff.mp h
    simp [unescape_cons_of_ne hb, hi hd]

theorem unescape_ne_nil (h : unescape s = some d) (hs : s ≠ []) : d ≠ [] := by
  cases s
  case nil => contradiction
  case cons c s =>
    by_cases hc : c = percent
    case neg =>
      rw [unescape_cons_of_ne hc] at h
      obtain ⟨d, _, rfl⟩ := Option.map_eq_some_iff.mp h
      simp
    case pos =>
      subst hc
      obtain _ | ⟨a, _ | ⟨b, s⟩⟩ := s
      · simp [unescape] at h
      · simp [unescape] at h
      · rw [unescape_percent] at h
        obtain ⟨x, hx, h⟩ := Option.bind_eq_some_iff.mp h
        obtain ⟨y, hy, h⟩ := Option.bind_eq_some_iff.mp h
        obtain ⟨d, _, rfl⟩ := Option.map_eq_some_iff.mp h
        simp

-- A text that is escaped is printed as it is.
theorem validEncoded_escape : validEncoded mode (escape mode s) := by
  refine List.all_eq_true.mpr fun c hc => ?_
  obtain rfl | hc := mem_escape hc
  · rfl
  · simp [hc]

-- How a part of a URL is printed that was read from a text.
def reprint (mode : Encoding) (text s : ByteString) : ByteString :=
  if validEncoded mode text then text else escape mode s

theorem unescape_reprint (h : unescape s = some d) : unescape (reprint mode s d) = some d := by
  rw [reprint]
  split
  · exact h
  · exact unescape_escape

theorem not_mem_escape (hc : shouldEscape c mode) (hp : c ≠ percent) : c ∉ escape mode s := by
  intro h
  obtain h | h := mem_escape h
  · exact hp h
  · simp [h] at hc

theorem not_mem_reprint (hc : validEncoded mode [c] = false) : c ∉ reprint mode s d := by
  have hv : ¬((ofString "!$&'()*+,;=:@[]%").contains c || !shouldEscape c mode) := by
    simpa [validEncoded] using hc
  rw [Bool.or_eq_true, not_or] at hv
  rw [reprint]
  split
  case isTrue h => exact fun hm => absurd (List.all_eq_true.mp h c hm) (by simpa using hv)
  case isFalse =>
    refine not_mem_escape (by simpa using hv.right) ?_
    rintro rfl
    exact hv.left rfl

theorem encodes_or_eq_reprint (h : unescape s = some d) :
    (if encodes mode (if escape mode d = s then [] else s) d then if escape mode d = s then [] else s
      else escape mode d) = reprint mode s d := by
  by_cases he : escape mode d = s
  case pos =>
    have hv : validEncoded mode s := he ▸ validEncoded_escape
    simp [he, encodes, reprint, hv]
  case neg =>
    by_cases hs : s = []
    case pos =>
      subst hs
      cases h
      exact absurd rfl he
    case neg => simp [he, encodes, reprint, hs, h]

end Http
