import VpnTunnel.Generatevpnconfig.Basic
import VpnTunnel.Infrastructure.Wgconf.Theorems

namespace Generatevpnconfig

open ByteString
open Infrastructure
open Infrastructure.Wgconf (content interfaceKeys hash privatekey Parser ParsedConfig)
open Wgtypes (Key parseKey)

variable {table : CaseTable} {b : Bool} {raw val body body' privStr privateKey : ByteString}
  {ls pre post : List ByteString} {p p₁ p₂ : Parser} {cfg : ParsedConfig} {key : Key}

-- Whether the scanner is in an interface section after it has gone through the lines.
def inInterface (b : Bool) (ls : List ByteString) : Bool :=
  ls.foldl (fun b raw => if isHeader raw then isInterface raw else b) b

-- The lines after the one that the scanner takes the private key from.
def afterKey (table : CaseTable) (b : Bool) : List ByteString → Option (List ByteString)
  | []        => none
  | raw :: ls =>
    if isHeader raw then afterKey table (isInterface raw) ls
    else if b ∧ (privateKey? table raw).isSome then some ls
    else afterKey table b ls

-- The lines after the last header that the scanner takes for `[Interface]`.
def afterHeader : List ByteString → Option (List ByteString)
  | []        => none
  | raw :: ls => (afterHeader ls).or (if isHeader raw ∧ isInterface raw then some ls else none)

-- The values that a body gives to `PrivateKey`, as the parser reads it, behind the line that the scanner
-- takes the private key from or puts it in.
def laterKeys (table : CaseTable) (body : ByteString) : List ByteString :=
  interfaceKeys table true <| ((afterKey table false body.lines).or (afterHeader body.lines)).getD []

section Sections

theorem isInterface_elim (h : isInterface raw) : hash ∉ raw := by
  intro hm
  have hm := List.mem_map_of_mem (f := lowerByte) (mem_trimSpace Wgconf.hash_not_mem_spaces hm)
  rw [isInterface, equalFold, decide_eq_true_eq] at h
  rw [h] at hm
  revert hm
  decide

-- In a body that the parser accepts, it knows all interface sections that the scanner knows.
theorem inInterface_of_handleLine (h : p₁.handleLine table raw = .ok p₂) (hb : b → p₁.inInterface)
    (hs : inInterface b [raw]) : p₂.inInterface := by
  simp only [inInterface, List.foldl_cons, List.foldl_nil] at hs
  split at hs
  case isTrue hh =>
    have hc := Wgconf.content_of_not_mem (isInterface_elim hs)
    have ⟨ho, hi, _⟩ := Parser.handleLine_header h ((Wgconf.head?_content raw).mpr (by simpa [isHeader] using hh))
    rw [hi, decide_eq_true_eq]
    refine ho.resolve_right fun hp => ?_
    rw [isInterface, ← hc, hp] at hs
    revert hs
    decide
  case isFalse hh =>
    have hh := (Wgconf.head?_content raw).not.mpr (by simpa [isHeader] using hh)
    rw [(Parser.handleLine_key h hh).left]
    exact hb hs

theorem inInterface_of_foldlM (h : ls.foldlM (Parser.handleLine table) p₁ = .ok p₂)
    (hb : b → p₁.inInterface) (hs : inInterface b ls) : p₂.inInterface := by
  refine List.foldlM_invariant (P := fun ls (p : Parser) => inInterface b ls → p.inInterface) hb ?_ h hs
  intro ls p raw p' hb h hs
  rw [inInterface, List.foldl_append] at hs
  exact inInterface_of_handleLine h hb hs

theorem privateKey_of_foldlM (h : (pre ++ raw :: post).foldlM (Parser.handleLine table) .init = .ok p)
    (hs : inInterface false pre) (hh : ¬isHeader raw)
    (hv : valueOf table privatekey (content raw) = some val) :
    p.iface.privateKey = (interfaceKeys table true post).getLast?.getD val := by
  simp only [List.foldlM_append, List.foldlM_cons, Except.bind_eq_ok] at h
  have ⟨p₁, h₁, p₂, h₂, h⟩ := h
  have hi := inInterface_of_foldlM h₁ (by simp) hs
  have hh := (Wgconf.head?_content raw).not.mpr (by simpa [isHeader] using hh)
  have ⟨hi₂, hk⟩ := Parser.handleLine_key h₂ hh
  rw [Parser.foldlM_handleLine h, hi₂, hk, hi, hv]
  rfl

end Sections

section Extract

theorem afterKey_elim (h : afterKey table b ls = some post) :
    ∃ pre raw val, ls = pre ++ raw :: post ∧ afterKey table b pre = none ∧ inInterface b pre ∧
      ¬isHeader raw ∧ privateKey? table raw = some val ∧ extractFrom table b ls = val := by
  induction ls generalizing b
  case nil => simp [afterKey] at h
  case cons raw ls hi =>
    rw [afterKey] at h
    split at h
    case isTrue hh =>
      have ⟨pre, raw', val, hl, hn, hs, hr, hv, he⟩ := hi h
      exact ⟨raw :: pre, raw', val, by simp [hl], by simp [afterKey, hh, hn],
        by simpa [inInterface, hh] using hs, hr, hv, by simp [extractFrom, hh, he]⟩
    case isFalse hh =>
      split at h
      case isTrue hk =>
        have ⟨val, hv⟩ := Option.isSome_iff_exists.mp hk.right
        cases h
        exact ⟨[], raw, val, rfl, rfl, hk.left, hh, hv, by simp [extractFrom, hh, hk.left, hv]⟩
      case isFalse hk =>
        have ⟨pre, raw', val, hl, hn, hs, hr, hv, he⟩ := hi h
        refine ⟨raw :: pre, raw', val, by simp [hl], by simp [afterKey, hh, hk, hn],
          by simpa [inInterface, hh] using hs, hr, hv, ?_⟩
        cases b <;> simp_all [extractFrom]

theorem extractFrom_of_afterKey (h : afterKey table b ls = none) : extractFrom table b ls = [] := by
  induction ls generalizing b
  case nil => rfl
  case cons raw ls hi =>
    rw [afterKey] at h
    split at h
    case isTrue hh => simp [extractFrom, hh, hi h]
    case isFalse hh =>
      split at h
      case isTrue => contradiction
      case isFalse hk => cases b <;> simp_all [extractFrom]

end Extract

section Inject

theorem afterHeader_elim (h : afterHeader ls = some post) :
    ∃ pre raw, ls = pre ++ raw :: post ∧ isHeader raw ∧ isInterface raw := by
  induction ls
  case nil => simp [afterHeader] at h
  case cons raw ls hi =>
    rw [afterHeader, Option.or_eq_some_iff] at h
    cases h
    case inl h =>
      have ⟨pre, raw', hl, hr⟩ := hi h
      exact ⟨raw :: pre, raw', by simp [hl], hr⟩
    case inr h =>
      have ⟨hr, hp⟩ := Option.ite_none_right_eq_some.mp h.right
      cases hp
      exact ⟨[], raw, rfl, hr⟩

namespace Injection

variable {st : Injection}

-- What the loop does up to the line that it puts the key in.
structure Scanned (st : Injection) (ls : List ByteString) (st' : Injection) : Prop where
  lines          : st'.lines = st.lines ++ ls
  injected       : st'.injected = false
  inInterface    : st'.inInterface = Generatevpnconfig.inInterface st.inInterface ls
  seenInterface  : st'.seenInterface = (st.seenInterface || (afterHeader ls).isSome)
  ifaceHeaderIdx : st'.ifaceHeaderIdx = (afterHeader ls).elim st.ifaceHeaderIdx fun post =>
    (st.lines.length + ls.length - post.length - 1 : Int)

theorem scanned (hn : st.injected = false) (h : afterKey table st.inInterface ls = none) :
    Scanned st ls (ls.foldl (next table privateKey) st) := by
  induction ls generalizing st
  case nil => exact ⟨by simp, hn, rfl, by simp [afterHeader], by simp [afterHeader]⟩
  case cons raw ls hi =>
    rw [afterKey] at h
    split at h
    case isTrue hh =>
      have hx : st.next table privateKey raw = { st with
          lines          := st.lines ++ [raw]
          inInterface    := isInterface raw
          seenInterface  := st.seenInterface || isInterface raw
          ifaceHeaderIdx := if isInterface raw then st.lines.length else st.ifaceHeaderIdx } := by
        simp [next, hh]
      have sc := hi (hx ▸ hn : (st.next table privateKey raw).injected = false) (by rw [hx]; exact h)
      rw [List.foldl_cons]
      generalize List.foldl _ _ ls = st' at sc
      rw [hx] at sc
      constructor
      case lines       => simp [sc.lines]
      case injected    => exact sc.injected
      case inInterface => simp [sc.inInterface, Generatevpnconfig.inInterface, hh]
      case seenInterface =>
        rw [sc.seenInterface]
        cases h₁ : afterHeader ls <;> cases h₂ : isInterface raw <;> simp [afterHeader, hh, h₁, h₂]
      case ifaceHeaderIdx =>
        rw [sc.ifaceHeaderIdx]
        cases h₁ : afterHeader ls <;> cases h₂ : isInterface raw <;> simp [afterHeader, hh, h₁, h₂] <;>
          omega
    case isFalse hh =>
      split at h
      case isTrue => contradiction
      case isFalse hk =>
        have hx : st.next table privateKey raw = { st with lines := st.lines ++ [raw] } := by
          have : ¬(st.inInterface ∧ ¬st.injected ∧ (privateKey? table raw).isSome) :=
            fun hc => hk ⟨hc.left, hc.right.right⟩
          rw [next, if_neg hh, if_neg this]
        have sc := hi (hx ▸ hn : (st.next table privateKey raw).injected = false) (by rw [hx]; exact h)
        rw [List.foldl_cons]
        generalize List.foldl _ _ ls = st' at sc
        rw [hx] at sc
        constructor
        case lines         => simp [sc.lines]
        case injected      => exact sc.injected
        case inInterface   => simp [sc.inInterface, Generatevpnconfig.inInterface, hh]
        case seenInterface => simp [sc.seenInterface, afterHeader, hh]
        case ifaceHeaderIdx =>
          rw [sc.ifaceHeaderIdx]
          cases h₁ : afterHeader ls <;> simp [afterHeader, hh, h₁]
          omega

variable (table privateKey ls) in
theorem foldl_next_of_injected (hi : st.injected) (hs : st.seenInterface) :
    (ls.foldl (next table privateKey) st).lines = st.lines ++ ls ∧
      (ls.foldl (next table privateKey) st).injected ∧
      (ls.foldl (next table privateKey) st).seenInterface := by
  induction ls generalizing st
  case nil => simp [hi, hs]
  case cons raw ls hi' =>
    have hx : (st.next table privateKey raw).lines = st.lines ++ [raw] ∧
        (st.next table privateKey raw).injected ∧ (st.next table privateKey raw).seenInterface := by
      by_cases hh : isHeader raw <;> simp [next, hh, hi, hs]
    have ⟨h₁, h₂⟩ := hi' hx.right.left hx.right.right
    rw [List.foldl_cons]
    exact ⟨by simp [h₁, hx.left], h₂⟩

end Injection

theorem isSome_afterHeader (h : inInterface b ls) : b ∨ (afterHeader ls).isSome := by
  induction ls generalizing b
  case nil => exact .inl h
  case cons raw ls hi =>
    rw [inInterface, List.foldl_cons, ← inInterface] at h
    rw [afterHeader, Option.isSome_or]
    cases hi h
    case inr hs => simp [hs]
    case inl hs =>
      split at hs
      case isTrue hh  => simp [hh, hs]
      case isFalse hh => exact .inl hs

theorem lines_inserted (h : ∀ l ∈ pre ++ post, newline ∉ l) (hn : newline ∉ raw) :
    (unlines (pre ++ raw :: post)).lines = pre ++ raw :: post := by
  refine lines_unlines ?_ (by simp)
  simp only [List.forall_mem_append, List.forall_mem_cons] at h ⊢
  exact ⟨h.left, hn, h.right⟩

-- The lines before and after the one that the key is written to.
def slot (table : CaseTable) (ls : List ByteString) : Option (List ByteString × List ByteString) :=
  match afterKey table false ls with
  | some post => some (ls.take (ls.length - post.length - 1), post)
  | none      => (afterHeader ls).map fun post => (ls.take (ls.length - post.length), post)

theorem slot_replace (hk : afterKey table false (pre ++ raw :: post) = some post) :
    slot table (pre ++ raw :: post) = some (pre, post) := by
  have hl : (pre ++ raw :: post).length - post.length - 1 = pre.length := by
    simp only [List.length_append, List.length_cons]
    omega
  rw [slot, hk]
  simp only [hl, List.take_left]

theorem slot_insert (hk : afterKey table false (pre ++ post) = none)
    (hp : afterHeader (pre ++ post) = some post) : slot table (pre ++ post) = some (pre, post) := by
  have hl : (pre ++ post).length - post.length = pre.length := by
    simp only [List.length_append]
    omega
  rw [slot, hk, hp]
  simp only [hl, Option.map_some, List.take_left]

theorem afterKey_of_append (h : afterKey table b (pre ++ post) = none) : afterKey table b pre = none := by
  induction pre generalizing b
  case nil => rfl
  case cons raw pre hi =>
    rw [List.cons_append, afterKey] at h
    rw [afterKey]
    split at h
    case isTrue hh => rw [if_pos hh, hi h]
    case isFalse hh =>
      split at h
      case isTrue => contradiction
      case isFalse hk => rw [if_neg hh, if_neg hk, hi h]

-- The key is written to a section that the scanner takes for `[Interface]`, in place of its first private
-- key or as an additional line.
theorem slot_elim (h : slot table ls = some (pre, post)) :
    afterKey table false pre = none ∧ inInterface false pre ∧
      (afterKey table false ls).or (afterHeader ls) = some post ∧
      (ls = pre ++ post ∨
        ∃ raw val, ls = pre ++ raw :: post ∧ ¬isHeader raw ∧ privateKey? table raw = some val) := by
  cases hk : afterKey table false ls
  case some post' =>
    have ⟨pre', raw, val, hl, hn, hi, hh, hv, _⟩ := afterKey_elim hk
    subst hl
    cases h.symm.trans (slot_replace hk)
    exact ⟨hn, hi, rfl, .inr ⟨raw, val, rfl, hh, hv⟩⟩
  case none =>
    cases hp : afterHeader ls
    case none => simp [slot, hk, hp] at h
    case some post' =>
      have ⟨pre', raw, hl, hh, hr⟩ := afterHeader_elim hp
      rw [List.append_cons] at hl
      subst hl
      cases h.symm.trans (slot_insert hk hp)
      exact ⟨afterKey_of_append hk, by simp [inInterface, hh, hr], rfl, .inl rfl⟩

theorem injectPrivateKey_eq (table : CaseTable) (body privateKey : ByteString) :
    injectPrivateKey table body privateKey =
      (slot table body.lines).elim (.error "conf has no [Interface] section") fun x =>
        .ok (unlines (x.1 ++ privateKeyLine privateKey :: x.2)) := by
  rw [injectPrivateKey]
  generalize body.lines = ls
  cases hk : afterKey table false ls
  case some post =>
    obtain ⟨pre, raw, val, hl, hp, hi, hh, hv, _⟩ := afterKey_elim hk
    subst hl
    have sc : Injection.Scanned .init pre (pre.foldl (.next table privateKey) .init) :=
      Injection.scanned rfl hp
    rw [slot_replace hk, List.foldl_append, List.foldl_cons]
    generalize pre.foldl _ _ = st at sc
    have hs : st.seenInterface := by
      simpa [sc.seenInterface, Injection.init] using isSome_afterHeader hi
    have hx : st.next table privateKey raw =
        { st with lines := st.lines ++ [privateKeyLine privateKey], injected := true } := by
      have : st.inInterface := sc.inInterface.trans hi
      simp [Injection.next, hh, this, sc.injected, hv]
    have ⟨h₁, h₂, h₃⟩ := Injection.foldl_next_of_injected table privateKey post
      (hx ▸ rfl : (st.next table privateKey raw).injected) (by rw [hx]; exact hs)
    rw [if_neg (by simpa using h₃), if_pos h₂, h₁, hx, sc.lines]
    simp [Injection.init]
  case none =>
    have sc : Injection.Scanned .init ls (ls.foldl (.next table privateKey) .init) :=
      Injection.scanned rfl hk
    generalize ls.foldl _ _ = st at sc
    cases hp : afterHeader ls
    case none => simp [sc.seenInterface, slot, hk, hp, Injection.init]
    case some post =>
      obtain ⟨pre, raw, hl, hh, hr⟩ := afterHeader_elim hp
      have hi : (st.ifaceHeaderIdx + 1).toNat = (pre ++ [raw]).length := by
        rw [sc.ifaceHeaderIdx, hp, hl]
        simp [Injection.init]
        omega
      rw [List.append_cons] at hl
      generalize pre ++ [raw] = pre at hl hi
      subst hl
      rw [slot_insert hk hp, if_neg (by simp [sc.seenInterface, hp]), if_neg (by simp [sc.injected])]
      simp [hi, sc.lines, Injection.init]

theorem lines_injected (h : slot table body.lines = some (pre, post)) (hn : newline ∉ raw) :
    (unlines (pre ++ raw :: post)).lines = pre ++ raw :: post := by
  have hb : ∀ l ∈ body.lines, newline ∉ l := fun l hl => not_mem_of_mem_lines hl
  refine lines_inserted (fun l hl => hb l ?_) hn
  have ⟨_, _, _, ho⟩ := slot_elim h
  rcases ho with ho | ⟨_, _, ho, _⟩ <;> rw [ho] <;> simp at hl ⊢ <;> tauto

end Inject

section PrivateKeyLine

theorem not_isChar_of_mem_spaces : ∀ e ∈ spaces, ∀ c ∈ e, ¬Base64.isChar c := by
  decide +kernel

theorem not_mem_string {c : UInt8} (h : ¬Base64.isChar c) : c ∉ key.string :=
  fun hm => h (Key.isChar_of_mem_string hm)

theorem trimSpace_string : trimSpace key.string = key.string :=
  trimSpace_eq_self fun e he c hc => not_mem_string (not_isChar_of_mem_spaces e he c hc)

theorem privateKeyLine_eq : privateKeyLine privateKey =
    .ofString "PrivateKey " ++ equals :: 0x20 :: privateKey :=
  rfl

theorem newline_not_mem_privateKeyLine (h : newline ∉ privateKey) :
    newline ∉ privateKeyLine privateKey := by
  simp only [privateKeyLine, List.mem_append, not_or]
  exact ⟨by decide, h⟩

theorem not_isHeader_privateKeyLine : ¬isHeader (privateKeyLine privateKey) := by
  have hl : trimLeft spaces (.ofString "PrivateKey ") = .ofString "PrivateKey " := by decide
  have hh : (ByteString.ofString "PrivateKey ").head? = some 0x50 := by decide
  simp [isHeader, privateKeyLine_eq, trimSpace_append_cons equals_not_mem_spaces, hl, hh]

theorem privateKey?_privateKeyLine (h : trimSpace privateKey = privateKey) :
    privateKey? table (privateKeyLine privateKey) = some privateKey := by
  have ht : trimSpace (.ofString "PrivateKey ") = .ofString "PrivateKey" := by decide +kernel
  have hl : toLower table (.ofString "PrivateKey") = privatekey := by
    rw [toLower_of_ascii (by unfold Utf8.Ascii; decide +kernel)]
    decide +kernel
  have hb : Blank spaces [0x20] := .of_mem (by decide)
  rw [privateKey?, privateKeyLine_eq]
  exact valueOf_eq_some_iff.mpr ⟨_, _, rfl, by decide, by rw [ht, hl]; rfl,
    (trimSpace_blank_append hb).trans h⟩

theorem valueOf_privateKeyLine :
    valueOf table privatekey (content (privateKeyLine key.string)) = some key.string := by
  have hh : hash ∉ privateKeyLine key.string := by
    simp only [privateKeyLine, List.mem_append, not_or]
    exact ⟨by decide, not_mem_string (by decide)⟩
  rw [Wgconf.content_of_not_mem hh, valueOf_trimSpace]
  exact privateKey?_privateKeyLine trimSpace_string

end PrivateKeyLine

theorem hash_not_mem_of_parseKey (h : parseKey val = some key) : hash ∉ val := fun hm =>
  absurd (Wgtypes.isChar_of_parseKey h hm (by decide)) (by decide)

-- What the parser reads from a body that the scanner has settled the key of.
theorem privateKey_of_resolveKey (h : resolveKey table key body = .ok (body', privStr))
    (hp : Wgconf.parse table body' = .ok cfg) :
    cfg.interface.privateKey = (laterKeys table body).getLast?.getD privStr := by
  have ⟨p, hf, hb⟩ := Wgconf.parse_elim hp
  rw [Parser.build_privateKey hb, laterKeys]
  rw [resolveKey] at h
  split at h
  case isTrue he =>
    obtain ⟨rfl, rfl⟩ := Prod.mk.inj (Except.ok.inj h)
    have ⟨k, hk⟩ := Option.isSome_iff_exists.mp he
    cases ha : afterKey table false body.lines
    case none =>
      rw [extractInterfacePrivateKey, extractFrom_of_afterKey ha] at he
      contradiction
    case some post =>
      have ⟨pre, raw, val, hl, _, hi, hh, hv, hx⟩ := afterKey_elim ha
      rw [extractInterfacePrivateKey, hx] at hk ⊢
      rw [hl] at hf
      exact privateKey_of_foldlM hf hi hh <|
        Wgconf.valueOf_content (by decide) hv (hash_not_mem_of_parseKey hk)
  case isFalse =>
    have ⟨_, hj, he⟩ := Except.map_eq_ok.mp h
    obtain ⟨rfl, rfl⟩ := Prod.mk.inj he
    rw [injectPrivateKey_eq] at hj
    cases hs : slot table body.lines <;> rw [hs] at hj
    case none => contradiction
    case some x =>
      have ⟨_, hi, ha, _⟩ := slot_elim hs
      have hn : newline ∉ privateKeyLine key.string :=
        newline_not_mem_privateKeyLine (not_mem_string (by decide))
      rw [← Except.ok.inj hj, lines_injected hs hn] at hf
      rw [ha]
      exact privateKey_of_foldlM hf hi not_isHeader_privateKeyLine valueOf_privateKeyLine

end Generatevpnconfig
