import Mathlib.Data.List.DropRight
import VpnTunnel.Lib.Http.Escape

-- How `net/url` reads the text of a URL.

namespace Http

open ByteString

-- `quote` stands for `strconv.Quote`. How hosts are read is left open, except that a hash is refused in them.
structure UrlParser where
  quote           : ByteString → ByteString
  quote_injective : Function.Injective quote
  parseHost       : ByteString → ByteString → Except ByteString ByteString
  parseHost_hash  : ∀ scheme text host, hashSign ∈ text → parseHost scheme text ≠ .ok host

-- A `url.Error` of `url.Parse`, which has the text that could not be parsed.
structure ParseError where
  url   : ByteString
  cause : ByteString
  deriving DecidableEq

def before (c : UInt8) (s : ByteString) : ByteString :=
  s.takeWhile (· ≠ c)

def after (c : UInt8) (s : ByteString) : ByteString :=
  (s.dropWhile (· ≠ c)).drop 1

-- The first percent sign that is not followed by two digits, with what is there of them.
def badEscape : ByteString → ByteString
  | []     => []
  | c :: s =>
    if c = percent then
      match s with
      | a :: b :: s => if (Netip.hexVal a).isSome ∧ (Netip.hexVal b).isSome then badEscape s else [c, a, b]
      | s           => c :: s
    else badEscape s

def isSchemeByte (c : UInt8) : Bool :=
  isAlnum c || (ofString "+-.").contains c

def getScheme (raw : ByteString) : Except ByteString (ByteString × ByteString) :=
  go [] raw
where
  go (seen : ByteString) : ByteString → Except ByteString (ByteString × ByteString)
    | []     => .ok ([], raw)
    | c :: s =>
      if isLower c || isUpper c then go (seen ++ [c]) s
      else if isSchemeByte c then
        if seen = [] then .ok ([], raw) else go (seen ++ [c]) s
      else if c = Netip.colon then
        if seen = [] then .error (ofString "missing protocol scheme") else .ok (seen, s)
      else .ok ([], raw)

def validUserinfo (s : ByteString) : Bool :=
  s.all fun c => isAlnum c || (ofString "-._:~!$&'()*+,;=%@").contains c

def Url.empty : Url where
  scheme      := []
  opaqueText  := []
  user        := none
  host        := []
  path        := []
  rawPath     := []
  omitHost    := false
  forceQuery  := false
  rawQuery    := []
  fragment    := []
  rawFragment := []

-- A single question mark at the end is all that is left of an empty query.
def Url.setQuery (u : Url) (rest : ByteString) : Url :=
  if rest.getLast? = some questionMark ∧ rest.count questionMark = 1 then { u with forceQuery := true }
  else { u with rawQuery := after questionMark rest }

variable (p : UrlParser)

def decode (s : ByteString) : Except ByteString ByteString :=
  match unescape s with
  | none   => .error (ofString "invalid URL escape " ++ p.quote (badEscape s))
  | some d => .ok d

def parseUserinfo (userinfo : ByteString) : Except ByteString Userinfo :=
  if validUserinfo userinfo then
    if Netip.colon ∉ userinfo then
      (decode p userinfo).map fun username => ⟨username, none⟩
    else do
      let username ← decode p (before Netip.colon userinfo)
      let password ← decode p (after Netip.colon userinfo)
      return ⟨username, some password⟩
  else .error (ofString "net/url: invalid userinfo")

-- The host comes after the last at sign.
def parseAuthority (scheme authority : ByteString) : Except ByteString (Option Userinfo × ByteString) := do
  let host ← p.parseHost scheme (authority.rtakeWhile (· ≠ atSign))
  if atSign ∉ authority then
    return (none, host)
  else
    let user ← parseUserinfo p (authority.rdropWhile (· ≠ atSign)).dropLast
    return (some user, host)

def Url.setPath (u : Url) (text : ByteString) : Except ByteString Url :=
  (decode p text).map fun path => { u with path, rawPath := if escape .path path = text then [] else text }

def Url.setFragment (u : Url) (text : ByteString) : Except ByteString Url :=
  (decode p text).map fun fragment =>
    { u with fragment, rawFragment := if escape .fragment fragment = text then [] else text }

-- What is between the scheme and the query.
def parseRest (viaRequest : Bool) (scheme rest : ByteString) : Except ByteString Url :=
  let u := { Url.empty with scheme }
  if rest.head? ≠ some slash then
    if scheme ≠ [] then .ok { u with opaqueText := rest }
    else if viaRequest then .error (ofString "invalid URI for request")
    else if Netip.colon ∈ before slash rest then
      .error (ofString "first path segment in URL cannot contain colon")
    else u.setPath p rest
  else if (scheme ≠ [] ∨ (¬viaRequest ∧ ¬[slash, slash, slash] <+: rest)) ∧ [slash, slash] <+: rest then do
    let authority := rest.drop 2
    let (user, host) ← parseAuthority p scheme (before slash authority)
    Url.setPath p { u with user, host } (authority.dropWhile (· ≠ slash))
  else Url.setPath p { u with omitHost := scheme ≠ [] } rest

def parse (viaRequest : Bool) (raw : ByteString) : Except ByteString Url :=
  if raw.any isCTL then .error (ofString "net/url: invalid control character in URL")
  else if raw = [] ∧ viaRequest then .error (ofString "empty url")
  else if raw = ofString "*" then .ok { Url.empty with path := raw }
  else do
    let (scheme, rest) ← getScheme raw
    let u ← parseRest p viaRequest (scheme.map lowerByte) (before questionMark rest)
    return u.setQuery rest

def parseRequestURI (raw : ByteString) : Except ParseError Url :=
  (parse p true raw).mapError fun cause => ⟨raw, cause⟩

def parseURL (raw : ByteString) : Except ParseError Url := do
  let text := before hashSign raw
  let fragment := after hashSign raw
  let u ← (parse p false text).mapError fun cause => ⟨text, cause⟩
  if fragment = [] then return u
  else (u.setFragment p fragment).mapError fun cause => ⟨raw, cause⟩

section Cut

variable {c : UInt8} {s t : ByteString}

theorem before_append (h : c ∉ s) : before c (s ++ t) = s ++ before c t :=
  List.takeWhile_append_of_pos fun b hb => by simpa using ne_of_mem_of_not_mem hb h

theorem dropWhile_append (h : c ∉ s) : (s ++ t).dropWhile (· ≠ c) = t.dropWhile (· ≠ c) :=
  List.dropWhile_append_of_pos fun b hb => by simpa using ne_of_mem_of_not_mem hb h

theorem after_append (h : c ∉ s) : after c (s ++ t) = after c t := by
  rw [after, after, dropWhile_append h]

theorem before_append_cons (h : c ∉ s) : before c (s ++ c :: t) = s := by
  rw [before_append h]
  simp [before]

theorem after_append_cons (h : c ∉ s) : after c (s ++ c :: t) = t := by
  rw [after_append h]
  simp [after]

theorem not_mem_before : c ∉ before c s := by
  intro h
  simpa using List.mem_takeWhile_imp h

-- A text that ends where the given byte begins.
def Ends (c : UInt8) (s : ByteString) : Prop :=
  s = [] ∨ s.head? = some c

theorem Ends.before_eq (h : Ends c s) : before c s = [] := by
  obtain rfl | h := h
  · rfl
  · obtain ⟨s, rfl⟩ := List.head?_eq_some_iff.mp h
    simp [before]

theorem Ends.dropWhile_eq (h : Ends c s) : s.dropWhile (· ≠ c) = s := by
  obtain rfl | h := h
  · rfl
  · obtain ⟨s, rfl⟩ := List.head?_eq_some_iff.mp h
    simp

theorem ends_dropWhile : Ends c (s.dropWhile (· ≠ c)) := by
  cases h : s.dropWhile (· ≠ c)
  case nil => exact .inl rfl
  case cons b t =>
    have hb := List.head?_dropWhile_not (· ≠ c) s
    rw [h] at hb
    exact .inr (by simpa using hb)

theorem append_inj_of_ends {s₁ s₂ t₁ t₂ : ByteString} (h₁ : c ∉ s₁) (h₂ : c ∉ s₂) (ht₁ : Ends c t₁)
    (ht₂ : Ends c t₂) (h : s₁ ++ t₁ = s₂ ++ t₂) : s₁ = s₂ ∧ t₁ = t₂ := by
  have hb := congrArg (before c) h
  rw [before_append h₁, before_append h₂, ht₁.before_eq, ht₂.before_eq, List.append_nil, List.append_nil] at hb
  subst hb
  exact ⟨rfl, List.append_cancel_left h⟩

theorem rtakeWhile_eq (h : c ∉ t) : (s ++ c :: t).rtakeWhile (· ≠ c) = t := by
  rw [List.rtakeWhile, List.reverse_append, List.reverse_cons, List.append_assoc,
    List.takeWhile_append_of_pos fun b hb => by simpa using ne_of_mem_of_not_mem (List.mem_reverse.mp hb) h]
  simp

theorem rdropWhile_eq (h : c ∉ t) : (s ++ c :: t).rdropWhile (· ≠ c) = s ++ [c] := by
  rw [List.rdropWhile, List.reverse_append, List.reverse_cons, List.append_assoc,
    List.dropWhile_append_of_pos fun b hb => by simpa using ne_of_mem_of_not_mem (List.mem_reverse.mp hb) h]
  simp

theorem exists_last (h : c ∈ s) : ∃ a b, s = a ++ c :: b ∧ c ∉ b := by
  obtain ⟨b, a, hs, hb⟩ := List.eq_append_cons_of_mem (List.mem_reverse.mpr h)
  refine ⟨a.reverse, b.reverse, ?_, by simpa using hb⟩
  rw [← List.reverse_reverse s, hs]
  simp

theorem exists_cut (c : UInt8) (s : ByteString) :
    ∃ rest : Option ByteString, s = before c s ++ rest.elim [] (c :: ·) := by
  have hs : before c s ++ s.dropWhile (· ≠ c) = s := List.takeWhile_append_dropWhile
  obtain h | h := ends_dropWhile (c := c) (s := s)
  case inl =>
    rw [h] at hs
    exact ⟨none, hs.symm⟩
  case inr =>
    obtain ⟨t, ht⟩ := List.head?_eq_some_iff.mp h
    exact ⟨some t, by rw [Option.elim_some, ← ht, hs]⟩

end Cut

-- A letter that is followed by letters, digits and some punctuation.
def isScheme : ByteString → Bool
  | []     => false
  | c :: s => (isLower c || isUpper c) && s.all isSchemeByte

section Scheme

variable {p : UrlParser} {viaRequest : Bool} {scheme s q : ByteString} {c : UInt8} {u w : Url}

theorem isSchemeByte_lowerByte (c : UInt8) :
    (isLower c || isUpper c → isLower (lowerByte c)) ∧ (isSchemeByte c → isSchemeByte (lowerByte c)) := by
  revert c
  exact forall_byte (by decide +kernel)

theorem isSchemeByte_of_isLower (h : isLower c || isUpper c) : isSchemeByte c := by
  simp_all [isSchemeByte, isAlnum]

theorem isScheme_all (h : isScheme scheme) : ∀ c ∈ scheme, isSchemeByte c := by
  cases scheme
  case nil => simp
  case cons c s =>
    simp only [isScheme, Bool.and_eq_true, List.all_eq_true] at h
    exact List.forall_mem_cons.mpr ⟨isSchemeByte_of_isLower h.left, h.right⟩

theorem not_mem_scheme (h : isScheme scheme) (hc : isSchemeByte c = false) : c ∉ scheme := by
  intro hm
  simp [isScheme_all h c hm] at hc

theorem isScheme_ne_nil (h : isScheme scheme) : scheme ≠ [] := by
  rintro rfl
  contradiction

theorem isScheme_lower (h : isScheme scheme) : isScheme (scheme.map lowerByte) := by
  cases scheme
  case nil => contradiction
  case cons c s =>
    simp only [isScheme, Bool.and_eq_true, List.all_eq_true] at h
    simp only [List.map_cons, isScheme, (isSchemeByte_lowerByte c).left h.left, Bool.true_or, Bool.true_and,
      List.all_map, List.all_eq_true]
    exact fun b hb => (isSchemeByte_lowerByte b).right (h.right b hb)

theorem lower_lower : (scheme.map lowerByte).map lowerByte = scheme.map lowerByte := by
  simp [Function.comp_def, lowerByte_lowerByte]

theorem getScheme_go {raw seen : ByteString} (hs : seen ≠ []) (h : ∀ c ∈ scheme, isSchemeByte c) :
    getScheme.go raw seen (scheme ++ Netip.colon :: s) = .ok (seen ++ scheme, s) := by
  induction scheme generalizing seen
  case nil => simp +decide [getScheme.go, hs]
  case cons c scheme hi =>
    obtain ⟨hc, h⟩ := List.forall_mem_cons.mp h
    rw [List.cons_append, getScheme.go, hi (by simp) h]
    simp [hc, hs]

theorem getScheme_append (h : isScheme scheme) : getScheme (scheme ++ Netip.colon :: s) = .ok (scheme, s) := by
  cases scheme
  case nil => contradiction
  case cons c scheme =>
    simp only [isScheme, Bool.and_eq_true, List.all_eq_true] at h
    rw [getScheme, List.cons_append, getScheme.go, if_pos h.left]
    exact getScheme_go (by simp) h.right

theorem getScheme_slash : getScheme (slash :: s) = .ok ([], slash :: s) := by
  simp +decide [getScheme, getScheme.go]

theorem isScheme_concat (hs : isScheme s) (hc : isSchemeByte c) : isScheme (s ++ [c]) := by
  cases s
  case nil => contradiction
  case cons b s => simp_all [isScheme]

theorem getScheme_go_ok {raw seen rest : ByteString} (hr : seen ++ s = raw) (hs : seen = [] ∨ isScheme seen)
    (h : getScheme.go raw seen s = .ok (scheme, rest)) :
    scheme = [] ∧ rest = raw ∨ isScheme scheme ∧ raw = scheme ++ Netip.colon :: rest := by
  induction s generalizing seen
  case nil =>
    cases h
    exact .inl ⟨rfl, rfl⟩
  case cons c s hi =>
    have hr' : seen ++ [c] ++ s = raw := by simpa using hr
    rw [getScheme.go] at h
    repeat' split at h
    case isTrue hc =>
      refine hi hr' (.inr ?_) h
      obtain rfl | hs := hs
      · simpa [isScheme] using hc
      · exact isScheme_concat hs (isSchemeByte_of_isLower hc)
    case isFalse.isTrue.isFalse hc hn => exact hi hr' (.inr (isScheme_concat (hs.resolve_left hn) hc)) h
    case isFalse.isFalse.isTrue.isFalse hc hn =>
      cases h
      subst hc
      exact .inr ⟨hs.resolve_left hn, hr.symm⟩
    all_goals cases h
    all_goals exact .inl ⟨rfl, rfl⟩

theorem getScheme_ok {raw rest : ByteString} (h : getScheme raw = .ok (scheme, rest)) :
    scheme = [] ∧ rest = raw ∨ isScheme scheme ∧ raw = scheme ++ Netip.colon :: rest :=
  getScheme_go_ok rfl (.inl rfl) h

-- A URL that has no query yet.
structure Url.Bare (u : Url) : Prop where
  forceQuery : u.forceQuery = false
  rawQuery   : u.rawQuery = []
  fragment   : u.fragment = []

def Url.withQuery (u : Url) (q : ByteString) : Url :=
  { u with forceQuery := q = [questionMark], rawQuery := q.drop 1 }

theorem setQuery_append (hu : u.Bare) (hs : questionMark ∉ s) (hq : Ends questionMark q) :
    u.setQuery (s ++ q) = u.withQuery q := by
  have hc : (s ++ q).count questionMark = q.count questionMark := by
    rw [List.count_append, List.count_eq_zero.mpr hs, Nat.zero_add]
  rw [Url.setQuery, hc, after_append hs, after, hq.dropWhile_eq]
  obtain rfl | hq := hq
  case inl => simp [Url.withQuery, hu.forceQuery]
  case inr =>
    obtain ⟨q, rfl⟩ := List.head?_eq_some_iff.mp hq
    by_cases hn : q = []
    case pos => simp [hn, Url.withQuery, hu.rawQuery]
    case neg =>
      have hl : (questionMark :: q).getLast? = some questionMark → questionMark ∈ q := by
        intro hl
        rw [List.getLast?_cons, List.getLast?_eq_some_getLast hn] at hl
        exact List.mem_of_getLast? ((List.getLast?_eq_some_getLast hn).trans hl)
      have hf : ¬((questionMark :: q).getLast? = some questionMark ∧
          (questionMark :: q).count questionMark = 1) := by
        simpa [List.count_eq_zero] using hl
      rw [List.getLast?_append_of_ne_nil _ (by simp), if_neg hf]
      simp [Url.withQuery, hn, hu.forceQuery]

end Scheme

section Parts

variable {p : UrlParser} {viaRequest : Bool} {scheme s q text authority : ByteString} {u w : Url}

theorem decode_ok {d : ByteString} : decode p s = .ok d ↔ unescape s = some d := by
  cases h : unescape s <;> simp [decode, h]

theorem setPath_ok : u.setPath p text = .ok w ↔ ∃ d, unescape text = some d ∧
    w = { u with path := d, rawPath := if escape .path d = text then [] else text } := by
  simp only [Url.setPath, ← decode_ok (p := p)]
  cases decode p text <;> simp [Except.map, eq_comm]

theorem setFragment_ok : u.setFragment p text = .ok w ↔ ∃ d, unescape text = some d ∧
    w = { u with fragment := d, rawFragment := if escape .fragment d = text then [] else text } := by
  simp only [Url.setFragment, ← decode_ok (p := p)]
  cases decode p text <;> simp [Except.map, eq_comm]

theorem parseAuthority_of_not_mem {host : ByteString} (h : atSign ∉ host) :
    parseAuthority p scheme host = (p.parseHost scheme host).map fun host => (none, host) := by
  have ht : host.rtakeWhile (· ≠ atSign) = host :=
    List.rtakeWhile_eq_self_iff.mpr fun b hb => by simpa using ne_of_mem_of_not_mem hb h
  simp only [parseAuthority, ht, h, not_false_eq_true, if_true]
  cases p.parseHost scheme host <;> rfl

theorem parseAuthority_append {user host : ByteString} (h : atSign ∉ host) :
    parseAuthority p scheme (user ++ atSign :: host) = (p.parseHost scheme host).bind fun host =>
      (parseUserinfo p user).map fun user => (some user, host) := by
  simp only [parseAuthority, rtakeWhile_eq h, rdropWhile_eq h, List.dropLast_concat]
  cases p.parseHost scheme host <;> cases parseUserinfo p user <;>
    simp [bind, Except.bind, Except.map, pure, Except.pure]

theorem parseAuthority_hash {x : Option Userinfo × ByteString} (h : hashSign ∈ authority) :
    parseAuthority p scheme authority ≠ .ok x := by
  by_cases ha : atSign ∈ authority
  case neg =>
    rw [parseAuthority_of_not_mem ha]
    cases hp : p.parseHost scheme authority
    case error => simp [Except.map]
    case ok host => exact (p.parseHost_hash scheme authority host h hp).elim
  case pos =>
    obtain ⟨user, host, rfl, hh⟩ := exists_last ha
    rw [parseAuthority_append hh]
    cases hp : p.parseHost scheme host
    case error => simp [Except.bind]
    case ok host' =>
      have hn : hashSign ∉ host := fun hm => p.parseHost_hash scheme host host' hm hp
      have hu : hashSign ∈ user := by
        simpa +decide [hn] using h
      have hv : validUserinfo user = false := List.all_eq_false.mpr ⟨hashSign, hu, by decide⟩
      simp [Except.bind, parseUserinfo, hv, Except.map]

theorem parseRest_opaque (hs : scheme ≠ []) (h : s.head? ≠ some slash) :
    parseRest p viaRequest scheme s = .ok { Url.empty with scheme, opaqueText := s } := by
  simp [parseRest, hs, h]

theorem parseRest_authority (hs : scheme ≠ []) (ha : slash ∉ authority) (ht : Ends slash text) :
    parseRest p viaRequest scheme (slash :: slash :: (authority ++ text)) =
      (parseAuthority p scheme authority).bind fun (user, host) =>
        Url.setPath p { Url.empty with scheme, user, host } text := by
  simp only [parseRest, List.head?_cons, ne_eq, not_true_eq_false, if_false, hs, not_false_eq_true, true_or,
    true_and, List.prefix_cons_inj, List.nil_prefix, if_true, List.drop_succ_cons, List.drop_zero]
  rw [before_append ha, dropWhile_append ha, ht.before_eq, ht.dropWhile_eq, List.append_nil]
  rfl

theorem parseRest_path (h : viaRequest ∧ scheme = [] ∨ ¬[slash, slash] <+: slash :: s) :
    parseRest p viaRequest scheme (slash :: s) =
      Url.setPath p { Url.empty with scheme, omitHost := scheme ≠ [] } (slash :: s) := by
  have hc : ¬((scheme ≠ [] ∨ (¬viaRequest ∧ ¬[slash, slash, slash] <+: slash :: s)) ∧
      [slash, slash] <+: slash :: s) := by
    obtain ⟨hv, hs⟩ | h := h
    · simp [hv, hs]
    · exact fun hc => h hc.right
  rw [parseRest, if_neg (by simp), if_neg hc]

-- What is read before the query has none, and an authority only if it is not opaque.
theorem parseRest_ok (h : parseRest p viaRequest scheme s = .ok u) :
    u.Bare ∧ u.scheme = scheme ∧ (u.user ≠ none → u.opaqueText = []) := by
  simp only [parseRest] at h
  repeat' split at h
  case isTrue.isTrue =>
    cases h
    exact ⟨⟨rfl, rfl, rfl⟩, rfl, by simp [Url.empty]⟩
  case isTrue.isFalse.isFalse.isFalse =>
    obtain ⟨d, _, rfl⟩ := setPath_ok.mp h
    exact ⟨⟨rfl, rfl, rfl⟩, rfl, by simp [Url.empty]⟩
  case isFalse.isTrue =>
    cases ha : parseAuthority p scheme (before slash (s.drop 2)) <;> rw [ha] at h
    case error => contradiction
    case ok =>
      obtain ⟨d, _, rfl⟩ := setPath_ok.mp h
      exact ⟨⟨rfl, rfl, rfl⟩, rfl, by simp [Url.empty]⟩
  case isFalse.isFalse =>
    obtain ⟨d, _, rfl⟩ := setPath_ok.mp h
    exact ⟨⟨rfl, rfl, rfl⟩, rfl, by simp [Url.empty]⟩
  all_goals contradiction

theorem parse_eq {raw : ByteString} (hr : getScheme raw = .ok (scheme, s ++ q)) (hn : raw ≠ [])
    (hw : raw ≠ ofString "*") (hs : questionMark ∉ s) (hq : Ends questionMark q) :
    parse p viaRequest raw = if raw.any isCTL then .error (ofString "net/url: invalid control character in URL")
      else (parseRest p viaRequest (scheme.map lowerByte) s).map (·.withQuery q) := by
  simp only [parse, hn, hw, false_and, if_false, hr, bind, Except.bind, before_append hs, hq.before_eq,
    List.append_nil]
  cases hu : parseRest p viaRequest (scheme.map lowerByte) s
  case error => rfl
  case ok u => simp [Except.map, setQuery_append (parseRest_ok hu).left hs hq, pure, Except.pure]

-- A user without a name whose password is empty is printed as one without a password.
def Userinfo.reread (x : Userinfo) : Userinfo :=
  if x.username = [] ∧ x.password.getD [] = [] then ⟨[], none⟩ else x

theorem validUserinfo_escape : validUserinfo (escape .userPassword s) := by
  have hb (c : UInt8) : shouldEscape c .userPassword = false →
      isAlnum c || (ofString "-._:~!$&'()*+,;=%@").contains c := by
    revert c
    exact forall_byte (by decide +kernel)
  refine List.all_eq_true.mpr fun c hc => ?_
  obtain rfl | hc := mem_escape hc
  · decide
  · exact hb c hc

theorem parseUserinfo_escape : parseUserinfo p (escape .userPassword s) = .ok ⟨s, none⟩ := by
  have hc : Netip.colon ∉ escape .userPassword s := not_mem_escape (by decide) (by decide)
  simp [parseUserinfo, validUserinfo_escape, hc, decode_ok.mpr unescape_escape, Except.map]

theorem parseUserinfo_escape_append {password : ByteString} :
    parseUserinfo p (escape .userPassword s ++ Netip.colon :: escape .userPassword password) =
      .ok ⟨s, some password⟩ := by
  have hc : Netip.colon ∉ escape .userPassword s := not_mem_escape (by decide) (by decide)
  have hv : validUserinfo (escape .userPassword s ++ Netip.colon :: escape .userPassword password) := by
    have hs : validUserinfo (escape .userPassword s) := validUserinfo_escape
    have hp : validUserinfo (escape .userPassword password) := validUserinfo_escape
    simp only [validUserinfo, List.all_append, List.all_cons, Bool.and_eq_true] at hs hp ⊢
    exact ⟨hs, by decide, hp⟩
  simp [parseUserinfo, hv, before_append_cons hc, after_append_cons hc, decode_ok.mpr unescape_escape, bind,
    Except.bind, pure, Except.pure]

theorem parseUserinfo_string {x : Userinfo} : parseUserinfo p x.string = .ok x.reread := by
  obtain ⟨name, password⟩ := x
  by_cases h : name = [] ∧ password.getD [] = []
  case pos =>
    simp only [Userinfo.string, Userinfo.reread, h]
    exact parseUserinfo_escape (s := [])
  case neg =>
    have hs : name ≠ [] ∨ password.getD [] ≠ [] := by
      simpa [imp_iff_not_or] using h
    simp only [Userinfo.string, Userinfo.reread, if_neg h, if_pos hs]
    cases password
    case none => simpa using parseUserinfo_escape
    case some => exact parseUserinfo_escape_append

end Parts

end Http
