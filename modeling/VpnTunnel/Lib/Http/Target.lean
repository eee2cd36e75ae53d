import VpnTunnel.Lib.Http.Print

-- The target of a request as a client writes it, and what a server reads from it. A server does not look for a
-- fragment, so the hash and what comes behind it become part of the path, or of the query.

namespace Http

open ByteString

structure Target where
  scheme    : ByteString
  -- The user info and the host.
  authority : Option (Option ByteString × ByteString)
  path      : ByteString
  query     : Option ByteString
  fragment  : Option ByteString
  valid     : scheme = [] ∨ isScheme scheme
  origin    : scheme = [] → authority = none ∧ path.head? = some slash
  rooted    : authority ≠ none → Ends slash path
  noSlashes : scheme ≠ [] → authority = none → ¬[slash, slash] <+: path
  user      : ∀ a ∈ authority, ∀ c ∈ [slash, questionMark, hashSign], c ∉ a.1.getD []
  host      : ∀ a ∈ authority, ∀ c ∈ [slash, questionMark, hashSign, atSign], c ∉ a.2
  noMark    : questionMark ∉ path
  noHash    : hashSign ∉ path ∧ ∀ q ∈ query, hashSign ∉ q

namespace Target

variable (t : Target)

def authorityText (a : Option ByteString × ByteString) : ByteString :=
  a.1.elim [] (· ++ [atSign]) ++ a.2

-- What is between the scheme and the query.
def hierarchy : ByteString :=
  t.authority.elim [] ([slash, slash] ++ authorityText ·) ++ t.path

def tail : ByteString :=
  t.query.elim [] (questionMark :: ·) ++ t.fragment.elim [] (hashSign :: ·)

def text : ByteString :=
  schemeText t.scheme ++ (t.hierarchy ++ t.tail)

-- What a server takes for the query, with its question mark, and what it takes for the end of the path.
def queryText : ByteString :=
  t.tail.dropWhile (· ≠ questionMark)

def stray : ByteString :=
  before questionMark t.tail

def isOpaque : Bool :=
  t.scheme ≠ [] ∧ t.authority = none ∧ t.path.head? ≠ some slash

def opaqueText : ByteString :=
  if t.isOpaque then t.path ++ t.stray else []

def pathText : ByteString :=
  if t.isOpaque then [] else t.path ++ t.stray

-- What a client reads again from the URL as it is printed.
def sent : ByteString :=
  if t.isOpaque then t.tail else t.queryText

def sentQuery : ByteString :=
  before hashSign t.sent

def sentFragment : ByteString :=
  after hashSign t.sent

-- What is printed of the fragment then.
def shownFragment : ByteString :=
  if t.sentFragment = [] then []
  else hashSign :: reprint .fragment t.sentFragment ((unescape t.sentFragment).getD [])

-- What is printed between the scheme and these parts.
def body (w : Url) : ByteString :=
  if t.isOpaque then t.path else w.authority ++ w.escapedPath

-- What a server reads before the query.
structure Reads (p : UrlParser) (w : Url) : Prop where
  bare       : w.Bare
  scheme     : w.scheme = t.scheme.map lowerByte
  opaqueText : w.opaqueText = t.opaqueText
  user       : t.authority = none → w.user = none
  host       : t.authority.elim (.ok []) (p.parseHost w.scheme ·.2) = .ok w.host
  path       : unescape t.pathText = some w.path
  rawPath    : w.rawPath = if escape .path w.path = t.pathText then [] else t.pathText
  rooted     : t.isOpaque = false → t.path.head? = some slash ∨ t.path = [] ∧ t.stray = []
  omitHost   : w.omitHost = decide (t.scheme ≠ [] ∧ t.authority = none ∧ t.isOpaque = false)

variable {t} {p : UrlParser} {u w : Url}

theorem tail_eq : t.stray ++ t.queryText = t.tail :=
  List.takeWhile_append_dropWhile

theorem queryText_ends : Ends questionMark t.queryText :=
  ends_dropWhile

theorem stray_ends : Ends hashSign t.stray := by
  rw [stray, tail]
  cases t.query
  case some => exact .inl (by simp [before])
  case none =>
    cases t.fragment
    case none => exact .inl rfl
    case some => exact .inr (by simp +decide [before])

theorem not_mem_authorityText {a : Option ByteString × ByteString} {c : UInt8} (ha : t.authority = some a)
    (hc : c ∈ [slash, questionMark, hashSign]) : c ∉ authorityText a := by
  have hu : c ∉ a.1.getD [] := t.user a ha c hc
  have hh : c ∉ a.2 := t.host a ha c (List.mem_append_left [atSign] hc)
  have hn : c ≠ atSign := by
    rintro rfl
    exact absurd hc (by decide)
  obtain ⟨_ | user, host⟩ := a
  · simpa [authorityText] using hh
  · simpa [authorityText, hn, hh] using hu

theorem questionMark_not_mem : questionMark ∉ t.hierarchy ++ t.stray := by
  have hs : questionMark ∉ t.stray := not_mem_before
  cases ha : t.authority
  case none => simp [hierarchy, ha, t.noMark, hs]
  case some a =>
    have hm := not_mem_authorityText (c := questionMark) ha (by decide)
    simp +decide [hierarchy, ha, t.noMark, hs, hm]

theorem getScheme_text : getScheme t.text = .ok (t.scheme, t.hierarchy ++ t.tail) := by
  obtain hs | hs := t.valid
  case inl =>
    obtain ⟨ha, hp⟩ := t.origin hs
    obtain ⟨path, hp⟩ := List.head?_eq_some_iff.mp hp
    simp only [text, hierarchy, schemeText, hs, ha, hp]
    exact getScheme_slash
  case inr => rw [text, schemeText_eq hs, List.append_assoc, List.singleton_append, getScheme_append hs]

theorem text_ne : t.text ≠ [] ∧ t.text ≠ ofString "*" := by
  suffices h : slash ∈ t.text ∨ Netip.colon ∈ t.text by
    constructor <;> intro ht <;> rw [ht] at h <;> exact absurd h (by decide)
  obtain hs | hs := t.valid
  case inl =>
    obtain ⟨path, hp⟩ := List.head?_eq_some_iff.mp (t.origin hs).right
    exact .inl (by simp [text, hierarchy, hp])
  case inr => exact .inr (by simp [text, schemeText_eq hs])

theorem parseHost_of_parseAuthority {scheme host : ByteString} {a : Option ByteString × ByteString}
    {user : Option Userinfo} (ha : atSign ∉ a.2)
    (h : parseAuthority p scheme (authorityText a) = .ok (user, host)) : p.parseHost scheme a.2 = .ok host := by
  obtain ⟨_ | text, a⟩ := a
  case none =>
    rw [authorityText, Option.elim_none, List.nil_append, parseAuthority_of_not_mem ha] at h
    cases hp : p.parseHost scheme a <;> rw [hp] at h <;> cases h
    rfl
  case some =>
    rw [authorityText, Option.elim_some, List.append_assoc, List.singleton_append,
      parseAuthority_append ha] at h
    cases hp : p.parseHost scheme a <;> rw [hp] at h
    case error => contradiction
    case ok =>
      cases hu : parseUserinfo p text <;> rw [Except.bind, hu] at h <;> cases h
      rfl

-- The hash of a fragment can not be part of an authority, so a path must come before it.
theorem ends_of_authority {a : Option ByteString × ByteString} (ha : t.authority = some a)
    (h : hashSign ∉ before slash (t.path ++ t.stray)) :
    t.path.head? = some slash ∨ t.path = [] ∧ t.stray = [] := by
  obtain hp | hp := t.rooted (by simp [ha])
  case inr => exact .inl hp
  case inl =>
    refine .inr ⟨hp, ?_⟩
    obtain hs | hs := t.stray_ends
    case inl => exact hs
    case inr =>
      obtain ⟨s, hs⟩ := List.head?_eq_some_iff.mp hs
      simp +decide [hp, hs, before] at h

theorem head?_of_append_stray {s : ByteString} (h : (s ++ t.stray).head? = some slash) :
    s.head? = some slash := by
  cases s
  case cons => simpa using h
  case nil =>
    obtain hs | hs := t.stray_ends
    · simp [hs] at h
    · exact absurd (hs.symm.trans h) (by decide)

theorem ends_append_stray (h : t.path.head? = some slash ∨ t.path = [] ∧ t.stray = []) :
    Ends slash (t.path ++ t.stray) := by
  obtain h | ⟨hp, hs⟩ := h
  · exact .inr (by simp [h])
  · exact .inl (by simp [hp, hs])

section Cases

variable (h : parseRest p true (t.scheme.map lowerByte) (t.hierarchy ++ t.stray) = .ok w)

include h

theorem reads_path (ha : t.authority = none) (hp : t.path.head? = some slash) : t.Reads p w := by
  have ho : t.isOpaque = false := by
    simp [isOpaque, hp]
  obtain ⟨path, hs⟩ := List.head?_eq_some_iff.mp hp
  have hd : (true : Bool) ∧ t.scheme.map lowerByte = [] ∨ ¬[slash, slash] <+: slash :: (path ++ t.stray) := by
    by_cases hn : t.scheme = []
    case pos => exact .inl ⟨rfl, by simp [hn]⟩
    case neg =>
      refine .inr ?_
      rintro ⟨r, hr⟩
      refine t.noSlashes hn ha ?_
      have hh : (path ++ t.stray).head? = some slash := by
        rw [← (List.cons.inj hr).right]
        rfl
      obtain ⟨path', hp'⟩ := List.head?_eq_some_iff.mp (head?_of_append_stray hh)
      exact ⟨path', by rw [hs, hp']; rfl⟩
  have hn : t.hierarchy = slash :: path := by
    simp [hierarchy, ha, hs]
  have hb := (parseRest_ok h).left
  rw [hn, List.cons_append, parseRest_path hd] at h
  obtain ⟨d, hd, rfl⟩ := setPath_ok.mp h
  have ht : t.pathText = slash :: (path ++ t.stray) := by
    simp [pathText, ho, hs]
  exact {
    bare       := hb
    scheme     := rfl
    opaqueText := by simp [Url.empty, opaqueText, ho]
    user _     := rfl
    host       := by simp [ha, Url.empty]
    path       := ht ▸ hd
    rawPath    := by simp [ht]
    rooted _   := .inl hp
    omitHost   := by simp [ha, ho]
  }

theorem reads_opaque (ha : t.authority = none) (hp : t.path.head? ≠ some slash) : t.Reads p w := by
  have hs : t.scheme ≠ [] := fun hs => hp (t.origin hs).right
  have ho : t.isOpaque := by
    simp [isOpaque, hs, ha, hp]
  have hn : t.hierarchy = t.path := by
    simp [hierarchy, ha]
  have hh : (t.path ++ t.stray).head? ≠ some slash := fun hh => hp (head?_of_append_stray hh)
  have hb := (parseRest_ok h).left
  rw [hn, parseRest_opaque (by simpa using hs) hh] at h
  cases h
  exact {
    bare       := hb
    scheme     := rfl
    opaqueText := by simp [opaqueText, ho]
    user _     := rfl
    host       := by simp [ha, Url.empty]
    path       := by simp [pathText, ho, Url.empty, unescape]
    rawPath    := by simp [pathText, ho, Url.empty]
    rooted     := by simp [ho]
    omitHost   := by simp [ho, Url.empty]
  }

theorem reads_authority {a : Option ByteString × ByteString} (ha : t.authority = some a) : t.Reads p w := by
  have hs : t.scheme ≠ [] := fun hs => by simpa [ha] using (t.origin hs).left
  have ho : t.isOpaque = false := by
    simp [isOpaque, ha]
  have hn : t.hierarchy ++ t.stray = slash :: slash :: ((authorityText a ++ before slash (t.path ++ t.stray)) ++
      (t.path ++ t.stray).dropWhile (· ≠ slash)) := by
    rw [List.append_assoc, before, List.takeWhile_append_dropWhile]
    simp [hierarchy, ha]
  have hm : slash ∉ authorityText a ++ before slash (t.path ++ t.stray) := by
    simp [not_mem_authorityText ha, not_mem_before]
  have hb := (parseRest_ok h).left
  rw [hn, parseRest_authority (by simpa using hs) hm ends_dropWhile] at h
  cases hp : parseAuthority p (t.scheme.map lowerByte) (authorityText a ++ before slash (t.path ++ t.stray)) <;>
    rw [hp] at h
  case error => contradiction
  case ok x =>
    have hr := ends_of_authority ha fun hm => parseAuthority_hash (List.mem_append_right _ hm) hp
    have ht := ends_append_stray hr
    rw [ht.before_eq, List.append_nil] at hp
    obtain ⟨d, hd, rfl⟩ := setPath_ok.mp h
    have hx : t.pathText = (t.path ++ t.stray).dropWhile (· ≠ slash) := by
      simp only [pathText, ho, ht.dropWhile_eq]
      rfl
    exact {
      bare       := hb
      scheme     := rfl
      opaqueText := by simp [Url.empty, opaqueText, ho]
      user hn    := by simp [ha] at hn
      host       := by
        rw [ha]
        exact parseHost_of_parseAuthority (t.host a ha atSign (by simp)) hp
      path       := hx ▸ hd
      rawPath    := by simp [hx]
      rooted _   := hr
      omitHost   := by simp [ha, Url.empty]
    }

end Cases

theorem reads_rest (h : parseRest p true (t.scheme.map lowerByte) (t.hierarchy ++ t.stray) = .ok w) :
    t.Reads p w := by
  cases ha : t.authority
  case some a => exact reads_authority h ha
  case none =>
    by_cases hp : t.path.head? = some slash
    · exact reads_path h ha hp
    · exact reads_opaque h ha hp

theorem read (h : parse p true t.text = .ok u) :
    t.text.any isCTL = false ∧ ∃ w, u = w.withQuery t.queryText ∧ t.Reads p w := by
  have hg : getScheme t.text = .ok (t.scheme, (t.hierarchy ++ t.stray) ++ t.queryText) := by
    rw [getScheme_text, List.append_assoc, tail_eq]
  rw [parse_eq hg text_ne.left text_ne.right questionMark_not_mem queryText_ends] at h
  split at h
  case isTrue => contradiction
  case isFalse hc =>
    cases hw : parseRest p true (t.scheme.map lowerByte) (t.hierarchy ++ t.stray) <;> rw [hw] at h
    case error => contradiction
    case ok w =>
      cases h
      exact ⟨by simpa using hc, w, rfl, reads_rest hw⟩

namespace Reads

variable (h : t.Reads p w)

include h

theorem isScheme_scheme (hs : t.scheme ≠ []) : isScheme w.scheme :=
  h.scheme ▸ isScheme_lower (t.valid.resolve_left hs)

theorem ends_pathText : Ends slash t.pathText := by
  rw [pathText]
  split
  case isTrue => exact .inl rfl
  case isFalse ho => exact ends_append_stray (h.rooted (by simpa using ho))

theorem escapedPath : w.escapedPath = reprint .path t.pathText w.path :=
  escapedPath_eq h.path h.ends_pathText h.rawPath

theorem ends_escapedPath : Ends slash w.escapedPath :=
  h.escapedPath ▸ ends_reprint h.path h.ends_pathText

theorem base_of_opaque (ho : t.isOpaque) : w.base = schemeText w.scheme ++ (t.path ++ t.stray) := by
  have hn : t.authority = none := by
    simp_all [isOpaque]
  have hs : w.scheme ≠ [] := by
    simp_all [isOpaque, h.scheme]
  have hh := h.host
  have hp := h.path
  simp only [hn, Option.elim_none, Except.ok.injEq, pathText, ho, if_true, unescape, Option.some.injEq] at hh hp
  have he : w.escapedPath = [] := by
    simp +decide [h.escapedPath, pathText, ho, ← hp]
  have ha : w.authority = [] := by
    simp [Url.authority, h.user hn, ← hh, ← hp, escape]
  have ht : t.path ++ t.stray = w.opaqueText := by
    simp [h.opaqueText, Target.opaqueText, ho]
  rw [ht]
  by_cases ht : w.opaqueText = [] <;> simp [Url.base, schemeText, hs, ht, he, ha]

theorem base_of_not_opaque (ho : t.isOpaque = false) :
    w.base = schemeText w.scheme ++ (w.authority ++ w.escapedPath) := by
  have hn : w.opaqueText = [] := by
    simp [h.opaqueText, Target.opaqueText, ho]
  rw [base_eq hn h.ends_escapedPath, List.append_assoc]

theorem string_withQuery :
    (w.withQuery t.queryText).string = schemeText w.scheme ++ (t.body w ++ t.sent) := by
  have hs : (w.withQuery t.queryText).string = w.base ++ t.queryText := by
    have hh : (w.withQuery t.queryText).hash = [] := by
      simp [Url.hash, Url.withQuery, h.bare.fragment]
    rw [Url.string, hh, List.append_nil, query_withQuery queryText_ends]
    rfl
  rw [hs, body, sent]
  cases ho : t.isOpaque
  case true => simp [h.base_of_opaque ho, ← tail_eq]
  case false => simp [h.base_of_not_opaque ho]

theorem not_mem_body {c : UInt8} (hc : c ∈ delimiters) : c ∉ t.body w := by
  rw [body]
  split
  case isTrue =>
    obtain rfl | rfl : c = questionMark ∨ c = hashSign := by simpa [delimiters] using hc
    · exact t.noMark
    · exact t.noHash.left
  case isFalse =>
    have hv := (shouldEscape_delimiter hc).right.right.left
    simp [not_mem_authority hc, h.escapedPath, not_mem_reprint hv]

end Reads

-- A text can be taken apart at its delimiters.
theorem exists_tail (s : ByteString) : ∃ core query fragment,
    s = core ++ (Option.elim query [] (questionMark :: ·) ++ Option.elim fragment [] (hashSign :: ·)) ∧
      questionMark ∉ core ∧ hashSign ∉ core ∧ ∀ q ∈ query, hashSign ∉ q := by
  obtain ⟨fragment, hf⟩ := exists_cut hashSign s
  obtain ⟨query, hq⟩ := exists_cut questionMark (before hashSign s)
  have hn : hashSign ∉ before hashSign s := not_mem_before
  rw [hq, List.mem_append, not_or] at hn
  refine ⟨before questionMark (before hashSign s), query, fragment, ?_, not_mem_before, hn.left, ?_⟩
  · rw [← List.append_assoc, ← hq, ← hf]
  · rintro q rfl
    exact fun hm => hn.right (.tail _ hm)

theorem exists_authority {s : ByteString} (hm : questionMark ∉ s) (hh : hashSign ∉ s) : ∃ a path,
    s = authorityText a ++ path ∧ Ends slash path ∧
      (∀ c ∈ [slash, questionMark, hashSign], c ∉ a.1.getD []) ∧
        ∀ c ∈ [slash, questionMark, hashSign, atSign], c ∉ a.2 := by
  have hs : before slash s ++ s.dropWhile (· ≠ slash) = s := List.takeWhile_append_dropWhile
  have hb : ∀ c ∈ [slash, questionMark, hashSign], c ∉ before slash s := by
    have hp {c : UInt8} (h : c ∉ s) : c ∉ before slash s := fun hc => h ((List.takeWhile_prefix _).subset hc)
    simpa using ⟨not_mem_before, hp hm, hp hh⟩
  by_cases ha : atSign ∈ before slash s
  case neg =>
    refine ⟨(none, before slash s), s.dropWhile (· ≠ slash), hs.symm, ends_dropWhile, by simp, ?_⟩
    simpa [ha] using hb
  case pos =>
    obtain ⟨user, host, hu, hn⟩ := exists_last ha
    rw [hu] at hb hs
    refine ⟨(some user, host), s.dropWhile (· ≠ slash), by simpa [authorityText] using hs.symm, ends_dropWhile, ?_⟩
    simp_all

theorem exists_of_scheme {scheme s : ByteString} (hs : isScheme scheme) :
    ∃ t : Target, scheme ++ Netip.colon :: s = t.text := by
  obtain ⟨core, query, fragment, rfl, hm, hh, hq⟩ := exists_tail s
  by_cases hp : [slash, slash] <+: core
  case pos =>
    obtain ⟨rest, rfl⟩ := hp
    rw [List.mem_append, not_or] at hm hh
    obtain ⟨a, path, rfl, hr, hu, ho⟩ := exists_authority hm.right hh.right
    rw [List.mem_append, not_or] at hm hh
    refine ⟨{
      scheme, authority := some a, path, query, fragment
      valid         := .inr hs
      origin h      := absurd h (isScheme_ne_nil hs)
      rooted _      := hr
      noSlashes _ h := by contradiction
      user _ h      := Option.some.inj h ▸ hu
      host _ h      := Option.some.inj h ▸ ho
      noMark        := hm.right.right
      noHash        := ⟨hh.right.right, hq⟩
    }, ?_⟩
    simp [text, schemeText_eq hs, hierarchy, tail]
  case neg =>
    refine ⟨{
      scheme, authority := none, path := core, query, fragment
      valid         := .inr hs
      origin h      := absurd h (isScheme_ne_nil hs)
      rooted h      := by contradiction
      noSlashes _ _ := hp
      user          := by simp
      host          := by simp
      noMark        := hm
      noHash        := ⟨hh, hq⟩
    }, ?_⟩
    simp [text, schemeText_eq hs, hierarchy, tail]

theorem exists_of_slash {s : ByteString} (hs : s.head? = some slash) : ∃ t : Target, s = t.text := by
  obtain ⟨core, query, fragment, rfl, hm, hh, hq⟩ := exists_tail s
  have hc : core.head? = some slash := by
    cases core
    case cons => simpa using hs
    case nil => cases query <;> cases fragment <;> simp +decide at hs
  refine ⟨{
    scheme := [], authority := none, path := core, query, fragment
    valid       := .inl rfl
    origin _    := ⟨rfl, hc⟩
    rooted h    := by contradiction
    noSlashes h := by contradiction
    user        := by simp
    host        := by simp
    noMark      := hm
    noHash      := ⟨hh, hq⟩
  }, ?_⟩
  simp [text, schemeText, hierarchy, tail]

-- A server accepts no other texts, but for the asterisk.
theorem exists_text {raw : ByteString} (h : parse p true raw = .ok u) (hw : raw ≠ ofString "*") :
    ∃ t : Target, raw = t.text := by
  rw [parse, if_neg hw] at h
  split at h
  case isTrue => contradiction
  split at h
  case isTrue => contradiction
  cases hg : getScheme raw <;> rw [hg] at h
  case error => contradiction
  case ok x =>
    obtain ⟨scheme, rest⟩ := x
    obtain ⟨rfl, rfl⟩ | ⟨hs, rfl⟩ := getScheme_ok hg
    case inr => exact exists_of_scheme hs
    case inl =>
      apply exists_of_slash
      by_contra hn
      have hb : (before questionMark rest).head? ≠ some slash := by
        intro hb
        obtain ⟨t, ht⟩ := List.head?_eq_some_iff.mp hb
        obtain ⟨r, hr⟩ : before questionMark rest <+: rest := List.takeWhile_prefix _
        rw [ht] at hr
        exact hn (hr ▸ rfl)
      simp [bind, Except.bind, parseRest, hb] at h

end Target

end Http
