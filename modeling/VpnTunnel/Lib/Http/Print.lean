import VpnTunnel.Lib.Http.Parse

-- How `net/url` prints a URL, and what `net/http` shows of one whose password is masked.

namespace ByteString

variable {old new s t x pre : ByteString} {c : UInt8}

theorem dropPrefix?_eq_some : s.dropPrefix? old = some t ↔ s = old ++ t := by
  simp [List.dropPrefix?_eq_some_iff]

theorem dropPrefix?_eq_none : s.dropPrefix? old = none ↔ ¬old <+: s := by
  rw [← not_iff_not, not_not, ← ne_eq, Option.ne_none_iff_exists']
  exact exists_congr fun t => dropPrefix?_eq_some.trans eq_comm

theorem replaceFirst_append_self : replaceFirst old new (old ++ t) = new ++ t := by
  cases h : old ++ t
  case nil => simp_all [replaceFirst]
  case cons b s =>
    have hd : (b :: s).dropPrefix? old = some t := dropPrefix?_eq_some.mpr h.symm
    simp [replaceFirst, hd]

theorem replaceFirst_cons (h : ¬old <+: c :: s) :
    replaceFirst old new (c :: s) = c :: replaceFirst old new s := by
  simp [replaceFirst, dropPrefix?_eq_none.mpr h]

-- What comes behind the first occurrence is left as it is.
theorem replaceFirst_append (h : old <:+: s) : replaceFirst old new (s ++ t) = replaceFirst old new s ++ t := by
  induction s
  case nil =>
    obtain rfl := List.infix_nil.mp h
    exact replaceFirst_append_self
  case cons c s hi =>
    by_cases hp : old <+: c :: s
    case pos =>
      obtain ⟨r, hr⟩ := hp
      rw [← hr, List.append_assoc, replaceFirst_append_self, replaceFirst_append_self, List.append_assoc]
    case neg =>
      have hs : old <:+: s := (List.infix_cons_iff.mp h).resolve_left hp
      have hn : ¬old <+: c :: (s ++ t) := by
        intro hn
        have hl : old.length ≤ (c :: s).length := Nat.le_succ_of_le hs.length_le
        exact hp (List.prefix_of_prefix_length_le hn (List.prefix_append (c :: s) t) hl)
      rw [List.cons_append, replaceFirst_cons hn, replaceFirst_cons hp, hi hs, List.cons_append]

-- The byte at the end of the text that is replaced is nowhere before it.
theorem replaceFirst_eq (hp : c ∉ pre) (hx : c ∉ x) :
    replaceFirst (x ++ [c]) new (pre ++ (x ++ c :: t)) = pre ++ (new ++ t) := by
  induction pre
  case nil =>
    have h : replaceFirst (x ++ [c]) new (x ++ [c] ++ t) = new ++ t := replaceFirst_append_self
    simpa using h
  case cons b pre hi =>
    have hn : ¬x ++ [c] <+: b :: (pre ++ (x ++ c :: t)) := by
      rintro ⟨r, hr⟩
      have hc := congrArg (Http.before c) hr
      have hl : Http.before c (x ++ [c] ++ r) = x := by
        simpa using Http.before_append_cons (t := r) hx
      have hb : c ∉ b :: pre ++ x := by
        rw [List.mem_append]
        exact not_or.mpr ⟨hp, hx⟩
      have hw : Http.before c (b :: (pre ++ (x ++ c :: t))) = b :: pre ++ x := by
        simpa using Http.before_append_cons (t := t) hb
      rw [hl, hw] at hc
      have := congrArg List.length hc
      simp at this
      omega
    rw [List.cons_append, replaceFirst_cons hn, hi (fun h => hp (.tail _ h)), List.cons_append]

end ByteString

namespace Http

open ByteString

variable {u w : Url} {q text : ByteString}

theorem ofString_questionMark : ofString "?" = [questionMark] := by
  decide

theorem ofString_atSign : ofString "@" = [atSign] := by
  decide

theorem ofString_colon : ofString ":" = [Netip.colon] := by
  decide

theorem ofString_slashes : ofString "//" = [slash, slash] := by
  decide

def schemeText (scheme : ByteString) : ByteString :=
  if scheme ≠ [] then scheme ++ ofString ":" else []

theorem schemeText_eq {scheme : ByteString} (h : isScheme scheme) :
    schemeText scheme = scheme ++ [Netip.colon] := by
  simp [schemeText, isScheme_ne_nil h, ofString_colon]

theorem query_withQuery (hq : Ends questionMark q) : (u.withQuery q).query = q := by
  obtain rfl | hq := hq
  · simp [Url.query, Url.withQuery]
  · obtain ⟨q, rfl⟩ := List.head?_eq_some_iff.mp hq
    cases q <;> simp [Url.query, Url.withQuery, ofString_questionMark]

theorem base_eq (ho : u.opaqueText = []) (hp : Ends slash u.escapedPath) :
    u.base = schemeText u.scheme ++ u.authority ++ u.escapedPath := by
  simp only [Url.base, ho, schemeText]
  obtain hp | hp := hp
  case inl => simp [hp]
  case inr =>
    obtain ⟨path, hp⟩ := List.head?_eq_some_iff.mp hp
    simp [hp]

theorem authority_infix_base (ho : u.opaqueText = []) : u.authority <:+: u.base := by
  have hs (scheme : ByteString) : u.authority <:+: scheme ++ u.authority := (List.suffix_append ..).isInfix
  have hb {buf post : ByteString} (h : u.authority <:+: buf) : u.authority <:+: buf ++ post :=
    h.trans (List.prefix_append ..).isInfix
  simp only [Url.base, ho, ne_eq, not_true_eq_false, if_false]
  generalize (if ¬u.scheme = [] then u.scheme ++ ofString ":" else []) = scheme
  refine hb ?_
  split <;> split
  · exact hb (hb (hs _))
  · exact hb (hs _)
  · exact hb (hs _)
  · exact hs _

theorem string_infix_base {x : Userinfo} (ho : u.opaqueText = []) (hx : u.user = some x) :
    x.string ++ ofString "@" <:+: u.base := by
  refine List.IsInfix.trans ?_ (authority_infix_base ho)
  simp only [Url.authority, hx, reduceCtorEq, and_false, if_false, Option.elim_some]
  rw [List.append_assoc]
  exact List.infix_append' ..

-- The bytes that begin a query or a fragment.
def delimiters : List UInt8 :=
  [questionMark, hashSign]

theorem shouldEscape_delimiter {c : UInt8} (hc : c ∈ delimiters) : shouldEscape c .userPassword ∧
    shouldEscape c .host ∧ validEncoded .path [c] = false ∧ c ∉ [percent, Netip.colon, slash, atSign] ∧
      isSchemeByte c = false := by
  obtain rfl | rfl : c = questionMark ∨ c = hashSign := by simpa [delimiters] using hc
  · decide
  · decide

theorem not_mem_string {x : Userinfo} {c : UInt8} (hc : shouldEscape c .userPassword)
    (hn : c ∉ [percent, Netip.colon]) : c ∉ x.string := by
  simp only [List.mem_cons, List.not_mem_nil, or_false, not_or] at hn
  rw [Userinfo.string]
  split
  · cases x.password <;> simp [not_mem_escape hc hn.left, ofString_colon, hn]
  · simp

theorem not_mem_authority {c : UInt8} (hc : c ∈ delimiters) : c ∉ u.authority := by
  obtain ⟨hu, hh, -, hn, -⟩ := shouldEscape_delimiter hc
  simp only [List.mem_cons, List.not_mem_nil, or_false, not_or] at hn
  have hs (x : Userinfo) : c ∉ x.string := not_mem_string hu (by simp [hn])
  rw [Url.authority]
  split
  · simp
  split
  · simp
  simp only [List.mem_append, not_or]
  refine ⟨⟨?_, ?_⟩, not_mem_escape hh hn.left⟩
  · split <;> simp [ofString_slashes, hn]
  · cases u.user <;> simp [hs, ofString_atSign, hn]

theorem escapedPath_eq (h : unescape text = some u.path) (ht : Ends slash text)
    (hr : u.rawPath = if escape .path u.path = text then [] else text) :
    u.escapedPath = reprint .path text u.path := by
  have hp : u.path ≠ ofString "*" := by
    intro hp
    rw [hp] at h
    obtain rfl | ht := ht
    · contradiction
    · obtain ⟨text, rfl⟩ := List.head?_eq_some_iff.mp ht
      rw [unescape_cons_of_ne (by decide)] at h
      obtain ⟨d, _, hd⟩ := Option.map_eq_some_iff.mp h
      exact absurd (congrArg List.head? hd) (by rw [List.head?_cons]; decide)
  rw [← encodes_or_eq_reprint h, Url.escapedPath, hr, if_neg hp]

theorem ends_reprint {path : ByteString} (h : unescape text = some path) (ht : Ends slash text) :
    Ends slash (reprint .path text path) := by
  rw [reprint]
  split
  case isTrue => exact ht
  case isFalse =>
    obtain rfl | ht := ht
    · cases h
      exact .inl rfl
    · obtain ⟨text, rfl⟩ := List.head?_eq_some_iff.mp ht
      rw [unescape_cons_of_ne (by decide)] at h
      obtain ⟨d, _, rfl⟩ := Option.map_eq_some_iff.mp h
      exact .inr rfl

-- A URL is shown as it is printed, up to the password of its user.
theorem stripPassword_withQuery {fragment rawFragment : ByteString} (hw : w.Bare)
    (ho : w.user ≠ none → w.opaqueText = []) (hq : Ends questionMark q) :
    Url.stripPassword { w.withQuery q with fragment, rawFragment } =
      w.stripPassword ++ (q ++ Url.hash { w with fragment, rawFragment }) := by
  have hs : w.string = w.base := by
    simp [Url.string, Url.query, Url.hash, hw.forceQuery, hw.rawQuery, hw.fragment]
  have hv : Url.string { w.withQuery q with fragment, rawFragment } =
      w.base ++ (q ++ Url.hash { w with fragment, rawFragment }) := by
    change w.base ++ (w.withQuery q).query ++ Url.hash { w with fragment, rawFragment } = _
    rw [query_withQuery hq, List.append_assoc]
  have hu : Url.user { w.withQuery q with fragment, rawFragment } = w.user := rfl
  rw [Url.stripPassword, Url.stripPassword, hu, hv, hs]
  split
  case h_1 name password hx => exact replaceFirst_append (string_infix_base (ho (by simp [hx])) hx)
  case h_2 => rfl

-- The name of a user is shown, but the password is not.
theorem stripPassword_of_password {name password : ByteString} (hw : w.Bare) (ho : w.opaqueText = [])
    (hs : isScheme w.scheme) (hu : w.user = some ⟨name, some password⟩) (h : unescape text = some w.path)
    (ht : Ends slash text) (hr : w.rawPath = if escape .path w.path = text then [] else text) :
    w.stripPassword = schemeText w.scheme ++ ofString "//" ++
      ((name ++ ofString ":***@") ++ (escape .host w.host ++ reprint .path text w.path)) := by
  have he := escapedPath_eq h ht hr
  have hp : Ends slash w.escapedPath := he ▸ ends_reprint h ht
  have hb : w.string = (schemeText w.scheme ++ ofString "//") ++
      (Userinfo.string ⟨name, some password⟩ ++ atSign :: (escape .host w.host ++ w.escapedPath)) := by
    have ha : w.authority = ofString "//" ++ (Userinfo.string ⟨name, some password⟩ ++ ofString "@") ++
        escape .host w.host := by
      simp [Url.authority, hu]
    simp [Url.string, Url.query, Url.hash, hw.forceQuery, hw.rawQuery, hw.fragment, base_eq ho hp, ha,
      ofString_atSign]
  have hpre : atSign ∉ schemeText w.scheme ++ ofString "//" := by
    simp +decide [schemeText, not_mem_scheme hs]
  have hx : atSign ∉ Userinfo.string ⟨name, some password⟩ := not_mem_string (by decide) (by decide)
  rw [Url.stripPassword, hu, hb, ofString_atSign, ← he]
  exact replaceFirst_eq hpre hx

end Http
