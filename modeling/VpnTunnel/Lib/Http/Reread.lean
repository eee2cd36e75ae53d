import VpnTunnel.Lib.Http.Target

-- What a client reads from the URL of a server as it is printed.

namespace Http

open ByteString

theorem not_mem_schemeText {scheme : ByteString} {c : UInt8} (h : scheme = [] ∨ isScheme scheme)
    (hc : c ∈ delimiters) : c ∉ schemeText scheme := by
  obtain rfl | h := h
  case inl => simp [schemeText]
  case inr =>
    obtain ⟨-, -, -, hn, hs⟩ := shouldEscape_delimiter hc
    have hn : c ≠ Netip.colon := by
      rintro rfl
      simp at hn
    simp [schemeText_eq h, not_mem_scheme h hs, hn]

namespace Target

variable {t : Target} {p : UrlParser} {u v w : Url}

theorem sentQuery_ends : Ends questionMark t.sentQuery := by
  have hb {s : ByteString} (h : s = [] ∨ s.head? = some questionMark ∨ s.head? = some hashSign) :
      Ends questionMark (before hashSign s) := by
    obtain rfl | h | h := h
    · exact .inl rfl
    · obtain ⟨s, rfl⟩ := List.head?_eq_some_iff.mp h
      exact .inr (by simp +decide [before])
    · obtain ⟨s, rfl⟩ := List.head?_eq_some_iff.mp h
      exact .inl (by simp [before])
  rw [sentQuery, sent]
  apply hb
  split
  case isTrue =>
    rw [tail]
    cases t.query <;> cases t.fragment <;> simp
  case isFalse =>
    obtain h | h := t.queryText_ends
    · exact .inl h
    · exact .inr (.inl h)

-- What is printed of a URL up to its query, and up to its fragment.
def printed (t : Target) (w : Url) (q : ByteString) : ByteString :=
  schemeText w.scheme ++ (t.body w ++ q)

-- Whether the text up to the query can be read.
def Readable (p : UrlParser) (t : Target) (w : Url) : Prop :=
  ∃ u, parse p false (t.printed w []) = .ok u

theorem mem_tail_of_mem_sentQuery {c : UInt8} (h : c ∈ t.sentQuery) : c ∈ t.tail := by
  have h := (List.takeWhile_prefix _).subset h
  rw [sent] at h
  split at h
  · exact h
  · exact (List.dropWhile_suffix _).subset h

theorem sent_eq (h : t.sentFragment ≠ []) : t.sent = t.sentQuery ++ hashSign :: t.sentFragment := by
  have hs : t.sentQuery ++ t.sent.dropWhile (· ≠ hashSign) = t.sent := List.takeWhile_append_dropWhile
  obtain hd | hd := ends_dropWhile (c := hashSign) (s := t.sent)
  case inl =>
    rw [sentFragment, after, hd] at h
    contradiction
  case inr =>
    obtain ⟨f, hd⟩ := List.head?_eq_some_iff.mp hd
    rw [← hs, hd, sentFragment, after, hd]
    rfl

theorem Reads.questionMark_not_mem_base (h : t.Reads p w) : questionMark ∉ w.base := by
  have hs : questionMark ∉ schemeText w.scheme := by
    refine not_mem_schemeText ?_ (by decide)
    rw [h.scheme]
    exact t.valid.imp (by simp) isScheme_lower
  cases ho : t.isOpaque
  case true => simp [h.base_of_opaque ho, hs, t.noMark, stray, not_mem_before]
  case false =>
    have hb := h.not_mem_body (c := questionMark) (by decide)
    simp only [body, ho] at hb
    simpa [h.base_of_not_opaque ho, hs] using hb

namespace Reads

variable (h : t.Reads p w) (hs : t.scheme ≠ [])

include h hs

theorem getScheme_printed {q : ByteString} : getScheme (t.printed w q) = .ok (w.scheme, t.body w ++ q) := by
  have hv := h.isScheme_scheme hs
  rw [printed, schemeText_eq hv, List.append_assoc, List.singleton_append, getScheme_append hv]

theorem parse_printed {q : ByteString} (hq : Ends questionMark q) : parse p false (t.printed w q) =
    if (t.printed w q).any isCTL then .error (ofString "net/url: invalid control character in URL")
    else (parseRest p false w.scheme (t.body w)).map (·.withQuery q) := by
  have hc : Netip.colon ∈ t.printed w q := by
    simp [printed, schemeText_eq (h.isScheme_scheme hs)]
  have hn : t.printed w q ≠ [] := List.ne_nil_of_mem hc
  have hw : t.printed w q ≠ ofString "*" := by
    intro hw
    exact absurd (hw ▸ hc) (by decide)
  have hl : w.scheme.map lowerByte = w.scheme := by
    rw [h.scheme, lower_lower]
  rw [parse_eq (h.getScheme_printed hs) hn hw (h.not_mem_body (by decide)) hq, hl]

-- Whether a URL can be read does not depend on its query.
theorem readable_iff (hc : t.text.any isCTL = false) : t.Readable p w ↔
    ∃ u, parse p false (t.printed w t.sentQuery) = .ok u := by
  have hq : t.sentQuery.any isCTL = false := by
    refine List.any_eq_false.mpr fun c hm => List.any_eq_false.mp hc c ?_
    exact List.mem_append_right _ (List.mem_append_right _ (mem_tail_of_mem_sentQuery hm))
  have hp : (t.printed w t.sentQuery).any isCTL = (t.printed w []).any isCTL := by
    simp [printed, hq]
  rw [Readable, h.parse_printed hs (.inl rfl), h.parse_printed hs sentQuery_ends, hp]
  cases (t.printed w []).any isCTL <;> cases parseRest p false w.scheme (t.body w) <;> simp [Except.map]

theorem parseURL_string : parseURL p (w.withQuery t.queryText).string =
    ((parse p false (t.printed w t.sentQuery)).mapError (⟨t.printed w t.sentQuery, ·⟩)).bind fun u =>
      if t.sentFragment = [] then .ok u
      else (u.setFragment p t.sentFragment).mapError (⟨t.printed w t.sent, ·⟩) := by
  have hm : hashSign ∉ schemeText w.scheme ++ t.body w := by
    simp +decide [not_mem_schemeText (.inr (h.isScheme_scheme hs)), h.not_mem_body]
  rw [h.string_withQuery, ← printed, parseURL]
  have hb : before hashSign (t.printed w t.sent) = t.printed w t.sentQuery := by
    rw [printed, ← List.append_assoc, before_append hm, printed, List.append_assoc, sentQuery]
  have ha : after hashSign (t.printed w t.sent) = t.sentFragment := by
    rw [printed, ← List.append_assoc, after_append hm, sentFragment]
  simp only [hb, ha]
  rfl

theorem parseURL_ok (hv : parseURL p (w.withQuery t.queryText).string = .ok v) :
    ∃ x, parseRest p false w.scheme (t.body w) = .ok x ∧ ∃ fragment rawFragment,
      v = { x.withQuery t.sentQuery with fragment, rawFragment } ∧
        Url.hash { x with fragment, rawFragment } = t.shownFragment := by
  rw [h.parseURL_string hs, h.parse_printed hs sentQuery_ends] at hv
  split at hv
  case isTrue => contradiction
  case isFalse =>
    cases hx : parseRest p false w.scheme (t.body w) <;> rw [hx] at hv
    case error => contradiction
    case ok x =>
      refine ⟨x, rfl, ?_⟩
      have hb := (parseRest_ok hx).left
      simp only [Except.map, Except.mapError, Except.bind] at hv
      split at hv
      case isTrue hf =>
        cases hv
        refine ⟨x.fragment, x.rawFragment, rfl, ?_⟩
        simp [Url.hash, hb.fragment, shownFragment, hf]
      case isFalse hf =>
        cases hu : Url.setFragment p (x.withQuery t.sentQuery) t.sentFragment <;> rw [hu] at hv
        case error => contradiction
        case ok =>
          cases hv
          obtain ⟨d, hd, rfl⟩ := setFragment_ok.mp hu
          refine ⟨_, _, rfl, ?_⟩
          have hn := unescape_ne_nil hd hf
          simp only [Url.hash, hn, ne_eq, not_false_eq_true, if_true, shownFragment, hf, if_false, hd,
            Option.getD_some, Url.escapedFragment]
          rw [encodes_or_eq_reprint hd]
          rfl

theorem parseURL_error {err : ParseError} (hv : parseURL p (w.withQuery t.queryText).string = .error err) :
    (∀ u, parse p false (t.printed w t.sentQuery) ≠ .ok u) ∧ err.url = t.printed w t.sentQuery ∨
      (∃ u, parse p false (t.printed w t.sentQuery) = .ok u) ∧
        err.url = t.printed w (t.sentQuery ++ hashSign :: t.sentFragment) := by
  rw [h.parseURL_string hs] at hv
  cases hu : parse p false (t.printed w t.sentQuery) <;> rw [hu] at hv
  case error =>
    cases hv
    exact .inl ⟨by simp, rfl⟩
  case ok u =>
    refine .inr ⟨⟨u, rfl⟩, ?_⟩
    simp only [Except.mapError, Except.bind] at hv
    split at hv
    case isTrue => contradiction
    case isFalse hn =>
      cases hf : u.setFragment p t.sentFragment <;> rw [hf] at hv <;> cases hv
      rw [← sent_eq hn]

end Reads

end Target

end Http
