import VpnTunnel.Application.Proxy.AccessLog
import VpnTunnel.Lib.Http.Alike

namespace Application.Proxy.AccessLog

open ByteString Http

variable {s : Service} {send send₁ send₂ : Http.Request → Except ByteString Answer} {r r₁ r₂ : Request s.urls}
  {t t₁ t₂ : Target} {p : UrlParser} {w : Url}

-- Requests that differ in nothing but the user info, the query and the fragment of their targets.
structure Alike (t₁ t₂ : Target) (r₁ r₂ : Request p) : Prop where
  text₁      : r₁.requestURI = t₁.text
  text₂      : r₂.requestURI = t₂.text
  target     : t₁.Alike t₂
  method     : r₁.method = r₂.method
  host       : r₁.host = r₂.host
  header     : r₁.header = r₂.header
  remoteAddr : r₁.remoteAddr = r₂.remoteAddr
  body       : r₁.body = r₂.body

-- Every target but the asterisk, which has none of these parts, can be taken apart.
theorem exists_target (h : r.requestURI ≠ ofString "*") : ∃ t : Target, r.requestURI = t.text := by
  have hp := r.parsed
  rw [parseRequestURI] at hp
  cases hu : parse s.urls true r.requestURI <;> rw [hu] at hp
  case error => contradiction
  case ok => exact Target.exists_text hu h

-- How a request ends, with the underlying cause of a failure.
inductive Outcome
  | authFailure
  | notAbsolute
  | buildFailure (err : RequestError ByteString)
  | upstreamFailure (cause : ByteString)
  | success (answer : Answer)
  deriving DecidableEq

def cause : RequestError ParseError → RequestError ByteString
  | .invalidMethod method => .invalidMethod method
  | .url err              => .url err.cause

-- The outbound request before its headers are set.
def built (s : Service) (r : Request s.urls) : Except (RequestError ParseError) Http.Request :=
  newRequest (parseURL s.urls) r.method r.url.string r.body

def outcome (s : Service) (send : Http.Request → Except ByteString Answer) (r : Request s.urls) : Outcome :=
  if !checkAuth s r then .authFailure
  else if !r.url.isAbs then .notAbsolute
  else
    match newRequest (parseURL s.urls) r.method r.url.string r.body with
    | .error err => .buildFailure (cause err)
    | .ok out    =>
      let header := stripHopByHop (copyHeaders out.header r.header) r.header
      match send { out with header, host := r.url.host } with
      | .error cause => .upstreamFailure cause
      | .ok answer   => .success answer

-- The record that is written, by the outcome of the request.
inductive Recorded (s : Service) (r : Request s.urls) : Outcome → RequestSummary → Prop
  | authFailure : Recorded s r .authFailure ⟨r.method, authLogTarget r, r.remoteAddr, 407, 0, 0, []⟩
  | notAbsolute : Recorded s r .notAbsolute ⟨r.method, logTarget r.url, r.remoteAddr, 400, 0, 0,
      s.publicError (ofString "Proxy expects absolute-URI request form.")⟩
  | buildFailure {err : RequestError ParseError} {x : RequestError ByteString} :
      r.url.isAbs → built s r = .error err → cause err = x → Recorded s r (.buildFailure x)
        ⟨r.method, logTarget r.url, r.remoteAddr, 500, 0, 0, requestErrorText s err⟩
  | upstreamFailure {out : Http.Request} {cause : ByteString} : r.url.isAbs → built s r = .ok out →
      Recorded s r (.upstreamFailure cause) ⟨r.method, logTarget r.url, r.remoteAddr, 502, 0, 0,
        urlError s (urlErrorOp out.method) out.url.stripPassword cause⟩
  | success {answer : Answer} : Recorded s r (.success answer)
      ⟨r.method, logTarget r.url, r.remoteAddr, answer.statusCode, 0, answer.bytes, []⟩

theorem recorded : Recorded s r (outcome s send r) (handleHTTP s send r) := by
  simp only [outcome, handleHTTP]
  split
  case isTrue => exact .authFailure
  split
  case isTrue => exact .notAbsolute
  case isFalse ha =>
    have ha : r.url.isAbs := by simpa using ha
    cases hb : built s r <;> simp only [built] at hb <;> simp only [hb]
    case error => exact .buildFailure ha hb rfl
    case ok out =>
      generalize send _ = res
      cases res
      case error => exact .upstreamFailure ha hb
      case ok => exact .success

-- What the sanitizer shows of the parts in which alike targets differ: a fragment that the server has taken for
-- the end of the path, and whether there is an empty query.
structure Shown (t₁ t₂ : Target) : Prop where
  stray : t₁.SameStray t₂
  mark  : t₁.queryText = [questionMark] ↔ t₂.queryText = [questionMark]

-- What two requests must share to leave the same record.
def Indistinct (t₁ t₂ : Target) (r₁ : Request p) : Outcome → Prop
  | .authFailure =>
    if t₁.scheme = [] then t₁.query = t₂.query ∧ t₁.fragment = t₂.fragment else Shown t₁ t₂
  | .notAbsolute | .success _ => Shown t₁ t₂
  | .buildFailure _ => Shown t₁ t₂ ∧ t₁.sentQuery = t₂.sentQuery ∧
      (t₁.Readable p r₁.url → t₁.sentFragment = t₂.sentFragment)
  | .upstreamFailure _ => Shown t₁ t₂ ∧ t₁.sentQuery = t₂.sentQuery ∧ t₁.shownFragment = t₂.shownFragment

-- The same user if the text of the URL goes into an error, up to the password if the upstream has failed.
def SameUser (user₁ user₂ : Option Userinfo) : Outcome → Prop
  | .buildFailure _    => user₁.map Userinfo.reread = user₂.map Userinfo.reread
  | .upstreamFailure _ => user₁.map Userinfo.shown = user₂.map Userinfo.shown
  | _                  => True

theorem logTarget_withQuery : logTarget (w.withQuery t.queryText) = Url.base { w with user := none } ++
    if t.queryText = [questionMark] then [questionMark] else [] := by
  simp only [logTarget, Url.string, Url.query, Url.hash, Url.withQuery]
  by_cases h : t.queryText = [questionMark] <;> simp [h, ofString_questionMark] <;> rfl

theorem urlError_eq_iff {op url₁ url₂ cause : ByteString} :
    urlError s op url₁ cause = urlError s op url₂ cause ↔ url₁ = url₂ := by
  simp only [urlError, List.append_cancel_right_eq, List.append_cancel_left_eq]
  exact s.urls.quote_injective.eq_iff

-- What the server has read from the target.
theorem read_of_parsed (h : r.requestURI = t.text) : t.text.any isCTL = false ∧
    ∃ w, r.url = w.withQuery t.queryText ∧ t.Reads s.urls w := by
  refine Target.read ?_
  have hp := r.parsed
  rw [parseRequestURI, h] at hp
  cases hu : parse s.urls true t.text <;> rw [hu] at hp <;> cases hp
  rfl

theorem isAbs_iff (h : r.requestURI = t.text) : r.url.isAbs ↔ t.scheme ≠ [] := by
  obtain ⟨-, w, hw, hr⟩ := read_of_parsed h
  simp [hw, Url.isAbs, Url.withQuery, hr.scheme]

theorem built_error {err : RequestError ParseError} (h : built s r = .error err) :
    ∃ e, err = .url e ∧ parseURL s.urls r.url.string = .error e := by
  rw [built, newRequest_eq r.validMethod] at h
  cases hp : parseURL s.urls r.url.string <;> rw [hp] at h <;> cases h
  exact ⟨_, rfl, rfl⟩

theorem built_ok {out : Http.Request} (h : built s r = .ok out) : ∃ v, parseURL s.urls r.url.string = .ok v ∧
    out.method = r.method ∧ out.url = { v with host := removeEmptyPort v.host } := by
  rw [built, newRequest_eq r.validMethod] at h
  cases hp : parseURL s.urls r.url.string <;> rw [hp] at h <;> cases h
  exact ⟨_, rfl, rfl, rfl⟩

namespace Alike

variable (hr : Alike t₁ t₂ r₁ r₂)

include hr

theorem logTarget_eq_iff : logTarget r₁.url = logTarget r₂.url ↔ Shown t₁ t₂ := by
  obtain ⟨-, w₁, hw₁, h₁⟩ := read_of_parsed hr.text₁
  obtain ⟨-, w₂, hw₂, h₂⟩ := read_of_parsed hr.text₂
  have hb := hr.target.base_eq_iff h₁.withoutUser h₂.withoutUser rfl
  have he (t : Target) : Ends questionMark (if t.queryText = [questionMark] then [questionMark] else []) := by
    split
    · exact .inr rfl
    · exact .inl rfl
  rw [hw₁, hw₂, logTarget_withQuery, logTarget_withQuery]
  constructor
  case mp =>
    intro h
    obtain ⟨hp, hm⟩ := append_inj_of_ends h₁.withoutUser.questionMark_not_mem_base
      h₂.withoutUser.questionMark_not_mem_base (he t₁) (he t₂) h
    refine ⟨hb.mp hp, ?_⟩
    by_cases hq₁ : t₁.queryText = [questionMark] <;> by_cases hq₂ : t₂.queryText = [questionMark] <;> simp_all
  case mpr =>
    rintro ⟨hs, hm⟩
    rw [hb.mpr hs]
    simp only [hm]

-- Without a scheme, the target is logged as it is.
theorem authLogTarget_eq_iff : authLogTarget r₁ = authLogTarget r₂ ↔ Indistinct t₁ t₂ r₁ .authFailure := by
  have hi₁ := isAbs_iff hr.text₁
  have hi₂ := isAbs_iff hr.text₂
  rw [← hr.target.scheme] at hi₂
  simp only [authLogTarget, r₁.notConnect, r₂.notConnect, if_false, Indistinct]
  by_cases hs : t₁.scheme = []
  case pos =>
    simp only [hi₁, hi₂, hs, ne_eq, not_true_eq_false, if_false, if_true, hr.text₁, hr.text₂]
    exact hr.target.text_eq_iff hs
  case neg => simp only [hi₁, hi₂, hs, ne_eq, not_false_eq_true, if_true, if_false, hr.logTarget_eq_iff]

theorem requestErrorText_eq_iff {err₁ err₂ : RequestError ParseError} (ha : r₁.url.isAbs)
    (hu : r₁.url.user.map Userinfo.reread = r₂.url.user.map Userinfo.reread) (ht : t₁.SameStray t₂)
    (h₁ : built s r₁ = .error err₁) (h₂ : built s r₂ = .error err₂) (hc : cause err₁ = cause err₂) :
    requestErrorText s err₁ = requestErrorText s err₂ ↔ t₁.sentQuery = t₂.sentQuery ∧
      (t₁.Readable s.urls r₁.url → t₁.sentFragment = t₂.sentFragment) := by
  obtain ⟨e₁, rfl, he₁⟩ := built_error h₁
  obtain ⟨e₂, rfl, he₂⟩ := built_error h₂
  have hs := (isAbs_iff hr.text₁).mp ha
  obtain ⟨hc₁, w₁, hw₁, h₁⟩ := read_of_parsed hr.text₁
  obtain ⟨hc₂, w₂, hw₂, h₂⟩ := read_of_parsed hr.text₂
  rw [hw₁] at he₁ hu ⊢
  rw [hw₂] at he₂ hu
  rw [requestErrorText, requestErrorText, RequestError.url.inj hc, urlError_eq_iff]
  exact hr.target.url_eq_iff h₁ h₂ hs hc₁ hc₂ hu ht he₁ he₂

theorem upstreamError_eq_iff {out₁ out₂ : Http.Request} {cause : ByteString} (ha : r₁.url.isAbs)
    (hu : r₁.url.user.map Userinfo.shown = r₂.url.user.map Userinfo.shown) (ht : t₁.SameStray t₂)
    (h₁ : built s r₁ = .ok out₁) (h₂ : built s r₂ = .ok out₂) :
    urlError s (urlErrorOp out₁.method) out₁.url.stripPassword cause =
        urlError s (urlErrorOp out₂.method) out₂.url.stripPassword cause ↔
      t₁.sentQuery = t₂.sentQuery ∧ t₁.shownFragment = t₂.shownFragment := by
  obtain ⟨v₁, hv₁, hm₁, ho₁⟩ := built_ok h₁
  obtain ⟨v₂, hv₂, hm₂, ho₂⟩ := built_ok h₂
  have hs := (isAbs_iff hr.text₁).mp ha
  obtain ⟨-, w₁, hw₁, h₁⟩ := read_of_parsed hr.text₁
  obtain ⟨-, w₂, hw₂, h₂⟩ := read_of_parsed hr.text₂
  rw [hw₁] at hv₁ hu
  rw [hw₂] at hv₂ hu
  rw [hm₁, hm₂, hr.method, urlError_eq_iff, ho₁, ho₂]
  exact hr.target.stripPassword_eq_iff h₁ h₂ removeEmptyPort hs hu ht hv₁ hv₂

end Alike

-- Hosts are taken as they are.
def plainUrls : UrlParser where
  quote text             := ofString "\"" ++ text ++ ofString "\""
  quote_injective a b h  := by simpa using h
  parseHost _ text       :=
    if hashSign ∈ text then .error (ofString "invalid character \"#\" in host name") else .ok text
  parseHost_hash _ _ _ h := by simp [h]

def service (verifier : Option (ByteString → Bool)) : Service where
  verifier    := verifier
  urls        := plainUrls
  publicError := id

def refused : Http.Request → Except ByteString Answer :=
  fun _ => .error (ofString "connection refused")

def answered : Http.Request → Except ByteString Answer :=
  fun _ => .ok ⟨200, 0⟩

def request (t : Target) (h : (parseRequestURI plainUrls t.text).toOption.isSome) : Request plainUrls where
  method      := ofString "GET"
  url         := (parseRequestURI plainUrls t.text).toOption.get h
  host        := ofString "example.com"
  requestURI  := t.text
  header      := ∅
  remoteAddr  := ofString "192.0.2.1:5000"
  body        := none
  validMethod := by decide
  notConnect  := by decide
  parsed      := by
    revert h
    cases parseRequestURI plainUrls t.text <;> simp [Except.toOption]

theorem request_alike (h : t₁.Alike t₂) {h₁ : (parseRequestURI plainUrls t₁.text).toOption.isSome}
    {h₂ : (parseRequestURI plainUrls t₂.text).toOption.isSome} : Alike t₁ t₂ (request t₁ h₁) (request t₂ h₂) :=
  ⟨rfl, rfl, h, rfl, rfl, rfl, rfl, rfl⟩

-- A page of a site.
def page (user query fragment : Option ByteString)
    (hu : ∀ c ∈ [slash, questionMark, hashSign], c ∉ user.getD []) (hq : hashSign ∉ query.getD []) :
    Target where
  scheme        := ofString "http"
  authority     := some (user, ofString "example.com")
  path          := ofString "/p"
  query         := query
  fragment      := fragment
  valid         := .inr (by decide +kernel)
  origin h      := absurd h (by decide +kernel)
  rooted _      := .inr (by decide +kernel)
  noSlashes _ h := by contradiction
  user a h      := by
    cases h
    exact hu
  host a h      := by
    cases h
    change ∀ c ∈ [slash, questionMark, hashSign, atSign], c ∉ ofString "example.com"
    decide +kernel
  noMark        := by decide +kernel
  noHash        := ⟨by decide +kernel, by cases query <;> simp_all⟩

def secret (b : Bool) : ByteString :=
  if b then ofString "one" else ofString "two"

def withPassword (b : Bool) : Target :=
  page (some (ofString "alice:" ++ secret b)) none none (by cases b <;> decide +kernel) (by decide +kernel)

def withUser (b : Bool) : Target :=
  page (some (secret b)) none none (by cases b <;> decide +kernel) (by decide +kernel)

def withToken (b : Bool) : Target :=
  page none (some (ofString "token=" ++ secret b)) none (by decide +kernel) (by cases b <;> decide +kernel)

def withFragment (b : Bool) : Target :=
  page none none (some (secret b)) (by decide +kernel) (by decide +kernel)

-- An empty query, or none.
def withMark (b : Bool) : Target :=
  page none (if b then some [] else none) none (by decide +kernel) (by cases b <;> decide +kernel)

-- A fragment that is taken for the end of the query, but can not be read again.
def withBadFragment (b : Bool) : Target :=
  page (some (ofString "alice:" ++ secret b)) (some (ofString "q")) (some (ofString "%zz"))
    (by cases b <;> decide +kernel) (by decide +kernel)

-- A target that is no more than a path and a query.
def relative (b : Bool) : Target where
  scheme      := []
  authority   := none
  path        := ofString "/p"
  query       := some (ofString "token=" ++ secret b)
  fragment    := none
  valid       := .inl rfl
  origin _    := ⟨rfl, by decide +kernel⟩
  rooted      := by simp
  noSlashes h := by contradiction
  user        := by simp
  host        := by simp
  noMark      := by decide +kernel
  noHash      := ⟨by decide +kernel, by cases b <;> decide +kernel⟩

-- There are requests for these targets that end in the same way, but leave different records.
def Told (s : Service) (send : Http.Request → Except ByteString Answer) (t₁ t₂ : Target) : Prop :=
  ∃ r₁ r₂ : Request s.urls, Alike t₁ t₂ r₁ r₂ ∧ outcome s send r₁ = outcome s send r₂ ∧
    handleHTTP s send r₁ ≠ handleHTTP s send r₂

theorem told_of_request {verifier : Option (ByteString → Bool)} (h : t₁.Alike t₂)
    (h₁ : (parseRequestURI plainUrls t₁.text).toOption.isSome)
    (h₂ : (parseRequestURI plainUrls t₂.text).toOption.isSome)
    (ho : outcome (service verifier) send (request t₁ h₁) = outcome (service verifier) send (request t₂ h₂))
    (hn : handleHTTP (service verifier) send (request t₁ h₁) ≠
      handleHTTP (service verifier) send (request t₂ h₂)) :
    Told (service verifier) send t₁ t₂ :=
  ⟨request t₁ h₁, request t₂ h₂, request_alike h, ho, hn⟩

end Application.Proxy.AccessLog
