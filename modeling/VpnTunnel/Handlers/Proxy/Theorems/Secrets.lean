import VpnTunnel.Handlers.Proxy.Theorems.Headers

namespace Handlers.Proxy

open ByteString Http
open Asyncjob (Options Event Pool drainBody cloneRequest)
open Asyncjob.Pool (system)

variable {h : Handler} {o₁ o₂ : Options} {es₁ es₂ : List Event} {p₁ p₂ : Pool} {r r₁ r₂ : Request}
  {dst req req₁ req₂ out₁ out₂ : Http.Request} {key tag tag₁ tag₂ : ByteString} {u : Url}

-- The service headers that are meant for the daemon alone, whose values must not matter upstream.
def secretHeaders : List ByteString :=
  [Name.token, internalTunnelIDHeader, Name.retryTag]

-- Inbound requests that differ in nothing but the values of these headers.
structure Alike (r₁ r₂ : Request) : Prop where
  method        : r₁.method = r₂.method
  scheme        : r₁.scheme = r₂.scheme
  id            : r₁.id = r₂.id
  rest          : r₁.rest = r₂.rest
  rawQuery      : r₁.rawQuery = r₂.rawQuery
  body          : r₁.body = r₂.body
  contentLength : r₁.contentLength = r₂.contentLength
  header        : ∀ key ∉ secretHeaders, r₁.header.lookup key = r₂.header.lookup key

-- Outbound requests that an upstream cannot tell apart.
structure Same (out₁ out₂ : Http.Request) : Prop where
  method        : out₁.method = out₂.method
  url           : out₁.url = out₂.url
  host          : out₁.host = out₂.host
  body          : out₁.body = out₂.body
  contentLength : out₁.contentLength = out₂.contentLength
  header        : ∀ key, out₁.header.lookup key = out₂.header.lookup key

-- Requests that the handler treats the same way.
inductive SameDispatch : Except Rejection Dispatch → Except Rejection Dispatch → Prop
  | rejected {e : Rejection} : SameDispatch (.error e) (.error e)
  | sync {out₁ out₂ : Http.Request} {timeout : Asyncjob.Duration} : Same out₁ out₂ →
      SameDispatch (.ok (.sync out₁ timeout)) (.ok (.sync out₂ timeout))
  | async {tag₁ tag₂ : ByteString} {req₁ req₂ : Http.Request} :
      Same (stripServiceHeaders req₁) (stripServiceHeaders req₂) →
      SameDispatch (.ok (.async tag₁ req₁)) (.ok (.async tag₂ req₂))

theorem service_of_secret (hk : key ∈ secretHeaders) : key ∈ serviceHeaders := by
  revert key
  decide

theorem ne_nil_of_retryTag (ht : retryTagRegexp tag) : tag ≠ [] := by
  intro hn
  simp [hn, retryTagRegexp] at ht

theorem drainBody_ok {body : List UInt8} (hb : drainBody tag req = .ok body) :
    body = req.body.elim [] Body.data := by
  simp only [drainBody] at hb
  split at hb
  case h_1 hn => cases hb; simp [hn]
  case h_2 hn =>
    split at hb <;> try contradiction
    split at hb <;> try contradiction
    cases hb
    simp [hn]

theorem Same.cloneRequest {body : List UInt8}
    (hs : Same (stripServiceHeaders req₁) (stripServiceHeaders req₂)) :
    Same (stripServiceHeaders (cloneRequest req₁ body))
      (stripServiceHeaders (cloneRequest req₂ body)) := by
  simp only [Asyncjob.cloneRequest]
  split <;> exact ⟨hs.method, hs.url, hs.host, rfl, rfl, hs.header⟩

namespace Alike

variable (hr : Alike r₁ r₂)

include hr

theorem lookup_of_not_service (hk : key ∉ serviceHeaders) :
    r₁.header.lookup key = r₂.header.lookup key :=
  hr.header key <| mt service_of_secret hk

theorem get_eq (key : ByteString) (hk : canonicalHeaderKey key ∉ secretHeaders) :
    r₁.header.get key = r₂.header.get key := by
  simp only [Header.get, Header.values, hr.header _ hk]

theorem target_eq : h.target r₁ = h.target r₂ := by
  simp only [Handler.target, hr.scheme, hr.rest, hr.rawQuery]

theorem timeout_eq : h.timeout r₁ = h.timeout r₂ := by
  simp only [Handler.timeout, hr.get_eq Name.timeout (by decide)]

theorem extraHeaders_eq : extraHeaders r₁.header = extraHeaders r₂.header := by
  simp only [extraHeaders, hr.get_eq Name.forwardHeaders (by decide)]

theorem userAgent_eq : r₁.header.get Name.userAgent = r₂.header.get Name.userAgent :=
  hr.get_eq _ (by decide)

-- Whatever the client lists, the service headers are not copied.
theorem lookup_copy (hc₁ : r₁.header.Canonical) (hc₂ : r₂.header.Canonical)
    (extra : List ByteString) (key : ByteString) :
    (Header.copy (fun key => if allowed extra (canonicalHeaderKey key) then
        some (canonicalHeaderKey key) else none) ∅ r₁.header.fields).lookup key =
      (Header.copy (fun key => if allowed extra (canonicalHeaderKey key) then
        some (canonicalHeaderKey key) else none) ∅ r₂.header.fields).lookup key := by
  apply Header.Valued.empty.copy.lookup_eq Header.Valued.empty.copy
  rw [values_copy_allowed hc₁, values_copy_allowed hc₂]
  congr 1
  split
  case isFalse => rfl
  case isTrue ha =>
    have hk : key ∉ serviceHeaders := by
      simp only [allowed, decide_eq_true_eq] at ha
      exact ha.left
    simp only [Header.values, hr.lookup_of_not_service hk]

theorem copyProxyHeaders_same (hc₁ : r₁.header.Canonical) (hc₂ : r₂.header.Canonical)
    (hd : dst.header = ∅) :
    Same (copyProxyHeaders dst r₁.header (extraHeaders r₁.header))
      (copyProxyHeaders dst r₂.header (extraHeaders r₂.header)) := by
  have hl := hr.lookup_copy hc₁ hc₂ (extraHeaders r₂.header)
  simp only [copyProxyHeaders, hd, hr.extraHeaders_eq, hr.userAgent_eq]
  split
  case isFalse => exact ⟨rfl, rfl, rfl, rfl, rfl, hl⟩
  case isTrue =>
    refine ⟨rfl, rfl, rfl, rfl, rfl, fun key => ?_⟩
    by_cases hk : key = Name.userAgent
    case pos =>
      subst hk
      simp
    case neg => simpa only [AList.lookup_insert_ne hk] using hl key

theorem asyncRequest_same :
    Same (stripServiceHeaders (Handler.asyncRequest r₁ u))
      (stripServiceHeaders (Handler.asyncRequest r₂ u)) where
  method        := hr.method
  url           := rfl
  host          := rfl
  body          := hr.body
  contentLength := hr.contentLength
  header key    := by
    rw [stripServiceHeaders_lookup, stripServiceHeaders_lookup]
    split
    case isTrue => rfl
    case isFalse hk =>
      rw [asyncRequest_lookup hk, asyncRequest_lookup hk, hr.lookup_of_not_service hk]

theorem dispatchAsync_same (ht₁ : retryTagRegexp (r₁.header.get Name.retryTag))
    (ht₂ : retryTagRegexp (r₂.header.get Name.retryTag)) :
    SameDispatch (h.dispatchAsync r₁) (h.dispatchAsync r₂) := by
  simp only [Handler.dispatchAsync, hr.method, ht₁, ht₂, hr.target_eq]
  split
  case isTrue => exact .rejected
  case isFalse =>
    simp only [Bool.not_true, Bool.false_eq_true, if_false]
    split
    case isTrue => exact .rejected
    case isFalse =>
      cases h.target r₂
      case error => exact .rejected
      case ok u => exact .async hr.asyncRequest_same

theorem dispatchSync_same (hc₁ : r₁.header.Canonical) (hc₂ : r₂.header.Canonical) :
    SameDispatch (h.dispatchSync r₁) (h.dispatchSync r₂) := by
  simp only [Handler.dispatchSync, hr.timeout_eq, hr.target_eq, hr.method, hr.body]
  cases h.timeout r₂
  case error => exact .rejected
  case ok timeout =>
    cases h.target r₂
    case error => exact .rejected
    case ok target =>
      simp only [bind, Except.bind]
      split
      case h_1 => exact .rejected
      case h_2 hn => exact .sync (hr.copyProxyHeaders_same hc₁ hc₂ (newRequest_ok hn).2)

theorem dispatch_same (hc₁ : r₁.header.Canonical) (hc₂ : r₂.header.Canonical)
    (ht : (r₁.header.get Name.retryTag = [] ∧ r₂.header.get Name.retryTag = []) ∨
      (retryTagRegexp (r₁.header.get Name.retryTag) ∧ retryTagRegexp (r₂.header.get Name.retryTag))) :
    SameDispatch (h.dispatch r₁) (h.dispatch r₂) := by
  simp only [Handler.dispatch, hr.scheme, hr.id]
  split
  case isTrue => exact .rejected
  split
  case isTrue => exact .rejected
  split
  case isTrue => exact .rejected
  cases ht
  case inl ht =>
    rw [if_neg (not_not.mpr ht.1), if_neg (not_not.mpr ht.2)]
    exact hr.dispatchSync_same hc₁ hc₂
  case inr ht =>
    rw [if_pos (ne_nil_of_retryTag ht.1), if_pos (ne_nil_of_retryTag ht.2)]
    exact hr.dispatchAsync_same ht.1 ht.2

-- What two workers send for the requests does not depend on the runs that they are part of.
theorem sends_same (rn₁ : (system o₁).Run es₁ p₁) (rn₂ : (system o₂).Run es₂ p₂)
    (hs₁ : Sends h o₁ es₁ p₁ r₁ out₁) (hs₂ : Sends h o₂ es₂ p₂ r₂ out₂) : Same out₁ out₂ := by
  have ⟨tag₁, req₁, body₁, hd₁, hb₁, ho₁, _⟩ := hs₁.elim rn₁
  have ⟨tag₂, req₂, body₂, hd₂, hb₂, ho₂, _⟩ := hs₂.elim rn₂
  have ⟨_, _, u₁, hu₁, hq₁⟩ := dispatch_async hd₁
  have ⟨_, _, u₂, hu₂, hq₂⟩ := dispatch_async hd₂
  cases hu₁.symm.trans (hr.target_eq.trans hu₂)
  subst hq₁ hq₂ ho₁ ho₂
  have hb : body₁ = body₂ := by
    rw [drainBody_ok hb₁, drainBody_ok hb₂]
    simp only [Handler.asyncRequest, hr.body]
  subst hb
  exact hr.asyncRequest_same.cloneRequest

end Alike

theorem outbound_same (hr : Alike r₁ r₂) (hc₁ : r₁.header.Canonical) (hc₂ : r₂.header.Canonical)
    (ht : (r₁.header.get Name.retryTag = [] ∧ r₂.header.get Name.retryTag = []) ∨
      (retryTagRegexp (r₁.header.get Name.retryTag) ∧ retryTagRegexp (r₂.header.get Name.retryTag))) :
    SameDispatch (h.dispatch r₁) (h.dispatch r₂) ∧
      ∀ (o₁ o₂ : Options) (es₁ es₂ : List Event) (p₁ p₂ : Pool) (out₁ out₂ : Http.Request),
        (system o₁).Run es₁ p₁ → (system o₂).Run es₂ p₂ → Sends h o₁ es₁ p₁ r₁ out₁ →
        Sends h o₂ es₂ p₂ r₂ out₂ → Same out₁ out₂ :=
  ⟨hr.dispatch_same hc₁ hc₂ ht, fun _ _ _ _ _ _ _ _ => hr.sends_same⟩

-- A client that asks for service headers to be forwarded.
def probingRequest (token tag : String) : Request :=
  { directRequest with
    header := (Header.set (Header.set ∅ Name.forwardHeaders (ofString " x-vpntunnel-TOKEN ,proxy-retry-tag"))
      Name.token (ofString token)).set Name.retryTag (ofString tag) }

theorem probingRequest_alike (token₁ token₂ tag₁ tag₂ : String) :
    Alike (probingRequest token₁ tag₁) (probingRequest token₂ tag₂) := by
  refine ⟨rfl, rfl, rfl, rfl, rfl, rfl, rfl, fun key hk => ?_⟩
  have h₁ : key ≠ canonicalHeaderKey Name.retryTag := fun he => hk (he ▸ by decide)
  have h₂ : key ≠ canonicalHeaderKey Name.token := fun he => hk (he ▸ by decide)
  simp only [probingRequest, Header.set, AList.lookup_insert_ne h₁, AList.lookup_insert_ne h₂]

theorem probingRuns_isSome :
    ((system .twoSlots).exec (submitRun (probingRequest "one" "retry-tag-1"))).isSome ∧
      ((system .twoSlots).exec (submitRun (probingRequest "two" "retry-tag-2"))).isSome := by
  decide

theorem outbound_same_probingRuns :
    SameDispatch (someHandler.dispatch (probingRequest "one" "retry-tag-1"))
        (someHandler.dispatch (probingRequest "two" "retry-tag-2")) ∧
      Same (sentRequest (probingRequest "one" "retry-tag-1"))
        (sentRequest (probingRequest "two" "retry-tag-2")) := by
  have hs := outbound_same (h := someHandler) (probingRequest_alike "one" "two" "retry-tag-1" "retry-tag-2")
    (by decide) (by decide) (.inr (by decide))
  exact ⟨hs.1, hs.2 _ _ _ _ _ _ _ _ (.of_isSome probingRuns_isSome.1) (.of_isSome probingRuns_isSome.2)
    ⟨0, 0, _, _, by decide, rfl, rfl, by decide, by decide⟩
    ⟨0, 0, _, _, by decide, rfl, rfl, by decide, by decide⟩⟩

end Handlers.Proxy
