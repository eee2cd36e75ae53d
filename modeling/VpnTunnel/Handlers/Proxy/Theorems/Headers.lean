import VpnTunnel.Asyncjob.Theorems.Custody
import VpnTunnel.Handlers.Proxy.Zone

namespace Handlers.Proxy

open ByteString Http
open Asyncjob (Options Event Pool Worker starters drainBody cloneRequest)
open Asyncjob.Pool (system)

variable {h : Handler} {o : Options} {es : List Event} {p : Pool} {r : Request}
  {dst req out : Http.Request} {header src : Header} {key value : ByteString}
  {extra : List ByteString} {own : ByteString → Bool}

-- In the run, a worker has been started for the inbound request. This is what it sends.
def Sends (h : Handler) (o : Options) (es : List Event) (p : Pool) (r : Request)
    (out : Http.Request) : Prop :=
  ∃ (k w : Nat) (c : Asyncjob.Submit.Call) (worker : Worker), (starters o es)[w]? = some k ∧
    p.calls[k]? = some c ∧ p.workers[w]? = some worker ∧
    h.dispatch r = .ok (.async c.tag c.req) ∧ out = stripServiceHeaders worker.req

-- The values that the transport takes from the headers of a request. Some names it only writes itself,
-- and of the agents it writes the first one.
def Writes (own : ByteString → Bool) (header : Header) (key value : ByteString) : Prop :=
  (key = Name.userAgent → value = header.get Name.userAgent ∧ value ≠ []) ∧
    (key ≠ Name.userAgent → own key = false) ∧ value ∈ header.values key

instance : Decidable (Writes own header key value) :=
  inferInstanceAs (Decidable ((_ → _) ∧ (_ → _) ∧ _))

theorem canonical_of_service (hk : key ∈ serviceHeaders) : canonicalHeaderKey key = key := by
  revert key
  decide

theorem canonical_userAgent : canonicalHeaderKey Name.userAgent = Name.userAgent := by
  decide

theorem Writes.congr {header' : Header} (hv : header.values key = header'.values key) :
    Writes own header key value ↔ Writes own header' key value := by
  simp only [Writes, hv]
  by_cases hk : key = Name.userAgent
  case pos =>
    subst hk
    simp only [Header.get_eq canonical_userAgent, hv]
  case neg => simp [hk]

-- Stripping removes exactly the service headers.
theorem stripServiceHeaders_lookup :
    (stripServiceHeaders req).header.lookup key =
      if key ∈ serviceHeaders then none else req.header.lookup key := by
  have hs : serviceHeaders.map canonicalHeaderKey = serviceHeaders :=
    (List.map_congr_left fun _ => canonical_of_service).trans (List.map_id _)
  rw [stripServiceHeaders, Header.lookup_foldl_del, hs]

-- The worker sends what was submitted, with the body that was read from it.
theorem Sends.elim (rn : (system o).Run es p) (hs : Sends h o es p r out) :
    ∃ tag req body, h.dispatch r = .ok (.async tag req) ∧ drainBody tag req = .ok body ∧
      out = stripServiceHeaders (cloneRequest req body) ∧
      ∃ worker ∈ p.workers, worker.req = cloneRequest req body := by
  have ⟨k, w, c, worker, hk, hc, hw, hd, ho⟩ := hs
  have ⟨k', cu⟩ := (Asyncjob.Custody.of_run rn).workers w worker hw
  cases hk.symm.trans cu.started
  have ⟨c', worker', body, hc', hw', _, hb, hr⟩ := cu.request
  cases hc.symm.trans hc'
  cases hw.symm.trans hw'
  exact ⟨c.tag, c.req, body, hd, hb, hr ▸ ho, worker, List.mem_of_getElem? hw, hr⟩

@[simp]
theorem cloneRequest_header {body : List UInt8} : (cloneRequest req body).header = req.header := by
  simp only [cloneRequest]
  split <;> rfl

theorem dispatchSync_ne_async {tag : ByteString} : h.dispatchSync r ≠ .ok (.async tag req) := by
  simp only [Handler.dispatchSync, bind, Except.bind]
  intro hd
  split at hd <;> try contradiction
  split at hd <;> try contradiction
  split at hd <;> cases hd

theorem dispatch_async {tag : ByteString} (hd : h.dispatch r = .ok (.async tag req)) :
    tag = r.header.get Name.retryTag ∧ r.id ≠ [] ∧
      ∃ u, h.target r = .ok u ∧ req = Handler.asyncRequest r u := by
  simp only [Handler.dispatch] at hd
  split at hd <;> try contradiction
  split at hd <;> try contradiction
  case isFalse hi =>
    split at hd <;> try contradiction
    split at hd
    case isFalse => exact absurd hd dispatchSync_ne_async
    case isTrue =>
      simp only [Handler.dispatchAsync] at hd
      split at hd <;> try contradiction
      split at hd <;> try contradiction
      split at hd <;> try contradiction
      have ⟨u, hu, hd⟩ := Except.map_eq_ok.mp hd
      cases hd
      exact ⟨rfl, hi, u, hu, rfl⟩

theorem asyncRequest_lookup {u : Url} (hk : key ∉ serviceHeaders) :
    (Handler.asyncRequest r u).header.lookup key = r.header.lookup key := by
  have hn : key ≠ canonicalHeaderKey internalTunnelIDHeader := by
    intro he
    exact hk (he ▸ by decide)
  exact AList.lookup_insert_ne hn

-- The zone forwarder routes the request of a worker by the tunnel that the client has asked for.
theorem forward_asyncRequest {u : Url} {body : List UInt8} (hi : r.id ≠ [])
    (route : ByteString → Option RouteError) (send : Http.Request → Option Http.Response) :
    forward route send (cloneRequest (Handler.asyncRequest r u) body) =
      (route r.id).elim ((send <| stripServiceHeaders <|
        cloneRequest (Handler.asyncRequest r u) body).elim .doError .response) .routeError := by
  have hg : (Handler.asyncRequest r u).header.get internalTunnelIDHeader = r.id := by
    simp [Handler.asyncRequest, Header.get, Header.set, Header.values]
  simp only [forward, cloneRequest_header, hg, if_neg hi]
  cases route r.id <;> rfl

-- So a worker of the run sends the request, unless there is no route for it.
theorem Sends.forward (rn : (system o).Run es p) (hs : Sends h o es p r out) :
    ∃ worker ∈ p.workers, ∀ route send, forward route send worker.req =
      (route r.id).elim ((send out).elim .doError .response) .routeError := by
  have ⟨tag, req, body, hd, _, ho, worker, hw, hr⟩ := hs.elim rn
  have ⟨_, hi, u, _, hq⟩ := dispatch_async hd
  subst hq ho
  exact ⟨worker, hw, hr ▸ forward_asyncRequest hi⟩

-- The async path sends all headers of the client but the service headers.
theorem Sends.lookup (rn : (system o).Run es p) (hs : Sends h o es p r out) :
    out.header.lookup key = if key ∈ serviceHeaders then none else r.header.lookup key := by
  have ⟨tag, req, body, hd, _, ho, _⟩ := hs.elim rn
  have ⟨_, _, u, _, hq⟩ := dispatch_async hd
  rw [ho, stripServiceHeaders_lookup, cloneRequest_header, hq]
  split
  case isTrue => rfl
  case isFalse hk => exact asyncRequest_lookup hk

theorem Sends.values (rn : (system o).Run es p) (hs : Sends h o es p r out) :
    out.header.values key = if key ∈ serviceHeaders then [] else r.header.values key := by
  rw [Header.values, hs.lookup rn]
  split <;> rfl

-- From canonical headers, the sync path copies those that are allowed.
theorem values_copy_allowed (hc : src.Canonical) (header : Header) (extra : List ByteString)
    (key : ByteString) :
    (header.copy (fun key => if allowed extra (canonicalHeaderKey key) then
        some (canonicalHeaderKey key) else none) src.fields).values key =
      header.values key ++ if allowed extra key then src.values key else [] := by
  rw [Header.values_copy]
  congr 1
  have hm (x) (hx : x ∈ src.fields) : canonicalHeaderKey x.1 = x.1 := by
    have ⟨e, he, hx⟩ := List.mem_map.mp hx
    subst hx
    exact hc _ (List.mem_keys_of_mem he)
  split
  case isTrue ha =>
    rw [← Header.flatMap_fields]
    refine List.flatMap_congr fun x hx => ?_
    rw [hm x hx]
    by_cases hk : x.1 = key
    case pos => simp [hk, ha, hk ▸ hm x hx]
    case neg =>
      split <;> simp [hm x hx, hk]
  case isFalse ha =>
    refine List.flatMap_eq_nil_iff.mpr fun x hx => ?_
    rw [hm x hx]
    by_cases hk : x.1 = key
    case pos => simp [hk, ha]
    case neg => split <;> simp [hm x hx, hk]

theorem copyProxyHeaders_values (hd : dst.header = ∅) (hc : src.Canonical)
    (extra : List ByteString) (hk : key = Name.userAgent → src.get Name.userAgent ≠ []) :
    (copyProxyHeaders dst src extra).header.values key =
      if allowed extra key then src.values key else [] := by
  have hv := values_copy_allowed hc dst.header extra key
  rw [hd, Header.values_empty, List.nil_append] at hv
  simp only [copyProxyHeaders, hd]
  split
  case isFalse => exact hv
  case isTrue hu =>
    have hk : key ≠ Name.userAgent := fun he => hk he hu
    rw [Header.values_insert, if_neg hk, hv]

-- Of the canonical headers of a client, the sync path sends those that are allowed.
theorem writes_sync_iff (hd : dst.header = ∅) (hc : src.Canonical) (hw : Writes own src key value) :
    Writes own (copyProxyHeaders dst src extra).header key value ↔ allowed extra key := by
  have hv := copyProxyHeaders_values hd hc extra
    fun (he : key = _) => (hw.1 he).1 ▸ (hw.1 he).2
  cases ha : allowed extra key <;> rw [ha] at hv
  case true => exact iff_of_true ((Writes.congr hv).mpr hw) rfl
  case false =>
    refine iff_of_false (fun hw => ?_) (by simp)
    have hm := hw.2.2
    rw [hv] at hm
    contradiction

-- On the async path all that the client sends is forwarded, up to the service headers. So only allowed
-- headers are, as on the sync path, if the client sends no others.
theorem forwards_allowed_iff (rn : (system o).Run es p) (hs : Sends h o es p r out) :
    ((∀ key value, Writes own out.header key value →
        allowed (extraHeaders r.header) (canonicalHeaderKey key)) ↔
      ∀ key value, Writes own r.header key value →
        key ∈ serviceHeaders ∨ allowed (extraHeaders r.header) (canonicalHeaderKey key)) ∧
    (r.header.Canonical → ∀ dst : Http.Request, dst.header = ∅ → ∀ key value,
      Writes own out.header key value →
        (Writes own (copyProxyHeaders dst r.header (extraHeaders r.header)).header key value ↔
          allowed (extraHeaders r.header) (canonicalHeaderKey key))) := by
  have hn {key value} (hw : Writes own out.header key value) : key ∉ serviceHeaders := by
    intro hk
    have hm := hw.2.2
    rw [hs.values rn, if_pos hk] at hm
    contradiction
  have hw {key value} (hk : key ∉ serviceHeaders) :
      Writes own out.header key value ↔ Writes own r.header key value :=
    Writes.congr (by rw [hs.values rn, if_neg hk])
  refine ⟨⟨?_, ?_⟩, ?_⟩
  case refine_1 =>
    intro ha key value hr
    by_cases hk : key ∈ serviceHeaders
    case pos => exact .inl hk
    case neg => exact .inr <| ha key value <| (hw hk).mpr hr
  case refine_2 =>
    intro ha key value ho
    exact (ha key value <| (hw (hn ho)).mp ho).resolve_left (hn ho)
  case refine_3 =>
    intro hc dst hd key value ho
    have hr := (hw (hn ho)).mp ho
    rw [hc key (Header.mem_of_values hr.2.2)]
    exact writes_sync_iff hd hc hr

-- What the transport of an HTTP/1 connection writes itself.
def http1 (key : ByteString) : Bool :=
  key ∈ ["Host", "User-Agent", "Content-Length", "Transfer-Encoding", "Trailer"].map ofString

def someHandler : Handler where
  isEligible _       := true
  maxBodyBytes       := 10485760
  upstreamTimeout    := 30000000000
  maxUpstreamTimeout := 300000000000
  asyncPool          := true
  parse s            := if s = ofString "https://example.com/" then .ok Asyncjob.someUrl else .error []
  parseDuration _    := none

def taggedRequest (header : Header) : Request where
  method        := ofString "GET"
  scheme        := ofString "https"
  id            := ofString "se-got"
  rest          := ofString "example.com/"
  rawQuery      := []
  header        := header.set Name.retryTag Asyncjob.someTag
  body          := none
  contentLength := 0

-- The run in which the request is submitted to the pool, which starts a worker for it.
def submitRun (r : Request) : List Event :=
  [.submit (r.header.get Name.retryTag) (Handler.asyncRequest r Asyncjob.someUrl), .check 0,
   .get 0 true, .claim 0, .drain 0, .put 0 0 true, .add 0, .spawn 0]

def sentRequest (r : Request) : Http.Request :=
  stripServiceHeaders (cloneRequest (Handler.asyncRequest r Asyncjob.someUrl) [])

-- A client that talks to the daemon directly.
def directRequest : Request :=
  taggedRequest (Header.set ∅ Name.contentType (ofString "text/plain"))

theorem directRun_isSome : ((system .twoSlots).exec (submitRun directRequest)).isSome := by
  decide

theorem directRun_sends :
    Sends someHandler .twoSlots (submitRun directRequest)
      (((system .twoSlots).exec (submitRun directRequest)).get directRun_isSome) directRequest
      (sentRequest directRequest) :=
  ⟨0, 0, _, _, by decide, rfl, rfl, by decide, by decide⟩

theorem forwards_allowed_directRun :
    Writes http1 (sentRequest directRequest).header Name.contentType (ofString "text/plain") ∧
      ∀ key value, Writes http1 (sentRequest directRequest).header key value →
        allowed (extraHeaders directRequest.header) (canonicalHeaderKey key) := by
  have hk : ∀ key ∈ directRequest.header.keys,
      key ∈ serviceHeaders ∨
        allowed (extraHeaders directRequest.header) (canonicalHeaderKey key) := by
    decide
  refine ⟨by decide, ?_⟩
  refine (forwards_allowed_iff (.of_isSome directRun_isSome) directRun_sends).1.mpr ?_
  intro key value hw
  exact hk key <| AList.mem_keys.mpr <| Header.mem_of_values hw.2.2

-- The same request through a reverse proxy, which adds the address of the client.
def proxiedRequest : Request :=
  taggedRequest (Header.set ∅ (ofString "X-Forwarded-For") (ofString "203.0.113.7"))

theorem proxiedRun_isSome : ((system .twoSlots).exec (submitRun proxiedRequest)).isSome := by
  decide

theorem forwards_client_address :
    Sends someHandler .twoSlots (submitRun proxiedRequest)
        (((system .twoSlots).exec (submitRun proxiedRequest)).get proxiedRun_isSome)
        proxiedRequest (sentRequest proxiedRequest) ∧
      Writes http1 (sentRequest proxiedRequest).header (ofString "X-Forwarded-For")
        (ofString "203.0.113.7") ∧
      ¬allowed (extraHeaders proxiedRequest.header) (ofString "X-Forwarded-For") ∧
      ¬Writes http1 (copyProxyHeaders Asyncjob.someRequest proxiedRequest.header
        (extraHeaders proxiedRequest.header)).header (ofString "X-Forwarded-For")
        (ofString "203.0.113.7") :=
  ⟨⟨0, 0, _, _, by decide, rfl, rfl, by decide, by decide⟩, by decide, by decide, by decide⟩

end Handlers.Proxy
