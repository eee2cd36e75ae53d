import VpnTunnel.Asyncjob.Theorems.Custody
import VpnTunnel.Asyncjob.Theorems.Replay
import VpnTunnel.Handlers.Proxy.Theorems.Headers
import VpnTunnel.Handlers.Proxy.Theorems.Stored

namespace Handlers.Proxy

open ByteString Http
open Asyncjob (UpstreamResponse Outcome SubmitError Options Event Pool ValidCode finisher)
open Asyncjob.Pool (step system)

variable {h : Handler} {authorized : ByteString → Bool} {env : Env} {r : Request} {resp : Response}
  {up : Http.Response} {stored : UpstreamResponse} {w : Header} {key reqID : ByteString}
  {o : Options} {es : List Event} {p : Pool} {fate : Nat → Fate}

-- The response has the header that tells a client that it comes from the daemon.
def Response.Marked (resp : Response) : Prop :=
  resp.header.values Name.proxyError ≠ []

-- The header is among those of an upstream, and among those that are stored.
def UpstreamMarked (up : Http.Response) : Prop :=
  ∃ key, canonicalHeaderKey key = Name.proxyError ∧ up.header.values key ≠ []

def StoredMarked (stored : UpstreamResponse) : Prop :=
  ∃ x ∈ storedFields stored, canonicalHeaderKey x.1 = Name.proxyError ∧ x.2 ≠ []

theorem ne_nil_iff {vs : List ByteString} : vs ≠ [] ↔ ∃ v, v ∈ vs :=
  ⟨List.exists_mem_of_ne_nil vs, fun ⟨_, hv⟩ => List.ne_nil_of_mem hv⟩

theorem upstreamMarked_iff : UpstreamMarked up ↔ ∃ v, Answers up Name.proxyError v := by
  simp only [UpstreamMarked, Answers, ne_nil_iff]
  constructor
  · rintro ⟨key, hk, v, hv⟩
    exact ⟨v, key, hk, hv⟩
  · rintro ⟨v, key, hk, hv⟩
    exact ⟨key, hk, v, hv⟩

theorem storedMarked_iff : StoredMarked stored ↔ ∃ v, Stores stored Name.proxyError v := by
  simp only [StoredMarked, Stores, ne_nil_iff]
  constructor
  · rintro ⟨x, hx, hk, v, hv⟩
    exact ⟨v, x, hx, hk, hv⟩
  · rintro ⟨v, x, hx, hk, hv⟩
    exact ⟨x, hx, hk, v, hv⟩

theorem canonical_proxyError : canonicalHeaderKey Name.proxyError = Name.proxyError := by
  decide

theorem relayed_proxyError : Relayed Name.proxyError where
  valid       := by decide
  endToEnd    := by decide
  requestID   := by decide
  asyncStatus := by decide

theorem writeError_marked {code : ByteString} {status : Int} :
    (writeError w code status reqID).Marked := by
  simp [Response.Marked, writeError, setRequestID_values relayed_proxyError.requestID,
    Header.set, canonical_proxyError]

theorem upstreamHeader_values : (upstreamHeader w up reqID).values Name.proxyError = [] := by
  simp [upstreamHeader, Header.del, canonical_proxyError]

-- A replay is marked if what it replays is.
theorem replay_marked_iff (hw : w.values Name.proxyError = []) (hr : replay w stored reqID = some resp) :
    resp.Marked ↔ StoredMarked stored := by
  rw [storedMarked_iff, Response.Marked, ne_nil_iff]
  simp only [relayed_proxyError.mem_values_replay hw hr]

-- Storing the response and reading it again neither adds nor removes the header.
theorem reread_marked_iff : StoredMarked stored.reread ↔ StoredMarked stored := by
  simp only [storedMarked_iff, relayed_proxyError.stores_reread]
  exact ⟨fun ⟨_, v, hv, _⟩ => ⟨v, hv⟩, fun ⟨v, hv⟩ => ⟨_, v, hv, rfl⟩⟩

theorem materialise_marked_iff (hm : materialise up = some stored) :
    StoredMarked stored ↔ UpstreamMarked up := by
  simp only [storedMarked_iff, upstreamMarked_iff, relayed_proxyError.stores_materialise hm]

theorem zoneErrorResponse_marked {status : Int} {code : String} :
    StoredMarked (zoneErrorResponse status code) := by
  refine ⟨(Name.proxyError, [ofString code]), mem_storedFields.mpr ⟨_, rfl, some [ofString code], ?_, rfl⟩,
    canonical_proxyError, by simp⟩
  rw [AList.lookup_insert_ne (by decide : Name.proxyError ≠ Name.contentType), AList.lookup_insert]

theorem classifyRouteError_marked {err : RouteError} : StoredMarked (classifyRouteError err) := by
  cases err
  case other => exact zoneErrorResponse_marked
  case publicDetails =>
    simp only [classifyRouteError]
    split <;> exact zoneErrorResponse_marked

theorem synthetic_not_marked : ¬StoredMarked .synthetic := by
  simp [StoredMarked, storedFields, UpstreamResponse.synthetic]

-- The upstream has answered, and its answer could be stored.
def Fate.FromUpstream (f : Fate) : Prop :=
  ∃ up, f = .response up ∧ f.result.isSome

-- Forwarding has not failed, and the upstream does not set the header itself.
def Fate.Told (f : Fate) : Prop :=
  f.result.isSome ∧ ∀ up, f = .response up → ¬UpstreamMarked up

-- What is stored tells who has produced it, except in these two cases.
theorem Fate.marked_iff {f : Fate} :
    (StoredMarked (f.result.getD .synthetic) ↔ ¬f.FromUpstream) ↔ f.Told := by
  cases f
  case tunnelRequired => simp [result, FromUpstream, Told, zoneErrorResponse_marked]
  case routeError => simp [result, FromUpstream, Told, classifyRouteError_marked]
  case doError => simp [result, FromUpstream, Told, synthetic_not_marked]
  case response up =>
    cases hm : materialise up
    case none => simp [result, FromUpstream, Told, hm, synthetic_not_marked]
    case some => simp [result, FromUpstream, Told, hm, materialise_marked_iff hm]

-- Where a response comes from.
inductive Written (h : Handler) (env : Env) (r : Request) (resp : Response) : Prop
  | envelope : resp.writer = .writeError → resp.Marked → Written h env r resp
  | relayed : resp.writer = .copyUpstreamResponse → ¬resp.Marked → Written h env r resp
  | pending : resp.writer = .pending → Written h env r resp
  | replayed {tag : ByteString} {req : Http.Request} {stored : UpstreamResponse} :
      h.dispatch r = .ok (.async tag req) → env.submit tag req = .ok (.completed stored) →
      ValidCode stored.statusCode → resp.writer = .replay → (resp.Marked ↔ StoredMarked stored) →
      Written h env r resp

theorem Written.of_writeError {w : Header} {code reqID : ByteString} {status : Int}
    (hr : some (writeError w code status reqID) = some resp) : Written h env r resp := by
  cases hr
  exact .envelope rfl writeError_marked

theorem Written.of_relay {res : DoResult} (hr : relay w res = some resp) : Written h env r resp := by
  cases res
  case panic => exact .of_writeError hr
  case error err =>
    simp only [relay, mapDoError] at hr
    split at hr
    case isTrue => exact .of_writeError hr
    split at hr
    case isTrue => exact .of_writeError hr
    split at hr
    case isTrue => exact .of_writeError hr
    split at hr <;> try contradiction
    split at hr <;> exact .of_writeError hr
  case ok up =>
    simp only [relay] at hr
    split at hr
    case isFalse => exact .of_writeError hr
    case isTrue =>
      cases hr
      exact .relayed rfl (by simp [Response.Marked, upstreamHeader_values])

theorem Written.of_serveAsync {tag : ByteString} {req : Http.Request}
    (hw : w.values Name.proxyError = []) (hd : h.dispatch r = .ok (.async tag req))
    (hr : serveAsync w tag reqID (env.submit tag req) = some resp) : Written h env r resp := by
  cases hs : env.submit tag req <;> rw [hs] at hr
  case error err => cases err <;> exact .of_writeError hr
  case ok outcome =>
    cases outcome
    case pending =>
      cases hr
      exact .pending rfl
    case completed stored =>
      have hm := replay_marked_iff hw hr
      simp only [serveAsync, replay] at hr
      split at hr <;> try contradiction
      case isTrue hv =>
        cases hr
        exact .replayed hd hs hv rfl hm
    case tombstoned | queueFull => exact .of_writeError hr

theorem Written.of_serve (hr : serve h authorized env reqID r = some resp) : Written h env r resp := by
  simp only [serve] at hr
  split at hr
  case isFalse => exact .of_writeError hr
  case isTrue =>
    simp only [serveHTTP] at hr
    split at hr
    case h_1 => exact .of_writeError hr
    case h_2 hd => exact .of_serveAsync relayed_proxyError.values_requestID hd hr
    case h_3 =>
      split at hr
      case isTrue => exact .of_relay hr
      case isFalse => exact .of_writeError hr

-- The request is let through, and the pool has a finished job for it.
def Replays (h : Handler) (authorized : ByteString → Bool) (env : Env) (r : Request) : Prop :=
  authorized (r.header.get Name.token) ∧ ∃ tag req stored, h.dispatch r = .ok (.async tag req) ∧
    env.submit tag req = .ok (.completed stored)

theorem writer_eq_replay_iff (hr : serve h authorized env reqID r = some resp) :
    resp.writer = .replay ↔ Replays h authorized env r := by
  constructor
  · intro hw
    cases Written.of_serve hr
    case envelope hw' _ | relayed hw' _ | pending hw' => cases hw.symm.trans hw'
    case replayed tag req stored hd hs _ _ _ =>
      refine ⟨?_, tag, req, stored, hd, hs⟩
      simp only [serve] at hr
      split at hr
      case isTrue ha => exact ha
      case isFalse =>
        cases hr
        contradiction
  · rintro ⟨ha, tag, req, stored, hd, hs⟩
    simp only [serve, ha, if_true, serveHTTP, hd, hs, serveAsync, replay] at hr
    split at hr <;> cases hr
    rfl

-- What the pool returns of a finished job is what the call for the request finds in the given state.
def Fetches (h : Handler) (r : Request) (o : Options) (p : Pool) (env : Env) : Prop :=
  ∀ tag req stored, h.dispatch r = .ok (.async tag req) →
    env.submit tag req = .ok (.completed stored) →
    ∃ (k : Nat) (c : Asyncjob.Submit.Call) (io : Bool) (p' : Pool),
      p.calls[k]? = some c ∧ c.tag = tag ∧ c.req = req ∧ step o p (.get k io) = some p' ∧
      p'.calls[k]? = some { c with phase := .returned (.ok (.completed stored)) }

-- The workers of a run forward their requests with these results.
def Forwards (fate : Nat → Fate) (es : List Event) : Prop :=
  ∀ w res, .forward w res ∈ es → res = (fate w).result

-- What is replayed is what the worker has stored that has finished the record. A record that was given
-- up on has no response, and its replay is not written.
theorem stored_of_fetched {tag : ByteString} {req : Http.Request} (rn : (system o).Run es p)
    (hf : Forwards fate es) (hp : Fetches h r o p env) (hd : h.dispatch r = .ok (.async tag req))
    (hs : env.submit tag req = .ok (.completed stored)) (hv : ValidCode stored.statusCode) :
    ∃ w, finisher o es tag = some w ∧ stored = ((fate w).result.getD .synthetic).reread := by
  have ⟨k, c, io, p', hc, ht, _, hg, hk⟩ := hp tag req stored hd hs
  have ⟨rec, hr, ho⟩ := Asyncjob.found_of_completed hc hg hk
  subst ht
  have ⟨hst, hup⟩ := ((Asyncjob.shaped rn.reachable).records _ _ hr).finished ho hv
  have ⟨w, res, hw, hfw, _, hrep⟩ := Asyncjob.Attributed.of_run rn _ _ hr hst
  refine ⟨w, hw, ?_⟩
  rw [← hf w res hfw]
  exact Option.some.inj <| hup.symm.trans hrep

-- What has produced the response, as far as it was not the daemon.
def FromUpstream (resp : Response) (f : Option Fate) : Prop :=
  resp.writer = .copyUpstreamResponse ∨ resp.writer = .replay ∧ ∃ x ∈ f, x.FromUpstream

theorem marked_iff_not_upstream (rn : (system o).Run es p) (hf : Forwards fate es)
    (hp : Fetches h r o p env) (hr : serve h authorized env reqID r = some resp)
    (hn : resp.writer ≠ .pending) :
    (resp.Marked ↔ ¬FromUpstream resp ((finisher o es (r.header.get Name.retryTag)).map fate)) ↔
      (Replays h authorized env r →
        ∀ f ∈ (finisher o es (r.header.get Name.retryTag)).map fate, f.Told) := by
  rw [← writer_eq_replay_iff hr]
  cases Written.of_serve hr
  case envelope hw hm => simp [FromUpstream, hw, hm]
  case relayed hw hm => simp [FromUpstream, hw, hm]
  case pending hw => contradiction
  case replayed tag req stored hd hs hv hw hm =>
    have ⟨i, hi, ht⟩ := stored_of_fetched rn hf hp hd hs hv
    rw [(dispatch_async hd).1] at hi
    rw [ht, reread_marked_iff] at hm
    simp only [FromUpstream, hw, hi, hm, Option.map_some, Option.mem_def, Option.some.injEq]
    simpa using Fate.marked_iff (f := fate i)

-- A job is submitted and comes to the given result, and its tag is submitted again.
def replayRun (f : Fate) : List Event :=
  submitRun directRequest ++ [.forward 0 f.result, .cas 0 0 true,
    .submit Asyncjob.someTag (Handler.asyncRequest directRequest Asyncjob.someUrl), .check 1]

def replayEnv (f : Fate) : Env where
  submit _ _ := .ok (.completed (f.result.getD .synthetic).reread)
  routed     := true
  send _     := .panic

def served (f : Fate) : Option Response :=
  serve someHandler (fun _ => true) (replayEnv f) (ofString "request-1") directRequest

def forgedResponse : Http.Response where
  statusCode := 200
  header     := Header.set ∅ Name.proxyError (ofString "internal")
  body       := { data := [], fails := false }

-- The results of three runs: a route error, a failure, and a response that pretends to be an error.
def sampleFates : List Fate :=
  [.routeError .other, .doError, .response forgedResponse]

theorem replayRun_isSome {f : Fate} (hf : f ∈ sampleFates) :
    ((system .twoSlots).exec (replayRun f)).isSome := by
  revert f
  decide

theorem replayRun_forwards {f : Fate} : Forwards (fun _ => f) (replayRun f) := by
  simp [Forwards, replayRun, submitRun]

theorem fetches_replay {f : Fate} {c : Asyncjob.Submit.Call} {p' : Pool} (k : Nat) (io : Bool)
    (hc : p.calls[k]? = some c) (ht : c.tag = Asyncjob.someTag)
    (hq : c.req = Handler.asyncRequest directRequest Asyncjob.someUrl)
    (hg : step .twoSlots p (.get k io) = some p')
    (hk : p'.calls[k]? =
      some { c with phase := .returned (.ok (.completed (f.result.getD .synthetic).reread)) }) :
    Fetches someHandler directRequest .twoSlots p (replayEnv f) := by
  intro tag req stored hd hs
  have hd' : someHandler.dispatch directRequest =
      .ok (.async Asyncjob.someTag (Handler.asyncRequest directRequest Asyncjob.someUrl)) := by
    decide
  cases hd'.symm.trans hd
  cases hs
  exact ⟨k, c, io, p', hc, ht, hq, hg, hk⟩

theorem replayRun_fetches {f : Fate} (hf : f ∈ sampleFates) :
    Fetches someHandler directRequest .twoSlots
      (((system .twoSlots).exec (replayRun f)).get (replayRun_isSome hf)) (replayEnv f) := by
  simp only [sampleFates, List.mem_cons, List.not_mem_nil, or_false] at hf
  obtain rfl | rfl | rfl := hf <;> exact fetches_replay 1 true rfl rfl rfl rfl rfl

-- The responses below are those of such a run.
def Realised (f : Fate) : Prop :=
  ∃ p, (system .twoSlots).Run (replayRun f) p ∧ Forwards (fun _ => f) (replayRun f) ∧
    Fetches someHandler directRequest .twoSlots p (replayEnv f)

theorem realised {f : Fate} (hf : f ∈ sampleFates) : Realised f :=
  ⟨_, .of_isSome (replayRun_isSome hf), replayRun_forwards, replayRun_fetches hf⟩

-- A client that polls for the job learns that the route has failed.
theorem marked_routeError :
    ∃ resp, served (.routeError .other) = some resp ∧
      (resp.Marked ↔ ¬FromUpstream resp ((finisher .twoSlots (replayRun (.routeError .other))
        (directRequest.header.get Name.retryTag)).map fun _ => .routeError .other)) := by
  have hr : serve someHandler (fun _ => true) (replayEnv (.routeError .other)) (ofString "request-1")
    directRequest = some _ := rfl
  refine ⟨_, hr, (marked_iff_not_upstream (.of_isSome (replayRun_isSome (by decide)))
    replayRun_forwards (replayRun_fetches (by decide)) hr (by decide)).mpr ?_⟩
  intro _ f hf
  have hf : f = .routeError .other := by
    simpa using Option.mem_map.mp hf |>.choose_spec.2.symm
  subst hf
  exact ⟨rfl, nofun⟩

-- The replay of a failure is not marked, and the one of a response that has the header is.
theorem marked_wrongly :
    Realised .doError ∧
    (∃ resp, served .doError = some resp ∧ resp.writer ≠ .pending ∧ ¬resp.Marked ∧
      ¬FromUpstream resp ((finisher .twoSlots (replayRun .doError)
        (directRequest.header.get Name.retryTag)).map fun _ => .doError)) ∧
    Realised (.response forgedResponse) ∧
    ∃ resp, served (.response forgedResponse) = some resp ∧ resp.writer ≠ .pending ∧ resp.Marked ∧
      FromUpstream resp ((finisher .twoSlots (replayRun (.response forgedResponse))
        (directRequest.header.get Name.retryTag)).map fun _ => .response forgedResponse) := by
  refine ⟨realised (by decide), ⟨_, rfl, by decide, ?_, ?_⟩,
    realised (by decide), ⟨_, rfl, by decide, ?_, ?_⟩⟩
  · simp only [Response.Marked]
    decide
  · simp [FromUpstream, Fate.FromUpstream]
  · simp only [Response.Marked]
    decide
  · refine .inr ⟨rfl, _, rfl, _, rfl, rfl⟩

end Handlers.Proxy
