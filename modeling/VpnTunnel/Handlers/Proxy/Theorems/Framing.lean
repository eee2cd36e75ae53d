import VpnTunnel.Handlers.Proxy.Theorems.ProxyError

namespace Handlers.Proxy

open ByteString Http
open Asyncjob (UpstreamResponse Options Event Pool ValidCode finisher)
open Asyncjob.Pool (system)

variable {h : Handler} {authorized : ByteString → Bool} {env : Env} {r : Request} {resp : Response}
  {up : Http.Response} {stored : UpstreamResponse} {w : Header} {reqID v : ByteString}
  {o : Options} {es : List Event} {p : Pool} {fate : Nat → Fate}

-- What an upstream declares is the length of the body that it has sent.
def Consistent (up : Http.Response) : Prop :=
  ∀ v, Answers up contentLengthKey v → parseContentLength v = some up.body.data.length

-- If the length of the body is declared to the client, then it is the one of the body that is written.
def Response.Framed (resp : Response) : Prop :=
  ∀ data, resp.body = .bytes data →
    ∀ v ∈ resp.header.values contentLengthKey, parseContentLength v = some data.length

-- The length is not declared, or the body is not cut.
def Fits (up : Http.Response) : Prop :=
  (∀ v, ¬Answers up contentLengthKey v) ∨ up.body.data.length ≤ forwardRawMaxBody

theorem relayed_contentLength : Relayed contentLengthKey where
  valid       := by decide
  endToEnd    := by decide
  requestID   := by decide
  asyncStatus := by decide

-- The values of such a header are digits, and so they are stored as they are.
theorem stores_reread_contentLength (hc : Consistent up) (hm : materialise up = some stored) :
    Stores stored.reread contentLengthKey v ↔ Answers up contentLengthKey v := by
  rw [relayed_contentLength.stores_reread]
  simp only [relayed_contentLength.stores_materialise hm]
  constructor
  case mp =>
    intro ⟨v', hv, he⟩
    rwa [← he, Utf8.toValid_of_ascii (ascii_of_parseContentLength (hc v' hv))]
  case mpr =>
    intro hv
    exact ⟨v, hv, Utf8.toValid_of_ascii (ascii_of_parseContentLength (hc v hv))⟩

theorem framed_replay_iff (hc : Consistent up) (hm : materialise up = some stored)
    (hw : w.values contentLengthKey = []) (hr : replay w stored.reread reqID = some resp) :
    resp.Framed ↔ Fits up := by
  have hv (v) : v ∈ resp.header.values contentLengthKey ↔ Answers up contentLengthKey v :=
    (relayed_contentLength.mem_values_replay hw hr).trans (stores_reread_contentLength hc hm)
  have hb : resp.body = .bytes (up.body.data.take forwardRawMaxBody) := by
    simp only [materialise] at hm
    split at hm <;> try contradiction
    cases hm
    simp only [replay] at hr
    split at hr <;> try contradiction
    cases hr
    rfl
  simp only [Response.Framed, Fits, hb, hv, Content.bytes.injEq, forall_eq', List.length_take]
  constructor
  case mp =>
    intro h
    by_cases hn : ∃ v, Answers up contentLengthKey v
    case neg => exact .inl (not_exists.mp hn)
    case pos =>
      obtain ⟨v, ha⟩ := hn
      have he := (hc v ha).symm.trans (h v ha)
      exact .inr (by simp at he; omega)
  case mpr =>
    intro h v ha
    have hl : up.body.data.length ≤ forwardRawMaxBody := h.resolve_left fun hn => hn v ha
    rw [hc v ha, Nat.min_eq_right hl]

theorem replay_of_serve (hr : serve h authorized env reqID r = some resp) (hw : resp.writer = .replay) :
    ∃ tag req stored, h.dispatch r = .ok (.async tag req) ∧ env.submit tag req = .ok (.completed stored) ∧
      replay (Header.set ∅ Name.requestID reqID) stored
        ((Header.set ∅ Name.requestID reqID).get Name.requestID) = some resp := by
  cases Written.of_serve hr
  case envelope hw' _ => simp [hw] at hw'
  case relayed hw' _ => simp [hw] at hw'
  case pending hw' => simp [hw] at hw'
  case replayed tag req stored hd hs _ _ _ =>
    refine ⟨tag, req, stored, hd, hs, ?_⟩
    simp only [serve] at hr
    split at hr
    case isTrue => simpa [serveHTTP, hd, hs, serveAsync] using hr
    case isFalse =>
      cases hr
      simp [writeError] at hw

-- A replay of what `ForwardRaw` has returned to the worker that has finished the job.
theorem framed_iff_fits {i : Nat} (rn : (system o).Run es p) (hf : Forwards fate es)
    (hp : Fetches h r o p env) (hr : serve h authorized env reqID r = some resp)
    (hw : resp.writer = .replay) (hi : finisher o es (r.header.get Name.retryTag) = some i)
    (hu : fate i = .response up) (hs : (fate i).result.isSome) (hc : Consistent up) :
    resp.Framed ↔ Fits up := by
  obtain ⟨tag, req, stored, hd, hsub, hrep⟩ := replay_of_serve hr hw
  have hv : ValidCode stored.statusCode := by
    simp only [replay] at hrep
    split at hrep <;> try contradiction
    assumption
  obtain ⟨i', hi', he⟩ := stored_of_fetched rn hf hp hd hsub hv
  rw [(dispatch_async hd).1, hi] at hi'
  cases hi'
  rw [hu] at he hs
  obtain ⟨s, hm⟩ := Option.isSome_iff_exists.mp hs
  rw [hm, Option.getD_some] at he
  subst he
  exact framed_replay_iff hc hm relayed_contentLength.values_requestID hrep

-- A response with a body of a declared length.
def sizedResponse (length : ByteString) (data : List UInt8) : Http.Response where
  statusCode := 200
  header     := Header.set ∅ contentLengthKey length
  body       := { data, fails := false }

section Sized

variable {length : ByteString} {data : List UInt8}

theorem answers_sized : Answers (sizedResponse length data) contentLengthKey v ↔ v = length := by
  have hk : canonicalHeaderKey contentLengthKey = contentLengthKey := by decide
  simp only [Answers, sizedResponse, Header.set, hk, Header.values_insert, Header.values_empty]
  constructor
  case mp =>
    rintro ⟨key, _, hv⟩
    split at hv
    case isTrue  => simpa using hv
    case isFalse => simp at hv
  case mpr =>
    rintro rfl
    exact ⟨contentLengthKey, hk, by simp⟩

theorem consistent_sized (h : parseContentLength length = some data.length) :
    Consistent (sizedResponse length data) :=
  fun _ hv => answers_sized.mp hv ▸ h

theorem sizedRun_isSome :
    ((system .twoSlots).exec (replayRun (.response (sizedResponse length data)))).isSome :=
  rfl

theorem sizedRun_fetches :
    Fetches someHandler directRequest .twoSlots
      (((system .twoSlots).exec (replayRun (.response (sizedResponse length data)))).get sizedRun_isSome)
      (replayEnv (.response (sizedResponse length data))) :=
  fetches_replay 1 true rfl rfl rfl rfl rfl

theorem served_sized (length : ByteString) (data : List UInt8) : ∃ resp, served (.response (sizedResponse length data)) = some resp ∧
    resp.writer = .replay :=
  ⟨_, rfl, rfl⟩

end Sized

-- A body of two bytes is replayed as it was sent.
theorem framed_iff_fits_short :
    ∃ resp, served (.response (sizedResponse (ofString "2") [0x6F, 0x6B])) = some resp ∧
      resp.Framed := by
  have ⟨resp, hr, hw⟩ := served_sized (ofString "2") [0x6F, 0x6B]
  have hf := replayRun_forwards (f := .response (sizedResponse (ofString "2") [0x6F, 0x6B]))
  refine ⟨resp, hr, (framed_iff_fits (i := 0) (.of_isSome sizedRun_isSome) hf sizedRun_fetches hr hw
    rfl rfl rfl (consistent_sized (by decide))).mpr ?_⟩
  exact .inr (show 2 ≤ forwardRawMaxBody by decide)

-- A body that is one byte too long.
def longResponse : Http.Response :=
  sizedResponse (ofString "10485761") (List.replicate (forwardRawMaxBody + 1) 0)

theorem consistent_longResponse : Consistent longResponse :=
  consistent_sized (by rw [List.length_replicate]; decide)

theorem not_framed_longResponse :
    Realised (.response longResponse) ∧ Consistent longResponse ∧
    ∃ resp, served (.response longResponse) = some resp ∧ resp.writer = .replay ∧ ¬resp.Framed := by
  refine ⟨⟨_, .of_isSome sizedRun_isSome, replayRun_forwards, sizedRun_fetches⟩,
    consistent_longResponse, ?_⟩
  have ⟨resp, hr, hw⟩ := served_sized (ofString "10485761")
    (List.replicate (forwardRawMaxBody + 1) 0)
  refine ⟨resp, hr, hw, ?_⟩
  obtain ⟨_, _, _, _, hs, hrep⟩ := replay_of_serve hr hw
  cases hs
  have hm : materialise longResponse = some _ := rfl
  rw [framed_replay_iff consistent_longResponse hm relayed_contentLength.values_requestID hrep]
  rintro (hn | hl)
  · exact hn _ (answers_sized.mpr rfl)
  · simp [longResponse, sizedResponse] at hl

end Handlers.Proxy
