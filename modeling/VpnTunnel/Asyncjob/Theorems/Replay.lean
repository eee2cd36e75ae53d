import VpnTunnel.Asyncjob.Theorems.Lifecycle

namespace Asyncjob

open Pool (step system)

variable {o : Options} {p p₁ p₂ : Pool} {es : List Event} {k : Nat} {c : Submit.Call} {r : Record}
  {resp : UpstreamResponse}

-- The forwarder only returns responses whose status code is valid.
def ForwardsValidCodes (es : List Event) : Prop :=
  ∀ w resp, .forward w (some resp) ∈ es → ValidCode resp.statusCode

-- Only the garbage collector makes a terminal record without a response, which is then replayed as the
-- zero response.
theorem Record.Shaped.code_iff (h : r.Shaped ValidCode) (ho : outcomeForRecord r = .completed resp) :
    ValidCode resp.statusCode ↔ r.status ≠ .failedTimeout := by
  cases hs : r.status
  case unknown => simp [Shaped, hs] at h
  case known k =>
    cases k <;> simp only [Shaped, outcomeForRecord, hs, reduceCtorEq, Outcome.completed.injEq] at h ho
    case completed | failed =>
      obtain ⟨_, hr, hv⟩ := h
      simp only [hr, Option.getD_some] at ho
      simp [← ho, hv]
    case failedTimeout =>
      simp only [h, Option.getD_none] at ho
      simp [← ho, UpstreamResponse.zero, ValidCode]

-- So a response that can be written is the one of a finished record.
theorem Record.Shaped.finished (h : r.Shaped C) (ho : outcomeForRecord r = .completed resp)
    (hv : ValidCode resp.statusCode) :
    (r.status = .completed ∨ r.status = .failed) ∧ r.upstreamResponse = some resp := by
  cases hs : r.status
  case unknown => simp [Shaped, hs] at h
  case known k =>
    cases k <;> simp only [Shaped, outcomeForRecord, hs, reduceCtorEq, Outcome.completed.injEq] at h ho
    case completed | failed =>
      obtain ⟨_, hr, _⟩ := h
      simp only [hr, Option.getD_some] at ho
      simp [hr, ho]
    case failedTimeout =>
      simp only [h, Option.getD_none] at ho
      simp [← ho, UpstreamResponse.zero, ValidCode] at hv

-- A call that returns the outcome of a finished job has found the record of the job.
theorem found_of_completed (hc : p₁.calls[k]? = some c) (h : step o p₁ (.get k io) = some p₂)
    (hr : p₂.calls[k]? = some { c with phase := .returned (.ok (.completed resp)) }) :
    ∃ r, p₁.store.record c.tag = some r ∧ outcomeForRecord r = .completed resp := by
  cases Pool.step_elim h
  case worker h | gc h => cases h
  case call c' ph hc' hp h =>
    have hs (ph' : Submit.Phase) (h : (p₁.setCall k ph').calls[k]? =
        some { c with phase := .returned (.ok (.completed resp)) }) :
        ph' = .returned (.ok (.completed resp)) := by
      simpa [Pool.setCall, hc] using h
    cases h
    case getError => simpa using hs _ hr
    case absent => simpa using hs _ hr
    case found r hf =>
      cases hc.symm.trans hc'
      exact ⟨r, hf, by simpa using hs _ hr⟩

theorem completed_code_iff (r : (system o).Run es p₁) (hf : ForwardsValidCodes es)
    (hc : p₁.calls[k]? = some c) (h : step o p₁ (.get k io) = some p₂)
    (hr : p₂.calls[k]? = some { c with phase := .returned (.ok (.completed resp)) }) :
    ValidCode resp.statusCode ↔ (p₁.store.record c.tag).map (·.status) ≠ some .failedTimeout := by
  have ⟨r', hr', ho⟩ := found_of_completed hc h hr
  have hs := (Shaped.of_run (by decide) r hf).records _ _ hr'
  simpa [hr'] using hs.code_iff ho

-- A job is submitted and fails, and the tag is submitted again.
def failedRun : List Event :=
  [.submit someTag someRequest, .check 0, .get 0 true, .claim 0, .drain 0, .put 0 0 true,
   .add 0, .spawn 0, .forward 0 none, .cas 0 0 true, .submit someTag someRequest, .check 1]

theorem failedRun_isSome : ((system .twoSlots).exec failedRun).isSome := by
  decide

theorem failedRun_get_isSome :
    (step .twoSlots (((system .twoSlots).exec failedRun).get failedRun_isSome)
      (.get 1 true)).isSome := by
  decide

theorem completed_code_iff_failedRun :
    ValidCode UpstreamResponse.synthetic.statusCode ↔
      ((((system .twoSlots).exec failedRun).get failedRun_isSome).store.record someTag).map
        (·.status) ≠ some .failedTimeout :=
  completed_code_iff (c := ⟨someTag, someRequest, .get⟩) (.of_isSome failedRun_isSome)
    (by simp [ForwardsValidCodes, failedRun]) (by decide)
    (Option.some_get failedRun_get_isSome).symm (by decide)

-- The collector gives up on a job whose worker is still busy, and the tag is submitted again.
def timeoutRun : List Event :=
  [.submit someTag someRequest, .check 0, .get 0 true, .claim 0, .drain 0, .put 0 0 true,
   .add 0, .spawn 0, .gcStart (6 * 60 * 10 ^ 9), .gcTimeout true,
   .submit someTag someRequest, .check 1, .get 1 true]

theorem replays_zero_response :
    (((system .twoSlots).exec timeoutRun).bind (·.calls[1]?)).map (·.phase) =
        some (.returned (.ok (.completed .zero))) ∧
      ¬ValidCode UpstreamResponse.zero.statusCode ∧ ForwardsValidCodes timeoutRun :=
  ⟨by decide, by decide, by simp [ForwardsValidCodes, timeoutRun]⟩

end Asyncjob
