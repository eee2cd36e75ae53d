import VpnTunnel.Tunnelpool.Scheduler.Basic

namespace Tunnelpool.Scheduler

variable {o : Options} {s : State} {reqs : List RouteRequest} {i : CallID} {c : Call} {n : Nat}

-- The calls after the reply `r` was sent to each of the given requests.
def deliver (r : RouteReply) (calls : List Call) (reqs : List RouteRequest) : List Call :=
  reqs.foldl (fun cs q => cs.modify q.replyCh fun c => { c with replyCh := c.replyCh ++ [r] }) calls

namespace deliver

variable {r : RouteReply} {calls : List Call}

@[simp]
theorem nil : deliver r calls [] = calls :=
  rfl

theorem cons {q : RouteRequest} :
    deliver r calls (q :: reqs) =
      deliver r (calls.modify q.replyCh fun c => { c with replyCh := c.replyCh ++ [r] }) reqs :=
  rfl

@[simp]
theorem length : (deliver r calls reqs).length = calls.length := by
  induction reqs generalizing calls
  case nil => rfl
  case cons q reqs hi => rw [cons, hi, List.length_modify]

-- A call only notices how many of the requests were its own.
theorem getElem? :
    (deliver r calls reqs)[i]? = calls[i]?.map fun c =>
      { c with replyCh := c.replyCh ++ .replicate (reqs.countP (·.replyCh = i)) r } := by
  induction reqs generalizing calls
  case nil => cases h : calls[i]? <;> simp [h]
  case cons q reqs hi =>
    rw [cons, hi]
    by_cases h : q.replyCh = i
    case pos => cases hc : calls[i]? <;> simp [h, hc, List.replicate_succ]
    case neg => cases hc : calls[i]? <;> simp [h, hc]

end deliver

theorem grantAll_eq (d : Device) (res : Option Device) :
    grantAll reqs d res s = { s with
      activeJobs := s.activeJobs + reqs.length
      calls      := deliver (.ok d res) s.calls reqs
      answers    := (reqs.map (·.replyCh, .ok d res)).reverse ++ s.answers } := by
  induction reqs generalizing s
  case nil => rfl
  case cons q reqs hi =>
    have hg : grantAll (q :: reqs) d res s = grantAll reqs d res (grant q d res s) := rfl
    rw [hg, hi]
    simp [grant, State.reply, deliver, Nat.add_assoc, Nat.add_comm 1]

theorem failAll_eq (err : RouteError) :
    failAll reqs err s = { s with
      calls   := deliver (.err err) s.calls reqs
      answers := (reqs.map (·.replyCh, .err err)).reverse ++ s.answers } := by
  induction reqs generalizing s
  case nil => rfl
  case cons q reqs hi =>
    have hf : failAll (q :: reqs) err s = failAll reqs err (s.reply q.replyCh (.err err)) := rfl
    rw [hf, hi]
    simp [State.reply, deliver]

-- Failing the requests of one zone after another fails all of them.
theorem failAll_entries (err : RouteError) (es : List (Sigma fun _ : Zone => List RouteRequest)) :
    es.foldl (fun s e => failAll e.2 err s) s = failAll (es.flatMap (·.2)) err s := by
  simp [failAll, List.foldl_flatMap]

-- The requests that are failed when `Run` stops.
def stopped (s : State) : List RouteRequest :=
  (if s.settling then s.settleBatch else []) ++ s.pending.entries.flatMap (·.2)

def failStopped (s : State) : State :=
  { s with
    pending     := ∅
    settleBatch := if s.settling then [] else s.settleBatch
    calls       := deliver (.err .ctxErr) s.calls (stopped s)
    answers     := ((stopped s).map (·.replyCh, .err .ctxErr)).reverse ++ s.answers }

theorem onDone_eq : onDone n s = { teardown n (failStopped s) with running := false } := by
  simp only [onDone, failAll_entries, failStopped]
  cases h : s.settling <;> simp [h, failAll_eq, stopped, deliver]

-- The state in which the next zone is picked after the builder failed.
def buildFailed (took : Nat) (s : State) : State :=
  { s with
    settling         := false
    settleTimer      := none
    settleZone       := ""
    settleConfigPath := ""
    settleBatch      := []
    now              := s.now + took
    calls            := deliver (.err (bringUpFailure s.settleZone)) s.calls s.settleBatch
    answers          :=
      (s.settleBatch.map (·.replyCh, .err (bringUpFailure s.settleZone))).reverse ++ s.answers }

-- The zone that `pickNextZone` finds.
def nextZone (excludeZone : Zone) (s : State) : Option Zone :=
  (compactFIFO s).pendingFIFO.find? fun z => z ≠ excludeZone ∧ 0 < (s.pending.queued z).length

-- What `pickNextZone` can return.
inductive Picked (excludeZone : Zone) (s : State) : (Zone × List RouteRequest) × State → Prop
  | none : (nextZone excludeZone s = none) → Picked excludeZone s (("", []), compactFIFO s)
  | zone {z : Zone} : (nextZone excludeZone s = some z) → (z ≠ excludeZone) →
    (s.pending.queued z ≠ []) →
    Picked excludeZone s ((z, s.pending.queued z), { s with
      pending     := s.pending.erase z
      pendingFIFO := (compactFIFO s).pendingFIFO.erase z })

theorem pickNextZone_picked (excludeZone : Zone) :
    Picked excludeZone s (pickNextZone excludeZone s) := by
  simp only [pickNextZone]
  split
  case h_1 hn => exact .none hn
  case h_2 z hn =>
    have hz := List.find?_some hn
    obtain ⟨h₁, h₂⟩ := of_decide_eq_true hz
    exact .zone hn h₁ (List.ne_nil_of_length_pos h₂)

section Teardown

-- A teardown only concerns the device and its snapshot.

@[simp] theorem teardown_running : (teardown n s).running = s.running := by
  unfold teardown; split <;> rfl

@[simp] theorem teardown_activeJobs : (teardown n s).activeJobs = s.activeJobs := by
  unfold teardown; split <;> rfl

@[simp] theorem teardown_pending : (teardown n s).pending = s.pending := by
  unfold teardown; split <;> rfl

@[simp] theorem teardown_pendingFIFO : (teardown n s).pendingFIFO = s.pendingFIFO := by
  unfold teardown; split <;> rfl

@[simp] theorem teardown_settling : (teardown n s).settling = s.settling := by
  unfold teardown; split <;> rfl

@[simp] theorem teardown_settleZone : (teardown n s).settleZone = s.settleZone := by
  unfold teardown; split <;> rfl

@[simp] theorem teardown_settleConfigPath : (teardown n s).settleConfigPath = s.settleConfigPath := by
  unfold teardown; split <;> rfl

@[simp] theorem teardown_settleTimer : (teardown n s).settleTimer = s.settleTimer := by
  unfold teardown; split <;> rfl

@[simp] theorem teardown_settleBatch : (teardown n s).settleBatch = s.settleBatch := by
  unfold teardown; split <;> rfl

@[simp] theorem teardown_graceTimer : (teardown n s).graceTimer = s.graceTimer := by
  unfold teardown; split <;> rfl

@[simp] theorem teardown_idleTimer : (teardown n s).idleTimer = s.idleTimer := by
  unfold teardown; split <;> rfl

@[simp] theorem teardown_reqCh : (teardown n s).reqCh = s.reqCh := by
  unfold teardown; split <;> rfl

@[simp] theorem teardown_releaseCh : (teardown n s).releaseCh = s.releaseCh := by
  unfold teardown; split <;> rfl

@[simp] theorem teardown_calls : (teardown n s).calls = s.calls := by
  unfold teardown; split <;> rfl

@[simp] theorem teardown_answers : (teardown n s).answers = s.answers := by
  unfold teardown; split <;> rfl

@[simp] theorem teardown_built : (teardown n s).built = s.built := by
  unfold teardown; split <;> rfl

theorem teardown_of_none (h : s.currentDevice = none) : teardown n s = s := by
  simp [teardown, h]

@[simp]
theorem teardown_currentDevice : (teardown n s).currentDevice = none := by
  unfold teardown
  split
  case h_1 h => exact h
  case h_2   => rfl

end Teardown

-- What a caller can do, by the phase that it is in.
inductive CallStep (s : State) (i : CallID) (c : Call) : Event → State → Prop
  | send : (c.phase = .sending) → (s.reqCh.length < schedulerChanBuf) →
    CallStep s i c (.send i) ({ s with reqCh := s.reqCh ++ [c.request i] }.setPhase i .waiting)
  | cancelSending : (c.phase = .sending) →
    CallStep s i c (.cancel i) (s.setPhase i .cancelledSending)
  | cancelWaiting : (c.phase = .waiting) →
    CallStep s i c (.cancel i) (s.setPhase i .cancelledWaiting)
  | receive {r : RouteReply} {rs : List RouteReply} : (c.phase = .waiting) → (c.replyCh = r :: rs) →
    CallStep s i c (.receive i)
      { s with calls := s.calls.modify i ({ · with phase := r.phase, replyCh := rs }) }
  | release {d : Device} {res : Option Device} : (c.phase = .granted d res) →
    (s.releaseCh < schedulerChanBuf) →
    CallStep s i c (.release i) ({ s with releaseCh := s.releaseCh + 1 }.setPhase i .released)
  | releaseDone {d : Device} {res : Option Device} : (c.phase = .granted d res) →
    (s.running = false) → CallStep s i c (.releaseDone i) (s.setPhase i .released)

-- What the branches of `Run` can do.
inductive LoopStep (o : Options) (s : State) : Event → State → Prop
  | done {n : Nat} :
    LoopStep o s (.loopDone n) { teardown n (failStopped s) with running := false }
  | join {n : Nat} {q : RouteRequest} {reqCh : List RouteRequest} :
    (s.reqCh = q :: reqCh) → s.settling → (q.tunnelID = s.settleZone) →
    LoopStep o s (.loopRequest n) { s with reqCh, settleBatch := s.settleBatch ++ [q] }
  | enqueue {n : Nat} {q : RouteRequest} {reqCh : List RouteRequest} :
    (s.reqCh = q :: reqCh) → s.settling → (q.tunnelID ≠ s.settleZone) →
    LoopStep o s (.loopRequest n) (enqueuePending q { s with reqCh })
  | grant {n : Nat} {q : RouteRequest} {reqCh : List RouteRequest} {d : Device} :
    (s.reqCh = q :: reqCh) → (s.settling = false) → (s.currentDevice = some d) →
    (s.currentZone = q.tunnelID) →
    LoopStep o s (.loopRequest n) { s with
      reqCh
      activeJobs := s.activeJobs + 1
      graceTimer := none
      idleTimer  := none
      calls      := deliver (.ok d s.currentResolver) s.calls [q]
      answers    := (q.replyCh, .ok d s.currentResolver) :: s.answers }
  | defer {n : Nat} {q : RouteRequest} {reqCh : List RouteRequest} {d : Device} :
    (¬(s.activeJobs = 0 ∧ s.graceTimer = none)) → (s.reqCh = q :: reqCh) → (s.settling = false) →
    (s.currentDevice = some d) → (s.currentZone ≠ q.tunnelID) →
    LoopStep o s (.loopRequest n) (enqueuePending q { s with reqCh })
  | deferGrace {n : Nat} {q : RouteRequest} {reqCh : List RouteRequest} {d : Device} :
    (s.reqCh = q :: reqCh) → (s.settling = false) → (s.currentDevice = some d) →
    (s.currentZone ≠ q.tunnelID) → (s.activeJobs = 0) → (s.graceTimer = none) →
    LoopStep o s (.loopRequest n)
      { enqueuePending q { s with reqCh } with
        graceTimer := some (s.now + o.grace)
        idleTimer  := none }
  | switch {n : Nat} {q : RouteRequest} {reqCh : List RouteRequest} :
    (s.reqCh = q :: reqCh) → (s.settling = false) → (s.currentDevice = none) →
    LoopStep o s (.loopRequest n)
      (beginSwitch o q.tunnelID q.configPath (q :: s.pending.queued q.tunnelID) n { s with
        reqCh
        pending     := s.pending.erase q.tunnelID
        pendingFIFO := removeFIFO s.pendingFIFO q.tunnelID })
  | built {resolver reporter : Bool} {took n : Nat} {res : Option Device} :
    (Fired s.settleTimer s.now) → (res = if resolver then some s.built.length else none) →
    LoopStep o s (.loopSettle (.ok resolver reporter) took n) { s with
      currentZone      := s.settleZone
      currentDevice    := some s.built.length
      currentResolver  := res
      snapID           := s.settleZone
      snapReporter     := if reporter then some s.built.length else none
      activeJobs       := s.activeJobs + s.settleBatch.length
      settling         := false
      settleTimer      := none
      settleZone       := ""
      settleConfigPath := ""
      settleBatch      := []
      now              := s.now + took
      built            := s.built ++ [⟨s.settleZone, s.settleConfigPath, resolver, reporter⟩]
      ledger           := (s.now, .opened s.built.length) :: s.ledger
      calls            := deliver (.ok s.built.length res) s.calls s.settleBatch
      answers          :=
        (s.settleBatch.map (·.replyCh, .ok s.built.length res)).reverse ++ s.answers }
  | failed {took n : Nat} : (nextZone "" s = none) → (Fired s.settleTimer s.now) →
    LoopStep o s (.loopSettle .err took n)
      { buildFailed took s with pendingFIFO := (compactFIFO s).pendingFIFO }
  | failedNext {took n : Nat} {z : Zone} : (nextZone "" s = some z) → (Fired s.settleTimer s.now) →
    LoopStep o s (.loopSettle .err took n)
      (beginSwitch o z (o.eligible z |>.getD "") (s.pending.queued z) n { buildFailed took s with
        pending     := s.pending.erase z
        pendingFIFO := (compactFIFO s).pendingFIFO.erase z })
  | release : (0 < s.releaseCh) → (1 < s.activeJobs ∨ s.settling ∨ s.currentDevice = none) →
    LoopStep o s .loopRelease { s with
      releaseCh  := s.releaseCh - 1
      activeJobs := s.activeJobs - 1 }
  | releaseGrace : (0 < s.releaseCh) → (s.activeJobs ≤ 1) → (s.settling = false) →
    hasCrossZonePending s →
    LoopStep o s .loopRelease { s with
      releaseCh  := s.releaseCh - 1
      activeJobs := s.activeJobs - 1
      graceTimer := some (s.now + o.grace)
      idleTimer  := none }
  | releaseIdle {d : Device} : (hasCrossZonePending s = false) → (0 < s.releaseCh) →
    (s.activeJobs ≤ 1) → (s.settling = false) → (s.currentDevice = some d) →
    LoopStep o s .loopRelease { s with
      releaseCh  := s.releaseCh - 1
      activeJobs := s.activeJobs - 1
      graceTimer := none
      idleTimer  := some (s.now + o.idleTTL) }
  | graceOver {n : Nat} : (nextZone s.currentZone s = none) → (Fired s.graceTimer s.now) →
    LoopStep o s (.loopGrace n) { s with
      graceTimer  := none
      idleTimer   := if s.currentDevice.isSome then some (s.now + o.idleTTL) else s.idleTimer
      pendingFIFO := (compactFIFO s).pendingFIFO }
  | graceSwitch {n : Nat} {z : Zone} : (nextZone s.currentZone s = some z) →
    (Fired s.graceTimer s.now) → (z ≠ s.currentZone) → (s.pending.queued z ≠ []) →
    LoopStep o s (.loopGrace n)
      (beginSwitch o z (o.eligible z |>.getD "") (s.pending.queued z) n { s with
        graceTimer  := none
        pending     := s.pending.erase z
        pendingFIFO := (compactFIFO s).pendingFIFO.erase z })
  | idle {n : Nat} : (Fired s.idleTimer s.now) → (s.activeJobs = 0) →
    LoopStep o s (.loopIdle n) (teardown n { s with idleTimer := none })
  | idleSkip {n : Nat} : (Fired s.idleTimer s.now) →
    LoopStep o s (.loopIdle n) { s with idleTimer := none }

-- `Run` only returns when it is cancelled.
theorem LoopStep.done_of_stopped {e : Event} {s' : State} (st : LoopStep o s e s') (h : s.running)
    (h' : s'.running = false) :
    ∃ n, e = .loopDone n ∧ s' = { teardown n (failStopped s) with running := false } := by
  cases st
  case done => exact ⟨_, rfl, rfl⟩
  all_goals simp_all [beginSwitch, buildFailed, enqueuePending]

theorem onRequest_elim {q : RouteRequest} {reqCh : List RouteRequest} (h : s.reqCh = q :: reqCh) :
    LoopStep o s (.loopRequest n) (onRequest o q n { s with reqCh }) := by
  unfold onRequest
  split
  case isTrue hs =>
    split
    case isTrue hz  => exact .join h hs hz
    case isFalse hz => exact .enqueue h hs hz
  case isFalse hs =>
    have hs := Bool.eq_false_iff.mpr hs
    split
    case h_1 d hd =>
      split
      case isTrue hz  => exact .grant h hs hd hz
      case isFalse hz =>
        dsimp only
        split
        case isTrue ha  => exact .deferGrace h hs hd hz ha.left ha.right
        case isFalse ha => exact .defer ha h hs hd hz
    case h_2 hd => exact .switch h hs hd

theorem finishSwitch_elim {res : BuildResult} {took : Nat} (h : Fired s.settleTimer s.now)
    (he : s.pending.queued "" = []) :
    LoopStep o s (.loopSettle res took n) (finishSwitch o res took n s) := by
  cases res <;> simp only [finishSwitch, grantAll_eq, failAll_eq]
  case ok resolver reporter => exact .built h rfl
  case err =>
    have hp := pickNextZone_picked (s := buildFailed took s) ""
    change LoopStep _ _ _ (startNextIfPending o n (buildFailed took s))
    unfold startNextIfPending
    generalize pickNextZone "" (buildFailed took s) = p at hp ⊢
    cases hp
    case none hn          => exact .failed hn h
    case zone z hz' _ hn =>
      have hz : z ≠ "" := fun hz => hn (hz ▸ he)
      simp only [hz, if_false]
      exact .failedNext hz' h

theorem onRelease_elim (h : 0 < s.releaseCh) :
    LoopStep o s .loopRelease (onRelease o { s with releaseCh := s.releaseCh - 1 }) := by
  have hc : (if 0 < s.activeJobs then
      { s with releaseCh := s.releaseCh - 1, activeJobs := s.activeJobs - 1 }
    else
      { s with releaseCh := s.releaseCh - 1 }) =
      { s with releaseCh := s.releaseCh - 1, activeJobs := s.activeJobs - 1 } := by
    split
    case isTrue    => rfl
    case isFalse h => simp [Nat.eq_zero_of_not_pos h]
  simp only [onRelease, hc]
  split
  case isTrue hr  => exact .release h (hr.imp (by omega) .inl)
  case isFalse hr =>
    have ⟨ha, hs⟩ := not_or.mp hr
    have ha : s.activeJobs ≤ 1 := by omega
    have hs := Bool.eq_false_iff.mpr hs
    split
    case isTrue hp => exact .releaseGrace h ha hs hp
    case isFalse hp =>
      split
      case isTrue hd  =>
        have ⟨d, hd⟩ := Option.isSome_iff_exists.mp hd
        exact .releaseIdle (Bool.eq_false_iff.mpr hp) h ha hs hd
      case isFalse hd => exact .release h (.inr <| .inr <| by simpa using hd)

theorem onGrace_elim (h : Fired s.graceTimer s.now) (he : s.pending.queued "" = []) :
    LoopStep o s (.loopGrace n) (onGrace o n s) := by
  have hp := pickNextZone_picked (s := { s with graceTimer := none }) s.currentZone
  unfold onGrace
  generalize pickNextZone .. = p at hp ⊢
  cases hp
  case none hn =>
    have := @LoopStep.graceOver o s n hn h
    split at this <;> simp_all [compactFIFO]
  case zone z hz' hc hn =>
    have hz : z ≠ "" := fun hz => hn (hz ▸ he)
    simp only [hz, if_false]
    exact .graceSwitch hz' h hc hn

theorem onIdle_elim (h : Fired s.idleTimer s.now) :
    LoopStep o s (.loopIdle n) (onIdle n s) := by
  unfold onIdle
  dsimp only
  split
  case isTrue ha => exact .idle h ha.right
  case isFalse   => exact .idleSkip h

theorem stepLoop_elim {e : Event} {s' : State} (h : stepLoop o s e = some s')
    (he : s.pending.queued "" = []) : LoopStep o s e s' := by
  unfold stepLoop at h
  split at h <;> try split at h
  all_goals first | contradiction | cases Option.some.inj h
  · exact onDone_eq ▸ .done
  · exact onRequest_elim ‹_›
  · exact finishSwitch_elim ‹_› he
  · exact onRelease_elim ‹_›
  · exact onGrace_elim ‹_› he
  · exact onIdle_elim ‹_›

inductive Step (o : Options) (s : State) : Event → State → Prop
  | tick {d : Nat} : Step o s (.tick d) { s with now := s.now + d }
  | refuse {z : Zone} : (o.eligible z = none) →
    Step o s (.route z) { s with calls := s.calls ++ [⟨z, "", .refused (unknownZone z), []⟩] }
  | route {z : Zone} {p : ConfigPath} : (o.eligible z = some p) →
    Step o s (.route z) { s with calls := s.calls ++ [⟨z, p, .sending, []⟩] }
  | call {i : CallID} {c : Call} {e : Event} {s' : State} : (s.calls[i]? = some c) →
    (CallStep s i c e s') → Step o s e s'
  | loop {e : Event} {s' : State} : s.running → (LoopStep o s e s') → Step o s e s'

-- The zone `""` stands for "no zone" in `Run`, so it must not be requested.
theorem step_elim {e : Event} {s' : State} (h : step o s e = some s')
    (he : s.pending.queued "" = []) : Step o s e s' := by
  cases e <;> simp only [step, Option.bind_eq_some_iff, Option.some.injEq] at h
  case tick  => exact h ▸ .tick
  case route z =>
    unfold route at h
    split at h
    case h_1 hz => exact h ▸ .refuse hz
    case h_2 hz => exact h ▸ .route hz
  case send i =>
    have ⟨c, hc, h⟩ := h
    simp only [stepCall, Option.ite_none_right_eq_some, Option.some.injEq] at h
    exact .call hc (h.right ▸ .send h.left.left h.left.right)
  case cancel i =>
    have ⟨c, hc, h⟩ := h
    simp only [stepCall] at h
    split at h
    case h_1 hp => exact .call hc (Option.some.inj h ▸ .cancelSending hp)
    case h_2 hp => exact .call hc (Option.some.inj h ▸ .cancelWaiting hp)
    case h_3    => contradiction
  case receive i =>
    have ⟨c, hc, h⟩ := h
    simp only [stepCall] at h
    split at h
    case h_1 hp hr => exact .call hc (Option.some.inj h ▸ .receive hp hr)
    case h_2       => contradiction
  case release i =>
    have ⟨c, hc, h⟩ := h
    simp only [stepCall] at h
    split at h
    case h_1 hp =>
      simp only [Option.ite_none_right_eq_some, Option.some.injEq] at h
      exact .call hc (h.right ▸ .release hp h.left)
    case h_2 => contradiction
  case releaseDone i =>
    have ⟨c, hc, h⟩ := h
    simp only [stepCall] at h
    split at h
    case h_1 hp =>
      simp only [Option.ite_none_left_eq_some, Bool.not_eq_true, Option.some.injEq] at h
      exact .call hc (h.right ▸ .releaseDone hp h.left)
    case h_2 => contradiction
  all_goals
    have ⟨hr, h⟩ := Option.ite_none_right_eq_some.mp h
    exact .loop hr (stepLoop_elim h he)

end Tunnelpool.Scheduler
