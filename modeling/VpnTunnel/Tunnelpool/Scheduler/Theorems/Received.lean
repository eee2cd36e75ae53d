import VpnTunnel.Tunnelpool.Scheduler.Theorems.Grants

namespace Tunnelpool.Scheduler

variable {o : Options} {s s₁ s₂ : State} {e : Event} {es : List Event} {i : CallID} {c : Call}
  {q : RouteRequest} {running : Bool}

-- The request that a step puts into `reqCh`, and the one that `Run` takes out of it.

def sent (s : State) : Event → List RouteRequest
  | .send i => (s.calls[i]?.map (·.request i)).toList
  | _       => []

def taken (s : State) : Event → List RouteRequest
  | .loopRequest _ => s.reqCh.head?.toList
  | _              => []

def accepted (o : Options) (es : List Event) : List RouteRequest :=
  (system o).observe sent es

def received (o : Options) (es : List Event) : List RouteRequest :=
  (system o).observe taken es

theorem accepted_snoc (r : (system o).Run es s) :
    accepted o (es ++ [e]) = accepted o es ++ sent s e :=
  System.observe_snoc r

theorem received_snoc (r : (system o).Run es s) :
    received o (es ++ [e]) = received o es ++ taken s e :=
  System.observe_snoc r

theorem reqCh_of_step (sh : Shape o s₁) (h : step o s₁ e = some s₂) :
    taken s₁ e ++ s₂.reqCh = s₁.reqCh ++ sent s₁ e := by
  cases step_elim h sh.pending_empty
  case tick | refuse | route => simp [taken, sent]
  case call hc st => cases st <;> simp [taken, sent, hc, State.setPhase]
  case loop st =>
    cases st <;> simp_all [taken, sent, beginSwitch, buildFailed, enqueuePending, failStopped]

-- What is in `reqCh` has been accepted, but has not been received yet.
theorem received_append_reqCh (r : (system o).Run es s) :
    received o es ++ s.reqCh = accepted o es := by
  refine r.invariant_of_run (P := fun es s => received o es ++ s.reqCh = accepted o es) rfl ?_
  intro es s₁ e s₂ r hi h
  rw [received_snoc r, accepted_snoc r, List.append_assoc, reqCh_of_step (shape r.reachable) h,
    ← List.append_assoc, hi]

-- A call keeps what it asks for, and does not go back to sending its request.
theorem Jobs.Step.call_persists {j₁ j₂ : Jobs} (st : Step running j₁ j₂) (hc : j₁.calls[i]? = some c) :
    ∃ c', j₂.calls[i]? = some c' ∧ c'.request i = c.request i ∧
      (c.phase ≠ .sending → c'.phase ≠ .sending) := by
  have hm {k : CallID} {f : Call → Call} (hr : ∀ c, (f c).request i = c.request i)
      (hp : ∀ c, (f c).phase ≠ .sending) : ∃ c', (j₁.calls.modify k f)[i]? = some c' ∧
      c'.request i = c.request i ∧ (c.phase ≠ .sending → c'.phase ≠ .sending) := by
    by_cases hk : k = i
    case pos => exact ⟨f c, by simp [hk, hc], hr c, fun _ => hp c⟩
    case neg => exact ⟨c, by simpa [hk] using hc, rfl, id⟩
  cases st
  case refl | countDown => exact ⟨c, hc, rfl, id⟩
  case call => exact ⟨c, List.getElem?_snoc_eq_some.mpr <| .inl hc, rfl, id⟩
  case serve =>
    rw [deliver.getElem?, hc]
    exact ⟨_, rfl, rfl, id⟩
  case receive r _ _ _ _ => exact hm (fun _ => rfl) (fun _ => by cases r <;> simp [RouteReply.phase])
  all_goals exact hm (fun _ => rfl) (by simp)

-- Each call sends its request at most once.
structure Accepted (o : Options) (es : List Event) (s : State) : Prop where
  nodup : ((accepted o es).map (·.replyCh)).Nodup
  call  : ∀ q ∈ accepted o es, ∃ c, s.calls[q.replyCh]? = some c ∧ c.request q.replyCh = q ∧
    c.phase ≠ .sending

theorem sent_elim (h : step o s₁ e = some s₂) (hq : q ∈ sent s₁ e) :
    e = .send q.replyCh ∧ sent s₁ e = [q] ∧
      (∃ c, s₁.calls[q.replyCh]? = some c ∧ c.phase = .sending) ∧
      ∃ c, s₂.calls[q.replyCh]? = some c ∧ c.request q.replyCh = q ∧ c.phase = .waiting := by
  cases e <;> simp only [sent, List.not_mem_nil] at hq
  case send i =>
    obtain ⟨c, hc, hq⟩ := Option.map_eq_some_iff.mp (Option.mem_toList.mp hq)
    simp only [step, hc, Option.bind_some, stepCall, Option.ite_none_right_eq_some,
      Option.some.injEq] at h
    obtain ⟨⟨hp, _⟩, h⟩ := h
    subst hq h
    exact ⟨rfl, by simp [sent, hc], ⟨c, hc, hp⟩, { c with phase := .waiting },
      by simp [State.setPhase, Call.request, hc], rfl, rfl⟩

theorem Accepted.step (a : Accepted o es s₁) (r : (system o).Run es s₁)
    (h : step o s₁ e = some s₂) : Accepted o (es ++ [e]) s₂ where
  nodup := by
    rw [accepted_snoc r, List.map_append, List.nodup_append']
    refine ⟨a.nodup, ?_, ?_⟩
    · cases hs : sent s₁ e
      case nil => exact List.nodup_nil
      case cons q l =>
        have ⟨_, hq, _⟩ := sent_elim h (q := q) (by simp [hs])
        cases hs.symm.trans hq
        exact List.nodup_singleton _
    · rw [List.disjoint_left]
      intro i hi hs
      have ⟨q, hq, hn⟩ := List.mem_map.mp hi
      have ⟨q', hq', hn'⟩ := List.mem_map.mp hs
      have ⟨_, _, ⟨c, hc, hp⟩, _⟩ := sent_elim h hq'
      have ⟨c', hc', _, hp'⟩ := a.call q hq
      rw [hn, ← hn', hc] at hc'
      cases hc'
      exact hp' hp
  call := by
    intro q hq
    rw [accepted_snoc r] at hq
    cases List.mem_append.mp hq
    case inl hq =>
      have ⟨c, hc, hr, hp⟩ := a.call q hq
      have ⟨c', hc', hr', hp'⟩ := (step_jobs (shape r.reachable) h).call_persists hc
      exact ⟨c', hc', hr'.trans hr, hp' hp⟩
    case inr hq =>
      have ⟨_, _, _, c, hc, hr, hp⟩ := sent_elim h hq
      exact ⟨c, hc, hr, by simp [hp]⟩

theorem accepted_once (r : (system o).Run es s) : Accepted o es s :=
  r.invariant_of_run ⟨by simp [accepted], by simp [accepted]⟩ fun _ _ _ _ r a h => a.step r h

namespace Jobs

variable {j j₁ j₂ : Jobs}

-- The calls whose requests wait, or have been answered.
def callers (j : Jobs) : Multiset CallID :=
  j.waiting.map (·.replyCh) + ↑(j.answers.map (·.1))

theorem Serves.callers_eq (sv : Serves j₁ j₂) : j₂.callers = j₁.callers := by
  cases sv
  case refl | countDown => rfl
  case serve r reqs rest h =>
    simp only [callers, h, Multiset.map_add, Multiset.map_coe, List.map_append, List.map_reverse,
      List.map_map, Function.comp_def, ← Multiset.coe_add, Multiset.coe_reverse]
    abel

end Jobs

theorem callers_of_step (sh : Shape o s₁) (h : step o s₁ e = some s₂) :
    s₂.jobs.callers = s₁.jobs.callers + ↑((sent s₁ e).map (·.replyCh)) := by
  cases step_elim h sh.pending_empty
  case tick | refuse | route => simp [sent]; rfl
  case call hc st =>
    cases st
    case send =>
      rw [send_jobs]
      simp only [Jobs.callers, State.jobs, sent, hc, Option.map_some, Option.toList_some,
        List.map_singleton, Multiset.coe_singleton, ← Multiset.singleton_add, Multiset.map_add,
        Multiset.map_singleton]
      abel
    all_goals
      simp only [sent, List.map_nil, Multiset.coe_nil, add_zero]
      rfl
  case loop st =>
    rw [(loopStep_jobs sh st).callers_eq]
    cases st <;> simp [sent]

-- Each request that has been accepted still waits, or has been answered, but not both.
theorem callers_eq_accepted (r : (system o).Run es s) :
    s.jobs.callers = ↑((accepted o es).map (·.replyCh)) := by
  refine r.invariant_of_run (P := fun es s => s.jobs.callers = ↑((accepted o es).map (·.replyCh)))
    rfl ?_
  intro es s₁ e s₂ r hi h
  rw [accepted_snoc r, List.map_append, ← Multiset.coe_add, ← hi,
    callers_of_step (shape r.reachable) h]

-- The places in which a request can be after it was received.
theorem places (r : (system o).Run es s) :
    (↑((received o es).map (·.replyCh)) : Multiset CallID) =
      ↑(s.settleBatch.map (·.replyCh)) + s.pending.all.map (·.replyCh) + ↑(s.answers.map (·.1)) := by
  have h := callers_eq_accepted r
  rw [← received_append_reqCh r, List.map_append, ← Multiset.coe_add] at h
  simp only [Jobs.callers, State.jobs, State.waiting, Multiset.map_add, Multiset.map_coe] at h
  refine add_right_cancel (b := (↑(s.reqCh.map (·.replyCh)) : Multiset CallID)) (h.symm.trans ?_)
  abel

theorem received_nodup (r : (system o).Run es s) : ((received o es).map (·.replyCh)).Nodup := by
  have h := (accepted_once r).nodup
  rw [← received_append_reqCh r, List.map_append] at h
  exact h.of_append_left

-- A request is determined by its reply channel.
theorem eq_of_replyCh_eq (r : (system o).Run es s) (hq : q ∈ received o es) {q' : RouteRequest}
    (hq' : q' ∈ s.waiting) (h : q'.replyCh = q.replyCh) : q' = q := by
  have ha : q ∈ accepted o es := by
    rw [← received_append_reqCh r]
    exact List.mem_append_left _ hq
  have ⟨c, hc, hr, _⟩ := (accepted_once r).call q ha
  have ⟨c', hc', hr'⟩ := (jobs_valid r.reachable).request q' hq'
  have hc' : s.calls[q'.replyCh]? = some c' := hc'
  rw [h, hc] at hc'
  cases hc'
  rw [← hr, ← hr', h]

theorem mem_waiting_of_batch (h : q ∈ s.settleBatch) : q ∈ s.waiting := by
  simp [State.waiting, h]

theorem mem_waiting_of_pending (h : q ∈ s.pending.all) : q ∈ s.waiting := by
  simp [State.waiting, h]

theorem mem_received_of_batch (r : (system o).Run es s) (h : q ∈ s.settleBatch) :
    q ∈ received o es := by
  have hm : q.replyCh ∈ (received o es).map (·.replyCh) := by
    rw [← Multiset.mem_coe, places r]
    simpa using .inl <| .inl ⟨q, h, rfl⟩
  have ⟨q', hq', hn⟩ := List.mem_map.mp hm
  exact eq_of_replyCh_eq r hq' (mem_waiting_of_batch h) hn.symm ▸ hq'

theorem pending_zone (sh : Shape o s) {z : Zone} (h : q ∈ s.pending.queued z) : z = q.tunnelID :=
  (sh.pending z q h).left.symm

theorem count_places (r : (system o).Run es s) (hq : q ∈ received o es) :
    s.settleBatch.count q + (s.pending.queued q.tunnelID).count q +
      s.answers.countP (·.1 = q.replyCh) = 1 := by
  have hp := congrArg (Multiset.count q.replyCh) (places r)
  have hone : ((received o es).map (·.replyCh)).count q.replyCh = 1 :=
    List.count_eq_one_of_mem (received_nodup r) (List.mem_map_of_mem hq)
  have hb : (s.settleBatch.map (·.replyCh)).count q.replyCh = s.settleBatch.count q := by
    rw [List.count, List.countP_map, List.count]
    refine List.countP_congr fun q' hq' => ?_
    simpa using ⟨eq_of_replyCh_eq r hq (mem_waiting_of_batch hq'), congrArg _⟩
  have ha : (s.pending.all.map (·.replyCh)).count q.replyCh = s.pending.all.count q := by
    rw [Multiset.count, Multiset.countP_map, ← Multiset.countP_eq_card_filter, Multiset.count]
    refine Multiset.countP_congr rfl fun q' hq' => ?_
    simpa using ⟨fun h => (eq_of_replyCh_eq r hq (mem_waiting_of_pending hq') h.symm).symm,
      fun h => congrArg _ h⟩
  have hans : (s.answers.map (·.1)).count q.replyCh = s.answers.countP (·.1 = q.replyCh) := by
    rw [List.count, List.countP_map]
    exact List.countP_congr fun _ _ => by simp
  rw [Multiset.count_add, Multiset.count_add, Multiset.coe_count, Multiset.coe_count,
    Multiset.coe_count, hone, hb, ha, hans,
    Queues.count_all (k := q.tunnelID) fun _ => pending_zone (shape r.reachable)] at hp
  exact hp.symm

theorem nextZone_ne_nil {x z : Zone} (h : nextZone x s = some z) : s.pending.queued z ≠ [] := by
  have hz := List.find?_some h
  exact List.ne_nil_of_length_pos (of_decide_eq_true hz).right

-- A device is built from the configuration of the zone that it is live for.
structure Zoned (o : Options) (s : State) : Prop where
  timer  : s.settleTimer.isSome → s.settling
  settle : s.settling → o.eligible s.settleZone = some s.settleConfigPath
  device : ∀ d, s.currentDevice = some d →
    ∃ b, s.built[d]? = some b ∧ b.tunnelID = s.currentZone ∧ o.eligible b.tunnelID = some b.configPath

namespace Zoned

theorem beginSwitch {z : Zone} {p : ConfigPath} {reqs : List RouteRequest} {n : Nat}
    (h : o.eligible z = some p) : Zoned o (beginSwitch o z p reqs n s) where
  timer  := by simp [Scheduler.beginSwitch]
  settle := fun _ => h
  device := by simp [Scheduler.beginSwitch]

theorem beginSwitch_next (sh : Shape o s₁) {z : Zone} {n : Nat} (h : s₁.pending.queued z ≠ []) :
    Zoned o (Scheduler.beginSwitch o z (o.eligible z |>.getD "") (s₁.pending.queued z) n s) := by
  have ⟨q, hq⟩ := List.exists_mem_of_ne_nil _ h
  exact beginSwitch (by rw [(sh.pending z q hq).right, Option.getD_some])

theorem loopStep (zd : Zoned o s₁) (sh : Shape o s₁) (st : LoopStep o s₁ e s₂) : Zoned o s₂ := by
  cases st
  case done =>
    exact ⟨by simpa [failStopped] using zd.timer, by simpa [failStopped] using zd.settle, by simp⟩
  case switch h _ _        => exact beginSwitch (sh.tail_reqCh h).left
  case failedNext h _      => exact beginSwitch_next sh (nextZone_ne_nil h)
  case graceSwitch h _ _ _ => exact beginSwitch_next sh (nextZone_ne_nil h)
  case failed              => exact ⟨by simp [buildFailed], by simp [buildFailed], zd.device⟩
  case idle                => exact ⟨by simpa using zd.timer, by simpa using zd.settle, by simp⟩
  case built h _ =>
    refine ⟨by simp, by simp, ?_⟩
    intro d hd
    cases hd
    have hs := zd.timer h.isSome
    exact ⟨_, List.getElem?_concat_length .., rfl, zd.settle hs⟩
  all_goals exact ⟨zd.timer, zd.settle, zd.device⟩

theorem step (zd : Zoned o s₁) (sh : Shape o s₁) (h : step o s₁ e = some s₂) : Zoned o s₂ := by
  cases step_elim h sh.pending_empty
  case loop st => exact zd.loopStep sh st
  case call st => cases st <;> exact ⟨zd.timer, zd.settle, zd.device⟩
  all_goals exact ⟨zd.timer, zd.settle, zd.device⟩

end Zoned

theorem zoned (r : (system o).Reachable s) : Zoned o s :=
  r.invariant_of_reachable
    ⟨by simp [system, State.init], by simp [system, State.init], by simp [system, State.init]⟩
    fun _ _ _ r zd h => zd.step (shape r) h

-- The replies that a step sends are all the same, and a grant is for the device that is live then.
structure Answers (o : Options) (es : List Event) (s₁ s₂ : State) (reqs : List RouteRequest)
    (reply : RouteReply) : Prop where
  answers : s₂.answers = (reqs.map (·.replyCh, reply)).reverse ++ s₁.answers
  device  : ∀ d res, reply = .ok d res → s₂.currentDevice = some d
  granted : reply.isGrant → ∀ q ∈ reqs, q ∈ received o es ∧ q.tunnelID = s₂.currentZone ∧
    o.eligible q.tunnelID = some q.configPath

theorem answers_of_step (r : (system o).Run es s₁) (h : step o s₁ e = some s₂) :
    ∃ reqs reply, Answers o (es ++ [e]) s₁ s₂ reqs reply := by
  have sh := shape r.reachable
  have hn (hs : s₂.answers = s₁.answers) : ∃ reqs reply, Answers o (es ++ [e]) s₁ s₂ reqs reply :=
    ⟨[], .err .ctxErr, by simp [hs], by simp, by simp⟩
  cases step_elim h sh.pending_empty
  case tick | refuse | route => exact hn rfl
  case call st => cases st <;> exact hn rfl
  case loop st =>
    cases st
    case done =>
      exact ⟨stopped s₁, .err .ctxErr, by simp [failStopped], by simp, by simp [RouteReply.isGrant]⟩
    case failed =>
      exact ⟨s₁.settleBatch, .err (bringUpFailure s₁.settleZone), rfl, by simp,
        by simp [RouteReply.isGrant]⟩
    case failedNext =>
      exact ⟨s₁.settleBatch, .err (bringUpFailure s₁.settleZone), by simp [beginSwitch, buildFailed],
        by simp, by simp [RouteReply.isGrant]⟩
    case grant q _ d hq _ hd hz =>
      refine ⟨[q], .ok d s₁.currentResolver, rfl, fun _ _ hr => by cases hr; exact hd, ?_⟩
      intro _ q' hq'
      cases List.mem_singleton.mp hq'
      exact ⟨by simp [received_snoc r, taken, hq], hz.symm, (sh.tail_reqCh hq).left⟩
    case built res _ _ =>
      refine ⟨s₁.settleBatch, .ok s₁.built.length res, rfl, fun _ _ hr => by cases hr; rfl, ?_⟩
      intro _ q hq
      obtain ⟨hz, he⟩ := sh.batch q hq
      refine ⟨?_, hz, hz ▸ he⟩
      rw [received_snoc r]
      exact List.mem_append_left _ <| mem_received_of_batch r hq
    case switch | graceSwitch => exact hn (by simp [beginSwitch])
    case idle                 => exact hn (by simp)
    all_goals exact hn rfl

-- A grant is for a device of the zone that was asked for, which is open when the grant is sent.
theorem grant_of_step (r : (system o).Run es s₁) (h : step o s₁ e = some s₂)
    {new : List (CallID × RouteReply)} (hn : s₂.answers = new ++ s₁.answers) {d : Device}
    {res : Option Device} (hm : (i, .ok d res) ∈ new) :
    ∃ q ∈ received o (es ++ [e]), q.replyCh = i ∧
      (∃ b, s₂.built[d]? = some b ∧ b.tunnelID = q.tunnelID ∧ b.configPath = q.configPath) ∧
      s₂.ledger.IsOpen d := by
  obtain ⟨reqs, reply, a⟩ := answers_of_step r h
  cases List.append_cancel_right (hn.symm.trans a.answers)
  obtain ⟨q, hq, hr⟩ := List.mem_map.mp (List.mem_reverse.mp hm)
  obtain ⟨hi, hr⟩ := Prod.mk.inj hr
  have hd := a.device d res hr
  obtain ⟨hq, hz, he⟩ := a.granted (by simp [hr, RouteReply.isGrant]) q hq
  have r₂ := r.reachable.step h
  obtain ⟨b, hb, hb', he'⟩ := (zoned r₂).device d hd
  have hz := hb'.trans hz.symm
  refine ⟨q, hq, hi, ⟨b, hb, hz, ?_⟩, (devices_valid r₂).exclusive.isOpen_iff.mpr hd⟩
  rw [hz, he] at he'
  exact (Option.some.inj he').symm

-- When `Run` returns, it has answered all requests that it has received.
theorem stopped_no_request (r : (system o).Reachable s) (hr : s.running = false) :
    s.settleBatch = [] ∧ s.pending = ∅ := by
  refine r.invariant_of_reachable (P := fun s => s.running = false → s.settleBatch = [] ∧ s.pending = ∅)
    (by simp [system, State.init]) ?_ hr
  intro s₁ e s₂ r hi h hr
  have sh := shape r
  cases step_elim h sh.pending_empty
  case tick | refuse | route => exact hi hr
  case call st => cases st <;> exact hi hr
  case loop hr' st =>
    obtain ⟨_, _, hs⟩ := st.done_of_stopped hr' hr
    subst hs
    refine ⟨?_, by simp [failStopped]⟩
    simp only [teardown_settleBatch, failStopped]
    split
    case isTrue    => rfl
    case isFalse h => exact sh.settled (Bool.eq_false_iff.mpr h)

theorem received_answered_once (r : (system o).Run es s) :
    (∀ q ∈ received o es,
      s.settleBatch.count q + (s.pending.queued q.tunnelID).count q +
        s.answers.countP (·.1 = q.replyCh) = 1 ∧
      (q ∈ s.settleBatch → s.settling ∧ s.settleZone = q.tunnelID) ∧
      (∀ z, q ∈ s.pending.queued z → z = q.tunnelID) ∧
      (s.running = false → s.answers.countP (·.1 = q.replyCh) = 1)) ∧
    (∀ c ∈ s.calls, c.replyCh.length ≤ 1) ∧
    (∀ e s' new i d res, step o s e = some s' → s'.answers = new ++ s.answers →
      (i, .ok d res) ∈ new → ∃ q ∈ received o (es ++ [e]), q.replyCh = i ∧
        (∃ b, s'.built[d]? = some b ∧ b.tunnelID = q.tunnelID ∧ b.configPath = q.configPath) ∧
        s'.ledger.IsOpen d) := by
  have sh := shape r.reachable
  refine ⟨?_, ?_, ?_⟩
  · intro q hq
    have hc := count_places r hq
    refine ⟨hc, ?_, fun z => pending_zone sh, ?_⟩
    · intro hb
      refine ⟨?_, (sh.batch q hb).left.symm⟩
      by_contra hs
      simp [sh.settled (Bool.eq_false_iff.mpr hs)] at hb
    · intro hr
      obtain ⟨hb, hp⟩ := stopped_no_request r.reachable hr
      simpa [hb, hp] using hc
  · intro c hc
    obtain ⟨i, hi⟩ := List.getElem?_of_mem hc
    have ht := (jobs_valid r.reachable).tickets i c hi
    have : c.tickets ≤ 1 := by cases hp : c.phase <;> simp [Call.tickets, hp]
    omega
  · intro e s' new i d res h hn hm
    exact grant_of_step r h hn hm

-- The device for zone `a` is about to be built, and a request for zone `b` waits.
def pendingRun : List Event :=
  [.route "a", .send 0, .loopRequest 0, .tick 5, .route "b", .send 1, .loopRequest 0]

theorem pendingRun_isSome : ((system .twoZones).exec pendingRun).isSome := by
  decide

theorem pendingRun_built_isSome :
    (step .twoZones (((system .twoZones).exec pendingRun).get pendingRun_isSome)
      (.loopSettle (.ok true true) 0 0)).isSome := by
  decide

theorem received_answered_once_pendingRun :
    let s := ((system .twoZones).exec pendingRun).get pendingRun_isSome
    let s' := (step .twoZones s (.loopSettle (.ok true true) 0 0)).get pendingRun_built_isSome
    (⟨"b", "b.conf", 1⟩ : RouteRequest) ∈ received .twoZones pendingRun ∧
      s.settleBatch.count ⟨"b", "b.conf", 1⟩ + (s.pending.queued "b").count ⟨"b", "b.conf", 1⟩ +
        s.answers.countP (·.1 = 1) = 1 ∧
      s'.answers = [(0, .ok 0 (some 0))] ++ s.answers ∧ s'.ledger.IsOpen 0 := by
  have h := received_answered_once (.of_isSome pendingRun_isSome)
  have ⟨_, _, _, _, ho⟩ := h.right.right _ _ _ 0 0 (some 0)
    (Option.some_get pendingRun_built_isSome).symm (by decide) (List.mem_singleton_self _)
  exact ⟨by decide, (h.left _ (by decide)).left, by decide, ho⟩

end Tunnelpool.Scheduler
