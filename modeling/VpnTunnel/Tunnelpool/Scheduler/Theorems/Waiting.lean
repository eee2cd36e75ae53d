import VpnTunnel.Tunnelpool.Scheduler.Theorems.Accounting
import VpnTunnel.Tunnelpool.Scheduler.Theorems.Queue

namespace Tunnelpool.Scheduler

variable {o : Options} {s s₁ s₂ s₃ : State} {e : Event} {es es' : List Event} {l : List RouteRequest}
  {q : RouteRequest} {z : Zone}

-- The builder is called, and either succeeds or fails.
def Event.builds : Event → Bool
  | .loopSettle .. => true
  | _              => false

-- How often the builder can be called at most until a request has been answered: once for the switch
-- that is going on, once for each zone whose turn comes first, and once for the request itself.
def State.wait (s : State) (q : RouteRequest) : Nat :=
  if q ∈ s.pending.queued q.tunnelID then s.pendingFIFO.idxOf q.tunnelID + s.settling.toNat + 1
  else if q ∈ s.settleBatch then 1
  else 0

theorem wait_of_pending (h : q ∈ s.pending.queued q.tunnelID) :
    s.wait q = s.pendingFIFO.idxOf q.tunnelID + s.settling.toNat + 1 :=
  if_pos h

theorem wait_pos_iff : 0 < s.wait q ↔ q ∈ s.pending.queued q.tunnelID ∨ q ∈ s.settleBatch := by
  rw [State.wait]
  split
  case isTrue h  => simp [h]
  case isFalse h => split <;> simp_all

theorem answered_iff (r : (system o).Run es s) (hq : q ∈ received o es) :
    q.replyCh ∈ s.answers.map (·.1) ↔ s.wait q = 0 := by
  have hc := count_places r hq
  have ha : 0 < s.answers.countP (·.1 = q.replyCh) ↔ q.replyCh ∈ s.answers.map (·.1) := by
    simp [List.countP_pos_iff]
  have hw := @wait_pos_iff s q
  simp only [← List.count_pos_iff] at hw
  rw [← ha]
  omega

theorem mem_received_of_pending (r : (system o).Run es s) (h : q ∈ s.pending.queued z) :
    q ∈ received o es := by
  have hp : q ∈ s.pending.all := Queues.mem_all.mpr ⟨z, h⟩
  have hm : q.replyCh ∈ (received o es).map (·.replyCh) := by
    rw [← Multiset.mem_coe, places r]
    exact Multiset.mem_add.mpr <| .inl <| Multiset.mem_add.mpr <| .inr <| Multiset.mem_map_of_mem _ hp
  have ⟨q', hq', hn⟩ := List.mem_map.mp hm
  exact eq_of_replyCh_eq r hq' (mem_waiting_of_pending hp) hn.symm ▸ hq'

theorem mem_received_of_answered (r : (system o).Run es s) {i : CallID} (h : i ∈ s.answers.map (·.1)) :
    i ∈ (received o es).map (·.replyCh) := by
  rw [← Multiset.mem_coe, places r]
  exact Multiset.mem_add.mpr <| .inr h

theorem answered_of_step (r : (system o).Run es s₁) (h : step o s₁ e = some s₂) {i : CallID}
    (ha : i ∈ s₁.answers.map (·.1)) : i ∈ s₂.answers.map (·.1) := by
  have ⟨_, _, a⟩ := answers_of_step r h
  rw [a.answers, List.map_append]
  exact List.mem_append_right _ ha

-- A request does not come back into its queue.
theorem pending_of_step (r : (system o).Run es s₁) (h : step o s₁ e = some s₂)
    (hq : q ∈ received o es) (hp : q ∈ s₂.pending.queued q.tunnelID) :
    q ∈ s₁.pending.queued q.tunnelID := by
  have sh := shape r.reachable
  cases step_elim h sh.pending_empty
  case tick | refuse | route => exact hp
  case call st => cases st <;> exact hp
  case loop hr st =>
    cases hs : s₂.running
    case false =>
      obtain ⟨_, _, he⟩ := st.done_of_stopped hr hs
      subst he
      simp [failStopped] at hp
    case true =>
      obtain ⟨l, hd, _⟩ := head r hr
      obtain ⟨l', hd', hl⟩ := hd.loopStep sh (control r.reachable hr) (jobs_accounted r.reachable hr) st hs
      rw [hd'.backlog.mem_queued] at hp
      rw [hd.backlog.mem_queued]
      refine (List.mem_append.mp <| hl.subset hp).resolve_right fun ht => ?_
      have hn := received_nodup (r.step h)
      rw [received_snoc r, List.map_append, List.nodup_append'] at hn
      exact hn.right.right (List.mem_map_of_mem hq) (List.mem_map_of_mem ht)

-- The position of the zone after `pickNextZone` has picked another one.
theorem Head.idxOf_picked (hd : Head s l) {x : Zone} (hx : ∀ q ∈ l, q.tunnelID ≠ x)
    (h : nextZone x s = some z) (hp : q ∈ Queues.queued (s.pending.erase z) q.tunnelID) :
    ((compactFIFO s).pendingFIFO.erase z).idxOf q.tunnelID + 1 = s.pendingFIFO.idxOf q.tunnelID := by
  have hz : q.tunnelID ≠ z := by
    intro hz
    simp [hz] at hp
  rw [hd.backlog.compactFIFO]
  exact hd.backlog.idxOf_take hz <| hd.backlog.nextZone_eq hx ▸ h

theorem position_of_loopStep (r : (system o).Run es s₁) (hr : s₁.running) (st : LoopStep o s₁ e s₂)
    (hq : q ∈ s₁.pending.queued q.tunnelID) (hp : q ∈ s₂.pending.queued q.tunnelID) :
    s₂.pendingFIFO.idxOf q.tunnelID + s₂.settling.toNat + e.builds.toNat ≤
      s₁.pendingFIFO.idxOf q.tunnelID + s₁.settling.toNat := by
  have sh := shape r.reachable
  have c := control r.reachable hr
  have ⟨l, hd, _⟩ := head r hr
  have hm := hd.backlog.mem_queued.mp hq
  have hl : l ≠ [] := List.ne_nil_of_mem hm
  have hs (hf : Fired s₁.settleTimer s₁.now) : s₁.settling := hd.settling_of_fired hf
  have hg (hf : Fired s₁.graceTimer s₁.now) : s₁.settling = false := sh.grace hf.isSome
  cases st
  case done => simp [failStopped] at hp
  case enqueue q' _ _ _ _ | defer q' _ _ _ _ _ _ _ | deferGrace q' _ _ _ _ _ _ _ _ =>
    simp [enqueuePending, hd.backlog.idxOf_push hm q', Event.builds]
  case switch hn hd' =>
    simpa [hn, hd'] using hd.waits hl
  case built hf _ => simp [hs hf, Event.builds]
  case failed hn hf => exact absurd (hd.next_none (hd.ne_empty sh) hn) hl
  case failedNext hn hf =>
    have hi := hd.idxOf_picked (hd.ne_empty sh) hn (q := q) (by simpa [beginSwitch] using hp)
    simp only [beginSwitch, Event.builds, hs hf, Bool.toNat_true, teardown_pendingFIFO]
    omega
  case graceOver hn hf => exact absurd (hd.next_none (hd.live (c.grace hf.isSome)) hn) hl
  case graceSwitch hn hf _ _ =>
    have hi := hd.idxOf_picked (hd.live (c.grace hf.isSome)) hn (q := q) (by simpa [beginSwitch] using hp)
    simp only [beginSwitch, Event.builds, hg hf, Bool.toNat_true, Bool.toNat_false, teardown_pendingFIFO]
    omega
  all_goals simp [Event.builds]

-- A builder that is called answers its batch, and at most the queue of the next zone takes its place.
theorem batch_of_builds (r : (system o).Run es s₁) (h : step o s₁ e = some s₂) (he : e.builds)
    (hb : q ∈ s₂.settleBatch) : q ∈ s₁.pending.queued q.tunnelID ∧ s₁.settling := by
  have sh := shape r.reachable
  cases step_elim h sh.pending_empty
  case tick | refuse | route => simp [Event.builds] at he
  case call st => cases st <;> simp [Event.builds] at he
  case loop st =>
    cases st
    case built  => simp at hb
    case failed => simp [buildFailed] at hb
    case failedNext z hn hf =>
      have hb : q ∈ s₁.pending.queued z := hb
      exact ⟨pending_zone sh hb ▸ hb, (zoned r.reachable).timer hf.isSome⟩
    all_goals simp [Event.builds] at he

theorem wait_of_step (r : (system o).Run es s₁) (h : step o s₁ e = some s₂) (hq : q ∈ received o es) :
    s₂.wait q ≤ s₁.wait q - e.builds.toNat := by
  by_cases hp : q ∈ s₂.pending.queued q.tunnelID
  case pos =>
    have hp' := pending_of_step r h hq hp
    rw [wait_of_pending hp, wait_of_pending hp']
    cases step_elim h (shape r.reachable).pending_empty
    case tick | refuse | route => exact Nat.le_refl _
    case call st => cases st <;> exact Nat.le_refl _
    case loop hr st =>
      have := position_of_loopStep r hr st hp' hp
      omega
  case neg =>
    by_cases hb : q ∈ s₂.settleBatch
    case neg => simp [State.wait, hp, hb]
    case pos =>
      have hw : s₂.wait q = 1 := by simp [State.wait, hp, hb]
      rw [hw]
      cases he : e.builds
      case true =>
        obtain ⟨hp', hs⟩ := batch_of_builds r h he hb
        rw [wait_of_pending hp', hs, Bool.toNat_true]
        omega
      case false =>
        -- The request has not been answered before the step either.
        refine Nat.pos_of_ne_zero fun hz => ?_
        have ha := answered_of_step r h <| (answered_iff r hq).mpr (by simpa using hz)
        have hq' : q ∈ received o (es ++ [e]) := received_snoc r ▸ List.mem_append_left _ hq
        simp [(answered_iff (r.step h) hq').mp ha] at hw

theorem wait_of_run (r : (system o).Run es s) (hq : q ∈ received o es)
    (r' : (system o).Run (es ++ es') s₂) :
    q ∈ received o (es ++ es') ∧ s₂.wait q ≤ s.wait q - es'.countP Event.builds := by
  induction es' using List.reverseRecOn generalizing s₂
  case nil =>
    rw [List.append_nil] at r' ⊢
    cases r.deterministic r'
    exact ⟨hq, Nat.le_refl _⟩
  case append_singleton es' e hi =>
    rw [← List.append_assoc] at r' ⊢
    have ⟨s₁, r₁, h⟩ := r'.snoc_elim
    have ⟨hq₁, hw⟩ := hi r₁
    refine ⟨received_snoc r₁ ▸ List.mem_append_left _ hq₁, (wait_of_step r₁ h hq₁).trans ?_⟩
    rw [List.countP_append, List.countP_singleton]
    cases e.builds <;> simp <;> omega

-- A request is overtaken by the zones that are already in front of it only: it has been answered when
-- the builder has been called once for each of them, for the switch that was going on, and for itself.
theorem answered_within (r : (system o).Run es s) (hq : q ∈ s.pending.queued q.tunnelID)
    (r' : (system o).Run (es ++ es') s₂)
    (h : s.pendingFIFO.idxOf q.tunnelID + s.settling.toNat < es'.countP Event.builds) :
    ∃ reply, (q.replyCh, reply) ∈ s₂.answers := by
  have hm : q ∈ received o es := mem_received_of_pending r hq
  have ⟨hm', hw⟩ := wait_of_run r hm r'
  rw [wait_of_pending hq] at hw
  have ha := (answered_iff r' hm').mpr (by omega)
  have ⟨⟨_, reply⟩, ha, hi⟩ := List.mem_map.mp ha
  exact ⟨reply, hi ▸ ha⟩

-- Zone `b` is asked for while `a` is being brought up, and `a` is asked for again while there is a job.
def overtakenRun : List Event :=
  [.route "a", .send 0, .loopRequest 0, .route "b", .send 1, .loopRequest 0]

def overtakenRest : List Event :=
  [.tick 5, .loopSettle (.ok true true) 0 0, .receive 0, .route "a", .send 2, .loopRequest 0, .receive 2,
    .release 0, .loopRelease, .release 2, .loopRelease, .tick 10, .loopGrace 0, .tick 5,
    .loopSettle .err 0 0]

theorem overtakenRun_isSome : ((system .twoZones).exec overtakenRun).isSome := by
  decide

theorem overtakenRest_isSome : ((system .twoZones).exec (overtakenRun ++ overtakenRest)).isSome := by
  decide

theorem answered_within_overtakenRun :
    ∃ reply, (1, reply) ∈
      (((system .twoZones).exec (overtakenRun ++ overtakenRest)).get overtakenRest_isSome).answers :=
  answered_within (q := ⟨"b", "b.conf", 1⟩) (.of_isSome overtakenRun_isSome) (by decide)
    (.of_isSome overtakenRest_isSome) (by decide)

theorem activeJobs_pos_of_abandoned (r : (system o).Reachable s) (hr : s.running) (ha : Abandoned s.calls) :
    0 < s.activeJobs := by
  refine Nat.pos_of_ne_zero fun hz => ?_
  have ⟨i, c, hc, _, reply, hm, hg⟩ := ha
  have h := grants_eq_zero r hr hz c (List.mem_of_getElem? hc)
  simp only [Call.grants, Nat.add_eq_zero_iff, List.countP_eq_zero] at h
  exact h.left reply hm hg

-- A step in which `Run` does not leave the zone that it is in: the only requests that it can answer are
-- new ones of this zone.
structure Stays (s₁ : State) (e : Event) (s₂ : State) : Prop where
  device  : s₂.currentDevice = s₁.currentDevice
  zone    : s₂.currentZone = s₁.currentZone
  built   : s₂.built = s₁.built
  event   : ¬e.builds
  answers : ∀ i ∈ s₂.answers.map (·.1), i ∈ s₁.answers.map (·.1) ∨
    ∃ q ∈ taken s₁ e, q.replyCh = i ∧ q.tunnelID = s₁.currentZone

theorem stays_of_step (r : (system o).Reachable s₁) (h : step o s₁ e = some s₂) (hr : s₂.running)
    (ha : 0 < s₁.activeJobs) : Stays s₁ e s₂ := by
  have sh := shape r
  have hr₁ := running_of_step sh h hr
  have c := control r hr₁
  have hn := c.live ha
  have hs : ¬Fired s₁.settleTimer s₁.now := by
    intro hf
    simp [sh.device ((zoned r).timer hf.isSome)] at hn
  cases step_elim h sh.pending_empty
  case tick | refuse | route => exact ⟨rfl, rfl, rfl, by simp [Event.builds], fun _ => .inl⟩
  case call st => cases st <;> exact ⟨rfl, rfl, rfl, by simp [Event.builds], fun _ => .inl⟩
  case loop st =>
    cases st
    case done               => simp at hr
    case switch hd          => simp [hd] at hn
    case idle hz            => simp [hz] at ha
    case graceSwitch hf _ _ => simp [c.idle hf.isSome] at ha
    case built hf _ | failed hf | failedNext hf => exact absurd hf hs
    case grant q _ _ hq _ _ hz =>
      refine ⟨rfl, rfl, rfl, by simp [Event.builds], fun i hi => ?_⟩
      cases List.mem_cons.mp hi
      case inl hi => exact .inr ⟨q, by simp [taken, hq], hi.symm, hz.symm⟩
      case inr hi => exact .inl hi
    all_goals exact ⟨rfl, rfl, rfl, by simp [Event.builds], fun _ => .inl⟩

-- What is known of the run after a grant was lost in the step to `s₁`.
structure Stuck (o : Options) (es : List Event) (s₁ : State) (es' : List Event) (s₂ : State) : Prop where
  abandoned : Abandoned s₂.calls
  device    : s₂.currentDevice = s₁.currentDevice
  zone      : s₂.currentZone = s₁.currentZone
  built     : s₂.built = s₁.built
  events    : ∀ e ∈ es', ¬e.builds
  answers   : ∀ q ∈ received o (es ++ es'), q.tunnelID ≠ s₁.currentZone →
    q.replyCh ∈ s₂.answers.map (·.1) → q.replyCh ∈ s₁.answers.map (·.1)

theorem Stuck.step (sk : Stuck o es s₁ es' s₂) (r : (system o).Run (es ++ es') s₂)
    (h : Scheduler.step o s₂ e = some s₃) (hr : s₃.running) : Stuck o es s₁ (es' ++ [e]) s₃ := by
  have sh := shape r.reachable
  have hr₂ := running_of_step sh h hr
  have st := stays_of_step r.reachable h hr <| activeJobs_pos_of_abandoned r.reachable hr₂ sk.abandoned
  refine ⟨(step_abandoned sh h hr).mpr (.inl sk.abandoned), st.device.trans sk.device,
    st.zone.trans sk.zone, st.built.trans sk.built, ?_, ?_⟩
  · intro e' he'
    cases List.mem_append.mp he'
    case inl he' => exact sk.events e' he'
    case inr he' => exact List.mem_singleton.mp he' ▸ st.event
  · intro q hq hz hi
    rw [← List.append_assoc] at hq
    -- There is one request for each reply channel.
    have unique {q'} (hq' : q' ∈ received o (es ++ es') ++ taken s₂ e) (hi : q'.replyCh = q.replyCh) :
        q' = q :=
      List.inj_on_of_nodup_map (received_nodup (r.step h)) (received_snoc r ▸ hq') hq hi
    cases st.answers _ hi
    case inl hi =>
      have ⟨q', hq', hi'⟩ := List.mem_map.mp <| mem_received_of_answered r hi
      exact sk.answers q (unique (List.mem_append_left _ hq') hi' ▸ hq') hz hi
    case inr hi =>
      have ⟨q', hq', hi, hz'⟩ := hi
      exact absurd (unique (List.mem_append_right _ hq') hi ▸ hz'.trans sk.zone) hz

theorem stuck (r : (system o).Run es s₁) (hl : s₁.running → Abandoned s₁.calls)
    (r' : (system o).Run (es ++ es') s₂) (hr : s₂.running) : Stuck o es s₁ es' s₂ := by
  induction es' using List.reverseRecOn generalizing s₂
  case nil =>
    rw [List.append_nil] at r'
    cases r.deterministic r'
    exact ⟨hl hr, rfl, rfl, rfl, by simp, fun _ _ _ => id⟩
  case append_singleton es' e hi =>
    rw [← List.append_assoc] at r'
    have ⟨s', r', h⟩ := r'.snoc_elim
    exact (hi r' <| running_of_step (shape r'.reachable) h hr).step r' h hr

-- Once a grant has been lost, the scheduler stays in its zone for as long as `Run` is running: the
-- builder is never called again, and the requests for other zones wait forever.
theorem lost_grant_blocks (r : (system o).Run es s₁) (h : step o s₁ e = some s₂) (hl : LosesGrant s₁ e)
    (r' : (system o).Run (es ++ [e] ++ es') s₃) (hr : s₃.running) :
    s₃.currentDevice.isSome ∧ s₃.currentDevice = s₂.currentDevice ∧ s₃.currentZone = s₂.currentZone ∧
    s₃.built = s₂.built ∧ (∀ e' ∈ es', ¬e'.builds) ∧
    ∀ q ∈ received o (es ++ [e] ++ es'), q.tunnelID ≠ s₂.currentZone →
      q ∈ s₃.pending.queued q.tunnelID ∨ q.replyCh ∈ s₂.answers.map (·.1) := by
  have ha (hr : s₂.running) : Abandoned s₂.calls :=
    (step_abandoned (shape r.reachable) h hr).mpr (.inr hl)
  have sk := stuck (r.step h) ha r' hr
  have sh := shape r'.reachable
  have hn := (control r'.reachable hr).live <| activeJobs_pos_of_abandoned r'.reachable hr sk.abandoned
  refine ⟨hn, sk.device, sk.zone, sk.built, sk.events, fun q hq hz => ?_⟩
  by_cases hw : s₃.wait q = 0
  case pos => exact .inr <| sk.answers q hq hz <| (answered_iff r' hq).mpr hw
  case neg =>
    refine .inl <| (wait_pos_iff.mp <| Nat.pos_of_ne_zero hw).resolve_right fun hb => ?_
    have hs : s₃.settling = false := Bool.eq_false_iff.mpr fun hs => by simp [sh.device hs] at hn
    simp [sh.settled hs] at hb

-- Zone `a` is brought up for a caller that has left, and then zone `b` is asked for.
def abandonedRun : List Event :=
  [.route "a", .send 0, .loopRequest 0, .cancel 0, .tick 5]

def blockedRest : List Event :=
  [.route "b", .send 1, .loopRequest 0, .tick 1000]

theorem abandonedRun_isSome : ((system .twoZones).exec abandonedRun).isSome := by
  decide

theorem abandonedRun_settle_isSome :
    (step .twoZones (((system .twoZones).exec abandonedRun).get abandonedRun_isSome)
      (.loopSettle (.ok true true) 0 0)).isSome := by
  decide

theorem blockedRest_isSome :
    ((system .twoZones).exec
      (abandonedRun ++ [.loopSettle (.ok true true) 0 0] ++ blockedRest)).isSome := by
  decide

theorem lost_grant_blocks_abandonedRun :
    let s := ((system .twoZones).exec
      (abandonedRun ++ [.loopSettle (.ok true true) 0 0] ++ blockedRest)).get blockedRest_isSome
    s.currentDevice.isSome ∧ (⟨"b", "b.conf", 1⟩ : RouteRequest) ∈ s.pending.queued "b" := by
  have h := lost_grant_blocks (.of_isSome abandonedRun_isSome)
    (Option.some_get abandonedRun_settle_isSome).symm
    ⟨⟨"a", "a.conf", 0⟩, by decide, _, rfl, rfl⟩ (.of_isSome blockedRest_isSome) (by decide)
  refine ⟨h.left, (h.right.right.right.right.right ⟨"b", "b.conf", 1⟩ ?_ ?_).resolve_right ?_⟩
  all_goals decide

end Tunnelpool.Scheduler
