import VpnTunnel.Lib.Backlog
import VpnTunnel.Tunnelpool.Scheduler.Theorems.Received

namespace Tunnelpool.Scheduler

variable {o : Options} {s s₁ s₂ : State} {e : Event} {es : List Event} {l : List RouteRequest}
  {q : RouteRequest} {z : Zone} {n : Nat}

-- The requests that are pending, in the order in which they were received.
abbrev Queued (s : State) (l : List RouteRequest) : Prop :=
  Backlog RouteRequest.tunnelID l s.pending s.pendingFIFO

theorem Queued.compactFIFO (b : Queued s l) : (compactFIFO s).pendingFIFO = s.pendingFIFO :=
  b.order_filter

-- The next zone is the one that has been waiting for the longest time.
theorem Queued.nextZone_eq (b : Queued s l) {x : Zone} (hx : ∀ q ∈ l, q.tunnelID ≠ x) :
    nextZone x s = l.head?.map (·.tunnelID) := by
  rw [nextZone, b.compactFIFO, ← b.order_head?]
  cases hf : s.pendingFIFO
  case nil => rfl
  case cons z fifo =>
    have hz := b.mem_order.mp (hf ▸ List.mem_cons_self)
    have ⟨q, hq, hqz⟩ := b.queued_ne_nil.mp hz
    have hn : z ≠ x := hqz ▸ hx q hq
    simp [hn, List.length_pos_iff.mpr hz]

theorem hasCrossZonePending_iff :
    hasCrossZonePending s ↔ ∃ z, z ≠ s.currentZone ∧ s.pending.queued z ≠ [] := by
  simp only [hasCrossZonePending, List.any_eq_true, decide_eq_true_eq, Queues.queued]
  constructor
  · rintro ⟨e, he, hz, hl⟩
    have hl' : s.pending.lookup e.1 = some e.2 := AList.mem_lookup_iff.mpr he
    exact ⟨e.1, hz, by simpa [hl'] using List.ne_nil_of_length_pos hl⟩
  · rintro ⟨z, hz, hl⟩
    cases hl' : s.pending.lookup z <;> simp only [hl', Option.getD_none, Option.getD_some] at hl
    case none   => contradiction
    case some l => exact ⟨⟨z, l⟩, AList.mem_lookup_iff.mp hl', hz, List.length_pos_iff.mpr hl⟩

theorem Queued.hasCrossZonePending_iff (b : Queued s l) (hl : ∀ q ∈ l, q.tunnelID ≠ s.currentZone) :
    hasCrossZonePending s ↔ l ≠ [] := by
  rw [Scheduler.hasCrossZonePending_iff, ne_eq, b.eq_nil_iff, not_forall]
  refine exists_congr fun z => and_iff_right_of_imp fun hz => ?_
  have ⟨q, hq, hqz⟩ := b.queued_ne_nil.mp hz
  exact hqz ▸ hl q hq

-- What holds at the head of the loop of `Run`, besides what is known of the timers already.
structure Head (s : State) (l : List RouteRequest) : Prop where
  backlog : Queued s l
  timer   : s.settling ↔ s.settleTimer.isSome
  batch   : s.settling → s.settleBatch ≠ []
  settle  : s.settling → ∀ q ∈ l, q.tunnelID ≠ s.settleZone
  live    : s.currentDevice.isSome → ∀ q ∈ l, q.tunnelID ≠ s.currentZone
  waits   : l ≠ [] →
    s.settling ∨ s.currentDevice.isSome ∧ (s.graceTimer.isSome ∨ 0 < s.activeJobs)
  grace   : s.graceTimer.isSome → l ≠ []
  idle    : s.idleTimer.isSome →
    s.activeJobs = 0 ∧ l = [] ∧ s.graceTimer = none ∧ s.currentDevice.isSome

namespace Head

theorem init : Head .init [] where
  backlog := .nil
  timer   := by simp [State.init]
  batch   := by simp [State.init]
  settle  := by simp
  live    := by simp
  waits   := by simp
  grace   := by simp [State.init]
  idle    := by simp [State.init]

-- The queue of a zone becomes the batch.
theorem beginSwitch {p : ConfigPath} {reqs : List RouteRequest}
    (b : Queued s (l.filter (·.tunnelID ≠ z))) (hr : reqs ≠ []) :
    Head (beginSwitch o z p reqs n s) (l.filter (·.tunnelID ≠ z)) where
  backlog := by simpa [Scheduler.beginSwitch] using b
  timer   := by simp [Scheduler.beginSwitch]
  batch   := fun _ => hr
  settle  := by simp [Scheduler.beginSwitch]
  live    := by simp [Scheduler.beginSwitch]
  waits   := fun _ => .inl rfl
  grace   := by simp [Scheduler.beginSwitch]
  idle    := by simp [Scheduler.beginSwitch]

variable (hd : Head s₁ l)

include hd

theorem idle_settling (sh : Shape o s₁) (hs : s₁.settling) : s₁.idleTimer = none := by
  by_contra hi
  have ⟨_, _, _, hi⟩ := hd.idle (Option.isSome_iff_ne_none.mpr hi)
  simp [sh.device hs] at hi

theorem settling_of_fired (hf : Fired s₁.settleTimer s₁.now) : s₁.settling :=
  hd.timer.mpr hf.isSome

-- A request for another zone than that of the switch that is going on.
theorem enqueue {reqCh : List RouteRequest} (sh : Shape o s₁) (hs : s₁.settling)
    (hz : q.tunnelID ≠ s₁.settleZone) : Head (enqueuePending q { s₁ with reqCh }) (l ++ [q]) where
  backlog := hd.backlog.push q
  timer   := hd.timer
  batch   := hd.batch
  settle  := by
    intro _ q' hq'
    cases List.mem_append.mp hq'
    case inl hq' => exact hd.settle hs q' hq'
    case inr hq' => exact List.mem_singleton.mp hq' ▸ hz
  live    := by simp [enqueuePending, sh.device hs]
  waits   := fun _ => .inl hs
  grace   := by simp
  idle    := by simp [enqueuePending, hd.idle_settling sh hs]

-- A request for another zone than the live one.
theorem defer (reqCh : List RouteRequest) {d : Device} {grace : Option Nat}
    (hs : s₁.settling = false) (hn : s₁.currentDevice = some d) (hz : s₁.currentZone ≠ q.tunnelID)
    (hw : grace.isSome ∨ 0 < s₁.activeJobs) :
    Head { enqueuePending q { s₁ with reqCh } with graceTimer := grace, idleTimer := none }
      (l ++ [q]) where
  backlog := hd.backlog.push q
  timer   := hd.timer
  batch   := hd.batch
  settle  := by simp [enqueuePending, hs]
  live    := by
    intro _ q' hq'
    cases List.mem_append.mp hq'
    case inl hq' => exact hd.live (by simp [hn]) q' hq'
    case inr hq' => exact List.mem_singleton.mp hq' ▸ hz.symm
  waits   := fun _ => .inr ⟨by simp [enqueuePending, hn], hw⟩
  grace   := by simp
  idle    := by simp

theorem ne_empty (sh : Shape o s₁) (q : RouteRequest) (hq : q ∈ l) : q.tunnelID ≠ "" := by
  intro hz
  have h := (sh.pending _ q (hd.backlog.mem_queued.mpr hq)).right
  rw [hz, o.eligible_empty] at h
  contradiction

-- The next zone is that of the request that was received first, and its queue is not empty.
theorem next {x : Zone} (hx : ∀ q ∈ l, q.tunnelID ≠ x) (h : nextZone x s₁ = some z) :
    ∃ q l', l = q :: l' ∧ q.tunnelID = z := by
  rw [hd.backlog.nextZone_eq hx] at h
  have ⟨q, hq, hz⟩ := Option.map_eq_some_iff.mp h
  have ⟨l', hl⟩ := List.head?_eq_some_iff.mp hq
  exact ⟨q, l', hl, hz⟩

theorem next_none {x : Zone} (hx : ∀ q ∈ l, q.tunnelID ≠ x) (h : nextZone x s₁ = none) : l = [] := by
  rw [hd.backlog.nextZone_eq hx] at h
  simpa using h

theorem switch {x : Zone} {p : ConfigPath} {s : State} (hx : ∀ q ∈ l, q.tunnelID ≠ x)
    (h : nextZone x s₁ = some z) (hp : s.pending = s₁.pending.erase z)
    (hq : s.pendingFIFO = (compactFIFO s₁).pendingFIFO.erase z) :
    Head (Scheduler.beginSwitch o z p (s₁.pending.queued z) n s) (l.filter (·.tunnelID ≠ z)) := by
  have ⟨q, l', hl, hz⟩ := hd.next hx h
  refine beginSwitch ?_ (hd.backlog.queued_ne_nil.mpr ⟨q, by simp [hl], hz⟩)
  rw [Queued, hp, hq, hd.backlog.compactFIFO]
  exact hd.backlog.take z

theorem loopStep (sh : Shape o s₁) (c : Control s₁) (a : s₁.jobs.Accounted)
    (st : LoopStep o s₁ e s₂) (hr : s₂.running) :
    ∃ l', Head s₂ l' ∧ l'.Sublist (l ++ taken s₁ e) := by
  have hk (h : Head s₂ l) : ∃ l', Head s₂ l' ∧ l'.Sublist (l ++ taken s₁ e) :=
    ⟨l, h, List.sublist_append_left ..⟩
  have hf {z} (h : Head s₂ (l.filter (·.tunnelID ≠ z))) :
      ∃ l', Head s₂ l' ∧ l'.Sublist (l ++ taken s₁ e) :=
    ⟨_, h, List.filter_sublist.trans (List.sublist_append_left ..)⟩
  have ha (h : 0 < s₁.releaseCh) : 0 < s₁.activeJobs := by
    simp only [Jobs.Accounted, State.jobs] at a
    omega
  cases st
  case done => simp at hr
  case join q reqCh hq hs hz =>
    exact hk ⟨hd.backlog, hd.timer, by simp, hd.settle, hd.live, hd.waits, hd.grace, hd.idle⟩
  case enqueue q reqCh hq hs hz =>
    exact ⟨_, hd.enqueue sh hs hz, by simp [taken, hq]⟩
  case grant hn hz =>
    exact hk ⟨hd.backlog, hd.timer, hd.batch, hd.settle, hd.live,
      fun _ => .inr ⟨by simp [hn], .inr (Nat.succ_pos _)⟩, by simp, by simp⟩
  case defer q reqCh d hg hq hs hn hz =>
    have hi : s₁.idleTimer = none := by
      by_contra hi
      obtain ⟨hj, _, ht, _⟩ := hd.idle (Option.isSome_iff_ne_none.mpr hi)
      exact hg ⟨hj, ht⟩
    have hw : s₁.graceTimer.isSome ∨ 0 < s₁.activeJobs := by
      cases ht : s₁.graceTimer
      case none   => exact .inr <| Nat.pos_of_ne_zero fun hj => hg ⟨hj, ht⟩
      case some t => exact .inl rfl
    have h := hd.defer reqCh hs hn hz hw
    rw [← hi] at h
    exact ⟨_, h, by simp [taken, hq]⟩
  case deferGrace q reqCh d hq hs hn hz hj hg =>
    exact ⟨_, hd.defer reqCh hs hn hz (.inl rfl), by simp [taken, hq]⟩
  case switch q reqCh hq hs hn =>
    exact hf (z := q.tunnelID) <| beginSwitch (hd.backlog.take q.tunnelID) (by simp)
  case built h _ =>
    have hs := hd.settling_of_fired h
    have hg : s₁.graceTimer = none := by
      by_contra hg
      simp [sh.grace (Option.isSome_iff_ne_none.mpr hg)] at hs
    refine hk ⟨hd.backlog, by simp, by simp, by simp, fun _ => hd.settle hs, ?_, by simp [hg],
      by simp [hd.idle_settling sh hs]⟩
    refine fun _ => .inr ⟨rfl, .inr ?_⟩
    have := List.length_pos_iff.mpr (hd.batch hs)
    simp only
    omega
  case failed hn h =>
    have hs := hd.settling_of_fired h
    have hl := hd.next_none (hd.ne_empty sh) hn
    subst hl
    refine hk ⟨?_, by simp [buildFailed], by simp [buildFailed], by simp, by simp, by simp, ?_, ?_⟩
    · rw [Queued, hd.backlog.compactFIFO]
      exact hd.backlog
    · exact hd.grace
    · simp [buildFailed, hd.idle_settling sh hs]
  case failedNext z hn h => exact hf (z := z) <| hd.switch (hd.ne_empty sh) hn rfl rfl
  case release h hg =>
    refine hk ⟨hd.backlog, hd.timer, hd.batch, hd.settle, hd.live, ?_, hd.grace, ?_⟩
    · intro hl
      rcases hd.waits hl with hs | ⟨hn, _⟩
      case inl => exact .inl hs
      case inr =>
        rcases hg with hj | hs | hn'
        case inl     => exact .inr ⟨hn, .inr (Nat.sub_pos_of_lt hj)⟩
        case inr.inl => exact .inl hs
        case inr.inr => simp [hn'] at hn
    · intro hi
      obtain ⟨hj, hi⟩ := hd.idle hi
      exact ⟨by simp [hj], hi⟩
  case releaseGrace h hj hs hp =>
    have hn := c.live (ha h)
    have hl := (hd.backlog.hasCrossZonePending_iff (hd.live hn)).mp hp
    exact hk ⟨hd.backlog, hd.timer, hd.batch, hd.settle, hd.live, fun _ => .inr ⟨hn, .inl rfl⟩,
      fun _ => hl, by simp⟩
  case releaseIdle d hp h hj hs hn =>
    have hn : s₁.currentDevice.isSome := by simp [hn]
    have hl : l = [] := by
      by_contra hl
      simp [(hd.backlog.hasCrossZonePending_iff (hd.live hn)).mpr hl] at hp
    exact hk ⟨hd.backlog, hd.timer, hd.batch, hd.settle, hd.live, absurd hl, by simp,
      fun _ => ⟨Nat.sub_eq_zero_of_le hj, hl, rfl, hn⟩⟩
  case graceOver hn h =>
    have hg : s₁.graceTimer.isSome := h.isSome
    exact absurd (hd.next_none (hd.live (c.grace hg)) hn) (hd.grace hg)
  case graceSwitch z hz h _ _ =>
    have hg : s₁.graceTimer.isSome := h.isSome
    exact hf (z := z) <| hd.switch (hd.live (c.grace hg)) hz rfl rfl
  case idle h hj =>
    obtain ⟨_, hl, hg, hn⟩ := hd.idle h.isSome
    subst hl
    exact hk ⟨by simpa [Queued] using hd.backlog, by simpa using hd.timer, by simpa using hd.batch, by simp,
      by simp, by simp, by simp [hg], by simp⟩
  case idleSkip =>
    exact hk ⟨hd.backlog, hd.timer, hd.batch, hd.settle, hd.live, hd.waits, hd.grace, by simp⟩

end Head

theorem head (r : (system o).Run es s) (hr : s.running) :
    ∃ l, Head s l ∧ l.Sublist (received o es) := by
  refine r.invariant_of_run
    (P := fun es s => s.running → ∃ l, Head s l ∧ l.Sublist (received o es))
    (fun _ => ⟨[], .init, List.nil_sublist _⟩) ?_ hr
  intro es s₁ e s₂ r hi h hr
  have sh := shape r.reachable
  have hr₁ := running_of_step sh h hr
  have ⟨l, hd, hl⟩ := hi hr₁
  rw [received_snoc r]
  have hk (h : Head s₂ l) : ∃ l', Head s₂ l' ∧ l'.Sublist (received o es ++ taken s₁ e) :=
    ⟨l, h, hl.trans (List.sublist_append_left ..)⟩
  cases step_elim h sh.pending_empty
  case loop st =>
    have ⟨l', hd', hl'⟩ := hd.loopStep sh (control r.reachable hr₁) (jobs_accounted r.reachable hr₁) st hr
    exact ⟨l', hd', hl'.trans (hl.append_right _)⟩
  case call st =>
    cases st <;>
      exact hk ⟨hd.backlog, hd.timer, hd.batch, hd.settle, hd.live, hd.waits, hd.grace, hd.idle⟩
  all_goals
    exact hk ⟨hd.backlog, hd.timer, hd.batch, hd.settle, hd.live, hd.waits, hd.grace, hd.idle⟩

theorem loop_head (r : (system o).Run es s) (hr : s.running) :
    ((∃ z, s.pending.queued z ≠ []) → (s.settling ∧ s.settleTimer.isSome) ∨
      (s.currentDevice.isSome ∧ (s.graceTimer.isSome ∨ 0 < s.activeJobs))) ∧
    (s.graceTimer.isSome → s.activeJobs = 0 ∧ ∃ z, z ≠ s.currentZone ∧ s.pending.queued z ≠ []) ∧
    (s.idleTimer.isSome → s.activeJobs = 0 ∧ (∀ z, s.pending.queued z = []) ∧ s.graceTimer = none ∧
      s.currentDevice.isSome) ∧
    (s.settling → s.currentDevice = none ∧ s.activeJobs = 0) ∧
    (∀ z, z ∈ s.pendingFIFO ↔ s.pending.queued z ≠ []) ∧
    s.pendingFIFO.Nodup ∧
    (s.currentDevice.isSome → s.currentZone ∉ s.pendingFIFO) ∧
    (s.settling → s.settleZone ∉ s.pendingFIFO) := by
  have sh := shape r.reachable
  have c := control r.reachable hr
  have ⟨l, hd, _⟩ := head r hr
  have hz {z : Zone} (h : ∀ q ∈ l, q.tunnelID ≠ z) : z ∉ s.pendingFIFO := by
    intro hm
    have ⟨q, hq, hz⟩ := hd.backlog.queued_ne_nil.mp (hd.backlog.mem_order.mp hm)
    exact h q hq hz
  refine ⟨?_, ?_, ?_, ?_, fun _ => hd.backlog.mem_order, hd.backlog.nodup, fun h => hz (hd.live h),
    fun h => hz (hd.settle h)⟩
  · intro ⟨z, hq⟩
    have ⟨q, hq, _⟩ := hd.backlog.queued_ne_nil.mp hq
    exact (hd.waits (List.ne_nil_of_mem hq)).imp_left fun hs => ⟨hs, hd.timer.mp hs⟩
  · intro hg
    refine ⟨c.idle hg, hasCrossZonePending_iff.mp ?_⟩
    exact (hd.backlog.hasCrossZonePending_iff (hd.live (c.grace hg))).mpr (hd.grace hg)
  · intro hi
    have ⟨hj, hl, hi⟩ := hd.idle hi
    exact ⟨hj, hd.backlog.eq_nil_iff.mp hl, hi⟩
  · intro hs
    have hn := sh.device hs
    exact ⟨hn, c.activeJobs_eq_zero hn⟩

theorem loop_head_graceRun :
    let s := ((system .twoZones).exec graceRun).get graceRun_isSome
    s.graceTimer.isSome ∧ s.activeJobs = 0 ∧ s.pendingFIFO.Nodup ∧ "a" ∉ s.pendingFIFO := by
  have ⟨_, hg, _, _, _, hn, hl, _⟩ := loop_head (.of_isSome graceRun_isSome) (by decide)
  exact ⟨by decide, (hg (by decide)).left, hn, hl (by decide)⟩

end Tunnelpool.Scheduler
