import VpnTunnel.Tunnelpool.Scheduler.Theorems.Devices
import VpnTunnel.Tunnelpool.Scheduler.Theorems.Jobs

namespace Tunnelpool.Scheduler

variable {o : Options} {s s₁ s₂ : State} {e : Event} {es : List Event} {d : Device} {z : Zone}

-- How the timers and the active jobs are related while `Run` is running. In particular, a device with
-- active jobs is live, and the grace timer is only armed while there are none.
structure Control (s : State) : Prop where
  live  : 0 < s.activeJobs → s.currentDevice.isSome
  idle  : s.graceTimer.isSome → s.activeJobs = 0
  grace : s.graceTimer.isSome → s.currentDevice.isSome
  timer : s.graceTimer.isSome → s.idleTimer = none

namespace Control

theorem activeJobs_eq_zero (c : Control s) (h : s.currentDevice = none) : s.activeJobs = 0 := by
  by_contra ha
  simpa [h] using c.live (Nat.pos_of_ne_zero ha)

theorem graceTimer_eq_none (c : Control s) (h : s.currentDevice = none) : s.graceTimer = none := by
  by_contra hg
  simpa [h] using c.grace (Option.isSome_iff_ne_none.mpr hg)

theorem beginSwitch {p : ConfigPath} {reqs : List RouteRequest} {n : Nat} (h : s.activeJobs = 0) :
    Control (beginSwitch o z p reqs n s) := by
  constructor <;> simp [Scheduler.beginSwitch, h]

theorem loopStep (c : Control s₁) (hr : s₂.running) (v : s₁.devices.Valid o.settleDelay)
    (a : s₁.jobs.Accounted) (st : LoopStep o s₁ e s₂) : Control s₂ := by
  have hp (h : Fired s₁.settleTimer s₁.now) : s₁.currentDevice = none :=
    v.settling h.isSome
  have ha (h : 0 < s₁.releaseCh) : 0 < s₁.activeJobs := by
    simp only [Jobs.Accounted, State.jobs] at a
    omega
  cases st
  case done                    => simp at hr
  case join | enqueue | failed => exact ⟨c.live, c.idle, c.grace, c.timer⟩
  case defer                   => exact ⟨c.live, c.idle, c.grace, c.timer⟩
  case grant hd _              => exact ⟨by simp [hd], by simp, by simp, by simp⟩
  case deferGrace hd _ ha _    => exact ⟨c.live, fun _ => ha, fun _ => by simp [enqueuePending, hd], by simp⟩
  case switch hd               => exact beginSwitch <| c.activeJobs_eq_zero hd
  case built h _ =>
    have hg := c.graceTimer_eq_none (hp h)
    exact ⟨by simp, by simp [hg], by simp [hg], by simp [hg]⟩
  case failedNext h => exact beginSwitch <| c.activeJobs_eq_zero (hp h)
  case release h _ =>
    exact ⟨fun _ => c.live (ha h), fun hg => by simp [c.idle hg], c.grace, c.timer⟩
  case releaseGrace h hl _ _ =>
    exact ⟨fun _ => c.live (ha h), fun _ => Nat.sub_eq_zero_of_le hl, fun _ => c.live (ha h), by simp⟩
  case releaseIdle hd    => exact ⟨by simp [hd], by simp, by simp, by simp⟩
  case graceOver         => exact ⟨c.live, by simp, by simp, by simp⟩
  case graceSwitch h _ _ =>
    exact beginSwitch <| c.idle h.isSome
  case idle h hj =>
    have hg : s₁.graceTimer = none := by
      by_contra hg
      obtain ⟨_, ht, _⟩ := h
      simp [c.timer (Option.isSome_iff_ne_none.mpr hg)] at ht
    constructor <;> simp [hj, hg]
  case idleSkip => exact ⟨c.live, c.idle, c.grace, by simp⟩

end Control

theorem control (r : (system o).Reachable s) : s.running → Control s := by
  apply r.invariant_of_reachable (P := fun s => s.running → Control s)
  case hi =>
    intro _
    constructor <;> simp [system, State.init]
  intro s₁ e s₂ r c h hr
  have sh := shape r
  have hr₁ := running_of_step sh h hr
  have c := c hr₁
  cases step_elim h sh.pending_empty
  case loop st => exact c.loopStep hr (devices_valid r) (jobs_accounted r hr₁) st
  case call st => cases st <;> exact ⟨c.live, c.idle, c.grace, c.timer⟩
  all_goals exact ⟨c.live, c.idle, c.grace, c.timer⟩

-- While there are no active jobs, no call holds a grant or is about to receive one.
theorem grants_eq_zero (r : (system o).Reachable s) (hr : s.running) (h : s.activeJobs = 0) :
    ∀ c ∈ s.calls, c.grants = 0 := by
  have ha := jobs_accounted r hr
  simp only [Jobs.Accounted, State.jobs] at ha
  have hs : (s.calls.map Call.grants).sum = 0 := by omega
  exact fun c hc => List.sum_eq_zero_iff.mp hs _ (List.mem_map_of_mem hc)

-- Without active jobs, everybody who was granted a device has released it.
theorem released_of_answer (r : (system o).Reachable s) (hr : s.running) (h : s.activeJobs = 0)
    {i : CallID} {res : Option Device} (ha : (i, .ok d res) ∈ s.answers) :
    ∃ c, s.calls[i]? = some c ∧ c.phase = .released := by
  have ⟨c, hc, hg⟩ := (jobs_valid r).answers i _ ha
  have hz := grants_eq_zero r hr h c (List.mem_of_getElem? hc)
  simp only [Call.grants, Nat.add_eq_zero_iff, List.countP_eq_zero] at hz
  cases hg
  case inl hg => exact absurd rfl (hz.left _ hg)
  case inr hg =>
    refine ⟨c, hc, hg.resolve_left fun hp => ?_⟩
    simp [hp, Phase.isGranted] at hz

-- Except when `Run` is cancelled, a device is closed by the grace timer or by the idle timer.
theorem LoopStep.closes (st : LoopStep o s₁ e s₂) (sh : Shape o s₁)
    (v : s₁.devices.Valid o.settleDelay) (he : ∀ n, e ≠ .loopDone n) (ho : s₁.ledger.IsOpen d)
    (hc : s₂.ledger.WasClosed d) :
    Fired s₁.graceTimer s₁.now ∨ s₁.activeJobs = 0 ∧ s₂.settling = false := by
  have hd : s₁.currentDevice = some d := v.exclusive.isOpen_iff.mp ho
  have hs : ¬Fired s₁.settleTimer s₁.now := by
    intro ⟨t, ht, _⟩
    simpa [State.devices, hd] using v.settling (Option.isSome_iff_exists.mpr ⟨t, ht⟩)
  cases st
  case done                       => exact absurd rfl (he _)
  case graceSwitch h _ _          => exact .inl h
  case idle h                     =>
    refine .inr ⟨h, teardown_settling.trans <| Bool.eq_false_iff.mpr fun hs => ?_⟩
    simp [sh.device hs] at hd
  case switch h                   => simp [h] at hd
  case failedNext h | built h _   => exact absurd h hs
  all_goals exact absurd hc ho.right

-- `Run` receives a request for the given zone.
def ReceivesFor (s : State) (z : Zone) : Event → Prop
  | .loopRequest _ => ∃ q reqCh, s.reqCh = q :: reqCh ∧ q.tunnelID = z
  | _              => False

-- The grace timer of the device `d` for zone `z` is armed and fires at `t`.
structure GraceArmed (t : Nat) (d : Device) (z : Zone) (s : State) : Prop where
  running : s.running
  timer   : s.graceTimer = some t
  device  : s.currentDevice = some d
  zone    : s.currentZone = z

namespace GraceArmed

variable {t : Nat}

theorem loopStep (g : GraceArmed t d z s₂) (st : LoopStep o s₁ e s₂) (hr : s₁.running)
    (sh : Shape o s₁) (c : Control s₁) (v : s₁.devices.Valid o.settleDelay) :
    (GraceArmed t d z s₁ ∧ ¬ReceivesFor s₁ z e) ∨ s₂.now + o.grace = t := by
  have hg := g.timer
  have hd := g.device
  have hz := g.zone
  have hs (h : s₁.settling) : s₁.graceTimer ≠ some t := by
    intro hg
    simp [sh.grace (by simp [hg])] at h
  cases st
  case join h _ | enqueue h _ => exact absurd hg (hs h)
  case defer hq _ _ hn =>
    refine .inl ⟨⟨hr, hg, hd, hz⟩, fun ⟨q, _, hq', hz'⟩ => hn ?_⟩
    cases hq.symm.trans hq'
    exact hz.trans hz'.symm
  case deferGrace | releaseGrace => exact .inr (Option.some.inj hg)
  case built h _ =>
    have hn : s₁.currentDevice = none :=
      v.settling h.isSome
    simp [c.graceTimer_eq_none hn] at hg
  case failed | release | idleSkip => exact .inl ⟨⟨hr, hg, hd, hz⟩, id⟩
  all_goals simp [beginSwitch] at hg hd

theorem step (g : GraceArmed t d z s₂) (r : (system o).Reachable s₁) (h : step o s₁ e = some s₂) :
    (GraceArmed t d z s₁ ∧ ¬ReceivesFor s₁ z e) ∨ s₂.now + o.grace = t := by
  have sh := shape r
  have hr := running_of_step sh h g.running
  cases step_elim h sh.pending_empty
  case loop st => exact g.loopStep st hr sh (control r hr) (devices_valid r)
  case call st => cases st <;> exact .inl ⟨⟨g.running, g.timer, g.device, g.zone⟩, id⟩
  all_goals exact .inl ⟨⟨g.running, g.timer, g.device, g.zone⟩, id⟩

-- An armed grace timer has been armed for its whole duration, during which there were no active jobs
-- and no requests for the live zone.
theorem since (g : GraceArmed t d z s) (r : (system o).Run es s) :
    ∃ es₁ es₂ m, es = es₁ ++ es₂ ∧ (system o).Run es₁ m ∧ m.now + o.grace = t ∧
      (∀ l₁ l₂ n, es₂ = l₁ ++ l₂ → (system o).Run (es₁ ++ l₁) n → GraceArmed t d z n) ∧
      (∀ l₁ e l₂ n, es₂ = l₁ ++ e :: l₂ → (system o).Run (es₁ ++ l₁) n → ¬ReceivesFor n z e) := by
  obtain ⟨es₁, es₂, m, he, rm, hm, hA, hQ⟩ := r.since (A := GraceArmed t d z)
    (B := fun s => s.now + o.grace = t) (Q := fun s e _ => ¬ReceivesFor s z e)
    (fun g => by simpa [system, State.init] using g.timer) (fun _ _ _ r h g => g.step r h) g
  refine ⟨es₁, es₂, m, he, rm, hm, hA, ?_⟩
  intro l₁ e l₂ n hl rn
  obtain ⟨_, _, hn⟩ := hQ l₁ e l₂ n hl rn
  exact hn

end GraceArmed

-- A device is closed under nobody, and a switch to another zone waits for the grace period to pass.
theorem close_after_release (r : (system o).Run es s₁) (h : step o s₁ e = some s₂)
    (he : ∀ n, e ≠ .loopDone n) (ho : s₁.ledger.IsOpen d) (hc : s₂.ledger.WasClosed d) :
    (∀ i res, (i, .ok d res) ∈ s₁.answers → ∃ c, s₁.calls[i]? = some c ∧ c.phase = .released) ∧
    (s₂.settling → ∃ es₁ es₂ m, es = es₁ ++ es₂ ∧ (system o).Run es₁ m ∧ m.now + o.grace ≤ s₁.now ∧
      (∀ l₁ l₂ n, es₂ = l₁ ++ l₂ → (system o).Run (es₁ ++ l₁) n →
        n.currentDevice = some d ∧ n.currentZone = s₁.currentZone ∧ n.activeJobs = 0 ∧
        ∀ c ∈ n.calls, c.grants = 0) ∧
      (∀ l₁ e l₂ n, es₂ = l₁ ++ e :: l₂ → (system o).Run (es₁ ++ l₁) n →
        ¬ReceivesFor n s₁.currentZone e)) := by
  have sh := shape r.reachable
  have v := devices_valid r.reachable
  have hd : s₁.currentDevice = some d := v.exclusive.isOpen_iff.mp ho
  cases step_elim h sh.pending_empty
  case call st => cases st <;> exact absurd hc ho.right
  case loop hr st =>
    have c := control r.reachable hr
    cases st.closes sh v he ho hc
    case inr h =>
      refine ⟨fun i res => released_of_answer r.reachable hr h.left, fun hs => ?_⟩
      simp [h.right] at hs
    case inl h =>
      have ⟨t, ht, hn⟩ := h
      refine ⟨fun i res => released_of_answer r.reachable hr (c.idle (Option.isSome_of_mem ht)), fun _ => ?_⟩
      have g : GraceArmed t d s₁.currentZone s₁ := ⟨hr, ht, hd, rfl⟩
      have ⟨es₁, es₂, m, hes, rm, hm, hA, hR⟩ := g.since r
      refine ⟨es₁, es₂, m, hes, rm, hm ▸ hn, fun l₁ l₂ n hl rn => ?_, hR⟩
      have g := hA l₁ l₂ n hl rn
      have hj := (control rn.reachable g.running).idle (by simp [g.timer])
      exact ⟨g.device, g.zone, hj, grants_eq_zero rn.reachable g.running hj⟩
  all_goals exact absurd hc ho.right

-- Zone `a` has been released, and zone `b` has been waiting for the grace period.
def graceRun : List Event :=
  [.route "a", .send 0, .loopRequest 0, .tick 5, .loopSettle (.ok true true) 0 0, .receive 0,
    .release 0, .loopRelease, .route "b", .send 1, .loopRequest 0, .tick 10]

theorem graceRun_isSome : ((system .twoZones).exec graceRun).isSome := by
  decide

theorem graceRun_loopGrace_isSome :
    (step .twoZones (((system .twoZones).exec graceRun).get graceRun_isSome) (.loopGrace 1)).isSome := by
  decide

theorem close_after_release_graceRun :
    let s := ((system .twoZones).exec graceRun).get graceRun_isSome
    (0, .ok 0 (some 0)) ∈ s.answers ∧ ∃ c, s.calls[0]? = some c ∧ c.phase = .released :=
  ⟨by decide, (close_after_release (d := 0) (.of_isSome graceRun_isSome)
    (Option.some_get graceRun_loopGrace_isSome).symm (by simp) (by decide) (by decide)).left 0 (some 0)
    (by decide)⟩

end Tunnelpool.Scheduler
