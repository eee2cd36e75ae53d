import VpnTunnel.Tunnelpool.Supervisor.Basic

namespace Tunnelpool.Supervisor

variable {o : Options} {s s₁ s₂ : State} {e : Event}

-- The selects in which the loop listens to everyone.
inductive Pc.Listens : Pc → Prop
  | backoff : Listens .backoff
  | poll {rep : Bool} : Listens (.poll rep)

@[simp]
theorem Pc.not_listens_exited : ¬Listens .exited :=
  nofun

-- What a step can do.
inductive Step (o : Options) (s : State) : Event → State → Prop
  | tick {dt : Nat} : Step o s (.tick dt) { s with now := s.now + dt }
  | cancel : Step o s .cancel { s with ctxDone := true }
  | start : (s.pc = .init) → Step o s .start { s with pc := .build .start }
  | buildErr {i : Nat} {site : Build} {configPath : ConfigPath} :
    (s.pc = .build site) → (o.eligible[i]? = some configPath) →
    Step o s (.built i none) (s.buildErr o site)
  | buildOk {i : Nat} {site : Build} {configPath : ConfigPath} {reporter : Bool} :
    (s.pc = .build site) → (o.eligible[i]? = some configPath) →
    Step o s (.built i (some reporter)) (s.buildOk site configPath reporter)
  | swap {live : Live} {site : Build} :
    (s.pc = .swap live site) → Step o s .swap (s.swapDevice live site)
  | launch : (s.pc = .launch) →
    Step o s .launch { s with pc := .head, started := true, backoff := o.reconnectMin }
  | enterBackoff : (s.pc = .head) → (s.device = none) →
    Step o s .head { s with pc := .backoff, deadline := s.now + s.backoff.toNat }
  | enterPoll {live : Live} : (s.pc = .head) → (s.device = some live) →
    Step o s .head { s with pc := .poll live.reporter, deadline := s.now + o.poll.toNat }
  | ctxDone : (s.ctxDone = true) → s.pc.Listens → Step o s .ctxDone { s with pc := .teardown true }
  | stopCh : (s.stopCh = true) → s.pc.Listens → Step o s .stopCh { s with pc := .teardown true }
  | rotateCh {i : Nat} {c : RotateCall} :
    (s.rotates[i]? = some c) → (c.phase = .sending) → s.pc.Listens →
    Step o s (.rotateCh i) { s.setRotate i .waiting with pc := .precheck ⟨c.force, i⟩ }
  | backoffTimer : (s.deadline ≤ s.now) → (s.pc = .backoff) →
    Step o s .timer { s with pc := .build .reconnect }
  | pollTimer {rep : Bool} : (s.deadline ≤ s.now) → (s.pc = .poll rep) →
    Step o s .timer { s with pc := .health rep }
  | settleTimer {req : RotateReq} : (s.deadline ≤ s.now) → (s.pc = .settle req) →
    Step o s .timer { s with pc := .build (.rotate req) }
  | settleDone {req : RotateReq} : (s.ctxDone = true) → (s.pc = .settle req) →
    Step o s .ctxDone { s.reply req .unavailable with pc := .head }
  | healthy {rep : Bool} {hs : Handshake} :
    (s.pc = .health rep) → ((isHealthy o s.now (if rep then some hs else none)).1 = true) →
    Step o s (.handshake hs) { s with pc := .head, backoff := o.reconnectMin }
  | unhealthy {rep : Bool} {hs : Handshake} :
    (s.pc = .health rep) → ((isHealthy o s.now (if rep then some hs else none)).1 = false) →
    Step o s (.handshake hs) { s with pc := .teardown false }
  | tornDown {exit : Bool} :
    (s.pc = .teardown exit) → (s.device = none) → Step o s .teardown (s.tornDown exit)
  | teardown {exit : Bool} {live : Live} : (s.pc = .teardown exit) → (s.device = some live) →
    Step o s .teardown { s with device := none, pc := .close live.device (.teardown exit) }
  | close {d : Device} {site : Close} : (s.pc = .close d site) → Step o s .close (s.close d site)
  | closed {d : Device} {site : Close} :
    (s.pc = .closing d site) → Step o s .closed (s.closed o d site)
  | skip {req : RotateReq} : (s.pc = .precheck req ∨ s.pc = .recheck req) → (req.force = false) →
    Step o s (.busy true) { s.reply req .skippedActive with pc := .head }
  | precheck {req : RotateReq} {b : Bool} : (s.pc = .precheck req) → (req.force ∨ b = false) →
    Step o s (.busy b) { s with pc := .lock req }
  | lock {req : RotateReq} : (s.pc = .lock req) → Step o s .lock { s with pc := .recheck req }
  | recheck {req : RotateReq} {b : Bool} : (s.pc = .recheck req) → (req.force ∨ b = false) →
    Step o s (.busy b) { s with pc := .unpublish req }
  | notLive {req : RotateReq} : (s.pc = .unpublish req) → (s.device = none) →
    Step o s .unpublish { s.reply req .unavailable with pc := .head }
  | unpublish {req : RotateReq} {live : Live} :
    (s.pc = .unpublish req) → (s.device = some live) →
    Step o s .unpublish { s with device := none, pc := .close live.device (.rotate req) }
  | rotate {force : Bool} : Step o s (.rotate force) (s.rotateIfIdle force)
  | rotateCancel {i : Nat} {c : RotateCall} :
    (s.rotates[i]? = some c) → (c.phase = .sending ∨ c.phase = .waiting) →
    Step o s (.rotateCancel i) (s.setRotate i (.returned .zero true))
  | rotateLoopDone {i : Nat} {c : RotateCall} :
    (s.rotates[i]? = some c) → (c.phase = .sending) → (s.pc = .exited) →
    Step o s (.rotateLoopDone i) (s.setRotate i (.returned .unavailable false))
  | rotateReturn {i : Nat} {c : RotateCall} {result : RotateResult} :
    (s.rotates[i]? = some c) → (c.phase = .waiting) → (c.reply = some result) →
    Step o s (.rotateReturn i) (s.setRotate i (.returned result false))
  | stop : Step o s .stop { s with stops := s.stops ++ [⟨s.started, .once⟩] }
  | stopOnce {i : Nat} {c : StopCall} : (s.stops[i]? = some c) → (c.phase = .once) →
    Step o s (.stopOnce i) { s.setStop i .load with stopCh := true }
  | stopLoad {i : Nat} {c : StopCall} : (s.stops[i]? = some c) → (c.phase = .load) →
    Step o s (.stopLoad i) (s.setStop i (if s.started then .join else .returned))
  | stopJoin {i : Nat} {c : StopCall} :
    (s.stops[i]? = some c) → (c.phase = .join) → (s.pc = .exited) →
    Step o s (.stopJoin i) (s.setStop i .returned)

namespace Step

variable {req : RotateReq} {rep exit b : Bool} {hs : Handshake}

theorem of_enter (hp : s.pc = .head) : Step o s .head (s.enter o) := by
  unfold State.enter
  split
  case h_1 hd => exact .enterBackoff hp hd
  case h_2 hd => exact .enterPoll hp hd

theorem of_checkHealth (hp : s.pc = .health rep) :
    Step o s (.handshake hs) (s.checkHealth o rep hs) := by
  by_cases h : (isHealthy o s.now (if rep then some hs else none)).1 = true
  case pos =>
    rw [State.checkHealth, if_pos h]
    exact .healthy hp h
  case neg =>
    rw [State.checkHealth, if_neg h]
    exact .unhealthy hp (by simpa using h)

theorem of_teardown (hp : s.pc = .teardown exit) : Step o s .teardown (s.teardown exit) := by
  unfold State.teardown
  split
  case h_1 hd => exact .tornDown hp hd
  case h_2 hd => exact .teardown hp hd

theorem of_unpublish (hp : s.pc = .unpublish req) : Step o s .unpublish (s.unpublish req) := by
  unfold State.unpublish
  split
  case h_1 hd => exact .notLive hp hd
  case h_2 hd => exact .unpublish hp hd

theorem of_precheck (hp : s.pc = .precheck req) :
    Step o s (.busy b) (s.gate req b (.lock req)) := by
  unfold State.gate
  split
  case isTrue h =>
    have ⟨hf, hb⟩ : req.force = false ∧ b = true := by simpa using h
    exact hb ▸ .skip (.inl hp) hf
  case isFalse h => exact .precheck hp (by grind)

theorem of_recheck (hp : s.pc = .recheck req) :
    Step o s (.busy b) (s.gate req b (.unpublish req)) := by
  unfold State.gate
  split
  case isTrue h =>
    have ⟨hf, hb⟩ : req.force = false ∧ b = true := by simpa using h
    exact hb ▸ .skip (.inr hp) hf
  case isFalse h => exact .recheck hp (by grind)

theorem of_stepLoop (h : stepLoop o s₁ e = some s₂) : Step o s₁ e s₂ := by
  cases e <;> simp only [stepLoop] at h
  case built i res =>
    split at h
    case h_2 => cases h
    case h_1 site hp =>
      have ⟨_, hi, h⟩ := Option.map_eq_some_iff.mp h
      subst h
      cases res
      case none => exact .buildErr hp hi
      case some => exact .buildOk hp hi
  case rotateCh i =>
    have ⟨c, hi, h⟩ := Option.bind_eq_some_iff.mp h
    split at h <;> cases h
    case h_1 hc hp => exact .rotateCh hi hc (hp ▸ .backoff)
    case h_2 hc hp => exact .rotateCh hi hc (hp ▸ .poll)
  case ctxDone =>
    split at h <;> try cases h
    case isTrue hd =>
      split at h <;> cases h
      case h_1 hp => exact .ctxDone hd (hp ▸ .backoff)
      case h_2 hp => exact .ctxDone hd (hp ▸ .poll)
      case h_3 hp => exact .settleDone hd hp
  case stopCh =>
    split at h <;> try cases h
    case isTrue hd =>
      split at h <;> cases h
      case h_1 hp => exact .stopCh hd (hp ▸ .backoff)
      case h_2 hp => exact .stopCh hd (hp ▸ .poll)
  case timer =>
    split at h <;> try cases h
    case isTrue hd =>
      split at h <;> cases h
      case h_1 hp => exact .backoffTimer hd hp
      case h_2 hp => exact .pollTimer hd hp
      case h_3 hp => exact .settleTimer hd hp
  case busy =>
    split at h <;> cases h
    case h_1 hp => exact of_precheck hp
    case h_2 hp => exact of_recheck hp
  case head =>
    split at h <;> cases h
    case h_1 hp => exact of_enter hp
  case handshake =>
    split at h <;> cases h
    case h_1 hp => exact of_checkHealth hp
  case teardown =>
    split at h <;> cases h
    case h_1 hp => exact of_teardown hp
  case unpublish =>
    split at h <;> cases h
    case h_1 hp => exact of_unpublish hp
  case start =>
    split at h <;> cases h
    case h_1 hp => exact .start hp
  case swap =>
    split at h <;> cases h
    case h_1 hp => exact .swap hp
  case launch =>
    split at h <;> cases h
    case h_1 hp => exact .launch hp
  case close =>
    split at h <;> cases h
    case h_1 hp => exact .close hp
  case closed =>
    split at h <;> cases h
    case h_1 hp => exact .closed hp
  case lock =>
    split at h <;> cases h
    case h_1 hp => exact .lock hp
  all_goals cases h

theorem of_step (h : step o s₁ e = some s₂) : Step o s₁ e s₂ := by
  cases e <;> simp only [step] at h
  case rotateCancel i =>
    have ⟨c, hi, h⟩ := Option.bind_eq_some_iff.mp h
    simp only [stepRotate] at h
    split at h <;> cases h
    case h_1 hc => exact .rotateCancel hi (.inl hc)
    case h_2 hc => exact .rotateCancel hi (.inr hc)
  case rotateLoopDone i =>
    have ⟨c, hi, h⟩ := Option.bind_eq_some_iff.mp h
    simp only [stepRotate] at h
    split at h <;> cases h
    case isTrue hc => exact .rotateLoopDone hi hc.left hc.right
  case rotateReturn i =>
    have ⟨c, hi, h⟩ := Option.bind_eq_some_iff.mp h
    simp only [stepRotate] at h
    split at h <;> cases h
    case h_1 hc hr => exact .rotateReturn hi hc hr
  case stopOnce i =>
    have ⟨c, hi, h⟩ := Option.bind_eq_some_iff.mp h
    simp only [stepStop] at h
    split at h <;> cases h
    case isTrue hc => exact .stopOnce hi hc
  case stopLoad i =>
    have ⟨c, hi, h⟩ := Option.bind_eq_some_iff.mp h
    simp only [stepStop] at h
    split at h <;> cases h
    case isTrue hc => exact .stopLoad hi hc
  case stopJoin i =>
    have ⟨c, hi, h⟩ := Option.bind_eq_some_iff.mp h
    simp only [stepStop] at h
    split at h <;> cases h
    case isTrue hc => exact .stopJoin hi hc.left hc.right
  case tick => cases h; exact .tick
  case cancel => cases h; exact .cancel
  case rotate => cases h; exact .rotate
  case stop => cases h; exact .stop
  all_goals exact .of_stepLoop h

end Step
end Tunnelpool.Supervisor
