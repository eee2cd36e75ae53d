import VpnTunnel.Tunnelpool.Scheduler.Devices
import VpnTunnel.Tunnelpool.Scheduler.Theorems.Shape

namespace Tunnelpool.Scheduler

open Devices Relation

variable {o : Options} {s s₁ s₂ : State} {e : Event} {es : List Event} {m : Devices} {z : Zone} {p : ConfigPath}
  {q : RouteRequest} {reqs : List RouteRequest} {n took : Nat}

-- Each branch of `Run` is a sequence of steps in the life of the devices.

theorem teardown_devices (h : m = s.devices) : Steps o.settleDelay m (teardown n s).devices := by
  subst h
  cases h : s.currentDevice
  case none   => rw [teardown_of_none h]
  case some d =>
    simp only [teardown, h]
    exact .single <| .close h

theorem beginSwitch_devices (h : m = s.devices) :
    Steps o.settleDelay m (beginSwitch o z p reqs n s).devices :=
  (teardown_devices h).tail <| .settle teardown_currentDevice

theorem loopStep_devices (st : LoopStep o s₁ e s₂) : Steps o.settleDelay s₁.devices s₂.devices := by
  cases st
  case done                 => exact teardown_devices (s := failStopped s₁) rfl
  case switch | graceSwitch => exact beginSwitch_devices rfl
  case failed               => exact .single .fail
  case failedNext           => exact .head .fail (beginSwitch_devices rfl)
  case idle                 => exact teardown_devices rfl
  case built h _ =>
    simp only [State.devices, List.length_append, List.length_singleton]
    exact .single <| .build (m := s₁.devices) h
  all_goals exact .refl

theorem step_devices (sh : Shape o s₁) (h : step o s₁ e = some s₂) :
    Steps o.settleDelay s₁.devices s₂.devices := by
  cases step_elim h sh.pending_empty
  case tick           => exact .single .tick
  case loop st        => exact loopStep_devices st
  case call st        => cases st <;> exact .refl
  case refuse | route => exact .refl

theorem devices_valid (r : (system o).Reachable s) : s.devices.Valid o.settleDelay :=
  r.invariant_of_reachable (P := fun s => s.devices.Valid o.settleDelay)
    ⟨.nil, by simp [State.devices, system, State.init], by simp [State.devices, system, State.init],
      by simp [State.devices, system, State.init], by simp [State.devices, system, State.init]⟩
    fun _ _ _ r v h => (step_devices (shape r) h).preserves_valid v

-- When `Run` returns, it has closed its device.
theorem stopped_no_device (r : (system o).Reachable s) :
    s.running = false → s.currentDevice = none := by
  apply r.invariant_of_reachable
  case hi => simp [system, State.init]
  intro s₁ e s₂ r hi h hr
  cases step_elim h (shape r).pending_empty
  case loop h st      =>
    obtain ⟨_, _, hs⟩ := st.done_of_stopped h hr
    subst hs
    exact teardown_currentDevice
  case call st        => cases st <;> exact hi hr
  case tick           => exact hi hr
  case refuse | route => exact hi hr

-- One device at a time, each of which is closed once, and a pause before each build.
theorem devices_one_at_a_time (r : (system o).Run es s) :
    (∀ l₁ l₂ d₁ d₂, s.ledger = l₁ ++ l₂ → l₂.IsOpen d₁ → l₂.IsOpen d₂ → d₁ = d₂) ∧
    (s.running = false →
      ∀ d < s.built.length, s.ledger.openings d = 1 ∧ s.ledger.closings d = 1) ∧
    (∀ l₁ l₂ t₁ t₂ d₁ d₂, s.ledger = l₁ ++ (t₂, .opened d₂) :: l₂ → (t₁, .closed d₁) ∈ l₂ →
      t₁ + o.settleDelay ≤ t₂) ∧
    (∀ res took n s' t d, step o s (.loopSettle res took n) = some s' → (t, .closed d) ∈ s.ledger →
      t + o.settleDelay ≤ s.now) := by
  have v := devices_valid r.reachable
  have hx : s.ledger.Exclusive o.settleDelay s.currentDevice := v.exclusive
  refine ⟨?_, ?_, ?_, ?_⟩
  · intro l₁ l₂ d₁ d₂ hl
    exact (hl ▸ hx).open_unique
  · intro hs d hd
    have ho := v.opened d |>.mpr hd
    have hn := stopped_no_device r.reachable hs
    exact ⟨hx.openings_eq_one ho, hx.closings_eq_one ho (by simp [hn])⟩
  · intro l₁ l₂ t₁ t₂ d₁ d₂ hl
    exact (hl ▸ hx).gap_le
  · intro res took n s' t d h
    cases step_elim h (shape r.reachable).pending_empty
    case call st   => cases st
    case loop _ st =>
      cases st
      all_goals exact v.settled_of_fired ‹_›

-- Zone `a` is served, its device makes room for zone `b`, and then `Run` is cancelled.
def switchRun : List Event :=
  [.route "a", .send 0, .loopRequest 0, .tick 5, .loopSettle (.ok true true) 0 0, .receive 0,
    .release 0, .loopRelease, .route "b", .send 1, .loopRequest 0, .tick 10, .loopGrace 1, .tick 5,
    .loopSettle (.ok true true) 2 0, .loopDone 1]

theorem switchRun_isSome : ((system .twoZones).exec switchRun).isSome := by
  decide

theorem devices_one_at_a_time_switchRun :
    let s := ((system .twoZones).exec switchRun).get switchRun_isSome
    s.running = false ∧ s.built.length = 2 ∧
    s.ledger = [(24, .closed 1), (21, .opened 1), (16, .closed 0), (5, .opened 0)] ∧
    ∀ d < s.built.length, s.ledger.openings d = 1 ∧ s.ledger.closings d = 1 :=
  ⟨by decide, by decide, by decide,
    (devices_one_at_a_time (.of_isSome switchRun_isSome)).right.left (by decide)⟩

end Tunnelpool.Scheduler
