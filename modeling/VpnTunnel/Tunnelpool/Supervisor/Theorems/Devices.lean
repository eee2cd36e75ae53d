import VpnTunnel.Tunnelpool.Supervisor.Devices
import VpnTunnel.Tunnelpool.Supervisor.Theorems.Basic

namespace Tunnelpool.Supervisor

open Relation

variable {o : Options} {s s₁ s₂ : State} {e : Event} {es : List Event} {d : Device}

-- While the loop is here, there is no device that others can read.
def Pc.unpublished : Pc → Bool
  | init | build _ | swap .. | backoff | close .. | closing .. | settle _ | exited => true
  | _ => false

theorem Step.preserves_unpublished (st : Step o s₁ e s₂)
    (h : s₁.pc.unpublished → s₁.device = none) : s₂.pc.unpublished → s₂.device = none := by
  cases st
  case buildErr site _ hp _ =>
    rw [hp] at h
    cases site <;> exact fun _ => h rfl
  case buildOk hp _ => exact fun _ => h (hp ▸ rfl)
  case swap site _ => cases site <;> simp [State.swapDevice, Pc.unpublished]
  case closed site hp =>
    rw [hp] at h
    cases site <;> exact fun _ => h rfl
  all_goals simp_all [Pc.unpublished, State.close, State.reply, State.setRotate, State.setStop,
    State.rotateIfIdle, State.tornDown]

theorem unpublished_device (r : (system o).Reachable s) : s.pc.unpublished → s.device = none :=
  r.invariant (P := fun s => s.pc.unpublished → s.device = none) (fun _ => rfl)
    fun _ _ _ hi h => (Step.of_step h).preserves_unpublished hi

theorem hold_of_listens (h : s.pc.Listens) : s.hold = s.device.elim .nothing (.published ·.device) := by
  unfold State.hold
  cases h' : s.pc
  all_goals first | rfl | (rw [h'] at h; cases h)

theorem devices_refl (h : s₂.devices = s₁.devices) : ReflGen Devices.Step s₁.devices s₂.devices :=
  h ▸ .refl

theorem closed_devices {site : Close} (hd : s.device = none) :
    (s.closed o d site).devices =
      { s.devices with hold := .nothing, ledger := (s.now, .closed d) :: s.ledger } := by
  cases site
  case teardown exit => cases exit <;> simp [State.closed, State.tornDown, State.devices, State.hold, hd]
  case rotate => simp [State.closed, State.devices, State.hold, hd]

-- Each step of the supervisor is a step in the life of the devices, or does not concern them.
theorem Step.devices (st : Step o s₁ e s₂) (hu : s₁.pc.unpublished → s₁.device = none) :
    ReflGen Devices.Step s₁.devices s₂.devices := by
  cases st
  case tick => exact .single .tick
  case buildOk hp _ =>
    have hd := hu (hp ▸ rfl)
    exact .single <| .build (m := s₁.devices) (by simp [State.devices, State.hold, hp, hd])
  case swap live site hp =>
    have h : s₁.devices.hold = .fresh live.device := by simp [State.devices, State.hold, hp]
    cases site <;> exact .single (.publish h)
  case teardown live hp hd | unpublish live hp hd =>
    exact .single <| .withdraw (m := s₁.devices) (by simp [State.devices, State.hold, hp, hd])
  case close d site hp =>
    exact .single <| .close (m := s₁.devices) (by simp [State.devices, State.hold, hp])
  case closed d site hp =>
    have hd := hu (hp ▸ rfl)
    have h : s₁.devices.hold = .closing d := by simp [State.devices, State.hold, hp]
    exact closed_devices hd ▸ .single (.closed h)
  case buildErr site _ hp _ =>
    cases site <;> exact devices_refl (by simp [State.devices, State.hold, State.buildErr, State.reply, hp])
  case tornDown exit hp hd =>
    cases exit <;> exact devices_refl (by simp [State.devices, State.hold, State.tornDown, hp])
  case ctxDone h | stopCh h | rotateCh h =>
    exact devices_refl (by simp [State.devices, hold_of_listens h, State.setRotate]; rfl)
  case rotate | rotateCancel | rotateLoopDone | rotateReturn | stop | stopOnce | stopLoad | stopJoin | cancel =>
    exact .refl
  case skip hp _ =>
    cases hp <;> exact devices_refl (by simp [State.devices, State.hold, State.reply, *])
  all_goals exact devices_refl (by simp [State.devices, State.hold, State.reply, *])

theorem devices_valid (r : (system o).Reachable s) : s.devices.Valid := by
  apply r.invariant_of_reachable (P := fun s => s.devices.Valid)
  case hi => exact ⟨.nil, by simp [State.devices, system, State.init],
    by simp [State.devices, system, State.init], fun _ => rfl⟩
  intro s₁ e s₂ r v h
  cases reflGen_iff _ _ _ |>.mp <| (Step.of_step h).devices (unpublished_device r)
  case inl h  => exact h ▸ v
  case inr st => exact st.preserves_valid v

theorem Step.exited (st : Step o s₁ e s₂) (h : s₁.pc = .exited) : s₂.pc = .exited := by
  cases st
  all_goals simp_all [State.setRotate, State.setStop, State.rotateIfIdle]

theorem Step.started (st : Step o s₁ e s₂) (h : s₁.started) : s₂.started := by
  cases st
  case buildErr site _ _ _ => cases site <;> exact h
  case swap site _         => cases site <;> exact h
  case closed site _       => cases site <;> exact h
  case launch              => rfl
  all_goals exact h

-- A call of `Stop` that was made after `Start` only returns once the loop has exited.
structure Joined (s : State) (c : StopCall) : Prop where
  started  : c.afterStart → s.started
  returned : c.afterStart → c.phase = .returned → s.pc = .exited

theorem Joined.mono {c : StopCall} (j : Joined s₁ c) (st : Step o s₁ e s₂) : Joined s₂ c where
  started h     := st.started (j.started h)
  returned h hr := st.exited (j.returned h hr)

theorem Step.stops_eq (st : Step o s₁ e s₂) :
    s₂.stops = s₁.stops ∨ s₂.stops = s₁.stops ++ [⟨s₁.started, .once⟩] ∨
    ∃ i c phase, s₁.stops[i]? = some c ∧ s₂.stops = s₁.stops.modify i ({ · with phase }) ∧
      (phase = .returned → s₁.started → s₁.pc = .exited) := by
  cases st
  case buildErr site _ _ _ => cases site <;> exact .inl rfl
  case swap site _         => cases site <;> exact .inl rfl
  case closed site _       => cases site <;> exact .inl rfl
  case stop                => exact .inr <| .inl rfl
  case stopOnce i c hi _   => exact .inr <| .inr ⟨i, c, .load, hi, rfl, by simp⟩
  case stopLoad i c hi _   => exact .inr <| .inr ⟨i, c, _, hi, rfl, by split <;> simp_all⟩
  case stopJoin i c hi _ h => exact .inr <| .inr ⟨i, c, .returned, hi, rfl, fun _ _ => h⟩
  all_goals exact .inl rfl

theorem stops_joined (r : (system o).Reachable s) : ∀ c ∈ s.stops, Joined s c := by
  apply r.invariant (P := fun s => ∀ c ∈ s.stops, Joined s c)
  case hi => simp [system, State.init]
  intro s₁ e s₂ hj h c hc
  have st := Step.of_step h
  cases st.stops_eq
  case inl he => exact hj c (he ▸ hc) |>.mono st
  case inr he =>
    cases he
    case inl he =>
      rw [he, List.mem_append, List.mem_singleton] at hc
      cases hc
      case inl hc => exact hj c hc |>.mono st
      case inr hc =>
        subst hc
        exact ⟨st.started, by simp⟩
    case inr he =>
      have ⟨i, c', phase, hi, he, hr⟩ := he
      have ⟨j, hc⟩ := List.mem_iff_getElem?.mp hc
      rw [he, List.getElem?_modify_eq_some] at hc
      cases hc
      case inr hc => exact hj c (List.mem_of_getElem? hc.right) |>.mono st
      case inl hc =>
        have ⟨_, b, hb, hc⟩ := hc
        subst hc
        have hj := hj b (List.mem_of_getElem? hb)
        exact ⟨fun h => st.started (hj.started h), fun h hp => st.exited (hr hp (hj.started h))⟩

theorem hold_nothing (r : (system o).Reachable s) (h : s.pc = .exited) : s.devices.hold = .nothing := by
  have hd := unpublished_device r (h ▸ rfl)
  simp [State.devices, State.hold, h, hd]

theorem hold_published {live : Live} (r : (system o).Reachable s) (h : s.device = some live) :
    s.hold = .published live.device := by
  have hu := unpublished_device r
  unfold State.hold
  cases hp : s.pc
  case swap | close | closing => simp [hp, h, Pc.unpublished] at hu
  all_goals simp [h]

-- At most one device is open, the one that others can read is not being closed, and when the loop or
-- a call of `Stop` has finished, all devices have been closed once.
theorem devices_in_custody (r : (system o).Reachable s) :
    (∀ d₁ d₂, s.ledger.IsOpen d₁ → s.ledger.IsOpen d₂ → d₁ = d₂) ∧
    (∀ live, s.device = some live → s.ledger.IsOpen live.device ∧ live.device ∉ s.closeCalls) ∧
    (s.pc = .exited →
      ∀ d, s.ledger.WasOpened d → s.closeCalls.count d = 1 ∧ s.ledger.closings d = 1) ∧
    (∀ c ∈ s.stops, c.afterStart → c.phase = .returned → ∀ d, ¬s.ledger.IsOpen d) := by
  have v := devices_valid r
  refine ⟨fun _ _ => v.open_unique, ?_, ?_, ?_⟩
  · intro live hl
    have hh : s.devices.hold = .published live.device := hold_published r hl
    have ho : s.ledger.IsOpen live.device := v.exclusive.isOpen_iff.mpr (by simp [hh, Hold.device?])
    exact ⟨ho, List.count_eq_zero.mp <| v.closeCalls_eq_zero ho (by simp [hh])⟩
  · intro hp d hd
    exact v.closeCalls_eq_one hd (hold_nothing r hp)
  · intro c hc ha hr d hd
    have hh := hold_nothing r (stops_joined r c hc |>.returned ha hr)
    simpa [hh, Hold.device?] using v.exclusive.isOpen_iff.mp hd

-- The first device is rotated away, and the second one is closed by a call of `Stop`.
def rotateStopRun : List Event :=
  [.start, .built 0 (some true), .swap, .launch, .head, .rotate false, .rotateCh 0, .busy false, .lock,
    .busy false, .unpublish, .close, .closed, .tick 15000000000, .timer, .built 1 (some true), .swap,
    .head, .stop, .stopOnce 0, .stopLoad 0, .stopCh, .teardown, .close, .tick 3, .closed, .stopJoin 0]

theorem rotateStopRun_isSome : ((system .twoExits).exec rotateStopRun).isSome := by
  decide

theorem devices_in_custody_rotateStopRun :
    let s := ((system .twoExits).exec rotateStopRun).get rotateStopRun_isSome
    s.stops = [⟨true, .returned⟩] ∧ s.closeCalls = [1, 0] ∧
    s.rotates = [⟨false, .waiting, some ⟨.rotated, "de"⟩⟩] ∧
    s.ledger = [(15000000003, .closed 1), (15000000000, .opened 1), (0, .closed 0), (0, .opened 0)] ∧
    ∀ d, s.ledger.WasOpened d → s.closeCalls.count d = 1 ∧ s.ledger.closings d = 1 :=
  ⟨by decide, by decide, by decide, by decide,
    (devices_in_custody (System.Run.of_isSome rotateStopRun_isSome).reachable).right.right.left
      (by decide)⟩

end Tunnelpool.Supervisor
