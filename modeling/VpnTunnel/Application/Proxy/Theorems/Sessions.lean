import VpnTunnel.Application.Proxy.Theorems.Basic
import VpnTunnel.Tunnelpool.Supervisor.Theorems.Devices

namespace Application.Proxy

open Tunnelpool

variable {o : Supervisor.Options} {s s₁ s₂ : State} {e : Event} {es : List Event} {i c : Nat}
  {d : Device} {x : Session} {y : Conn} {ph : Phase}

def State.inFlight (s : State) : Nat :=
  s.sessions.countP (·.phase.inFlight)

-- The gauge is right as long as it changes by what the session of the step contributes to it.
theorem gauge_setPhase (h : s₁.activeSessions = s₁.inFlight) (hi : s₁.sessions[i]? = some x)
    (hs : s₂.sessions = s₁.sessions)
    (ha : s₂.activeSessions + x.phase.inFlight.toNat = s₁.activeSessions + ph.inFlight.toNat) :
    (s₂.setPhase i ph).activeSessions = (s₂.setPhase i ph).inFlight := by
  have hc : (s₂.setPhase i ph).inFlight + x.phase.inFlight.toNat = s₂.inFlight + ph.inFlight.toNat :=
    List.countP_modify (hs ▸ hi)
  have he : s₂.inFlight = s₁.inFlight := by rw [State.inFlight, hs, State.inFlight]
  have hg : (s₂.setPhase i ph).activeSessions = s₂.activeSessions := rfl
  omega

theorem Advance.inFlight {ph₁ ph₂ : Phase} (a : Advance s ph₁ ph₂) : ph₂.inFlight = ph₁.inFlight := by
  cases a <;> rfl

theorem Step.preserves_gauge (st : Step o s₁ e s₂) (h : s₁.activeSessions = s₁.inFlight) :
    s₂.activeSessions = s₂.inFlight := by
  cases st
  case supervisor | connRead | connDead | pool => exact h
  case handle           => simpa [State.inFlight, Phase.inFlight] using h
  case advance hi a     => exact gauge_setPhase h hi rfl (by rw [a.inFlight])
  case reject hi hp _   => exact gauge_setPhase h hi rfl (by simp [hp, Phase.inFlight])
  case count hi hp      => exact gauge_setPhase h hi rfl (by simp [hp, Phase.inFlight, State.add])
  case ret hi hp        => exact gauge_setPhase h hi rfl (by simp [hp, Phase.inFlight, State.add])
  case queue hi hp      => exact gauge_setPhase h hi rfl (by simp [hp, Phase.inFlight, State.startDial])
  case finish hi hp     => exact gauge_setPhase h hi rfl (by simp [hp, Phase.inFlight, State.release])
  case deliver hi hp _ _ => exact gauge_setPhase h hi rfl (by simp [hp, Phase.inFlight, State.setConn])
  case take hi hp _ _ _ =>
    refine gauge_setPhase h hi rfl ?_
    rcases hp with hp | ⟨_, hp⟩ <;> simp [hp, Phase.inFlight, State.setConn]
  case fail hi hp hq =>
    refine gauge_setPhase h hi rfl ?_
    rcases hp with hp | hp <;> rcases hq with hq | hq <;> simp [hp, hq, Phase.inFlight, State.setConn]

-- The gauge counts the sessions that are in flight.
theorem activeSessions_eq (r : (system o).Reachable s) : s.activeSessions = s.inFlight :=
  r.invariant (P := fun s => s.activeSessions = s.inFlight) rfl
    fun _ _ _ h hs => (Step.of_step hs).preserves_gauge h

end Application.Proxy
