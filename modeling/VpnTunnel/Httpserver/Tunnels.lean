import VpnTunnel.Application.Proxy.Tunnels.Theorems
import VpnTunnel.Httpserver.Theorems

namespace Httpserver

open Application.Proxy
open Application.Proxy.Tunnels (Tunnel WaitCall)

-- What the counter and the waiters see of a connection.
def Phase.tunnel : Phase → Tunnel
  | counted | copying _ _ | closeUpstream | uncount => .counted
  | notify                                          => .notify
  | done | dropped                                  => .done
  | _                                               => .setup

-- What a step of a connection is for its tunnel. In most steps it has nothing to do.
inductive Conn.TunnelStep (n : Int) : Conn.Event → Tunnel → Tunnel → Prop
  | giveUp {e : Conn.Event} : (e.delta = 0) → (e.renews = false) → TunnelStep n e .setup .done
  | start : TunnelStep n .count .setup .counted
  | finish : TunnelStep n .uncount .counted (if n - 1 = 0 then .notify else .done)
  | notify : TunnelStep n .notify .notify .done
  | none {e : Conn.Event} {t : Tunnel} : (e.delta = 0) → (e.renews = false) → TunnelStep n e t t

-- The call of `WaitTunnels` in `Shutdown`, once it has been made. `Shutdown` can also fail without having
-- made it.
def Shutdown.Waits (ws : List WaitCall) (ctxDone : Bool) : Shutdown → Prop
  | notCalled | draining => ws = []
  | load                 => ws = [⟨.load, ctxDone⟩]
  | lock                 => ws = [⟨.lock, ctxDone⟩]
  | reload ch            => ws = [⟨.reload ch, ctxDone⟩]
  | select ch            => ws = [⟨.select ch, ctxDone⟩]
  | returned true        => ws = [⟨.returned true, ctxDone⟩]
  | returned false       => True

-- The part of the server that the tunnels and `WaitTunnels` share.
structure Shares (s : State) (t : Tunnels.State) : Prop where
  count   : t.tunnelCount = s.tunnelCount
  notify  : t.tunnelNotify = s.tunnelNotify
  made    : t.made = s.tunnelNotify + 1
  tunnels : t.tunnels = s.conns.map (·.phase.tunnel)
  waits   : s.shutdown.Waits t.waits s.ctxDone

variable {s s₁ s₂ : State} {t t₁ : Tunnels.State} {e : Event} {c₁ c₂ : Conn} {n : Int} {i : Nat}

theorem Conn.TunnelStep.of_step {e : Conn.Event} (h : c₁.step n e = some c₂) :
    TunnelStep n e c₁.phase.tunnel c₂.phase.tunnel := by
  unfold Conn.step at h
  split at h
  case h_23 => contradiction
  all_goals cases h
  all_goals simp only [*, apply_ite Phase.tunnel]
  all_goals simp only [Phase.tunnel, ite_self]
  all_goals first
    | exact .none (by rfl) (by rfl)
    | exact .giveUp (by rfl) (by rfl)
    | exact .start
    | exact .finish
    | exact .notify

-- The context of a call can expire once the call has been made.
theorem Shutdown.Waits.cancel {ws : List WaitCall} {sh : Shutdown} {b : Bool} (h : sh.Waits ws b) :
    sh.Waits ws true ∨ ∃ w, ws = [w] ∧ sh.Waits [{ w with ctxDone := true }] true := by
  cases sh
  case notCalled | draining => exact .inl h
  case load | lock | reload | select => exact .inr ⟨_, h, rfl⟩
  case returned ok =>
    cases ok
    case false => exact .inl trivial
    case true  => exact .inr ⟨_, h, rfl⟩

namespace Shares

theorem init : Shares .init .init where
  count   := rfl
  notify  := rfl
  made    := rfl
  tunnels := rfl
  waits   := rfl

theorem getElem? (r : Shares s t) (hc : s.conns[i]? = some c₁) :
    t.tunnels[i]? = some c₁.phase.tunnel := by
  simp [r.tunnels, hc]

-- A step of a connection is the one of its tunnel, or none.
theorem conn (r : Shares s t) {e : Conn.Event} (hc : s.conns[i]? = some c₁)
    (hs : c₁.step s.tunnelCount e = some c₂) :
    let s' := { s with
      conns        := s.conns.modify i fun _ => c₂
      tunnelCount  := s.tunnelCount + e.delta
      tunnelNotify := s.tunnelNotify + e.renews.toNat }
    Shares s' t ∨ ∃ e' t', Tunnels.step t e' = some t' ∧ Shares s' t' := by
  intro s'
  have hi := r.getElem? hc
  have ht : s'.conns.map (·.phase.tunnel) = t.tunnels.modify i fun _ => c₂.phase.tunnel := by
    rw [r.tunnels, List.map_modify_const]
  have h := Conn.TunnelStep.of_step hs
  generalize c₁.phase.tunnel = t₁ at h hi
  generalize c₂.phase.tunnel = t₂ at h ht
  have hw : s'.shutdown.Waits t.waits s'.ctxDone := r.waits
  cases h
  case none hd hr =>
    refine .inl ⟨?_, ?_, ?_, ?_, hw⟩
    · simp [s', hd, r.count]
    · simp [s', hr, r.notify]
    · simp [s', hr, r.made]
    · rw [ht, List.modify_const_self hi]
  case giveUp hd hr =>
    refine .inr ⟨.giveUp i, t.setTunnel i .done, by simp [Tunnels.step, Tunnels.stepTunnel, hi], ?_⟩
    refine ⟨?_, ?_, ?_, ht.symm, hw⟩
    · simp [s', Tunnels.State.setTunnel, hd, r.count]
    · simp [s', Tunnels.State.setTunnel, hr, r.notify]
    · simp [s', Tunnels.State.setTunnel, hr, r.made]
  case start =>
    refine .inr ⟨.start i, (t.add 1).setTunnel i .counted,
      by simp [Tunnels.step, Tunnels.stepTunnel, hi], ?_⟩
    exact ⟨congrArg (· + 1) r.count, r.notify, r.made, ht.symm, hw⟩
  case finish =>
    refine .inr ⟨.finish i, (t.add (-1)).setTunnel i (if t.tunnelCount - 1 = 0 then .notify else .done),
      by simp [Tunnels.step, Tunnels.stepTunnel, hi], ?_⟩
    exact ⟨congrArg (· + -1) r.count, r.notify, r.made, by rw [ht, r.count]; rfl, hw⟩
  case notify =>
    refine .inr ⟨.notify i, t.renew.setTunnel i .done,
      by simp [Tunnels.step, Tunnels.stepTunnel, hi], ?_⟩
    exact ⟨r.count.trans (Int.add_zero _).symm, r.made, congrArg (· + 1) r.made, ht.symm, hw⟩

-- A step of `Shutdown` that is one of its call of `WaitTunnels`.
theorem setWaits (ws : List WaitCall) {sh : Shutdown} {b : Bool} (r : Shares s t) (h : sh.Waits ws b) :
    Shares { s with shutdown := sh, ctxDone := b } { t with waits := ws } :=
  { r with waits := h }

theorem loaded {sh : Shutdown} {ph : Tunnels.WaitPhase} {w : WaitCall} (r : Shares s t)
    (hw : t.waits = [w]) (hc : w.ctxDone = s.ctxDone) (h : sh.Waits [⟨ph, s.ctxDone⟩] s.ctxDone) :
    Shares (s.loaded sh) (t.setWait 0 (t.afterLoad ph)) := by
  refine r.setWaits _ ?_
  simp only [hw, Tunnels.State.afterLoad, r.count, List.modify_zero_cons, hc]
  split
  case isTrue  => rfl
  case isFalse => exact h

theorem step (r : Shares s₁ t) (rt : Tunnels.system.Reachable t) (h : Step s₁ e s₂) :
    Shares s₂ t ∨ ∃ e' t', Tunnels.step t e' = some t' ∧ Shares s₂ t' := by
  have hw := r.waits
  cases h
  case conn hc hs => exact r.conn hc hs
  case accept =>
    refine .inr ⟨.accept, _, rfl, r.count, r.notify, r.made, ?_, hw⟩
    simp [r.tunnels, Conn.accepted, Phase.tunnel]
  case shutdown h =>
    rw [h] at hw
    exact .inl <| r.setWaits t.waits hw
  case drainErr | expired => exact .inl <| r.setWaits t.waits trivial
  case drained h _ =>
    rw [h] at hw
    refine .inr ⟨.waitTunnels s₁.ctxDone, _, rfl, ?_⟩
    exact r.setWaits _ (by simp [show t.waits = [] from hw, Shutdown.Waits])
  case load h =>
    rw [h] at hw
    have hw : t.waits = [⟨.load, s₁.ctxDone⟩] := hw
    exact .inr ⟨.load 0, _, by simp [Tunnels.step, Tunnels.stepWait, hw], r.loaded hw rfl rfl⟩
  case lock h =>
    rw [h] at hw
    have hw : t.waits = [⟨.lock, s₁.ctxDone⟩] := hw
    refine .inr ⟨.lock 0, t.setWait 0 (.reload t.tunnelNotify),
      by simp [Tunnels.step, Tunnels.stepWait, hw], r.setWaits _ ?_⟩
    simp [hw, r.notify, Shutdown.Waits]
  case reload ch h =>
    rw [h] at hw
    have hw : t.waits = [⟨.reload ch, s₁.ctxDone⟩] := hw
    exact .inr ⟨.reload 0, _, by simp [Tunnels.step, Tunnels.stepWait, hw], r.loaded hw rfl rfl⟩
  case woken ch h hc =>
    rw [h] at hw
    have hw : t.waits = [⟨.select ch, s₁.ctxDone⟩] := hw
    have hm : ch ∈ t.closed := by
      rw [(Tunnels.consistent rt).closed, r.made, r.notify]
      omega
    refine .inr ⟨.woken 0, t.setWait 0 .load,
      by simp [Tunnels.step, Tunnels.stepWait, hw, hm], r.setWaits _ ?_⟩
    simp [hw, Shutdown.Waits]
  case ctxDone =>
    cases hw.cancel
    case inl h => exact .inl <| r.setWaits t.waits h
    case inr h =>
      obtain ⟨w, hw, h⟩ := h
      refine .inr ⟨.cancel 0, { t with waits := [{ w with ctxDone := true }] }, ?_, r.setWaits _ h⟩
      simp [Tunnels.step, Tunnels.stepWait, hw]

end Shares

theorem shares (r : system.Reachable s) : ∃ t, Tunnels.system.Reachable t ∧ Shares s t :=
  r.simulate .init fun _ _ _ _ h rt r => r.step rt (.of_step h)

-- So `Shutdown` does not miss the end of the last tunnel.
theorem lt_tunnelNotify {ch : Nat} (r : system.Reachable s) (hz : s.tunnelCount = 0)
    (hn : ∀ c ∈ s.conns, c.phase ≠ .notify) (hs : s.shutdown = .select ch) : ch < s.tunnelNotify := by
  have ⟨t, ⟨_, rt⟩, r⟩ := shares r
  have hw := r.waits
  rw [hs] at hw
  have hn : .notify ∉ t.tunnels := by
    rw [r.tunnels, List.mem_map]
    rintro ⟨c, hc, hp⟩
    refine hn c hc ?_
    cases h : c.phase <;> simp_all [Phase.tunnel]
  have c := Tunnels.consistent rt.reachable
  by_contra ho
  refine hn <| c.awake _ (by rw [show t.waits = _ from hw]; exact .head _) ch rfl ?_ (r.count ▸ hz)
  rw [c.closed, r.made, r.notify]
  omega

end Httpserver
