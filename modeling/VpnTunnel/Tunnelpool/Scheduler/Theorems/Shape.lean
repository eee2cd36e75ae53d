import VpnTunnel.Tunnelpool.Scheduler.Theorems.Basic

namespace Tunnelpool.Scheduler

variable {o : Options} {s s₁ s₂ : State} {e : Event} {q : RouteRequest} {i : CallID} {c : Call}

-- The requests are found where `Run` looks for them, under their own zone, and the flags of `Run` agree
-- with each other.
structure Shape (o : Options) (s : State) : Prop where
  calls   : ∀ (i : CallID) (c : Call), s.calls[i]? = some c → c.phase = .sending →
    o.eligible c.tunnelID = some c.configPath
  reqCh   : ∀ q ∈ s.reqCh, o.eligible q.tunnelID = some q.configPath
  pending : ∀ z, ∀ q ∈ s.pending.queued z, q.tunnelID = z ∧ o.eligible z = some q.configPath
  batch   : ∀ q ∈ s.settleBatch,
    q.tunnelID = s.settleZone ∧ o.eligible s.settleZone = some q.configPath
  settled : s.settling = false → s.settleBatch = []
  grace   : s.graceTimer.isSome → s.settling = false
  device  : s.settling → s.currentDevice = none

namespace Shape

theorem init : Shape o .init where
  calls   := by simp [State.init]
  reqCh   := by simp [State.init]
  pending := by simp [State.init]
  batch   := by simp [State.init]
  settled := by simp [State.init]
  grace   := by simp [State.init]
  device  := by simp [State.init]

theorem pending_empty (sh : Shape o s) : s.pending.queued "" = [] := by
  rw [List.eq_nil_iff_forall_not_mem]
  intro q hq
  have h := (sh.pending _ q hq).right
  rw [o.eligible_empty] at h
  contradiction

theorem deliver_calls (sh : Shape o s) {r : RouteReply} {reqs : List RouteRequest} {i : CallID}
    {c : Call} (h : (deliver r s.calls reqs)[i]? = some c) (hp : c.phase = .sending) :
    o.eligible c.tunnelID = some c.configPath := by
  rw [deliver.getElem?, Option.map_eq_some_iff] at h
  have ⟨c', hc, h⟩ := h
  subst h
  exact sh.calls _ c' hc hp

theorem modify_calls (sh : Shape o s) {f : Call → Call} {i j : CallID} {c : Call}
    (hf : ∀ c, (f c).phase ≠ .sending) (h : (s.calls.modify j f)[i]? = some c)
    (hp : c.phase = .sending) : o.eligible c.tunnelID = some c.configPath := by
  rw [List.getElem?_modify, Option.map_eq_map, Option.map_eq_some_iff] at h
  have ⟨c', hc, h⟩ := h
  split at h
  case isTrue  => exact absurd hp (h ▸ hf c')
  case isFalse => exact sh.calls _ c (h ▸ hc) hp

theorem enqueue_pending (sh : Shape o s) (hq : o.eligible q.tunnelID = some q.configPath) (z : Zone)
    (q' : RouteRequest) (h : q' ∈ (enqueuePending q s).pending.queued z) :
    q'.tunnelID = z ∧ o.eligible z = some q'.configPath := by
  simp only [enqueuePending] at h
  by_cases hz : z = q.tunnelID
  case neg => exact sh.pending z q' (Queues.queued_insert_ne hz ▸ h)
  case pos =>
    subst hz
    rw [Queues.queued_insert] at h
    cases List.mem_append.mp h
    case inl h => exact sh.pending _ q' h
    case inr h => cases List.mem_singleton.mp h; exact ⟨rfl, hq⟩

theorem erase_pending (sh : Shape o s) {z' : Zone} (z : Zone) (q : RouteRequest)
    (h : q ∈ Queues.queued (s.pending.erase z') z) :
    q.tunnelID = z ∧ o.eligible z = some q.configPath := by
  by_cases hz : z = z'
  case pos => simp [hz] at h
  case neg => exact sh.pending z q (Queues.queued_erase_ne hz ▸ h)

theorem callStep (sh : Shape o s₁) (hc : s₁.calls[i]? = some c) (st : CallStep s₁ i c e s₂) :
    Shape o s₂ := by
  cases st
  case send hp _ =>
    refine ⟨fun _ _ => sh.modify_calls (by simp), ?_, sh.pending, sh.batch, sh.settled, sh.grace,
      sh.device⟩
    intro q hq
    cases List.mem_append.mp hq
    case inl h => exact sh.reqCh q h
    case inr h => exact List.mem_singleton.mp h ▸ sh.calls i c hc hp
  case receive r _ _ _ =>
    refine ⟨fun _ _ => sh.modify_calls ?_, sh.reqCh, sh.pending, sh.batch, sh.settled, sh.grace,
      sh.device⟩
    cases r <;> simp [RouteReply.phase]
  all_goals
    exact ⟨fun _ _ => sh.modify_calls (by simp), sh.reqCh, sh.pending, sh.batch, sh.settled, sh.grace,
      sh.device⟩

theorem tail_reqCh (sh : Shape o s) {reqCh : List RouteRequest} (h : s.reqCh = q :: reqCh) :
    o.eligible q.tunnelID = some q.configPath ∧
      ∀ q ∈ reqCh, o.eligible q.tunnelID = some q.configPath := by
  have := sh.reqCh
  simp_all

theorem beginSwitch (sh : Shape o s) {z : Zone} {p : ConfigPath} {reqs : List RouteRequest} {n : Nat}
    (h : ∀ q ∈ reqs, q.tunnelID = z ∧ o.eligible z = some q.configPath) :
    Shape o (beginSwitch o z p reqs n s) where
  calls   := by simpa [Scheduler.beginSwitch] using sh.calls
  reqCh   := by simpa [Scheduler.beginSwitch] using sh.reqCh
  pending := by simpa [Scheduler.beginSwitch] using sh.pending
  batch   := h
  settled := by simp [Scheduler.beginSwitch]
  grace   := by simp [Scheduler.beginSwitch]
  device  := by simp [Scheduler.beginSwitch]

theorem buildFailed (sh : Shape o s) (took : Nat) : Shape o (buildFailed took s) where
  calls   := fun _ _ => sh.deliver_calls
  reqCh   := sh.reqCh
  pending := sh.pending
  batch   := by simp [Scheduler.buildFailed]
  settled := fun _ => rfl
  grace   := fun _ => rfl
  device  := by simp [Scheduler.buildFailed]

theorem loopStep (sh : Shape o s₁) (st : LoopStep o s₁ e s₂) : Shape o s₂ := by
  cases st
  case done =>
    refine ⟨?_, by simpa [failStopped] using sh.reqCh, by simp [failStopped], ?_, ?_,
      by simpa [failStopped] using sh.grace, by simp⟩
    · simpa [failStopped] using fun _ _ => sh.deliver_calls
    · simp only [teardown_settleBatch, teardown_settleZone, failStopped]
      split
      case isTrue  => simp
      case isFalse => exact sh.batch
    · simp only [teardown_settling, teardown_settleBatch, failStopped]
      intro h
      simpa [h] using sh.settled h
  case join hr hs hz =>
    obtain ⟨hq, hr⟩ := sh.tail_reqCh hr
    refine ⟨sh.calls, hr, sh.pending, ?_, by simp [hs], sh.grace, sh.device⟩
    intro q hq'
    cases List.mem_append.mp hq'
    case inl h => exact sh.batch q h
    case inr h => cases List.mem_singleton.mp h; exact ⟨hz, hz ▸ hq⟩
  case enqueue hr hs hz =>
    obtain ⟨hq, hr⟩ := sh.tail_reqCh hr
    exact ⟨sh.calls, hr, sh.enqueue_pending hq, sh.batch, sh.settled, sh.grace,
      sh.device⟩
  case grant hr hs _ _ =>
    obtain ⟨hq, hr⟩ := sh.tail_reqCh hr
    exact ⟨fun _ _ => sh.deliver_calls, hr, sh.pending, sh.batch, sh.settled, by simp,
      sh.device⟩
  case defer hr _ _ _ =>
    obtain ⟨hq, hr⟩ := sh.tail_reqCh hr
    exact ⟨sh.calls, hr, sh.enqueue_pending hq, sh.batch, sh.settled, sh.grace,
      sh.device⟩
  case deferGrace hr hs _ _ _ _ =>
    obtain ⟨hq, hr⟩ := sh.tail_reqCh hr
    exact ⟨sh.calls, hr, sh.enqueue_pending hq, sh.batch, sh.settled, fun _ => hs,
      sh.device⟩
  case switch hr hs _ =>
    obtain ⟨hq, hr⟩ := sh.tail_reqCh hr
    apply beginSwitch
    case sh => exact ⟨sh.calls, hr, sh.erase_pending, sh.batch, sh.settled, sh.grace,
      sh.device⟩
    intro q hq'
    cases List.mem_cons.mp hq'
    case inl h => cases h; exact ⟨rfl, hq⟩
    case inr h => exact sh.pending _ q h
  case built =>
    exact ⟨fun _ _ => sh.deliver_calls, sh.reqCh, sh.pending, by simp, fun _ => rfl, fun _ => rfl,
      by simp⟩
  case failed took _ _ _ =>
    have sh := sh.buildFailed took
    exact ⟨sh.calls, sh.reqCh, sh.pending, sh.batch, sh.settled, sh.grace,
      sh.device⟩
  case failedNext took _ _ _ _ =>
    have sh' := sh.buildFailed took
    apply beginSwitch
    case sh => exact ⟨sh'.calls, sh.reqCh, sh.erase_pending, sh'.batch, sh'.settled, sh'.grace,
      sh'.device⟩
    exact sh.pending _
  case releaseGrace hs _ =>
    exact ⟨sh.calls, sh.reqCh, sh.pending, sh.batch, sh.settled, fun _ => hs,
      sh.device⟩
  case release | idleSkip => exact ⟨sh.calls, sh.reqCh, sh.pending, sh.batch, sh.settled, sh.grace,
      sh.device⟩
  case releaseIdle | graceOver =>
    exact ⟨sh.calls, sh.reqCh, sh.pending, sh.batch, sh.settled, by simp,
      sh.device⟩
  case graceSwitch =>
    apply beginSwitch
    case sh => exact ⟨sh.calls, sh.reqCh, sh.erase_pending, sh.batch, sh.settled, by simp,
      sh.device⟩
    exact sh.pending _
  case idle =>
    exact ⟨by simpa using sh.calls, by simpa using sh.reqCh, by simpa using sh.pending,
      by simpa using sh.batch, by simpa using sh.settled, by simpa using sh.grace, by simp⟩

theorem step (sh : Shape o s₁) (h : step o s₁ e = some s₂) : Shape o s₂ := by
  cases step_elim h sh.pending_empty
  case tick       => exact ⟨sh.calls, sh.reqCh, sh.pending, sh.batch, sh.settled, sh.grace,
      sh.device⟩
  case call hc st => exact sh.callStep hc st
  case loop _ st  => exact sh.loopStep st
  all_goals
    refine ⟨?_, sh.reqCh, sh.pending, sh.batch, sh.settled, sh.grace,
      sh.device⟩
    intro i c hc hp
    rw [List.getElem?_append] at hc
    split at hc
    case isTrue  => exact sh.calls i c hc hp
    case isFalse =>
      rw [List.getElem?_singleton, Option.ite_none_right_eq_some] at hc
      cases hc.right
      simp_all

end Shape

theorem shape (r : (system o).Reachable s) : Shape o s :=
  r.invariant Shape.init fun _ _ _ sh h => sh.step h

end Tunnelpool.Scheduler
