import VpnTunnel.Httpserver.Basic
import VpnTunnel.Lib.Threads

namespace Httpserver

variable {s s₁ s₂ : State} {e : Event} {es : List Event} {c c₁ c₂ : Conn} {n : Int}

namespace Phase

-- The handler has hijacked the connection, and has neither counted it as a tunnel nor closed it.
def handingOver : Phase → Bool
  | hijacked | written | flushed | abortClient | abortUpstream => true
  | _                                                          => false

-- The connection is counted by `tunnelCount`.
def inTunnel : Phase → Bool
  | counted | copying _ _ | closeUpstream | uncount => true
  | _                                               => false

def finished : Phase → Bool
  | uncount | notify | done | dropped => true
  | _                                 => false

def client : Phase → Socket
  | abortUpstream | closeUpstream | uncount | notify | done | dropped => .closed
  | _                                                                 => .opened

-- A connection that is `waiting` may have had an upstream for an earlier request.
def upstream? : Phase → Option Socket
  | waiting | http | connect | dialing | dropped => none
  | uncount | notify | done                      => some .closed
  | _                                            => some .opened

theorem finished_iff_not_handingOver {ph : Phase} (ht : ¬ph.tracked) (hn : ¬ph.inTunnel) :
    ph.finished ↔ ¬ph.handingOver := by
  cases ph <;> simp_all [tracked, inTunnel, finished, handingOver]

end Phase

namespace Conn

def Closed (c : Conn) : Prop :=
  c.hijacked → c.client = .closed ∧ c.upstream = some .closed

-- What is known of a connection from its phase.
structure Sound (c : Conn) : Prop where
  hijacked : c.hijacked ↔ ¬c.phase.tracked ∧ c.phase ≠ .dropped
  client   : c.client = c.phase.client
  upstream : ∀ x ∈ c.phase.upstream?, c.upstream = some x

theorem Sound.accepted : Sound .accepted where
  hijacked := by simp [Conn.accepted, Phase.tracked]
  client   := rfl
  upstream := by simp [Conn.accepted, Phase.upstream?]

theorem Sound.closed_iff (h : c.Sound) (ht : ¬c.phase.tracked) : c.Closed ↔ c.phase.finished := by
  have ⟨hh, hc, hu⟩ := h
  rw [Closed, hh, hc]
  cases hp : c.phase <;> simp_all [Phase.tracked, Phase.client, Phase.upstream?, Phase.finished]

-- What a step of a handler or a tunnel does to its connection.
structure Stepped (c₁ : Conn) (e : Conn.Event) (c₂ : Conn) : Prop where
  sound    : c₁.Sound → c₂.Sound
  count    : (c₂.phase.inTunnel.toNat : Int) = c₁.phase.inTunnel.toNat + e.delta
  tracked  : c₂.phase.tracked → c₁.phase.tracked
  finished : c₁.phase.finished → c₂.phase.finished
  spawn    : e = .spawn → c₁.phase = .counted

theorem stepped (h : c₁.step n e = some c₂) : Stepped c₁ e c₂ := by
  unfold step at h
  split at h
  all_goals first | contradiction | cases h
  all_goals
    constructor
    case sound =>
      rintro ⟨hh, hc, hu⟩
      constructor <;> (repeat' split) <;> simp_all [Phase.tracked, Phase.client, Phase.upstream?]
    all_goals
      (repeat' split) <;> simp_all [Event.delta, Phase.inTunnel, Phase.tracked, Phase.finished]

end Conn

inductive Step (s : State) : Event → State → Prop
  | accept : (s.shutdown = .notCalled) → Step s .accept { s with conns := s.conns ++ [.accepted] }
  | conn {i : Nat} {e : Conn.Event} {c₁ c₂ : Conn} :
    (s.conns[i]? = some c₁) → (c₁.step s.tunnelCount e = some c₂) →
    Step s (.conn i e)
      { s with
        conns        := s.conns.modify i fun _ => c₂
        tunnelCount  := s.tunnelCount + e.delta
        tunnelNotify := s.tunnelNotify + e.renews.toNat }
  | ctxDone : Step s .ctxDone { s with ctxDone := true }
  | shutdown : (s.shutdown = .notCalled) → Step s .shutdown { s with shutdown := .draining }
  | drained : (s.shutdown = .draining) → (∀ c ∈ s.conns, ¬c.phase.tracked) →
    Step s .drained { s with shutdown := .load }
  | drainErr : (s.shutdown = .draining) → (s.ctxDone = true) →
    Step s .drainErr { s with shutdown := .returned false }
  | load : (s.shutdown = .load) → Step s .load (s.loaded .lock)
  | lock : (s.shutdown = .lock) → Step s .lock { s with shutdown := .reload s.tunnelNotify }
  | reload {ch : Nat} : (s.shutdown = .reload ch) → Step s .reload (s.loaded (.select ch))
  | woken {ch : Nat} : (s.shutdown = .select ch) → (ch < s.tunnelNotify) →
    Step s .woken { s with shutdown := .load }
  | expired {ch : Nat} : (s.shutdown = .select ch) → (s.ctxDone = true) →
    Step s .expired { s with shutdown := .returned false }

theorem Step.of_step (h : step s₁ e = some s₂) : Step s₁ e s₂ := by
  cases e
  case conn i e =>
    simp only [step, Option.bind_eq_some_iff, Option.map_eq_some_iff] at h
    have ⟨c₁, hc, c₂, hs, h⟩ := h
    exact h ▸ .conn hc hs
  case ctxDone => exact Option.some.inj h ▸ .ctxDone
  case accept =>
    simp only [step, Option.ite_none_right_eq_some, Option.some.injEq] at h
    exact h.right ▸ .accept h.left
  case shutdown =>
    simp only [step, stepShutdown, Option.ite_none_right_eq_some, Option.some.injEq] at h
    exact h.right ▸ .shutdown h.left
  case drained =>
    simp only [step, stepShutdown, Option.ite_none_right_eq_some, Option.some.injEq] at h
    exact h.right ▸ .drained h.left.left h.left.right
  case drainErr =>
    simp only [step, stepShutdown, Option.ite_none_right_eq_some, Option.some.injEq] at h
    exact h.right ▸ .drainErr h.left.left h.left.right
  case load =>
    simp only [step, stepShutdown, Option.ite_none_right_eq_some, Option.some.injEq] at h
    exact h.right ▸ .load h.left
  case lock =>
    simp only [step, stepShutdown, Option.ite_none_right_eq_some, Option.some.injEq] at h
    exact h.right ▸ .lock h.left
  case reload =>
    simp only [step, stepShutdown] at h
    split at h
    case h_1 hs => exact Option.some.inj h ▸ .reload hs
    case h_2    => contradiction
  case woken =>
    simp only [step, stepShutdown] at h
    split at h
    case h_1 hs =>
      simp only [Option.ite_none_right_eq_some, Option.some.injEq] at h
      exact h.right ▸ .woken hs h.left
    case h_2 => contradiction
  case expired =>
    simp only [step, stepShutdown] at h
    split at h
    case h_1 hs =>
      simp only [Option.ite_none_right_eq_some, Option.some.injEq] at h
      exact h.right ▸ .expired hs h.left
    case h_2 => contradiction

-- `http.Server.Shutdown` has returned nil, and no error has been returned since.
def Shutdown.drained : Shutdown → Bool
  | load | lock | reload _ | select _ | returned true => true
  | _                                                 => false

structure Consistent (s : State) : Prop where
  sound   : ∀ c ∈ s.conns, c.Sound
  count   : s.tunnelCount = s.conns.countP (·.phase.inTunnel)
  drained : s.shutdown.drained → ∀ c ∈ s.conns, ¬c.phase.tracked

namespace Consistent

theorem init : Consistent .init where
  sound   := by simp [State.init]
  count   := rfl
  drained := by simp [State.init]

theorem accept (i : Consistent s) (h : s.shutdown = .notCalled) :
    Consistent { s with conns := s.conns ++ [.accepted] } where
  sound c hc := by
    rw [List.mem_append, List.mem_singleton] at hc
    cases hc
    case inl hc => exact i.sound c hc
    case inr hc => exact hc ▸ .accepted
  count     := by simpa [List.countP_append, Conn.accepted, Phase.inTunnel] using i.count
  drained w := by simp [h, Shutdown.drained] at w

theorem conn {i : Nat} {e : Conn.Event} {m : Nat} (w : Consistent s) (hc : s.conns[i]? = some c₁)
    (hs : c₁.step n e = some c₂) :
    Consistent { s with
      conns        := s.conns.modify i fun _ => c₂
      tunnelCount  := s.tunnelCount + e.delta
      tunnelNotify := m } := by
  have st := Conn.stepped hs
  have hm := List.mem_of_getElem? hc
  constructor
  case sound =>
    intro c h
    cases List.eq_or_mem_of_mem_modify h
    case inl h => exact h ▸ st.sound (w.sound _ hm)
    case inr h => exact w.sound _ h
  case count =>
    have hp := List.countP_modify (q := (·.phase.inTunnel)) (g := fun _ => c₂) hc
    have ht := st.count
    have hn := w.count
    simp only at hp ⊢
    omega
  case drained =>
    intro d c h
    cases List.eq_or_mem_of_mem_modify h
    case inl h => exact fun ht => w.drained d _ hm <| st.tracked (h ▸ ht)
    case inr h => exact w.drained d _ h

-- A step of `Shutdown` only decides about what it does next.
theorem shutdown (w : Consistent s) {sh : Shutdown} {b : Bool}
    (h : sh.drained → ∀ c ∈ s.conns, ¬c.phase.tracked) :
    Consistent { s with shutdown := sh, ctxDone := b } where
  sound   := w.sound
  count   := w.count
  drained := h

theorem loaded (w : Consistent s) {sh : Shutdown} (h : s.shutdown.drained) : Consistent (s.loaded sh) :=
  w.shutdown fun _ => w.drained h

theorem step (w : Consistent s₁) (h : Step s₁ e s₂) : Consistent s₂ := by
  cases h
  case accept h       => exact w.accept h
  case conn hc hs     => exact w.conn hc hs
  case ctxDone        => exact w.shutdown w.drained
  case shutdown       => exact w.shutdown (by simp [Shutdown.drained])
  case drained h      => exact w.shutdown fun _ => h
  case drainErr       => exact w.shutdown (by simp [Shutdown.drained])
  case load h         => exact w.loaded (by rw [h]; rfl)
  case lock h         => exact w.shutdown fun _ => w.drained (by rw [h]; rfl)
  case reload h       => exact w.loaded (by rw [h]; rfl)
  case woken h _      => exact w.shutdown fun _ => w.drained (by rw [h]; rfl)
  case expired        => exact w.shutdown (by simp [Shutdown.drained])

end Consistent

theorem consistent (r : system.Reachable s) : Consistent s :=
  r.invariant .init fun _ _ _ w h => w.step (.of_step h)

-- When `Shutdown` has returned nil, both ends of every hijacked connection have been closed.
def Drained (s : State) : Prop :=
  s.shutdown = .returned true → ∀ c ∈ s.conns, c.Closed

-- No tunnel is started after `Shutdown` has returned nil.
def NotLate (s : State) (e : Event) : Prop :=
  s.shutdown = .returned true → ∀ i, e ≠ .conn i .spawn

-- When `WaitTunnels` reads zero from `tunnelCount`, no handler is between its call of `Hijack` and the
-- point at which it has counted the tunnel, or has closed both ends of the connection.
def NoHandover (s : State) (e : Event) : Prop :=
  (e = .load ∨ e = .reload) → s.tunnelCount = 0 → ∀ c ∈ s.conns, ¬c.phase.handingOver

instance : Decidable (NoHandover s e) :=
  inferInstanceAs (Decidable (_ → _ → _))

namespace Consistent

theorem not_inTunnel (w : Consistent s) (h : s.tunnelCount = 0) : ∀ c ∈ s.conns, ¬c.phase.inTunnel := by
  have hn : s.conns.countP (·.phase.inTunnel) = 0 := by
    have := w.count
    omega
  simpa using List.countP_eq_zero.mp hn

theorem closed_iff (w : Consistent s) (h : s.shutdown.drained) (hc : c ∈ s.conns) :
    c.Closed ↔ c.phase.finished :=
  (w.sound c hc).closed_iff (w.drained h c hc)

theorem loaded_iff (w : Consistent s) {sh : Shutdown} (h : s.shutdown.drained)
    (hr : sh ≠ .returned true) :
    Drained (s.loaded sh) ↔ (s.tunnelCount = 0 → ∀ c ∈ s.conns, ¬c.phase.handingOver) := by
  unfold Drained State.loaded
  by_cases hz : s.tunnelCount = 0
  case neg => simp [hz, hr]
  case pos =>
    simp only [hz, if_true, forall_const]
    refine forall₂_congr fun c hc => ?_
    rw [w.closed_iff h hc]
    exact Phase.finished_iff_not_handingOver (w.drained h c hc) (w.not_inTunnel hz c hc)

end Consistent

theorem Drained.conn {i : Nat} {e : Conn.Event} {m : Nat} {k : Int} (d : Drained s) (w : Consistent s)
    (w' : Consistent { s with
      conns := s.conns.modify i fun _ => c₂, tunnelCount := k, tunnelNotify := m })
    (hc : s.conns[i]? = some c₁) (hs : c₁.step n e = some c₂) :
    Drained { s with conns := s.conns.modify i fun _ => c₂, tunnelCount := k, tunnelNotify := m } := by
  intro h c hm
  have hd : s.shutdown.drained := by rw [h]; rfl
  cases List.eq_or_mem_of_mem_modify hm
  case inr hm => exact d h c hm
  case inl he =>
    subst he
    have hm₁ := List.mem_of_getElem? hc
    rw [w'.closed_iff hd hm]
    exact (Conn.stepped hs).finished <| (w.closed_iff hd hm₁).mp (d h _ hm₁)

-- Only the step with which `WaitTunnels` returns can break the property.
theorem Step.drained_iff (h : Step s₁ e s₂) (w : Consistent s₁) (d : Drained s₁) :
    Drained s₂ ↔ NoHandover s₁ e := by
  have w₂ := w.step h
  cases h
  case load h   => simpa [NoHandover] using w.loaded_iff (by rw [h]; rfl) (by simp)
  case reload h => simpa [NoHandover] using w.loaded_iff (by rw [h]; rfl) (by simp)
  all_goals refine iff_of_true ?_ (by simp [NoHandover])
  case conn hc hs  => exact d.conn w w₂ hc hs
  case ctxDone     => exact d
  case accept h    => simp [Drained, h]
  all_goals simp [Drained]

theorem Step.notLate (h : Step s₁ e s₂) (w : Consistent s₁) (d : Drained s₁) : NotLate s₁ e := by
  intro hr i he
  subst he
  cases h
  case conn c₁ c₂ hc hs =>
    have hm := List.mem_of_getElem? hc
    have hf := (w.closed_iff (by rw [hr]; rfl) hm).mp (d hr c₁ hm)
    rw [(Conn.stepped hs).spawn rfl] at hf
    contradiction

theorem shutdown_drains_iff (r : system.Run es s) :
    system.Always Drained es ∧ system.Meets NotLate es ↔ system.Meets NoHandover es := by
  have hi : system.Always Drained es ↔ system.Meets NoHandover es := by
    apply r.always_iff
    case hi => simp [Drained, system, State.init]
    intro s₁ e s₂ r d h
    exact (Step.of_step h).drained_iff (consistent r) d
  rw [← hi]
  refine and_iff_left_of_imp fun a es₁ e es₂ s₁ he r₁ => ?_
  subst he
  rw [List.append_cons] at r
  have ⟨_, r⟩ := r.of_append
  have ⟨_, r₂, h⟩ := r.snoc_elim
  cases r₁.deterministic r₂
  exact (Step.of_step h).notLate (consistent r₁.reachable) (a _ _ _ rfl r₁)

-- The handler of a `CONNECT` request, up to the point at which the connection is its own.
def hijackedRun : List Event :=
  [.accept, .conn 0 (.request true), .conn 0 .dial, .conn 0 (.dialed true), .conn 0 (.hijack .ok)]

-- A tunnel that is open when `Shutdown` is called, and that `WaitTunnels` waits for.
def drainedRun : List Event :=
  hijackedRun ++
    [.conn 0 (.write true), .conn 0 (.flush true), .conn 0 .count, .shutdown, .conn 0 .spawn, .drained,
      .load, .lock, .reload, .conn 0 (.copied .fromUpstream), .conn 0 (.copied .fromClient),
      .conn 0 .closeClient, .conn 0 .closeUpstream, .conn 0 .uncount, .conn 0 .notify, .woken, .load]

theorem drainedRun_isSome : (system.exec drainedRun).isSome := by
  decide

theorem shutdown_drains_drainedRun : ∃ s, system.Run drainedRun s ∧ s.shutdown = .returned true ∧
    (∃ c ∈ s.conns, c.hijacked) ∧ system.Always Drained drainedRun ∧
    system.Meets NotLate drainedRun := by
  have r := System.Run.of_isSome drainedRun_isSome
  exact ⟨_, r, by decide, by decide, (shutdown_drains_iff r).mpr <| .of_exec (by decide)⟩

-- `Shutdown` is called when the handler has hijacked the connection. Neither `net/http` nor `tunnelCount`
-- knows of it, so that `Shutdown` returns at once.
def handoverRun : List Event :=
  hijackedRun ++
    [.shutdown, .drained, .load, .conn 0 (.write true), .conn 0 (.flush true), .conn 0 .count]

-- The tunnel is started afterwards.
def lateRun : List Event :=
  handoverRun ++ [.conn 0 .spawn]

theorem handoverRun_isSome : (system.exec handoverRun).isSome := by
  decide

theorem not_drained_lateRun : ∃ s, system.Run lateRun s ∧
    ¬system.Always Drained lateRun ∧ ¬system.Meets NotLate lateRun := by
  have r := System.Run.of_isSome handoverRun_isSome
  refine ⟨_, r.step rfl, fun a => ?_, fun m => ?_⟩
  · have h := a _ [.conn 0 .spawn] _ rfl r
    simp only [Drained, Conn.Closed] at h
    exact absurd h (by decide)
  · exact m.last r (by decide) 0 rfl

end Httpserver
