import VpnTunnel.Tunnelpool.Supervisor.Theorems.Basic

namespace Tunnelpool.Supervisor

variable {o : Options} {s s₁ s₂ : State} {e : Event} {d : Device} {t : Nat}

theorem Duration.toNat_mono {d₁ d₂ : Duration} (h : d₁ ≤ d₂) : d₁.toNat ≤ d₂.toNat :=
  Int.toNat_le_toNat (Int64.le_iff_toInt_le.mp h)

-- A backoff that is too long to be doubled turns negative, and is then replaced by the maximum.
theorem le_growBackoff {lo d max : Duration} (hd : lo ≤ d) (hm : lo ≤ max) : lo ≤ growBackoff d max := by
  unfold growBackoff
  split
  case isTrue => exact hm
  case isFalse =>
    dsimp only
    split
    case isTrue => exact hm
    case isFalse hn =>
      have ⟨_, hn⟩ := not_or.mp hn
      simp only [Int64.le_iff_toInt_le, Int64.lt_iff_toInt_lt, Int64.toInt_mul] at *
      have := Int64.toInt_lt d
      have := Int64.le_toInt d
      simp at *
      rw [Int.bmod_def] at *
      omega

namespace Pc

-- `Start` has returned.
def launched : Pc → Bool
  | init | build .start | swap _ .start | launch => false
  | _                                            => true

-- The pause that a device has to be given until the next one is built.
def pause (o : Options) : Pc → Nat
  | settle _ | build (.rotate _) => o.rotateSettle.toNat
  | backoff | build .reconnect   => o.reconnectMin.toNat
  | _                            => 0

end Pc

-- The earliest moment at which the loop can go on.
def State.horizon (s : State) : Nat :=
  match s.pc with
  | .settle _ | .backoff => s.deadline
  | _                    => s.now

structure Paused (o : Options) (s : State) : Prop where
  backoff : s.pc.launched → o.reconnectMin ≤ s.backoff
  closed  : ∀ t d, (t, .closed d) ∈ s.ledger →
    s.pc.launched ∧ t ≤ s.now ∧ t + s.pc.pause o ≤ s.horizon

namespace Paused

theorem init : Paused o .init where
  backoff := by simp [State.init, Pc.launched]
  closed  := by simp [State.init]

-- The loop goes on to a place that does not need a pause.
theorem move (h : Paused o s₁) (hb : o.reconnectMin ≤ s₂.backoff) (hp : s₂.pc.launched)
    (hz : s₂.pc.pause o = 0) (hh : s₂.horizon = s₂.now) (hn : s₂.now = s₁.now)
    (hl : ∀ t d, (t, .closed d) ∈ s₂.ledger → (t, .closed d) ∈ s₁.ledger) : Paused o s₂ where
  backoff _     := hb
  closed t d hm := by
    have ⟨_, ht, _⟩ := h.closed t d (hl t d hm)
    rw [hz, hh, hn]
    exact ⟨hp, ht, ht⟩

-- `Start` has not returned yet.
theorem unlaunched (h : Paused o s₁) (hp : ¬s₁.pc.launched)
    (hb : s₂.pc.launched → o.reconnectMin ≤ s₂.backoff)
    (hl : ∀ t d, (t, .closed d) ∈ s₂.ledger → (t, .closed d) ∈ s₁.ledger) : Paused o s₂ where
  backoff       := hb
  closed t d hm := absurd (h.closed t d (hl t d hm)).1 hp

end Paused

theorem Pc.Listens.launched {pc : Pc} (h : pc.Listens) : pc.launched := by
  cases h <;> rfl

theorem Paused.closedStep {site : Close} (h : Paused o s) (hb : o.reconnectMin ≤ s.backoff) :
    Paused o (s.closed o d site) := by
  have ht (t d') (hm : (t, .closed d') ∈ (s.now, .closed d) :: s.ledger) : t ≤ s.now := by
    cases List.mem_cons.mp hm
    case inl hm => exact Nat.le_of_eq (Prod.mk.inj hm).1
    case inr hm => exact (h.closed _ _ hm).2.1
  cases site
  case rotate => exact ⟨fun _ => hb, fun t d' hm => ⟨rfl, ht t d' hm, Nat.add_le_add_right (ht t d' hm) _⟩⟩
  case teardown exit =>
    cases exit <;> exact ⟨fun _ => hb, fun t d' hm => ⟨rfl, ht t d' hm, ht t d' hm⟩⟩

theorem Step.paused (st : Step o s₁ e s₂) (h : Paused o s₁) : Paused o s₂ := by
  have hb {pc : Pc} (hp : s₁.pc = pc) (hl : pc.launched) := h.backoff (hp ▸ hl)
  have hu {pc : Pc} (hp : s₁.pc = pc) (hl : ¬pc.launched) : ¬s₁.pc.launched := hp ▸ hl
  cases st
  case cancel | rotate | rotateCancel | rotateLoopDone | rotateReturn | stop | stopOnce | stopLoad |
      stopJoin => exact ⟨h.backoff, h.closed⟩
  case tick =>
    refine ⟨h.backoff, fun t d hm => ?_⟩
    have ⟨hl, ht, hd⟩ := h.closed t d hm
    refine ⟨hl, Nat.le_add_right_of_le ht, hd.trans ?_⟩
    simp only [State.horizon]
    split <;> simp
  case start hp => exact h.unlaunched (hu hp (by decide)) (by simp [Pc.launched]) fun _ _ => id
  case launch hp =>
    exact h.unlaunched (hu hp (by decide)) (fun _ => Int64.le_refl _) fun _ _ => id
  case buildErr site _ hp _ =>
    cases site
    case start =>
      exact h.unlaunched (hu hp (by decide)) (by simp [State.buildErr, Pc.launched]) fun _ _ => id
    case reconnect =>
      exact h.move (le_growBackoff (hb hp rfl) o.reconnectMin_le) rfl rfl rfl rfl fun _ _ => id
    case rotate => exact h.move (hb hp rfl) rfl rfl rfl rfl fun _ _ => id
  case buildOk site _ _ hp _ =>
    cases site
    case start =>
      exact h.unlaunched (hu hp (by decide)) (by simp [State.buildOk, Pc.launched])
        (by simp [State.buildOk])
    case reconnect | rotate => exact h.move (hb hp rfl) rfl rfl rfl rfl (by simp [State.buildOk])
  case swap site hp =>
    cases site
    case start =>
      exact h.unlaunched (hu hp (by simp [Pc.launched])) (by simp [State.swapDevice, Pc.launched])
        fun _ _ => id
    case reconnect | rotate => exact h.move (hb hp rfl) rfl rfl rfl rfl fun _ _ => id
  case closed hp => exact h.closedStep (hb hp rfl)
  case enterBackoff hp _ =>
    have hm := Duration.toNat_mono (hb hp rfl)
    refine ⟨fun _ => hb hp rfl, fun t d hl => ?_⟩
    have ⟨_, ht, _⟩ := h.closed t d hl
    exact ⟨rfl, ht, Nat.add_le_add ht hm⟩
  -- The timer goes off at the deadline at the earliest.
  case settleTimer hd hp | backoffTimer hd hp =>
    refine ⟨fun _ => hb hp rfl, fun t d hl => ?_⟩
    have ⟨_, ht, hw⟩ := h.closed t d hl
    simp only [State.horizon, hp] at hw
    exact ⟨rfl, ht, hw.trans hd⟩
  case ctxDone hl | stopCh hl | rotateCh hl =>
    exact h.move (h.backoff hl.launched) rfl rfl rfl rfl fun _ _ => id
  case tornDown exit hp _ => cases exit <;> exact h.move (hb hp rfl) rfl rfl rfl rfl fun _ _ => id
  case healthy => exact h.move (Int64.le_refl _) rfl rfl rfl rfl fun _ _ => id
  case skip hp _ => cases hp <;> exact h.move (hb ‹_› rfl) rfl rfl rfl rfl fun _ _ => id
  case enterPoll hp _ | pollTimer hp | settleDone hp | unhealthy hp _ | teardown hp _ | close hp |
      precheck hp _ | lock hp | recheck hp _ | notLive hp _ | unpublish hp _ =>
    exact h.move (hb hp rfl) rfl rfl rfl rfl fun _ _ => id

theorem paused (r : (system o).Reachable s) : Paused o s :=
  r.invariant .init fun _ _ _ h hs => (Step.of_step hs).paused h

-- How long ago the devices were closed when the next one is built.
theorem pause_le_of_build {site : Build} (r : (system o).Reachable s) (hp : s.pc = .build site)
    (hm : (t, .closed d) ∈ s.ledger) : t + (Pc.build site).pause o ≤ s.now := by
  have ⟨_, _, hw⟩ := (paused r).closed t d hm
  simpa [State.horizon, hp] using hw

end Tunnelpool.Supervisor
