import VpnTunnel.Tunnelpool.Scheduler.Theorems.Queue

namespace Tunnelpool.Scheduler

variable {o : Options} {s s₁ s₂ : State} {e : Event} {es es' : List Event} {l : List RouteRequest}
  {q : RouteRequest} {z : Zone} {n took : Nat}

-- A switch that is going on ends with these events.
def Event.settles : Event → Bool
  | .loopSettle .. | .loopDone _ => true
  | _                            => false

-- What a step does to the batch of a switch that is going on.
structure Grows (s₁ s₂ : State) (new : List RouteRequest) : Prop where
  settling : s₂.settling
  zone     : s₂.settleZone = s₁.settleZone
  batch    : s₂.settleBatch = s₁.settleBatch ++ new.filter (·.tunnelID = s₁.settleZone)

theorem Grows.refl (hs : s.settling) : Grows s s [] :=
  ⟨hs, rfl, by simp⟩

theorem Grows.trans {s₃ : State} {new₁ new₂ : List RouteRequest} (g₁ : Grows s₁ s₂ new₁)
    (g₂ : Grows s₂ s₃ new₂) : Grows s₁ s₃ (new₁ ++ new₂) where
  settling := g₂.settling
  zone     := g₂.zone.trans g₁.zone
  batch    := by rw [g₂.batch, g₁.batch, g₁.zone, List.filter_append, List.append_assoc]

theorem Grows.of_step (sh : Shape o s₁) (h : step o s₁ e = some s₂) (hs : s₁.settling)
    (he : ¬e.settles) : Grows s₁ s₂ (taken s₁ e) := by
  have hg (hf : Fired s₁.graceTimer s₁.now) : s₁.settling = false :=
    sh.grace hf.isSome
  cases step_elim h sh.pending_empty
  case tick | refuse | route => exact ⟨hs, rfl, by simp [taken]⟩
  case call st => cases st <;> exact ⟨hs, rfl, by simp [taken, State.setPhase]⟩
  case loop st =>
    cases st
    case join hq _ hz    => exact ⟨hs, rfl, by simp [taken, hq, hz]⟩
    case enqueue hq _ hz => exact ⟨hs, rfl, by simp [taken, hq, hz, enqueuePending]⟩
    case graceOver hf | graceSwitch hf _ _ => simp [hg hf] at hs
    case release | idleSkip => exact ⟨hs, rfl, by simp [taken]⟩
    case idle => exact ⟨by simpa using hs, by simp, by simp [taken]⟩
    all_goals simp_all [Event.settles]

theorem Grows.of_run (r : (system o).Run es s₁) (hs : s₁.settling) (he : ∀ e ∈ es', ¬e.settles)
    (r' : (system o).Run (es ++ es') s₂) :
    ∃ new, received o (es ++ es') = received o es ++ new ∧ Grows s₁ s₂ new := by
  induction es' using List.reverseRecOn generalizing s₂
  case nil =>
    rw [List.append_nil] at r' ⊢
    cases r.deterministic r'
    exact ⟨[], by simp, .refl hs⟩
  case append_singleton es' e hi =>
    rw [← List.append_assoc] at r' ⊢
    have ⟨s', r', h⟩ := r'.snoc_elim
    have ⟨new, hn, g⟩ := hi (fun e' he' => he e' (by simp [he'])) r'
    refine ⟨new ++ taken s' e, ?_, ?_⟩
    · rw [received_snoc r', hn, List.append_assoc]
    · exact g.trans <| .of_step (shape r'.reachable) h g.settling (he e (by simp))

-- If the builder fails, then all requests of the batch are told so, and no others.
theorem answers_of_failure (r : (system o).Reachable s₁)
    (h : step o s₁ (.loopSettle .err took n) = some s₂) :
    s₂.answers =
      (s₁.settleBatch.map (·.replyCh, .err (bringUpFailure s₁.settleZone))).reverse ++ s₁.answers := by
  cases step_elim h (shape r).pending_empty
  case call st => cases st
  case loop st =>
    cases st
    case failed     => rfl
    case failedNext => simp [beginSwitch, buildFailed]

-- The request that was received first among those that are pending.
def oldest (o : Options) (es : List Event) (s : State) : Option RouteRequest :=
  (received o es).find? fun q => q ∈ s.pending.queued q.tunnelID

theorem Head.oldest_eq (hd : Head s l) (hl : l.Sublist (received o es))
    (r : (system o).Run es s) : oldest o es s = l.head? := by
  have hn : (received o es).Nodup := (received_nodup r).of_map _
  rw [← hl.filter_mem hn, List.head?_filter, oldest]
  simp only [hd.backlog.mem_queued]

-- The queues keep the order in which the requests were received.
theorem Head.queued_eq (hd : Head s l) (hl : l.Sublist (received o es)) (r : (system o).Run es s) :
    s.pending.queued z = (received o es).filter (· ∈ s.pending.queued z) := by
  have hq : (s.pending.queued z).Sublist (received o es) :=
    (hd.backlog.queued z ▸ List.filter_sublist).trans hl
  exact (hq.filter_mem ((received_nodup r).of_map _)).symm

-- A switch to the next zone.
structure Switches (o : Options) (es : List Event) (s₁ s₂ : State) (q : RouteRequest) : Prop where
  oldest  : oldest o es s₁ = some q
  zone    : s₂.settleZone = q.tunnelID
  batch   : s₂.settleBatch = s₁.pending.queued q.tunnelID
  order   : s₂.settleBatch = (received o es).filter (· ∈ s₁.pending.queued q.tunnelID)
  pending : s₂.pending = s₁.pending.erase q.tunnelID

theorem Head.switches (hd : Head s₁ l) (hl : l.Sublist (received o es)) (r : (system o).Run es s₁)
    {x : Zone} (hx : ∀ q ∈ l, q.tunnelID ≠ x) (h : nextZone x s₁ = some z) {p : ConfigPath}
    {s : State} (hp : s.pending = s₁.pending.erase z) :
    ∃ q, Switches o es s₁ (Scheduler.beginSwitch o z p (s₁.pending.queued z) n s) q := by
  have ⟨q, l', hq, hz⟩ := hd.next hx h
  subst hz
  refine ⟨q, by rw [hd.oldest_eq hl r, hq, List.head?_cons], rfl, rfl, hd.queued_eq hl r, ?_⟩
  simpa [Scheduler.beginSwitch] using hp

-- `Run` goes on with the next zone when the grace period is over, and when the builder has failed.
def Event.picks : Event → Bool
  | .loopGrace _ | .loopSettle .err .. => true
  | _                                  => false

theorem switches_of_step (r : (system o).Run es s₁) (h : step o s₁ e = some s₂) (he : e.picks)
    (hs : s₂.settling) : ∃ q, Switches o es s₁ s₂ q := by
  have sh := shape r.reachable
  cases step_elim h sh.pending_empty
  case tick | refuse | route => simp [Event.picks] at he
  case call st => cases st <;> simp [Event.picks] at he
  case loop hr st =>
    have c := control r.reachable hr
    have ⟨l, hd, hl⟩ := head r hr
    have hg (hf : Fired s₁.graceTimer s₁.now) : s₁.graceTimer.isSome :=
      hf.isSome
    cases st
    case failed => simp [buildFailed] at hs
    case failedNext hz _ => exact hd.switches hl r (hd.ne_empty sh) hz rfl
    case graceOver hf => simp [sh.grace (hg hf)] at hs
    case graceSwitch hz hf _ _ => exact hd.switches hl r (hd.live (c.grace (hg hf))) hz rfl
    all_goals simp [Event.picks] at he

theorem switches_in_order (r : (system o).Run es s₁) (h : step o s₁ e = some s₂) (he : e.picks)
    (hs : s₂.settling) :
    ∃ q, oldest o es s₁ = some q ∧ s₂.settleZone = q.tunnelID ∧
      s₂.settleBatch = s₁.pending.queued q.tunnelID ∧
      s₂.settleBatch = (received o es).filter (· ∈ s₁.pending.queued q.tunnelID) ∧
      s₂.pending = s₁.pending.erase q.tunnelID ∧
      ∀ es' s₃, (∀ e' ∈ es', ¬e'.settles) → (system o).Run (es ++ [e] ++ es') s₃ →
        s₃.settleZone = q.tunnelID ∧
        (∃ new, received o (es ++ [e] ++ es') = received o es ++ new ∧
          s₃.settleBatch = s₂.settleBatch ++ new.filter (·.tunnelID = q.tunnelID)) ∧
        (∀ q' ∈ s₃.settleBatch, q'.tunnelID = q.tunnelID) ∧
        ∀ took n s₄, step o s₃ (.loopSettle .err took n) = some s₄ →
          s₄.answers = (s₃.settleBatch.map (·.replyCh, .err (bringUpFailure q.tunnelID))).reverse ++
            s₃.answers := by
  have ⟨q, sw⟩ := switches_of_step r h he hs
  refine ⟨q, sw.oldest, sw.zone, sw.batch, sw.order, sw.pending, ?_⟩
  intro es' s₃ hn r₃
  have ⟨new, hr, g⟩ := Grows.of_run (r.step h) hs hn r₃
  have hz := g.zone.trans sw.zone
  refine ⟨hz, ⟨new, ?_, sw.zone ▸ g.batch⟩, ?_, ?_⟩
  · have ht : taken s₁ e = [] := by cases e <;> first | rfl | simp [Event.picks] at he
    rw [hr, received_snoc r, ht, List.append_nil]
  · intro q' hq'
    exact ((shape r₃.reachable).batch q' hq').left.trans hz
  · intro took n s₄ h₄
    exact hz ▸ answers_of_failure r₃.reachable h₄

-- Zone `b` cannot be brought up, while zones `a` and `b` have been asked for again.
def failureRun : List Event :=
  [.route "b", .send 0, .loopRequest 0, .route "a", .send 1, .loopRequest 0, .route "b", .send 2,
    .loopRequest 0, .route "a", .send 3, .loopRequest 0, .tick 5]

theorem failureRun_isSome : ((system .twoZones).exec failureRun).isSome := by
  decide

theorem failureRun_settle_isSome :
    (step .twoZones (((system .twoZones).exec failureRun).get failureRun_isSome)
      (.loopSettle .err 0 0)).isSome := by
  decide

theorem switches_in_order_failureRun :
    let s₁ := ((system .twoZones).exec failureRun).get failureRun_isSome
    let s₂ := (step .twoZones s₁ (.loopSettle .err 0 0)).get failureRun_settle_isSome
    ∃ q, oldest .twoZones failureRun s₁ = some q ∧ s₂.settleZone = q.tunnelID ∧
      s₂.settleBatch = s₁.pending.queued q.tunnelID := by
  have ⟨q, ho, hz, hb, _⟩ := switches_in_order (.of_isSome failureRun_isSome)
    (Option.some_get failureRun_settle_isSome).symm rfl (by decide)
  exact ⟨q, ho, hz, hb⟩

end Tunnelpool.Scheduler
