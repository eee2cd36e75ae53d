import VpnTunnel.Tunnelpool.Scheduler.Theorems.Received

namespace Tunnelpool.Scheduler

variable {o : Options} {s s₁ s₂ : State} {e : Event} {es : List Event} {i : CallID} {q : RouteRequest}

theorem mem_accepted_iff (r : (system o).Run es s) :
    .send i ∈ es ↔ ∃ q ∈ accepted o es, q.replyCh = i := by
  refine r.invariant_of_run
    (P := fun es _ => .send i ∈ es ↔ ∃ q ∈ accepted o es, q.replyCh = i) (by simp [accepted]) ?_
  intro es s₁ e s₂ r hi h
  have hs : .send i = e ↔ ∃ q ∈ sent s₁ e, q.replyCh = i := by
    constructor
    · intro he
      subst he
      simp only [system, step] at h
      obtain ⟨c, hc, _⟩ := Option.bind_eq_some_iff.mp h
      exact ⟨c.request i, by simp [sent, hc], rfl⟩
    · rintro ⟨q, hq, hi⟩
      rw [(sent_elim h hq).left, hi]
  simp only [accepted_snoc r, List.mem_append, List.mem_singleton, hi, hs, or_and_right, exists_or]

-- A request that waits has not been answered.
theorem not_answered (r : (system o).Run es s) (hq : q ∈ s.waiting) {reply : RouteReply} :
    (q.replyCh, reply) ∉ s.answers := by
  have hn : s.jobs.callers.Nodup := by
    rw [callers_eq_accepted r]
    exact (accepted_once r).nodup
  have ⟨_, _, hd⟩ := Multiset.nodup_add.mp hn
  intro ha
  exact Multiset.disjoint_left.mp hd (Multiset.mem_map_of_mem _ hq)
    (List.mem_map_of_mem (f := Prod.fst) ha)

-- What has been received is answered when `Run` returns, and the rest of `reqCh` never is.
theorem all_answered_iff (r : (system o).Run es s) (hr : s.running = false) :
    (∀ i, .send i ∈ es → ∃ reply, (i, reply) ∈ s.answers) ↔ s.reqCh = [] := by
  constructor
  · intro ha
    refine List.eq_nil_iff_forall_not_mem.mpr fun q hq => ?_
    have hs : .send q.replyCh ∈ es := by
      refine (mem_accepted_iff r).mpr ⟨q, ?_, rfl⟩
      rw [← received_append_reqCh r]
      exact List.mem_append_right _ hq
    obtain ⟨_, ha⟩ := ha _ hs
    exact not_answered r (by simp [State.waiting, hq]) ha
  · intro hq i hi
    obtain ⟨q, hm, hi⟩ := (mem_accepted_iff r).mp hi
    rw [← received_append_reqCh r, hq, List.append_nil] at hm
    have hc := count_places r hm
    obtain ⟨hb, hp⟩ := stopped_no_request r.reachable hr
    simp only [hb, hp, Queues.queued_empty, List.count_nil, Nat.zero_add] at hc
    obtain ⟨a, ha, hi'⟩ := List.countP_pos_iff.mp (hc ▸ Nat.one_pos)
    have hi' : a.1 = i := (of_decide_eq_true hi').trans hi
    exact ⟨a.2, hi' ▸ ha⟩

-- `Run` is only cancelled while no request waits in `reqCh`, and nobody sends a request afterwards.
def Heard (s : State) : Event → Prop
  | .loopDone _ => s.reqCh = []
  | .send _     => s.running
  | _           => True

instance : Decidable (Heard s e) :=
  match e with
  | .loopDone _ => inferInstanceAs (Decidable (_ = _))
  | .send _     => inferInstanceAs (Decidable (_ = _))
  | .tick _ | .route _ | .cancel _ | .receive _ | .release _ | .releaseDone _ | .loopRequest _
  | .loopSettle .. | .loopRelease | .loopGrace _ | .loopIdle _ => .isTrue trivial

theorem heard_of_step (sh : Shape o s₁) (h : step o s₁ e = some s₂) :
    ((s₁.running = false → s₁.reqCh = []) ∧ Heard s₁ e) ↔ (s₂.running = false → s₂.reqCh = []) := by
  cases step_elim h sh.pending_empty
  case tick | refuse | route => simp [Heard]
  case call st =>
    cases st
    case send => cases hr : s₁.running <;> simp [Heard, State.setPhase, hr]
    all_goals simp [Heard, State.setPhase]
  case loop hr st =>
    cases hr' : s₂.running
    case true =>
      refine iff_of_true ⟨by simp [hr], ?_⟩ (by simp)
      cases st <;> trivial
    case false =>
      obtain ⟨n, he, hs⟩ := st.done_of_stopped hr hr'
      subst he hs
      simp [hr, Heard, failStopped]

theorem meets_heard_iff (r : (system o).Run es s) :
    (system o).Meets Heard es ↔ (s.running = false → s.reqCh = []) := by
  refine r.invariant_of_run
    (P := fun es s => (system o).Meets Heard es ↔ (s.running = false → s.reqCh = []))
    (iff_of_true .nil (by simp [system, State.init])) ?_
  intro es s₁ e s₂ r hi h
  rw [System.Meets.snoc_iff r, hi]
  exact heard_of_step (shape r.reachable) h

theorem answered_iff_heard (r : (system o).Run es s) :
    (s.running = false → ∀ i, .send i ∈ es → ∃ reply, (i, reply) ∈ s.answers) ↔
      (system o).Meets Heard es := by
  rw [meets_heard_iff r]
  exact forall_congr' (all_answered_iff r)

-- The request is received before `Run` is cancelled.
def heardRun : List Event :=
  [.route "a", .send 0, .loopRequest 0, .loopDone 0]

theorem heardRun_isSome : ((system .twoZones).exec heardRun).isSome := by
  decide

theorem answered_iff_heard_heardRun :
    let s := ((system .twoZones).exec heardRun).get heardRun_isSome
    s.running = false ∧ ∀ i, .send i ∈ heardRun → ∃ reply, (i, reply) ∈ s.answers :=
  ⟨by decide, (answered_iff_heard (.of_isSome heardRun_isSome)).mpr (.of_exec (by decide)) (by decide)⟩

-- The request is in `reqCh` when `Run` is cancelled, or is sent afterwards. In both cases, the call waits
-- for a reply that never comes.
theorem unheard :
    ((system .twoZones).exec [.route "a", .send 0, .loopDone 0]).map
        (fun s => (s.running, s.calls.map (·.phase), s.answers)) = some (false, [.waiting], []) ∧
      ((system .twoZones).exec [.loopDone 0, .route "a", .send 0]).map
        (fun s => (s.running, s.calls.map (·.phase), s.answers)) = some (false, [.waiting], []) := by
  decide

end Tunnelpool.Scheduler
