import VpnTunnel.Tunnelpool.Scheduler.Theorems.Jobs

namespace Tunnelpool.Scheduler

variable {o : Options} {s s₁ s₂ : State} {e : Event} {es : List Event} {i : CallID} {c : Call}
  {calls : List Call}

namespace State

-- The calls of `Route` that returned success and have not released yet.
def outstanding (s : State) : Nat :=
  s.calls.countP (·.phase.isGranted)

-- The grants in the reply channel of a caller that is still waiting for them.
def undelivered (s : State) : Nat :=
  (s.calls.map fun c => if c.phase = .waiting then c.replyCh.countP RouteReply.isGrant else 0).sum

def Exact (s : State) : Prop :=
  s.activeJobs = s.outstanding + s.undelivered + s.releaseCh

-- All callers have returned, those that were granted a device have released it, and the channels are
-- empty.
def Drained (s : State) : Prop :=
  (∀ c ∈ s.calls, c.phase ≠ .sending ∧ c.phase ≠ .waiting ∧ c.phase.isGranted = false) ∧
  s.reqCh = [] ∧ s.releaseCh = 0

instance : Decidable s.Exact :=
  inferInstanceAs (Decidable (_ = _))

instance : Decidable s.Drained :=
  inferInstanceAs (Decidable (_ ∧ _))

end State

-- The caller of the request has left while it was waiting for the reply.
def Gone (s : State) (q : RouteRequest) : Prop :=
  ∃ c, s.calls[q.replyCh]? = some c ∧ c.phase = .cancelledWaiting

-- A step loses a grant, if a caller leaves its grant in the reply channel, or if a request is granted
-- whose caller has left.
def LosesGrant (s : State) : Event → Prop
  | .cancel i =>
    ∃ c, s.calls[i]? = some c ∧ c.phase = .waiting ∧ ∃ r ∈ c.replyCh, r.isGrant
  | .loopRequest _ =>
    ∃ q reqCh d, s.reqCh = q :: reqCh ∧ s.settling = false ∧ s.currentDevice = some d ∧
      s.currentZone = q.tunnelID ∧ Gone s q
  | .loopSettle (.ok ..) .. =>
    ∃ q ∈ s.settleBatch, Gone s q
  | _ => False

def Call.Abandoned (c : Call) : Prop :=
  c.phase = .cancelledWaiting ∧ ∃ r ∈ c.replyCh, r.isGrant

def Abandoned (calls : List Call) : Prop :=
  ∃ i : CallID, ∃ c, calls[i]? = some c ∧ c.Abandoned

namespace Abandoned

theorem modify_iff {f : Call → Call} (hc : calls[i]? = some c) (hn : ¬c.Abandoned) :
    Abandoned (calls.modify i f) ↔ Abandoned calls ∨ (f c).Abandoned := by
  constructor
  · intro ⟨k, c', hc', ha⟩
    cases List.getElem?_modify_eq_some.mp hc'
    case inr h => exact .inl ⟨k, c', h.right, ha⟩
    case inl h =>
      have ⟨hk, c'', hc'', hf⟩ := h
      subst hk
      cases Option.some.inj <| hc ▸ hc''
      exact .inr (hf ▸ ha)
  · intro h
    cases h
    case inr h => exact ⟨i, f c, List.getElem?_modify_eq_some.mpr <| .inl ⟨rfl, c, hc, rfl⟩, h⟩
    case inl h =>
      have ⟨k, c', hc', ha⟩ := h
      have hk : i ≠ k := by
        intro hk
        subst hk
        cases Option.some.inj <| hc ▸ hc'
        exact hn ha
      exact ⟨k, c', List.getElem?_modify_eq_some.mpr <| .inr ⟨hk, hc'⟩, ha⟩

theorem snoc_iff (hn : ¬c.Abandoned) : Abandoned (calls ++ [c]) ↔ Abandoned calls := by
  simp only [Abandoned, List.getElem?_snoc_eq_some]
  constructor
  · intro ⟨i, c', hc', ha⟩
    exact ⟨i, c', hc'.resolve_right fun h => hn (h.right ▸ ha), ha⟩
  · intro ⟨i, c', hc', ha⟩
    exact ⟨i, c', .inl hc', ha⟩

theorem deliver_iff {r : RouteReply} {reqs : List RouteRequest} :
    Abandoned (deliver r calls reqs) ↔ Abandoned calls ∨ (r.isGrant ∧
      ∃ q ∈ reqs, ∃ c, calls[q.replyCh]? = some c ∧ c.phase = .cancelledWaiting) := by
  simp only [Abandoned, deliver.getElem?, Option.map_eq_some_iff]
  constructor
  · intro ⟨i, _, ⟨c, hc, he⟩, ha⟩
    subst he
    have ⟨hp, r', hr', hg⟩ := ha
    cases List.mem_append.mp hr'
    case inl h => exact .inl ⟨i, c, hc, hp, r', h, hg⟩
    case inr h =>
      have ⟨hn, h⟩ := List.mem_replicate.mp h
      subst h
      have ⟨q, hq, hi⟩ := List.countP_pos_iff.mp (Nat.pos_of_ne_zero hn)
      exact .inr ⟨hg, q, hq, c, of_decide_eq_true hi ▸ hc, hp⟩
  · intro h
    cases h
    case inl h =>
      have ⟨i, c, hc, hp, r', hr', hg⟩ := h
      exact ⟨i, _, ⟨c, hc, rfl⟩, hp, r', List.mem_append_left _ hr', hg⟩
    case inr h =>
      have ⟨hg, q, hq, c, hc, hp⟩ := h
      have hn : reqs.countP (·.replyCh = q.replyCh) ≠ 0 := by
        simpa [List.countP_eq_zero] using ⟨q, hq, rfl⟩
      refine ⟨q.replyCh, _, ⟨c, hc, rfl⟩, hp, r, List.mem_append_right _ ?_, hg⟩
      exact List.mem_replicate.mpr ⟨hn, rfl⟩

end Abandoned

-- Grants are abandoned by exactly the steps that lose them, and abandoned grants stay abandoned.
theorem step_abandoned (sh : Shape o s₁) (h : step o s₁ e = some s₂) (hr : s₂.running) :
    Abandoned s₂.calls ↔ Abandoned s₁.calls ∨ LosesGrant s₁ e := by
  cases step_elim h sh.pending_empty
  case tick   => simp [LosesGrant]
  case refuse => simp [LosesGrant, Abandoned.snoc_iff, Call.Abandoned]
  case route  => simp [LosesGrant, Abandoned.snoc_iff, Call.Abandoned]
  case call i c hc st =>
    cases st
    case cancelWaiting hp =>
      simp [State.setPhase, Abandoned.modify_iff hc, LosesGrant, Call.Abandoned, hc, hp]
    case receive r _ hp _ =>
      rw [Abandoned.modify_iff hc (by simp [Call.Abandoned, hp])]
      cases r <;> simp [LosesGrant, Call.Abandoned, RouteReply.phase]
    case send hp _ | cancelSending hp | release hp _ | releaseDone hp _ =>
      simp [State.setPhase, Abandoned.modify_iff hc, LosesGrant, Call.Abandoned, hc, hp]
  case loop hl st =>
    cases st
    case done => simp at hr
    case built | failed => simp [Abandoned.deliver_iff, LosesGrant, Gone, RouteReply.isGrant, buildFailed]
    case grant hq hs hd hz => 
      simp [Abandoned.deliver_iff, LosesGrant, Gone, RouteReply.isGrant, hq, hs, hd, hz]
    case failedNext => 
      simp [Abandoned.deliver_iff, LosesGrant, RouteReply.isGrant, buildFailed, beginSwitch]
    case join | enqueue | defer | deferGrace | switch => 
      simp_all [LosesGrant, beginSwitch, enqueuePending]
    all_goals simp [LosesGrant, beginSwitch]

theorem run_abandoned_iff (r : (system o).Run es s) :
    s.running → (Abandoned s.calls ↔ ¬(system o).Meets (fun s e => ¬LosesGrant s e) es) := by
  induction r
  case init =>
    intro _
    simp only [System.Meets.nil, not_true_eq_false, iff_false]
    intro ⟨i, c, hc, _⟩
    simp [system, State.init] at hc
  case step r h hi =>
    intro hr
    have sh := shape r.reachable
    rw [step_abandoned sh h hr, hi (running_of_step sh h hr), System.Meets.snoc_iff r]
    tauto

-- The jobs that are counted are outstanding, undelivered or abandoned.
theorem sum_grants_eq :
    (s.calls.map Call.grants).sum = s.outstanding + s.undelivered +
      (s.calls.map fun c => if c.phase = .waiting then 0 else c.replyCh.countP RouteReply.isGrant).sum := by
  simp only [State.outstanding, State.undelivered]
  induction s.calls
  case nil => rfl
  case cons c calls hi =>
    simp only [List.map_cons, List.sum_cons, List.countP_cons, hi, Call.grants]
    by_cases hw : c.phase = .waiting <;> cases c.phase.isGranted <;> simp [hw] <;> omega

theorem exact_iff (r : (system o).Reachable s) (hr : s.running) :
    s.Exact ↔ ¬Abandoned s.calls := by
  have ha := jobs_accounted r hr
  have v := jobs_valid r
  simp only [Jobs.Accounted, State.jobs, sum_grants_eq] at ha
  have he : s.Exact ↔
      (s.calls.map fun c => if c.phase = .waiting then 0 else c.replyCh.countP RouteReply.isGrant).sum = 0 := by
    rw [State.Exact]
    omega
  rw [he, List.sum_eq_zero_iff]
  constructor
  · rintro h ⟨i, c, hc, hp, r, hr, hg⟩
    have h := h _ (List.mem_map_of_mem (List.mem_of_getElem? hc))
    simp only [hp, reduceCtorEq, if_false, List.countP_eq_zero] at h
    exact h r hr hg
  · intro h n hn
    obtain ⟨c, hm, hn⟩ := List.mem_map.mp hn
    obtain ⟨i, hc⟩ := List.mem_iff_getElem?.mp hm
    have ht := v.tickets i c hc
    subst hn
    split
    case isTrue     => rfl
    case isFalse hw =>
      refine List.countP_eq_zero.mpr fun r hr hg => h ⟨i, c, hc, ?_, r, hr, hg⟩
      have := List.length_pos_of_mem hr
      cases hp : c.phase <;> simp [Call.tickets, hp] at ht hw ⊢ <;> simp [ht] at this

-- Nobody holds a grant or waits for one anymore.
theorem drained_outstanding (h : s.Drained) : s.outstanding + s.undelivered + s.releaseCh = 0 := by
  have ho : s.outstanding = 0 := by
    simpa [State.outstanding, List.countP_eq_zero] using fun c hc => (h.left c hc).right.right
  have hu : s.undelivered = 0 := by
    simp only [State.undelivered, List.sum_eq_zero_iff, List.mem_map]
    intro n ⟨c, hc, hn⟩
    rw [← hn, if_neg (h.left c hc).right.left]
  rw [ho, hu, h.right.right]

-- The number of active jobs is exact for as long as no grant is lost. After that, it never is.
theorem activeJobs_exact_iff (r : (system o).Run es s) (hr : s.running) :
    (s.Exact ↔ (system o).Meets (fun s e => ¬LosesGrant s e) es) ∧
    (s.Drained → (s.activeJobs = 0 ↔ (system o).Meets (fun s e => ¬LosesGrant s e) es)) := by
  have he : s.Exact ↔ (system o).Meets (fun s e => ¬LosesGrant s e) es := by
    rw [exact_iff r.reachable hr, run_abandoned_iff r hr, not_not]
  refine ⟨he, fun hd => ?_⟩
  rw [← he, State.Exact, drained_outstanding hd]

-- A request of zone `a` is granted and received.
def grantRun : List Event :=
  [.route "a", .send 0, .loopRequest 0, .tick 5, .loopSettle (.ok true true) 0 0, .receive 0]

theorem grantRun_isSome : ((system .twoZones).exec grantRun).isSome := by
  decide

theorem activeJobs_exact_iff_grantRun :
    let s := ((system .twoZones).exec grantRun).get grantRun_isSome
    s.running ∧ s.activeJobs = 1 ∧ (system .twoZones).Meets (fun s e => ¬LosesGrant s e) grantRun :=
  have h := activeJobs_exact_iff (.of_isSome grantRun_isSome) (by decide)
  ⟨by decide, by decide, h.left.mp (by decide)⟩

-- A request of zone `a` is granted after its caller has left.
def lostGrantRun : List Event :=
  [.route "a", .send 0, .loopRequest 0, .cancel 0, .tick 5, .loopSettle (.ok true true) 0 0]

theorem lostGrantRun_isSome : ((system .twoZones).exec lostGrantRun).isSome := by
  decide

theorem activeJobs_not_exact :
    ∃ s, (system .twoZones).Run lostGrantRun s ∧ s.running ∧ s.Drained ∧ ¬s.Exact ∧
      s.activeJobs = 1 :=
  ⟨_, .of_isSome lostGrantRun_isSome, by decide, by decide, by decide, by decide⟩

end Tunnelpool.Scheduler
