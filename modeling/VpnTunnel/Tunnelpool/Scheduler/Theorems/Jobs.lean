import Mathlib.Tactic.Abel
import VpnTunnel.Tunnelpool.Scheduler.Jobs
import VpnTunnel.Tunnelpool.Scheduler.Theorems.Shape

namespace Tunnelpool.Scheduler

variable {o : Options} {s s₁ s₂ : State} {e : Event} {i : CallID} {c : Call} {r : RouteReply}
  {reqs : List RouteRequest} {running : Bool}

-- What has been sent to a call was sent to it once for each of its requests.
theorem deliver.sum_grants {calls : List Call} (h : ∀ q ∈ reqs, ∃ c, calls[q.replyCh]? = some c) :
    ((deliver r calls reqs).map Call.grants).sum =
      (calls.map Call.grants).sum + if r.isGrant then reqs.length else 0 := by
  induction reqs generalizing calls
  case nil => simp
  case cons q reqs hi =>
    have ⟨c, hc⟩ := h q (List.mem_cons_self ..)
    have hs : ∀ q' ∈ reqs, ∃ c', (deliver r calls [q])[q'.replyCh]? = some c' := by
      intro q' hq'
      have ⟨c', hc'⟩ := h q' (List.mem_cons_of_mem _ hq')
      exact ⟨_, by rw [deliver.getElem?, hc', Option.map_some]⟩
    refine (hi hs).trans ?_
    have hm := List.sum_map_modify (f := Call.grants)
      (g := fun c => { c with replyCh := c.replyCh ++ [r] }) hc
    have hd : (deliver r calls [q]) = calls.modify q.replyCh _ := rfl
    rw [hd]
    cases hr : r.isGrant <;> simp [Call.grants, hr] at hm ⊢ <;> omega

namespace Jobs

variable {j j₁ j₂ : Jobs}

namespace Valid

-- The invariant after call `i` has changed, and possibly has sent its request.
theorem update (v : j.Valid) {f : Call → Call} {waiting : Multiset RouteRequest} {a n : Nat}
    (hc : j.calls[i]? = some c) (hr : ∀ c k, (f c).request k = c.request k)
    (hw : ∀ q ∈ waiting, q ∈ j.waiting ∨ q = c.request i)
    (hn : ∀ k, k ≠ i → waiting.countP (·.replyCh = k) = j.waiting.countP (·.replyCh = k))
    (ht : waiting.countP (·.replyCh = i) + (f c).replyCh.length = (f c).tickets)
    (ha : ∀ r, r ∈ c.replyCh ∨ c.Got r → r ∈ (f c).replyCh ∨ (f c).Got r) :
    Valid ⟨waiting, j.calls.modify i f, a, n, j.answers⟩ where
  request := by
    intro q hq
    have hm := List.getElem?_modify f i j.calls
    cases hw q hq
    case inr h => exact ⟨f c, by simp [h, Call.request, hm, hc], by simp [h, hr]; rfl⟩
    case inl h =>
      have ⟨c', hc', hq'⟩ := v.request q h
      simp only [hm, hc']
      split
      case isTrue  => exact ⟨f c', rfl, hr c' _ ▸ hq'⟩
      case isFalse => exact ⟨c', rfl, hq'⟩
  tickets := by
    intro k c' h
    cases List.getElem?_modify_eq_some.mp h
    case inl h =>
      have ⟨hk, c'', hc'', hf⟩ := h
      subst hk hf
      cases Option.some.inj <| hc ▸ hc''
      exact ht
    case inr h => exact hn k h.left.symm ▸ v.tickets k c' h.right
  answers := by
    intro k r h
    have ⟨c', hc', h'⟩ := v.answers k r h
    simp only [List.getElem?_modify, hc']
    split
    case isFalse => exact ⟨c', rfl, h'⟩
    case isTrue hk =>
      subst hk
      cases Option.some.inj <| hc ▸ hc'
      exact ⟨f c, rfl, ha r h'⟩

theorem serve (v : j.Valid) {rest : Multiset RouteRequest} (h : j.waiting = reqs + rest) {a n : Nat} :
    Valid ⟨rest, deliver r j.calls reqs, a, n, (reqs.map (·.replyCh, r)).reverse ++ j.answers⟩ where
  request := by
    intro q hq
    have ⟨c, hc, hq⟩ := v.request q (h ▸ Multiset.mem_add.mpr (.inr hq))
    rw [deliver.getElem?, hc]
    exact ⟨_, rfl, hq⟩
  tickets := by
    intro i c hc
    rw [deliver.getElem?, Option.map_eq_some_iff] at hc
    have ⟨c', hc', hc⟩ := hc
    have ht := v.tickets i c' hc'
    subst hc
    simp only [h, Multiset.countP_add, Multiset.coe_countP] at ht
    simp only [Call.tickets, List.length_append, List.length_replicate] at ht ⊢
    omega
  answers := by
    intro i r' ha
    rw [deliver.getElem?]
    cases List.mem_append.mp ha
    case inl ha =>
      have ⟨q, hq, hr⟩ := List.mem_map.mp (List.mem_reverse.mp ha)
      cases hr
      have ⟨c, hc, _⟩ := v.request q (h ▸ Multiset.mem_add.mpr (.inl hq))
      have hp : reqs.countP (·.replyCh = q.replyCh) ≠ 0 := by
        simpa [List.countP_eq_zero] using ⟨q, hq, rfl⟩
      rw [hc]
      exact ⟨_, rfl, .inl <| by simp [hp]⟩
    case inr ha =>
      have ⟨c, hc, hr⟩ := v.answers i r' ha
      rw [hc]
      exact ⟨_, rfl, hr.imp_left <| List.mem_append_left _⟩

end Valid

theorem Step.preserves_valid (st : Step running j₁ j₂) (v : j₁.Valid) : j₂.Valid := by
  cases st
  case refl      => exact v
  case countDown => exact ⟨v.request, v.tickets, v.answers⟩
  case serve h   => exact v.serve h
  case call c hr ht _ =>
    refine ⟨?_, ?_, ?_⟩
    · intro q hq
      obtain ⟨c', hc', hq⟩ := v.request q hq
      exact ⟨c', List.getElem?_snoc_eq_some.mpr (.inl hc'), hq⟩
    · intro i c' hc'
      cases List.getElem?_snoc_eq_some.mp hc'
      case inl h => exact v.tickets i c' h
      case inr h =>
        obtain ⟨hi, h⟩ := h
        subst h
        simp only [hr, ht, List.length_nil, Nat.add_zero, Multiset.countP_eq_zero]
        intro q hq hi'
        obtain ⟨_, hc, _⟩ := v.request q hq
        obtain ⟨hl, _⟩ := List.getElem?_eq_some_iff.mp hc
        exact absurd (hi' ▸ hi ▸ hl) (lt_irrefl _)
    · intro i r hr
      obtain ⟨c', hc', hr⟩ := v.answers i r hr
      exact ⟨c', List.getElem?_snoc_eq_some.mpr (.inl hc'), hr⟩
  case send i c hc hp =>
    have ht := v.tickets i c hc
    simp only [Call.tickets, hp, Nat.add_eq_zero_iff] at ht
    refine v.update hc (fun _ _ => rfl) (by simp [or_comm]) ?_ ?_ ?_
    · intro k hk
      exact Multiset.countP_cons_of_neg _ hk.symm
    · simp [Call.request, Call.tickets, ht]
    · intro r hr
      exact hr.imp_right <| by cases r <;> simp [Call.Got, hp]
  case receive i c r rs hc hp hr =>
    have ht := v.tickets i c hc
    simp only [Call.tickets, hp, hr, List.length_cons] at ht
    refine v.update hc (fun _ _ => rfl) (fun _ => .inl) (fun _ _ => rfl) ?_ ?_
    · have hl : Multiset.countP (·.replyCh = i) j₁.waiting + rs.length = 0 := by omega
      cases r <;> exact hl
    · intro r' hr'
      simp only [hr, List.mem_cons] at hr'
      cases hr'
      case inr h => cases r' <;> simp [Call.Got, hp] at h
      case inl h =>
        cases h
        case inr h => exact .inl h
        case inl h => cases h; cases r <;> simp [Call.Got, RouteReply.phase]
  case cancelSending i c hc hp =>
    have ht := v.tickets i c hc
    simp only [Call.tickets, hp] at ht
    refine v.update hc (fun _ _ => rfl) (fun _ => .inl) (fun _ _ => rfl) ht fun r hr => ?_
    exact hr.imp_right <| by cases r <;> simp [Call.Got, hp]
  case cancelWaiting i c hc hp =>
    have ht := v.tickets i c hc
    simp only [Call.tickets, hp] at ht
    refine v.update hc (fun _ _ => rfl) (fun _ => .inl) (fun _ _ => rfl) ht fun r hr => ?_
    exact hr.imp_right <| by cases r <;> simp [Call.Got, hp]
  case release i c hc hp | releaseDone i c _ hc hp =>
    have ht := v.tickets i c hc
    obtain ⟨d, res, hp⟩ : ∃ d res, c.phase = .granted d res := by
      cases h : c.phase <;> simp [h, Phase.isGranted] at hp ⊢
    simp only [Call.tickets, hp] at ht
    refine v.update hc (fun _ _ => rfl) (fun _ => .inl) (fun _ _ => rfl) ht fun r hr => ?_
    exact hr.imp_right <| by cases r <;> simp [Call.Got, hp]

theorem Accounted.modify (a : j.Accounted) {f : Call → Call} {waiting : Multiset RouteRequest} {n : Nat}
    (hc : j.calls[i]? = some c) (h : (f c).grants + n = c.grants) :
    Accounted ⟨waiting, j.calls.modify i f, j.activeJobs, j.releaseCh + n, j.answers⟩ := by
  have hm := List.sum_map_modify (f := Call.grants) (g := f) hc
  simp only [Accounted] at a ⊢
  omega

theorem Step.preserves_accounted (st : Step true j₁ j₂) (v : j₁.Valid) (a : j₁.Accounted) :
    j₂.Accounted := by
  cases st
  case refl => exact a
  case call c hr _ hp =>
    simp [Accounted, Call.grants, hr, hp] at a ⊢
    exact a
  case countDown h =>
    simp only [Accounted] at a ⊢
    omega
  case serve r reqs rest h =>
    have hq : ∀ q ∈ reqs, ∃ c, j₁.calls[q.replyCh]? = some c := by
      intro q hq
      have ⟨c, hc, _⟩ := v.request q (h ▸ Multiset.mem_add.mpr (.inl hq))
      exact ⟨c, hc⟩
    simp only [Accounted, deliver.sum_grants hq] at a ⊢
    omega
  case releaseDone => contradiction
  case receive r _ hc hp hr =>
    refine a.modify (n := 0) hc ?_
    cases r <;> simp [Call.grants, RouteReply.phase, RouteReply.isGrant, Phase.isGranted, hp, hr,
      List.countP_cons]
  case release hc hp => exact a.modify hc (by simp only [Call.grants, hp]; rfl)
  case send hc hp | cancelSending hc hp | cancelWaiting hc hp =>
    exact a.modify (n := 0) hc (by simp [Call.grants, Phase.isGranted, hp])

-- What a branch of `Run` does: it answers some of the requests, or it receives a release.
inductive Serves (j : Jobs) : Jobs → Prop
  | refl : Serves j j
  | serve {r : RouteReply} {reqs : List RouteRequest} {rest : Multiset RouteRequest} :
    (j.waiting = reqs + rest) →
    Serves j { j with
      waiting    := rest
      calls      := deliver r j.calls reqs
      activeJobs := j.activeJobs + if r.isGrant then reqs.length else 0
      answers    := (reqs.map (·.replyCh, r)).reverse ++ j.answers }
  | countDown : (0 < j.releaseCh) →
    Serves j { j with activeJobs := j.activeJobs - 1, releaseCh := j.releaseCh - 1 }

theorem Serves.step (sv : Serves j₁ j₂) : Step running j₁ j₂ := by
  cases sv
  case refl        => exact .refl
  case serve h     => exact .serve h
  case countDown h => exact .countDown h

theorem Serves.of_waiting {w : Multiset RouteRequest} (h : j.waiting = w) :
    Serves j { j with waiting := w } :=
  h ▸ .refl

end Jobs

section Waiting

-- Where a request waits does not matter.

theorem enqueuePending_waiting {q : RouteRequest} {reqCh : List RouteRequest}
    (h : s.reqCh = q :: reqCh) : s.waiting = (enqueuePending q { s with reqCh }).waiting := by
  simp only [State.waiting, enqueuePending, h, Queues.all_enqueue, ← Multiset.cons_coe]
  simp only [Multiset.cons_add, Multiset.add_cons]

theorem picked_waiting {z : Zone} (h : s.settleBatch = []) :
    s.waiting = s.reqCh + s.pending.queued z + Queues.all (s.pending.erase z) := by
  rw [State.waiting, h, Queues.all_eq_erase_add (k := z)]
  simp only [Multiset.coe_nil, add_zero]
  abel

theorem stopped_waiting :
    s.waiting = stopped s + (s.reqCh + ↑(if s.settling then [] else s.settleBatch)) := by
  simp only [State.waiting, stopped, Queues.all, ← Multiset.coe_add]
  split <;> simp only [Multiset.coe_nil] <;> abel

theorem settleBatch_waiting :
    s.waiting = s.settleBatch + (s.reqCh + ([] : List RouteRequest) + s.pending.all) := by
  simp only [State.waiting, Multiset.coe_nil]
  abel

theorem settleBatch_picked_waiting {z : Zone} :
    s.waiting =
      s.settleBatch + (s.reqCh + s.pending.queued z + Queues.all (s.pending.erase z)) := by
  rw [State.waiting, Queues.all_eq_erase_add (k := z)]
  abel

theorem send_jobs {q : RouteRequest} :
    ({ s with reqCh := s.reqCh ++ [q] }.setPhase i .waiting).jobs = { s.jobs with
      waiting := q ::ₘ s.waiting
      calls   := s.calls.modify i ({ · with phase := .waiting }) } := by
  simp only [State.jobs, State.waiting, State.setPhase, ← Multiset.coe_add, Multiset.coe_singleton,
    ← Multiset.singleton_add, Jobs.mk.injEq, and_self, and_true]
  abel

theorem teardown_jobs {n : Nat} : (teardown n s).jobs = s.jobs := by
  simp [State.jobs, State.waiting]

theorem beginSwitch_jobs {z : Zone} {p : ConfigPath} {n : Nat} :
    (beginSwitch o z p reqs n s).jobs = { s.jobs with waiting := s.reqCh + reqs + s.pending.all } := by
  simp [beginSwitch, State.jobs, State.waiting]

end Waiting

theorem loopStep_jobs (sh : Shape o s₁) (st : LoopStep o s₁ e s₂) : s₁.jobs.Serves s₂.jobs := by
  cases st
  case done =>
    have := @Jobs.Serves.serve s₁.jobs (.err .ctxErr) _ _ stopped_waiting
    simpa [State.jobs, State.waiting, failStopped, RouteReply.isGrant] using this
  case join hr _ _ =>
    apply Jobs.Serves.of_waiting
    simp only [State.jobs, State.waiting, hr, ← Multiset.cons_coe, ← Multiset.coe_add,
      Multiset.coe_nil, ← Multiset.singleton_add, add_zero]
    abel
  case enqueue hr _ _          => exact .of_waiting <| enqueuePending_waiting hr
  case defer hr _ _ _          => exact .of_waiting <| enqueuePending_waiting hr
  case deferGrace hr _ _ _ _ _ => exact .of_waiting <| enqueuePending_waiting hr
  case grant q reqCh d hr _ _ _ =>
    have hw : s₁.jobs.waiting = ↑[q] + State.waiting { s₁ with reqCh } := by
      simp only [State.jobs, State.waiting, hr, ← Multiset.cons_coe, Multiset.coe_nil,
        ← Multiset.singleton_add, add_zero]
      abel
    exact .serve (r := .ok d s₁.currentResolver) hw
  case switch q reqCh hr hs _ =>
    rw [beginSwitch_jobs]
    refine .of_waiting <| (picked_waiting (z := q.tunnelID) (sh.settled hs)).trans ?_
    simp only [hr, ← Multiset.cons_coe, Multiset.cons_add, Multiset.add_cons]
  case built  => exact .serve settleBatch_waiting
  case failed => exact .serve (r := .err (bringUpFailure s₁.settleZone)) settleBatch_waiting
  case failedNext =>
    rw [beginSwitch_jobs]
    exact .serve (r := .err (bringUpFailure s₁.settleZone)) settleBatch_picked_waiting
  case release h _ | releaseGrace h _ _ _ | releaseIdle h _ _ _ => exact .countDown h
  case graceSwitch z _ hg _ _ =>
    have hs := sh.grace hg.isSome
    rw [beginSwitch_jobs]
    exact .of_waiting <| picked_waiting (z := z) (sh.settled hs)
  case graceOver | idleSkip => exact .refl
  case idle =>
    rw [teardown_jobs]
    exact .refl

theorem step_jobs (sh : Shape o s₁) (h : step o s₁ e = some s₂) :
    Jobs.Step s₁.running s₁.jobs s₂.jobs := by
  cases step_elim h sh.pending_empty
  case tick    => exact .refl
  case refuse  => exact .call rfl rfl rfl
  case route   => exact .call rfl rfl rfl
  case loop st => exact (loopStep_jobs sh st).step
  case call hc st =>
    cases st
    case send hp _         => exact send_jobs ▸ .send hc hp
    case cancelSending hp  => exact .cancelSending hc hp
    case cancelWaiting hp  => exact .cancelWaiting hc hp
    case receive hp hr     => exact .receive hc hp hr
    case release hp _      => exact .release hc (by rw [hp]; rfl)
    case releaseDone hp hr => exact .releaseDone hr hc (by rw [hp]; rfl)

theorem jobs_valid (r : (system o).Reachable s) : s.jobs.Valid :=
  r.invariant_of_reachable (P := fun s => s.jobs.Valid)
    ⟨by simp [State.jobs, State.waiting, system, State.init], by simp [State.jobs, system, State.init],
      by simp [State.jobs, system, State.init]⟩
    fun _ _ _ r v h => (step_jobs (shape r) h).preserves_valid v

theorem running_of_step (sh : Shape o s₁) (h : step o s₁ e = some s₂) (hr : s₂.running) :
    s₁.running := by
  cases step_elim h sh.pending_empty
  case loop h _       => exact h
  case call st        => cases st <;> exact hr
  case tick           => exact hr
  case refuse | route => exact hr

theorem jobs_accounted (r : (system o).Reachable s) : s.running → s.jobs.Accounted :=
  r.invariant_of_reachable (P := fun s => s.running → s.jobs.Accounted) (fun _ => rfl) <| by
    intro s₁ e s₂ r a h hr
    have hr := running_of_step (shape r) h hr
    have st := step_jobs (shape r) h
    rw [hr] at st
    exact st.preserves_accounted (jobs_valid r) (a hr)

end Tunnelpool.Scheduler
