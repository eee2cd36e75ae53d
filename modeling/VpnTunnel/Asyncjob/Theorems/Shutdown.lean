import VpnTunnel.Asyncjob.Theorems.Pool

namespace Asyncjob

open Pool (step system)

variable {o : Options} {p p₁ p₂ : Pool} {e : Event} {es : List Event} {k w : Nat} {c : Submit.Call}
  {worker : Worker}

namespace Submit.Phase

-- The call has found the pool open and has not returned yet.
def admitted : Submit.Phase → Bool
  | .get | .claim | .drain | .put _ | .add _ | .spawn _ => true
  | _                                                   => false

-- The call has registered its worker, but has not started it yet.
def registered : Submit.Phase → Bool
  | .spawn _ => true
  | _        => false

@[simp]
theorem not_admitted_stop (ph : Submit.Phase) : ph.stop.admitted = false := by
  cases ph <;> rfl

end Submit.Phase

-- The goroutine of the worker has not ended.
def Worker.Phase.running : Worker.Phase → Bool
  | .exited | .dead => false
  | _               => true

@[simp]
theorem Worker.Phase.not_running_stop (ph : Worker.Phase) : ph.stop.running = false := by
  cases ph <;> rfl

-- The events by which the pool starts a worker, calls the forwarder or writes to the store.
def Event.works : Event → Bool
  | .put .. | .spawn _ | .forward .. | .cas .. => true
  | _                                          => false

namespace Pool

def registered (p : Pool) : Nat :=
  p.calls.countP (·.phase.registered)

def running (p : Pool) : Nat :=
  p.workers.countP (·.phase.running)

-- A new process has no calls and no workers.
theorem stepRestart_quiet (h : p₁.stepRestart = some p₂) :
    (∀ c ∈ p₂.calls, ¬c.phase.admitted) ∧ ∀ worker ∈ p₂.workers, ¬worker.phase.running := by
  cases stepRestart_elim h
  constructor <;> simp

theorem registered_eq_zero (h : ∀ c ∈ p.calls, ¬c.phase.admitted) : p.registered = 0 := by
  refine List.countP_eq_zero.mpr fun c hc hr => h c hc ?_
  cases hp : c.phase <;> simp_all [Submit.Phase.registered, Submit.Phase.admitted]

-- The wait group counts the workers that run and those that have been registered.
theorem wg_eq (r : (system o).Reachable p) : p.wg = p.registered + p.running := by
  refine r.invariant (P := fun p => p.wg = p.registered + p.running) rfl ?_
  intro p₁ e p₂ hi h
  cases step_elim h
  case submit => simpa [registered, running, Submit.Phase.registered] using hi
  case call k c ph hc hp h =>
    have hr (ph') : (p₁.setCall k ph').registered + ph.registered.toNat =
        p₁.registered + ph'.registered.toNat :=
      hp ▸ countP_setCall (·.phase.registered) hc ph'
    have hk {ph'} (he : ph'.registered = ph.registered) :
        p₁.wg = (p₁.setCall k ph').registered + p₁.running := by
      have := he ▸ hr ph'
      omega
    cases h
    case add body =>
      have hr : (p₁.setCall k (.spawn body)).registered = p₁.registered + 1 := hr _
      change p₁.wg + 1 = (p₁.setCall k (.spawn body)).registered + p₁.running
      omega
    case spawn body =>
      have hr : (p₁.setCall k (.returned (.ok .pending))).registered + 1 = p₁.registered := hr _
      have hw : List.countP (·.phase.running)
          (p₁.workers ++ [⟨c.tag, cloneRequest c.req body, .forward⟩]) = p₁.running + 1 := by
        simp [running, Worker.Phase.running]
      change p₁.wg = (p₁.setCall k (.returned (.ok .pending))).registered +
        List.countP (·.phase.running) (p₁.workers ++ [_])
      omega
    all_goals exact hk rfl
  case worker w worker ph hw hp h =>
    have hr (ph') : (p₁.setWorker w ph').running + ph.running.toNat =
        p₁.running + ph'.running.toNat :=
      hp ▸ countP_setWorker (·.phase.running) hw ph'
    have hk {ph'} (he : ph'.running = ph.running) :
        p₁.wg = p₁.registered + (p₁.setWorker w ph').running := by
      have := he ▸ hr ph'
      omega
    cases h
    case done =>
      have hr : (p₁.setWorker w .exited).running + 1 = p₁.running := hr _
      change p₁.wg - 1 = p₁.registered + (p₁.setWorker w .exited).running
      omega
    all_goals exact hk rfl
  case gc h => cases h <;> exact hi
  case shutdown | drained | expired => exact hi
  case restart h =>
    have ⟨hc, hw⟩ := stepRestart_quiet h
    have hr : p₂.running = 0 := List.countP_eq_zero.mpr hw
    rw [registered_eq_zero hc, hr]
    cases stepRestart_elim h
    rfl

-- `Shutdown` stops waiting only when no call of `SubmitOrFetch` is between its check of the pool and its
-- return.
def Quiesced (p : Pool) (e : Event) : Prop :=
  e = .drained → ∀ c ∈ p.calls, ¬c.phase.admitted

instance : Decidable (Quiesced p e) :=
  inferInstanceAs (Decidable (_ → ∀ c ∈ p.calls, _))

-- After `Shutdown` has returned without an error, no worker runs and no call is under way that could
-- start one.
structure Stopped (p : Pool) : Prop where
  closed  : p.closed
  calls   : ∀ c ∈ p.calls, ¬c.phase.admitted
  workers : ∀ worker ∈ p.workers, ¬worker.phase.running

theorem Stopped.not_works (hs : Stopped p₁) (h : step o p₁ e = some p₂) : ¬e.works := by
  cases step_elim h
  case call c ph hc hp h =>
    have := hs.calls c (List.mem_of_getElem? hc)
    cases h <;> simp_all [Event.works, Submit.Phase.admitted]
  case worker worker ph hw hp h =>
    have := hs.workers worker (List.mem_of_getElem? hw)
    cases h <;> simp_all [Worker.Phase.running]
  case gc h => cases h <;> simp [Event.works]
  all_goals simp [Event.works]

theorem Stopped.step (hs : Stopped p₁) (h : step o p₁ e = some p₂) (he : e ≠ .restart) :
    Stopped p₂ := by
  cases step_elim h
  case submit =>
    refine ⟨hs.closed, ?_, hs.workers⟩
    intro c hc
    cases List.mem_append.mp hc
    case inl hc => exact hs.calls c hc
    case inr hc =>
      cases List.mem_singleton.mp hc
      simp [Submit.Phase.admitted]
  case call k c ph hc hp h =>
    -- All that is left for a call to do is to find that the pool is closed.
    have := hs.calls c (List.mem_of_getElem? hc)
    cases h <;> simp only [hp, Submit.Phase.admitted, not_true_eq_false] at this
    case check hn => exact absurd hs.closed hn
    case closed =>
      refine ⟨hs.closed, ?_, hs.workers⟩
      intro c' hc'
      have ⟨i, hi⟩ := List.getElem?_of_mem hc'
      cases List.getElem?_modify_eq_some.mp hi
      case inl hi =>
        have ⟨_, _, _, hx⟩ := hi
        simp [← hx, Submit.Phase.admitted]
      case inr hi => exact hs.calls c' (List.mem_of_getElem? hi.right)
  case worker worker ph hw hp h =>
    have := hs.workers worker (List.mem_of_getElem? hw)
    cases h <;> simp [hp, Worker.Phase.running] at this
  case gc h => cases h <;> exact ⟨hs.closed, hs.calls, hs.workers⟩
  case shutdown => exact ⟨rfl, hs.calls, hs.workers⟩
  case drained | expired => exact ⟨hs.closed, hs.calls, hs.workers⟩
  case restart => contradiction

theorem closed_of_shutdown (r : (system o).Reachable p) (hs : p.shutdown ≠ .notCalled) : p.closed := by
  refine r.invariant (P := fun p => p.shutdown ≠ .notCalled → p.closed) (absurd rfl) ?_ hs
  intro p₁ e p₂ hi h hs
  cases step_elim h
  case submit => exact hi hs
  case call h => cases h <;> exact hi hs
  case worker h => cases h <;> exact hi hs
  case gc h => cases h <;> exact hi hs
  case shutdown => rfl
  case drained hw _ => exact hi (by simp [hw])
  case expired hw => exact hi (by simp [hw])
  case restart h =>
    cases stepRestart_elim h
    exact absurd rfl hs

theorem Stopped.of_drained (r : (system o).Reachable p₁) (hq : Quiesced p₁ .drained)
    (hs : p₁.shutdown = .waiting) (hw : p₁.wg = 0) :
    Stopped { p₁ with shutdown := .returned true } where
  closed  := closed_of_shutdown (p := p₁) r (by simp [hs])
  calls   := hq rfl
  workers := by
    have := wg_eq r
    have hr : p₁.running = 0 := by omega
    exact List.countP_eq_zero.mp hr

theorem stopped_of_quiesced (r : (system o).Run es p) (hq : (system o).Meets Quiesced es)
    (hs : p.shutdown = .returned true) : Stopped p := by
  refine r.invariant_of_meets (P := fun p => p.shutdown = .returned true → Stopped p)
    (by simp [system, init]) ?_ hq hs
  intro p₁ e p₂ r hi hq h hs
  by_cases hs' : p₁.shutdown = .returned true
  case pos =>
    refine (hi hs').step h ?_
    intro he
    subst he
    cases stepRestart_elim h
    contradiction
  case neg =>
    cases step_elim h
    case submit => contradiction
    case call h => cases h <;> contradiction
    case worker h => cases h <;> contradiction
    case gc h => cases h <;> contradiction
    case shutdown | expired => simp at hs
    case drained hw hg => exact .of_drained r hq hw hg
    case restart h =>
      cases stepRestart_elim h
      contradiction

theorem no_work_after_shutdown (r : (system o).Run es p) (hq : (system o).Meets Quiesced es) :
    (p.shutdown = .returned true → ∀ worker ∈ p.workers, ¬worker.phase.running) ∧
      (system o).Meets (fun p e => p.shutdown = .returned true → ¬e.works) es := by
  refine ⟨fun hs => (stopped_of_quiesced r hq hs).workers, ?_⟩
  intro es₁ e es₂ p₁ he r₁ hs
  subst he
  rw [List.append_cons] at r
  have ⟨_, r'⟩ := r.of_append
  have ⟨p₁', r'', h⟩ := r'.snoc_elim
  cases r₁.deterministic r''
  exact (stopped_of_quiesced r₁ hq.of_append hs).not_works h

-- The first call has returned, and the second one finds the pool closed.
def quiescedRun : List Event :=
  [.submit someTag someRequest, .check 0, .get 0 true, .claim 0, .drain 0, .put 0 0 true, .add 0,
   .spawn 0, .submit someTag someRequest, .shutdown, .forward 0 none, .cas 0 0 true, .release 0,
   .done 0, .drained, .check 1]

theorem quiescedRun_isSome : ((system .twoSlots).exec quiescedRun).isSome := by
  decide

theorem no_work_after_shutdown_quiescedRun :
    ((((system .twoSlots).exec quiescedRun).get quiescedRun_isSome).shutdown = .returned true →
      ∀ worker ∈ (((system .twoSlots).exec quiescedRun).get quiescedRun_isSome).workers,
        ¬worker.phase.running) ∧
      (system .twoSlots).Meets (fun p e => p.shutdown = .returned true → ¬e.works) quiescedRun :=
  no_work_after_shutdown (.of_isSome _) (.of_exec (by decide))

-- The call has found the pool open before it is shut down, and goes on afterwards.
theorem work_after_shutdown :
    ((system .twoSlots).exec [.submit someTag someRequest, .check 0, .shutdown, .drained]).map
        (·.shutdown) = some (.returned true) ∧
      ((system .twoSlots).exec
        [.submit someTag someRequest, .check 0, .shutdown, .drained, .get 0 true, .claim 0, .drain 0,
         .put 0 0 true, .add 0, .spawn 0]).map (fun p => (p.shutdown, p.running)) =
        some (.returned true, 1) := by
  decide

end Pool
end Asyncjob
