import VpnTunnel.Asyncjob.Pool
import VpnTunnel.Asyncjob.Theorems.Store
import VpnTunnel.Lib.Threads

namespace Asyncjob

variable {o : Options} {p p₁ p₂ : Pool} {e : Event} {k w : Nat} {c : Submit.Call} {worker : Worker}

namespace Event

def call? : Event → Option Nat
  | .check k | .get k _ | .claim k | .drain k | .put k _ _ | .add k | .spawn k => some k
  | _ => none

def worker? : Event → Option Nat
  | .forward w _ | .cas w _ _ | .release w | .done w => some w
  | _ => none

end Event

-- What is left of a call and of a worker when the process has ended.
def Submit.Phase.stop : Submit.Phase → Submit.Phase
  | .returned res => .returned res
  | _             => .dead

def Worker.Phase.stop : Worker.Phase → Worker.Phase
  | .exited => .exited
  | _       => .dead

@[simp]
theorem Worker.Phase.stop_ne_cas (ph : Worker.Phase) (res : Option UpstreamResponse) :
    ph.stop ≠ .cas res := by
  cases ph <;> simp [stop]

namespace Pool

-- A call after a step that moves one call to another phase.
theorem setCall_elim {q : Pool} {k' : Nat} {c' : Submit.Call} {ph : Submit.Phase}
    (hc : p.calls[k']? = some c') (hq : q.calls = p.calls)
    (hk : (q.setCall k' ph).calls[k]? = some c) :
    p.calls[k]? = some c ∨ (k' = k ∧ c = ⟨c'.tag, c'.req, ph⟩) := by
  simp only [setCall, hq] at hk
  cases List.getElem?_modify_eq_some.mp hk
  case inr hk => exact .inl hk.right
  case inl hk =>
    obtain ⟨hk, b, hb, hc'⟩ := hk
    subst hk
    cases hc.symm.trans hb
    exact .inr ⟨rfl, hc'.symm⟩

-- How the number of calls and of workers in certain states changes with one of them.
theorem countP_setCall (q : Submit.Call → Bool) (hc : p.calls[k]? = some c) (ph : Submit.Phase) :
    (p.setCall k ph).calls.countP q + (q c).toNat = p.calls.countP q + (q ⟨c.tag, c.req, ph⟩).toNat :=
  List.countP_modify hc

theorem countP_setWorker (q : Worker → Bool) (hw : p.workers[w]? = some worker) (ph : Worker.Phase) :
    (p.setWorker w ph).workers.countP q + (q worker).toNat =
      p.workers.countP q + (q ⟨worker.tag, worker.req, ph⟩).toNat :=
  List.countP_modify hw

-- What a step of a call of `SubmitOrFetch` can do, given the phase that it is in.
inductive CallStep (o : Options) (p : Pool) (k : Nat) (c : Submit.Call) :
    Submit.Phase → Event → Pool → Prop
  | closed : p.closed → CallStep o p k c .check (.check k)
      (p.setCall k (.returned (.error .poolClosed)))
  | check : ¬p.closed → CallStep o p k c .check (.check k) (p.setCall k .get)
  | getError {io : Bool} {err : Error} : CallStep o p k c .get (.get k io)
      (p.setCall k (.returned (.error (.getTag err))))
  | found {r : Record} : (p.store.record c.tag = some r) → CallStep o p k c .get (.get k true)
      (p.setCall k (.returned (.ok (outcomeForRecord r))))
  | absent : p.store.get c.tag = .ok none → CallStep o p k c .get (.get k true)
      (p.setCall k .claim)
  | claim : p.slots < o.maxConcurrent → CallStep o p k c .claim (.claim k)
      ({ p with slots := p.slots + 1 }.setCall k .drain)
  | queueFull : ¬p.slots < o.maxConcurrent → CallStep o p k c .claim (.claim k)
      (p.setCall k (.returned (.ok .queueFull)))
  | drain {body : List UInt8} : drainBody c.tag c.req = .ok body →
      CallStep o p k c .drain (.drain k) (p.setCall k (.put body))
  | drainError {err : SubmitError} : drainBody c.tag c.req = .error err →
      CallStep o p k c .drain (.drain k) (p.abandon k err)
  | put {body : List UInt8} {now : Time} {s : Store} :
      p.store.put c.tag (newPendingRecord c.tag now) = .ok s →
      CallStep o p k c (.put body) (.put k now true) ({ p with store := s }.setCall k (.add body))
  | putError {body : List UInt8} {now : Time} {io : Bool} {err : Error} :
      (io = true → p.store.put c.tag (newPendingRecord c.tag now) = .error err) →
      CallStep o p k c (.put body) (.put k now io) (p.abandon k (.writePending err))
  | add {body : List UInt8} : CallStep o p k c (.add body) (.add k)
      ({ p with wg := p.wg + 1 }.setCall k (.spawn body))
  | spawn {body : List UInt8} : CallStep o p k c (.spawn body) (.spawn k)
      (setCall { p with workers := p.workers ++ [⟨c.tag, cloneRequest c.req body, .forward⟩] } k
        (.returned (.ok .pending)))

inductive WorkerStep (p : Pool) (w : Nat) (worker : Worker) : Worker.Phase → Event → Pool → Prop
  | forward {res : Option UpstreamResponse} :
      WorkerStep p w worker .forward (.forward w res) (p.setWorker w (.cas res))
  | cas {res : Option UpstreamResponse} {now : Time} {r : Record} {s : Store} :
      p.store.compareAndSwapStatus worker.tag .pending (workerMutate res now) = .ok (r, s) →
      WorkerStep p w worker (.cas res) (.cas w now true) ({ p with store := s }.setWorker w .release)
  | casError {res : Option UpstreamResponse} {now : Time} {io : Bool} :
      WorkerStep p w worker (.cas res) (.cas w now io) (p.setWorker w .release)
  | release : WorkerStep p w worker .release (.release w)
      ({ p with slots := p.slots - 1 }.setWorker w .done)
  | done : WorkerStep p w worker .done (.done w) ({ p with wg := p.wg - 1 }.setWorker w .exited)

-- A pass of the garbage collector goes on, also when one of its batches has failed.
inductive GCStep (o : Options) (p : Pool) : Event → Pool → Prop
  | start {now : Time} : p.gc = .idle → GCStep o p (.gcStart now) { p with gc := .timeout now }
  | timeout {now : Time} {n : Nat} {s : Store} : (p.gc = .timeout now) →
      p.store.batchTransition (GC.pendingTimeoutFilter o.gc now) (GC.pendingTimeoutMutate now) =
        .ok (n, s) →
      GCStep o p (.gcTimeout true) { p with store := s, gc := .tombstone now }
  | tombstone {now : Time} {n : Nat} {s : Store} : (p.gc = .tombstone now) →
      p.store.batchTransition (GC.completeTTLFilter o.gc now) (GC.completeTTLMutate now) =
        .ok (n, s) →
      GCStep o p (.gcTombstone true) { p with store := s, gc := .delete now }
  | delete {now : Time} {n : Nat} {s : Store} : (p.gc = .delete now) →
      p.store.batchDelete (GC.tombstoneTTLFilter o.gc now) = .ok (n, s) →
      GCStep o p (.gcDelete true) { p with store := s, gc := .idle }
  | timeoutFailed {now : Time} {io : Bool} : p.gc = .timeout now →
      GCStep o p (.gcTimeout io) { p with gc := .tombstone now }
  | tombstoneFailed {now : Time} {io : Bool} : p.gc = .tombstone now →
      GCStep o p (.gcTombstone io) { p with gc := .delete now }
  | deleteFailed {now : Time} {io : Bool} : p.gc = .delete now →
      GCStep o p (.gcDelete io) { p with gc := .idle }

inductive RestartStep (p : Pool) : Pool → Prop
  | intro {n : Nat} {s : Store} : runRecovery p.store = .ok (n, s) → RestartStep p {
      Pool.init with
      store   := s
      calls   := p.calls.map fun c => ⟨c.tag, c.req, c.phase.stop⟩
      workers := p.workers.map fun w => ⟨w.tag, w.req, w.phase.stop⟩
    }

inductive Step (o : Options) (p : Pool) : Event → Pool → Prop
  | submit {tag : Tag} {req : Request} :
      Step o p (.submit tag req) { p with calls := p.calls ++ [⟨tag, req, .check⟩] }
  | call {k : Nat} {c : Submit.Call} {ph : Submit.Phase} {e : Event} {p' : Pool} :
      (p.calls[k]? = some c) → (c.phase = ph) → CallStep o p k c ph e p' → Step o p e p'
  | worker {w : Nat} {worker : Worker} {ph : Worker.Phase} {e : Event} {p' : Pool} :
      (p.workers[w]? = some worker) → (worker.phase = ph) → WorkerStep p w worker ph e p' →
      Step o p e p'
  | gc {e : Event} {p' : Pool} : GCStep o p e p' → Step o p e p'
  | shutdown : p.shutdown = .notCalled →
      Step o p .shutdown { p with closed := true, shutdown := .waiting }
  | drained : p.shutdown = .waiting → p.wg = 0 →
      Step o p .drained { p with shutdown := .returned true }
  | expired : p.shutdown = .waiting → Step o p .expired { p with shutdown := .returned false }
  | restart {p' : Pool} : p.stepRestart = some p' → Step o p .restart p'

theorem stepCall_elim (h : p₁.stepCall o k c e = some p₂) (he : e.call? = some k) :
    CallStep o p₁ k c c.phase e p₂ := by
  cases e <;> simp only [Event.call?, Option.some.injEq, reduceCtorEq] at he <;> subst he <;>
    simp only [stepCall] at h
  case check =>
    split at h <;> try contradiction
    case h_1 hp =>
      rw [hp]
      by_cases hc : p₁.closed <;> simp only [hc] at h
      case pos => exact Option.some.inj h ▸ .closed hc
      case neg => exact Option.some.inj h ▸ .check hc
  case get io =>
    split at h <;> try contradiction
    case h_1 hp =>
      rw [hp]
      cases io
      case false => exact Option.some.inj h ▸ .getError
      case true =>
        split at h
        case h_1    => exact Option.some.inj h ▸ .getError
        case h_2 hr => exact Option.some.inj h ▸ .found (Store.get_record hr)
        case h_3 hr => exact Option.some.inj h ▸ .absent hr
  case claim =>
    split at h <;> try contradiction
    case h_1 hp =>
      rw [hp]
      split at h
      case isTrue hs  => exact Option.some.inj h ▸ .claim hs
      case isFalse hs => exact Option.some.inj h ▸ .queueFull hs
  case drain =>
    split at h <;> try contradiction
    case h_1 hp =>
      rw [hp]
      split at h
      case h_1 hd => exact Option.some.inj h ▸ .drain hd
      case h_2 hd => exact Option.some.inj h ▸ .drainError hd
  case put io =>
    split at h <;> try contradiction
    case h_1 hp =>
      rw [hp]
      cases io
      case false => exact Option.some.inj h ▸ .putError (by simp)
      case true =>
        split at h
        case h_1 hs => exact Option.some.inj h ▸ .put hs
        case h_2 hs => exact Option.some.inj h ▸ .putError (fun _ => hs)
  case add =>
    split at h <;> try contradiction
    case h_1 hp =>
      rw [hp]
      exact Option.some.inj h ▸ .add
  case spawn =>
    split at h <;> try contradiction
    case h_1 hp =>
      rw [hp]
      exact Option.some.inj h ▸ .spawn

theorem stepWorker_elim (h : p₁.stepWorker w worker e = some p₂) (he : e.worker? = some w) :
    WorkerStep p₁ w worker worker.phase e p₂ := by
  cases e <;> simp only [Event.worker?, Option.some.injEq, reduceCtorEq] at he <;> subst he <;>
    simp only [stepWorker] at h
  case forward =>
    split at h <;> try contradiction
    case h_1 hp =>
      rw [hp]
      exact Option.some.inj h ▸ .forward
  case cas io =>
    split at h <;> try contradiction
    case h_1 hp =>
      rw [hp]
      cases io
      case false => exact Option.some.inj h ▸ .casError
      case true =>
        split at h
        case h_1 hs => exact Option.some.inj h ▸ .cas hs
        case h_2    => exact Option.some.inj h ▸ .casError
  case release =>
    split at h <;> try contradiction
    case h_1 hp =>
      rw [hp]
      exact Option.some.inj h ▸ .release
  case done =>
    split at h <;> try contradiction
    case h_1 hp =>
      rw [hp]
      exact Option.some.inj h ▸ .done

theorem stepGC_elim (h : p₁.stepGC o e = some p₂) : GCStep o p₁ e p₂ := by
  cases e <;> simp only [stepGC, reduceCtorEq] at h
  case gcStart =>
    split at h <;> try contradiction
    case h_1 hp => exact Option.some.inj h ▸ .start hp
  case gcTimeout io =>
    split at h <;> try contradiction
    case h_1 now hp =>
      cases io
      case false => exact Option.some.inj h ▸ .timeoutFailed hp
      case true =>
        simp only [GC.timeoutBatch] at h
        cases hb : p₁.store.batchTransition (GC.pendingTimeoutFilter o.gc now)
          (GC.pendingTimeoutMutate now) <;> simp only [hb, GC.safeRun] at h
        case error => exact Option.some.inj h ▸ .timeoutFailed hp
        case ok    => exact Option.some.inj h ▸ .timeout hp hb
  case gcTombstone io =>
    split at h <;> try contradiction
    case h_1 now hp =>
      cases io
      case false => exact Option.some.inj h ▸ .tombstoneFailed hp
      case true =>
        simp only [GC.tombstoneBatch] at h
        cases hb : p₁.store.batchTransition (GC.completeTTLFilter o.gc now)
          (GC.completeTTLMutate now) <;> simp only [hb, GC.safeRun] at h
        case error => exact Option.some.inj h ▸ .tombstoneFailed hp
        case ok    => exact Option.some.inj h ▸ .tombstone hp hb
  case gcDelete io =>
    split at h <;> try contradiction
    case h_1 now hp =>
      cases io
      case false => exact Option.some.inj h ▸ .deleteFailed hp
      case true =>
        simp only [GC.deleteBatch] at h
        cases hb : p₁.store.batchDelete (GC.tombstoneTTLFilter o.gc now) <;>
          simp only [hb, GC.safeRun] at h
        case error => exact Option.some.inj h ▸ .deleteFailed hp
        case ok    => exact Option.some.inj h ▸ .delete hp hb

theorem stepRestart_elim (h : p₁.stepRestart = some p₂) : RestartStep p₁ p₂ := by
  simp only [stepRestart] at h
  split at h <;> try contradiction
  case h_1 hs =>
    cases h
    convert RestartStep.intro hs using 2
    · refine List.map_congr_left ?_
      rintro ⟨_, _, ph⟩ _
      cases ph <;> rfl
    · refine List.map_congr_left ?_
      rintro ⟨_, _, ph⟩ _
      cases ph <;> rfl

theorem step_elim (h : step o p₁ e = some p₂) : Step o p₁ e p₂ := by
  cases e <;> simp only [step, Option.bind_eq_bind, Option.bind_eq_some_iff] at h
  case submit  => exact Option.some.inj h ▸ .submit
  case restart => exact .restart h
  case check | get | claim | drain | put | add | spawn =>
    have ⟨c, hc, h⟩ := h
    exact .call hc rfl <| stepCall_elim h rfl
  case forward | cas | release | done =>
    have ⟨c, hc, h⟩ := h
    exact .worker hc rfl <| stepWorker_elim h rfl
  case gcStart | gcTimeout | gcTombstone | gcDelete => exact .gc <| stepGC_elim h
  case shutdown =>
    simp only [stepShutdown] at h
    split at h <;> try contradiction
    case h_1 hs => exact Option.some.inj h ▸ .shutdown hs
  case drained =>
    have ⟨⟨hs, hw⟩, h⟩ := Option.ite_none_right_eq_some.mp h
    exact Option.some.inj h ▸ .drained hs hw
  case expired =>
    have ⟨hs, h⟩ := Option.ite_none_right_eq_some.mp h
    exact Option.some.inj h ▸ .expired hs

end Pool
end Asyncjob
