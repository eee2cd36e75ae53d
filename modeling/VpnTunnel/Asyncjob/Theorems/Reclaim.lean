import VpnTunnel.Asyncjob.Theorems.Pass
import VpnTunnel.Asyncjob.Theorems.Slots

namespace Asyncjob

open Pool (step system)

variable {o : Options} {p p₁ p₂ : Pool} {e : Event} {es : List Event} {t : Tag} {k w : Nat}
  {s : Store} {r : Record} {mutate : Record → Record}

namespace Store

def pending (s : Store) (t : Tag) : Bool :=
  (s.record t).any (·.status = .pending)

theorem lookup_of_record (h : s.record t = some r) :
    ∃ v, s.lookup t = some v ∧ Record.unmarshal v = .ok r := by
  simpa [record, Option.bind_eq_some_iff, Except.toOption_eq_some] using h

-- A swap is not refused for a reason other than the status of the record.
theorem Sound.compareAndSwapStatus_eq (hs : s.Sound) (hr : s.record t = some r)
    (hp : r.status = .pending) (hm : ∃ x, (mutate r).status = .known x) :
    ∃ s', s.compareAndSwapStatus t .pending mutate = .ok (mutate r, s') := by
  have ⟨v, hv, hu⟩ := lookup_of_record hr
  have ⟨x, hx⟩ := hm
  have ⟨v', hm⟩ := Record.marshal_isOk hx
  have ht : t ∈ s := AList.lookup_isSome.mp (by simp [hv])
  refine ⟨s.insert t v', ?_⟩
  simp [Store.compareAndSwapStatus, hv, hu, hp, hm, hs.write_eq ht, Except.mapError, bind, Except.bind, pure,
    Except.pure]

end Store

namespace Pool

-- The workers that hold a slot for a job whose record is pending, and those that have written their
-- result.
def pendingJobs (p : Pool) : Nat :=
  p.workers.countP fun w => w.phase.active && p.store.pending w.tag

def swapped (p : Pool) : Nat :=
  p.workers.countP (·.phase = .release)

-- Each slot belongs to a call that is about to start a worker, to a worker that has written its result
-- or to a job whose record is pending.
def Owned (p : Pool) : Prop :=
  p.slots = p.holding + p.swapped + p.pendingJobs

instance : Decidable p.Owned :=
  inferInstanceAs (Decidable (_ = _))

-- Each slot belongs to a call that is about to start a worker, or to a worker that has not gone.
def Held (p : Pool) : Prop :=
  p.slots = p.holding + p.live

theorem live_eq (p : Pool) : p.live = p.swapped + p.workers.countP (·.phase.active) := by
  simp only [live, swapped]
  induction p.workers
  case nil => rfl
  case cons w ws hi =>
    simp only [List.countP_cons, hi]
    cases w.phase <;> simp [Worker.Phase.live, Worker.Phase.active] <;> omega

theorem owned_iff (r : (system o).Reachable p) :
    p.Owned ↔ ∀ worker ∈ p.workers, worker.phase.active → p.store.pending worker.tag := by
  have hl := p.live_eq
  have hs := (slots_eq r).1
  have hc : p.workers.countP (·.phase.active) = p.pendingJobs +
      p.workers.countP (fun w => w.phase.active && !p.store.pending w.tag) := by
    simp only [pendingJobs]
    induction p.workers
    case nil => rfl
    case cons w ws hi =>
      simp only [List.countP_cons, hi]
      cases w.phase.active <;> cases p.store.pending w.tag <;> simp <;> omega
  have hz : p.Owned ↔ p.workers.countP (fun w => w.phase.active && !p.store.pending w.tag) = 0 := by
    simp only [Owned]
    omega
  rw [hz, List.countP_eq_zero]
  simp

-- A step that leaves a worker with a slot, but without a pending record: its record is timed out, it is
-- finished by another worker, or the worker is started after one of these has happened already.
def Orphans (o : Options) (p : Pool) : Event → Prop
  | .gcTimeout io => io ∧ ∃ now worker r, p.gc = .timeout now ∧ worker ∈ p.workers ∧
      worker.phase.active ∧ p.store.record worker.tag = some r ∧ GC.pendingTimeoutFilter o.gc now r
  | .cas w _ io => io ∧ ∃ w' worker worker', w' ≠ w ∧ p.workers[w]? = some worker ∧
      p.workers[w']? = some worker' ∧ worker'.phase.active ∧ worker'.tag = worker.tag ∧
      p.store.pending worker.tag
  | .spawn k => ∃ c, p.calls[k]? = some c ∧ ¬p.store.pending c.tag
  | _ => False

section Step

variable {now : Time} {worker : Worker}

theorem eq_of_gcTimeout (h : step o p₁ (.gcTimeout true) = some p₂) (hg : p₁.gc = .timeout now) :
    p₂ = { p₁ with store := (GC.timeoutBatch o.gc now p₁.store).2, gc := .tombstone now } := by
  simpa [step, stepGC, hg] using h.symm

theorem workers_of_cas {io : Bool} (h : step o p₁ (.cas w now io) = some p₂) :
    p₂.workers = p₁.workers.modify w ({ · with phase := .release }) := by
  cases step_elim h
  case call h => cases h
  case gc h => cases h
  case worker h => cases h <;> rfl

-- The record of a job that has been timed out is not pending, and all others are as before.
theorem pending_of_gcTimeout (rc : (system o).Reachable p₁)
    (h : step o p₁ (.gcTimeout true) = some p₂) (hg : p₁.gc = .timeout now)
    (hr : p₁.store.record t = some r) :
    p₂.store.pending t = (!GC.pendingTimeoutFilter o.gc now r && p₁.store.pending t) := by
  have ⟨v, hv, hu⟩ := Store.lookup_of_record hr
  have hx := (GC.timeoutBatch_spec o.gc now (sound rc)).lookup_eq hv hu
  rw [eq_of_gcTimeout h hg]
  cases hf : GC.pendingTimeoutFilter o.gc now r <;> simp only [hf] at hx
  case false => simp [Store.pending, Store.record, hx, hv]
  case true =>
    have hu' := Store.unmarshal_rewrite (GC.pendingTimeoutMutate now) hu ⟨_, rfl⟩
    simp [Store.pending, Store.record, hx, hu', Except.toOption, GC.pendingTimeoutMutate]

-- A worker that finds its record pending finishes it.
theorem record_of_cas (rc : (system o).Reachable p₁) (h : step o p₁ (.cas w now true) = some p₂)
    (hw : p₁.workers[w]? = some worker) (hr : p₁.store.record worker.tag = some r)
    (hs : r.status = .pending) : ∃ res, worker.phase = .cas res ∧
      p₂.store.record worker.tag = some (workerMutate res now r).reread := by
  simp only [step, hw, Option.bind_eq_bind, Option.bind_some, stepWorker] at h
  split at h <;> try contradiction
  case h_1 res hp =>
    obtain ⟨s', hs'⟩ : ∃ s', p₁.store.compareAndSwapStatus worker.tag .pending (workerMutate res now) =
        .ok (workerMutate res now r, s') :=
      (sound rc).compareAndSwapStatus_eq hr hs (by cases res <;> exact ⟨_, rfl⟩)
    obtain ⟨_, hr', _, hm⟩ := Store.compareAndSwapStatus_record hs'
    rw [if_pos trivial, hs'] at h
    cases h
    cases hr.symm.trans hr'
    exact ⟨res, hp, (hm _).trans (if_pos rfl)⟩

theorem not_pending_of_cas (rc : (system o).Reachable p₁) (h : step o p₁ (.cas w now true) = some p₂)
    (hw : p₁.workers[w]? = some worker) : ¬p₂.store.pending worker.tag := by
  intro hp₂
  cases hp : p₁.store.pending worker.tag
  case false =>
    have hm := moves_of_step (t := worker.tag) h
    generalize hx : p₂.store.record worker.tag = x at hm
    cases hm
    case stay =>
      rw [Store.pending, ← hx] at hp
      exact absurd (hp.symm.trans hp₂) Bool.false_ne_true
    case cas hr hs _ => simp [Store.pending, hr, hs] at hp
  case true =>
    have ⟨r, hr, hs⟩ := (Option.any_eq_true _ _).mp hp
    have ⟨res, _, hm⟩ := record_of_cas rc h hw hr (of_decide_eq_true hs)
    cases res <;> simp [Store.pending, hm, workerMutate] at hp₂

theorem not_owned_of_orphans (rc : (system o).Reachable p₁) (h : step o p₁ e = some p₂)
    (ho : p₁.Orphans o e) : ¬p₂.Owned := by
  rw [owned_iff (rc.step h)]
  intro ha
  cases e <;> try contradiction
  case gcTimeout io =>
    obtain ⟨rfl, now, worker, r, hg, hw, hp, hr, hf⟩ := ho
    have hp' := ha worker (eq_of_gcTimeout h hg ▸ hw) hp
    rw [pending_of_gcTimeout rc h hg hr, hf] at hp'
    contradiction
  case cas w now io =>
    obtain ⟨rfl, w', worker, worker', hn, hw, hw', ha', ht, hp⟩ := ho
    have hm : p₂.workers[w']? = some worker' := by
      rw [workers_of_cas h]
      simpa [Ne.symm hn] using hw'
    exact not_pending_of_cas rc h hw (ht ▸ ha worker' (List.mem_of_getElem? hm) ha')
  case spawn k =>
    obtain ⟨c, hc, hp⟩ := ho
    cases step_elim h
    case worker h => cases h
    case gc h => cases h
    case call hc' _ h =>
      cases h
      cases hc.symm.trans hc'
      exact hp <| ha ⟨c.tag, _, .forward⟩ (List.mem_append_right _ (List.mem_singleton_self _)) rfl

theorem owned_of_not_orphans (rc : (system o).Reachable p₁) (h : step o p₁ e = some p₂)
    (hi : p₁.Owned) (ho : ¬p₁.Orphans o e) : p₂.Owned := by
  rw [owned_iff rc] at hi
  rw [owned_iff (rc.step h)]
  intro worker hw ha
  obtain ⟨w, hw⟩ := List.mem_iff_getElem?.mp hw
  cases WorkerFrom.of_step h hw
  case spawned k c body _ _ hc hp ht _ =>
    have hs : p₂.store = p₁.store := store_of_call h rfl (by simp [created])
    rw [hs, ht]
    exact Classical.byContradiction fun hn => ho ⟨c, hc, hn⟩
  case kept ph hw' ha' hres =>
    clear hres
    have hp := hi _ (List.mem_of_getElem? hw') (ha' ha)
    obtain ⟨r, hr, hs⟩ := (Option.any_eq_true _ _).mp hp
    have hs := of_decide_eq_true hs
    have hm := moves_of_step (t := worker.tag) h
    generalize hx : p₂.store.record worker.tag = x at hm
    cases hm
    case stay => simpa [Store.pending, hx] using hp
    case put => simp [Store.pending, hx, newPendingRecord]
    case cas w' now worker' res r' hw₁ ht hp' hr' hs' =>
      by_cases hn : w = w'
      case pos =>
        subst hn
        have hn : p₂.workers[w]? = some { worker' with phase := .release } := by
          simp [workers_of_cas h, hw₁]
        cases hw.symm.trans hn
        contradiction
      case neg =>
        refine absurd ⟨rfl, w, worker', _, hn, hw₁, hw', ha' ha, ht.symm, ?_⟩ ho
        exact ht ▸ hp
    case timeout =>
      obtain ⟨now, hg⟩ : ∃ now, p₁.gc = .timeout now := by
        cases step_elim h
        case call h => cases h
        case worker h => cases h
        case gc h => cases h <;> exact ⟨_, ‹_›⟩
      rw [pending_of_gcTimeout rc h hg hr, hp, Bool.and_true, Bool.not_eq_true']
      refine Bool.eq_false_iff.mpr fun hf => ho ?_
      exact ⟨rfl, now, _, r, hg, List.mem_of_getElem? hw', ha' ha, hr, hf⟩
    case evict hr' hf =>
      cases hr.symm.trans hr'
      simp [GC.completeTTLFilter, hs] at hf
    case delete hr' hf =>
      cases hr.symm.trans hr'
      simp [GC.tombstoneTTLFilter, hs] at hf
    case recover =>
      cases step_elim h
      case call h => cases h
      case worker h => cases h
      case gc h => cases h
      case restart h =>
        cases stepRestart_elim h
        obtain ⟨x, _, hx⟩ := List.getElem?_map .. ▸ hw |> Option.map_eq_some_iff.mp
        simp [← hx] at ha

end Step

end Pool

-- A slot is held until its worker has gone, whatever becomes of the record meanwhile. That the record is
-- pending for as long is a matter of the steps that are taken.
theorem slots_owned_iff (rn : (system o).Run es p) :
    (system o).Always Pool.Held es ∧
      ((system o).Always Pool.Owned es ↔ (system o).Meets (fun p e => ¬p.Orphans o e) es) := by
  refine ⟨fun _ _ p _ rn => (Pool.slots_eq rn.reachable).left, rn.always_iff rfl fun p₁ e p₂ rc hi h => ?_⟩
  exact ⟨fun ho hn => Pool.not_owned_of_orphans rc h hn ho, Pool.owned_of_not_orphans rc h hi⟩

-- The record of the only job is timed out while its request is being forwarded.
def timedOutRun : List Event :=
  [.submit someTag someRequest, .check 0, .get 0 true, .claim 0, .drain 0, .put 0 0 true, .add 0,
   .spawn 0, .gcStart (600 * 10 ^ 9), .gcTimeout true]

theorem timedOutRun_isSome : ((system .twoSlots).exec timedOutRun).isSome := by
  decide

def timedOutPool : Pool :=
  ((system .twoSlots).exec timedOutRun).get timedOutRun_isSome

theorem not_owned_timedOutRun :
    (system .twoSlots).Reachable timedOutPool ∧ timedOutPool.slots = 1 ∧
      (timedOutPool.store.record someTag).map (·.status) = some .failedTimeout ∧
      ¬timedOutPool.Owned :=
  ⟨⟨_, .of_isSome timedOutRun_isSome⟩, by decide, by decide, by decide⟩

theorem slots_owned_iff_timedOutRun :
    (system .twoSlots).Always Pool.Held timedOutRun ∧
      ((system .twoSlots).Always Pool.Owned timedOutRun ↔
        (system .twoSlots).Meets (fun p e => ¬p.Orphans .twoSlots e) timedOutRun) :=
  slots_owned_iff (.of_isSome timedOutRun_isSome)

end Asyncjob
