import VpnTunnel.Asyncjob.Theorems.Dispatch
import VpnTunnel.Asyncjob.Theorems.Lifecycle

namespace Asyncjob

variable {o : Options} {p p₁ p₂ : Pool} {e : Event} {es : List Event} {t : Tag} {k w : Nat}
  {c : Submit.Call} {worker : Worker} {r : Record} {res : Option UpstreamResponse}

-- The call has not returned yet.
def Submit.Phase.active : Submit.Phase → Bool
  | .returned _ | .dead => false
  | _                   => true

@[simp]
theorem Submit.Phase.not_active_stop (ph : Submit.Phase) : ph.stop.active = false := by
  cases ph <;> rfl

-- The worker may still write its result.
def Worker.Phase.active : Worker.Phase → Bool
  | .forward | .cas _ => true
  | _                 => false

@[simp]
theorem Worker.Phase.not_active_stop (ph : Worker.Phase) : ph.stop.active = false := by
  cases ph <;> rfl

-- The tag of the call that starts, if there is one.
def Event.submit? : Event → Option Tag
  | .submit tag _ => some tag
  | _             => none

namespace Pool

-- The record that a step creates: its tag, and the call that writes it.
def created (p : Pool) : Event → List (Tag × Nat)
  | .put k now true =>
    match p.calls[k]? with
    | some c => if (p.store.put c.tag (newPendingRecord c.tag now)).isOk then [(c.tag, k)] else []
    | none   => []
  | _ => []

def started : Event → List Nat
  | .spawn k => [k]
  | _        => []

end Pool

open Pool (step system created started)

-- The calls that have started the workers.
def starters (o : Options) (es : List Event) : List Nat :=
  (system o).observe (fun _ => started) es

-- The worker forwards the request that has been submitted by the call, with all of its body.
structure Carries (o : Options) (es : List Event) (p : Pool) (k w : Nat) : Prop where
  started : (starters o es)[w]? = some k
  request : ∃ c worker body, p.calls[k]? = some c ∧ p.workers[w]? = some worker ∧
    worker.tag = c.tag ∧ drainBody c.tag c.req = .ok body ∧ worker.req = cloneRequest c.req body

-- What the result of forwarding a request puts into the record.
def Reports (r : Record) (res : Option UpstreamResponse) : Prop :=
  r.status = (if res.isSome then .completed else .failed) ∧
    r.upstreamResponse = some (res.getD .synthetic).reread

theorem starters_snoc (rn : (system o).Run es p) :
    starters o (es ++ [e]) = starters o es ++ started e := by
  rw [starters, System.observe_snoc rn]
  rfl

def Submit.Phase.body? : Submit.Phase → Option (List UInt8)
  | .put body | .add body | .spawn body => some body
  | _                                   => none

@[simp]
theorem Submit.Phase.body?_stop (ph : Submit.Phase) : ph.stop.body? = none := by
  cases ph <;> rfl

-- Where a call comes from that is there after a step.
inductive CallFrom (p : Pool) (k : Nat) (c : Submit.Call) : Event → Prop
  | kept {ph : Submit.Phase} {e : Event} : (p.calls[k]? = some ⟨c.tag, c.req, ph⟩) →
      (c.phase.active → ph.active) → (c.phase.written → ph.written) →
      (∀ body ∈ c.phase.body?, ph.body? = some body ∨ drainBody c.tag c.req = .ok body) →
      CallFrom p k c e
  | wrote {body : List UInt8} {e : Event} : (p.calls[k]? = some ⟨c.tag, c.req, .put body⟩) →
      (c.phase = .add body) → (created p e = [(c.tag, k)]) → CallFrom p k c e
  | submitted : (k = p.calls.length) → (c.phase = .check) → CallFrom p k c (.submit c.tag c.req)

theorem CallFrom.refl (h : p.calls[k]? = some c) : CallFrom p k c e :=
  .kept h id id (fun _ hb => .inl hb)

theorem CallFrom.active (f : CallFrom p k c e) (ha : c.phase.active) :
    (∃ ph, p.calls[k]? = some ⟨c.tag, c.req, ph⟩ ∧ ph.active) ∨
      (k = p.calls.length ∧ e = .submit c.tag c.req) := by
  cases f
  case kept hk ha' _ _ => exact .inl ⟨_, hk, ha' ha⟩
  case wrote hk _ _    => exact .inl ⟨_, hk, rfl⟩
  case submitted hk _  => exact .inr ⟨hk, rfl⟩

theorem CallFrom.of_step (h : step o p₁ e = some p₂) (hk : p₂.calls[k]? = some c) :
    CallFrom p₁ k c e := by
  cases Pool.step_elim h
  case submit =>
    cases List.getElem?_snoc_eq_some.mp hk
    case inl hk => exact .refl hk
    case inr hk =>
      obtain ⟨hn, hc⟩ := hk
      subst hc
      exact .submitted hn rfl
  case call k' c' ph hc hp h =>
    have hm {q : Pool} {ph'} (hq : q.calls = p₁.calls) (hk : (q.setCall k' ph').calls[k]? = some c)
        (hn : c = ⟨c'.tag, c'.req, ph'⟩ → k' = k → CallFrom p₁ k c e) : CallFrom p₁ k c e := by
      cases Pool.setCall_elim hc hq hk
      case inl hk => exact .refl hk
      case inr hk => exact hn hk.2 hk.1
    subst hp
    cases hp : c'.phase <;> rw [hp] at h <;> cases h
    case put.put body now s hs =>
      refine hm rfl hk fun he hn => ?_
      subst he hn
      refine .wrote (by rw [hc, ← hp]) (rfl : _ = Submit.Phase.add body) ?_
      simp [created, hc, hs, Except.isOk, Except.toBool]
    case drain.drain body hd =>
      refine hm rfl hk fun he hn => ?_
      subst he hn
      refine .kept hc (by simp [hp, Submit.Phase.active]) (by simp [Submit.Phase.written]) ?_
      simp [Submit.Phase.body?, hd]
    all_goals
      refine hm rfl hk fun he hn => ?_
      subst he hn
      refine .kept hc ?_ ?_ ?_ <;>
        simp [hp, Submit.Phase.active, Submit.Phase.written, Submit.Phase.body?]
  case worker h => cases h <;> exact .refl hk
  case gc h => cases h <;> exact .refl hk
  case shutdown | drained | expired => exact .refl hk
  case restart h =>
    cases Pool.stepRestart_elim h
    obtain ⟨x, hx, hc⟩ := List.getElem?_map .. ▸ hk |> Option.map_eq_some_iff.mp
    subst hc
    exact .kept hx (by simp) (by simp) (by simp)

inductive WorkerFrom (p : Pool) (w : Nat) (worker : Worker) : Event → Prop
  | kept {ph : Worker.Phase} {e : Event} : (p.workers[w]? = some ⟨worker.tag, worker.req, ph⟩) →
      (worker.phase.active → ph.active) →
      (∀ res, worker.phase = .cas res → ph = .cas res ∨ e = .forward w res) →
      WorkerFrom p w worker e
  | spawned {k : Nat} {c : Submit.Call} {body : List UInt8} : (w = p.workers.length) →
      (worker.phase = .forward) → (p.calls[k]? = some c) → (c.phase = .spawn body) →
      (worker.tag = c.tag) → (worker.req = cloneRequest c.req body) →
      WorkerFrom p w worker (.spawn k)

theorem WorkerFrom.refl (h : p.workers[w]? = some worker) : WorkerFrom p w worker e :=
  .kept h id (fun _ => .inl)

theorem WorkerFrom.of_step (h : step o p₁ e = some p₂) (hw : p₂.workers[w]? = some worker) :
    WorkerFrom p₁ w worker e := by
  cases Pool.step_elim h
  case submit | shutdown | drained | expired => exact .refl hw
  case gc h => cases h <;> exact .refl hw
  case call k c ph hc hp h =>
    cases h
    case spawn body =>
      cases List.getElem?_snoc_eq_some.mp hw
      case inl hw => exact .refl hw
      case inr hw =>
        obtain ⟨hn, hw⟩ := hw
        subst hw
        exact .spawned hn rfl hc hp rfl rfl
    all_goals exact .refl hw
  case worker w' worker' ph hw' hp h =>
    have hm {q : Pool} {ph'} (hq : q.workers = p₁.workers)
        (hw : (q.setWorker w' ph').workers[w]? = some worker)
        (ha : ph'.active → worker'.phase.active)
        (hr : ∀ res, ph' = .cas res → e = .forward w' res) : WorkerFrom p₁ w worker e := by
      simp only [Pool.setWorker, hq] at hw
      cases List.getElem?_modify_eq_some.mp hw
      case inl hw =>
        obtain ⟨hn, b, hb, hc⟩ := hw
        subst hn hc
        cases hw'.symm.trans hb
        exact .kept hw' ha fun res hr' => .inr (hr res hr')
      case inr hw => exact .refl hw.right
    subst hp
    cases hp : worker'.phase <;> rw [hp] at h <;> cases h <;>
      exact hm rfl hw (by simp [hp, Worker.Phase.active]) (by simp)
  case restart h =>
    cases Pool.stepRestart_elim h
    obtain ⟨x, hx, hw⟩ := List.getElem?_map .. ▸ hw |> Option.map_eq_some_iff.mp
    subst hw
    exact .kept hx (by simp) (by simp)

-- Calls and workers stay, and only their phases change.
theorem call_persists (h : step o p₁ e = some p₂) (hc : p₁.calls[k]? = some c) :
    ∃ ph, p₂.calls[k]? = some ⟨c.tag, c.req, ph⟩ := by
  have hm {k' ph} : ∃ ph', (p₁.calls.modify k' ({ · with phase := ph }))[k]? =
      some ⟨c.tag, c.req, ph'⟩ := by
    by_cases hk : k' = k
    case pos => exact ⟨ph, by simp [hk, hc]⟩
    case neg => exact ⟨c.phase, by simpa [hk] using hc⟩
  cases Pool.step_elim h
  case submit => exact ⟨c.phase, List.getElem?_snoc_eq_some.mpr <| .inl hc⟩
  case call h => cases h <;> exact hm
  case worker h => cases h <;> exact ⟨c.phase, hc⟩
  case gc h => cases h <;> exact ⟨c.phase, hc⟩
  case shutdown | drained | expired => exact ⟨c.phase, hc⟩
  case restart h =>
    cases Pool.stepRestart_elim h
    exact ⟨c.phase.stop, by simp [hc]⟩

theorem worker_persists (h : step o p₁ e = some p₂) (hw : p₁.workers[w]? = some worker) :
    ∃ ph, p₂.workers[w]? = some ⟨worker.tag, worker.req, ph⟩ := by
  have hm {w' ph} : ∃ ph', (p₁.workers.modify w' ({ · with phase := ph }))[w]? =
      some ⟨worker.tag, worker.req, ph'⟩ := by
    by_cases hk : w' = w
    case pos => exact ⟨ph, by simp [hk, hw]⟩
    case neg => exact ⟨worker.phase, by simpa [hk] using hw⟩
  cases Pool.step_elim h
  case submit | shutdown | drained | expired => exact ⟨worker.phase, hw⟩
  case call h =>
    cases h
    case spawn => exact ⟨worker.phase, List.getElem?_snoc_eq_some.mpr <| .inl hw⟩
    all_goals exact ⟨worker.phase, hw⟩
  case worker h => cases h <;> exact hm
  case gc h => cases h <;> exact ⟨worker.phase, hw⟩
  case restart h =>
    cases Pool.stepRestart_elim h
    exact ⟨worker.phase.stop, by simp [hw]⟩

theorem workers_length (h : step o p₁ e = some p₂) :
    p₂.workers.length = p₁.workers.length + (started e).length := by
  cases Pool.step_elim h
  case submit | shutdown | drained | expired => rfl
  case call h => cases h <;> simp [Pool.setCall, Pool.abandon, started]
  case worker h => cases h <;> simp [Pool.setWorker, started]
  case gc h => cases h <;> rfl
  case restart h =>
    cases Pool.stepRestart_elim h
    simp [started]

-- A step that creates a record is taken by the call that it is attributed to.
theorem created_elim (h : step o p₁ e = some p₂) (hm : (t, k) ∈ created p₁ e) :
    created p₁ e = [(t, k)] ∧
      (∃ c body, p₁.calls[k]? = some c ∧ c.tag = t ∧ c.phase = .put body ∧
        p₂.calls[k]? = some { c with phase := .add body }) ∧
      ∃ r, p₂.store.record t = some r ∧ r.status = .pending := by
  cases e <;> simp only [created, List.not_mem_nil] at hm
  case put k' now io =>
    cases io <;> simp only [List.not_mem_nil] at hm
    split at hm <;> try contradiction
    case h_1 c hc =>
      split at hm <;> simp only [List.mem_singleton, List.not_mem_nil, Prod.mk.injEq] at hm
      case isTrue ho =>
        obtain ⟨ht, hk⟩ := hm
        subst ht hk
        refine ⟨by simp [created, hc, ho], ?_⟩
        cases Pool.step_elim h
        case worker h => cases h
        case gc h => cases h
        case call c' ph hc' hp h =>
          cases h <;> cases hc.symm.trans hc'
          case put s hs =>
            refine ⟨⟨c, _, hc, rfl, hp, ?_⟩, _, (Store.put_record hs).trans (if_pos rfl), rfl⟩
            simp [Pool.setCall, hc]
          case putError he => simp [he rfl, Except.isOk, Except.toBool] at ho

theorem Carries.step (hc : Carries o es p₁ k w) (rn : (system o).Run es p₁)
    (h : step o p₁ e = some p₂) : Carries o (es ++ [e]) p₂ k w where
  started := by
    rw [starters_snoc rn, List.getElem?_append_left (List.getElem?_eq_some_iff.mp hc.started).1]
    exact hc.started
  request := by
    have ⟨c, worker, body, hk, hw, ht, hd, hr⟩ := hc.request
    have ⟨_, hk⟩ := call_persists h hk
    have ⟨_, hw⟩ := worker_persists h hw
    exact ⟨_, _, body, hk, hw, ht, hd, hr⟩

-- What the calls and workers hold in every run: each worker carries the request of the call that has
-- started it, and writes what forwarding that request came to.
structure Custody (o : Options) (es : List Event) (p : Pool) : Prop where
  bodies : ∀ (k : Nat) (c : Submit.Call), p.calls[k]? = some c → ∀ body ∈ c.phase.body?,
    drainBody c.tag c.req = .ok body
  length : (starters o es).length = p.workers.length
  workers : ∀ (w : Nat) (worker : Worker), p.workers[w]? = some worker → ∃ k, Carries o es p k w
  results : ∀ (w : Nat) (worker : Worker) (res : Option UpstreamResponse),
    p.workers[w]? = some worker → worker.phase = .cas res → .forward w res ∈ es

namespace Custody

theorem init : Custody o [] .init where
  bodies  := by simp [Pool.init]
  length  := rfl
  workers := by simp [Pool.init]
  results := by simp [Pool.init]

variable (g : Custody o es p₁) (rn : (system o).Run es p₁) (h : step o p₁ e = some p₂)

include g h

theorem bodies_step (hk : p₂.calls[k]? = some c) {body : List UInt8} (hb : body ∈ c.phase.body?) :
    drainBody c.tag c.req = .ok body := by
  cases CallFrom.of_step h hk
  case kept hk _ _ hd =>
    cases hd body hb
    case inl hb => exact g.bodies k _ hk body hb
    case inr hd => exact hd
  case wrote hk hp _ =>
    rw [hp] at hb
    exact g.bodies k _ hk body hb
  case submitted hp =>
    rw [hp] at hb
    contradiction

theorem results_step (hw : p₂.workers[w]? = some worker) (hp : worker.phase = .cas res) :
    .forward w res ∈ es ++ [e] := by
  cases WorkerFrom.of_step h hw
  case kept hw _ hr =>
    cases hr res hp
    case inl hr => exact List.mem_append_left _ <| g.results w _ res hw hr
    case inr he => simp [he]
  case spawned hp' _ _ _ _ => simp [hp'] at hp

include rn

theorem workers_step (hw : p₂.workers[w]? = some worker) : ∃ k, Carries o (es ++ [e]) p₂ k w := by
  cases WorkerFrom.of_step h hw
  case kept hw _ _ =>
    have ⟨k, hc⟩ := g.workers w _ hw
    exact ⟨k, hc.step rn h⟩
  case spawned k c body hn hp hc hcp ht hr =>
    have ⟨_, hk⟩ := call_persists h hc
    refine ⟨k, ?_, _, _, body, hk, hw, ht, ?_, hr⟩
    · simp [starters_snoc rn, started, hn, ← g.length]
    · exact g.bodies k c hc body (by simp [hcp, Submit.Phase.body?])

theorem step : Custody o (es ++ [e]) p₂ where
  bodies _ _ hk _ := g.bodies_step h hk
  length := by rw [starters_snoc rn, List.length_append, g.length, workers_length h]
  workers _ _ := g.workers_step rn h
  results _ _ _ := g.results_step h

end Custody

theorem Custody.of_run (rn : (system o).Run es p) : Custody o es p :=
  rn.invariant_of_run .init fun _ _ _ _ rn g h => g.step rn h

-- The record that a worker finishes in a step, if it is still pending.
def Pool.finished (p : Pool) : Event → List (Tag × Nat)
  | .cas w _ true =>
    match p.workers[w]? with
    | some worker =>
      if (p.store.record worker.tag).any (·.status = .pending) then [(worker.tag, w)] else []
    | none => []
  | _ => []

-- The worker that has finished the record of a tag.
def finisher (o : Options) (es : List Event) (t : Tag) : Option Nat :=
  ((system o).observe Pool.finished es).reverse.lookup t

theorem pending_of_finished (h : (t, w) ∈ p.finished e) :
    ∃ r, p.store.record t = some r ∧ r.status = .pending := by
  simp only [Pool.finished] at h
  split at h <;> try contradiction
  split at h <;> try contradiction
  split at h <;> simp only [List.mem_singleton, List.not_mem_nil, Prod.mk.injEq] at h
  case isTrue hp =>
    have ⟨ht, _⟩ := h
    subst ht
    simpa [Option.any_eq_true] using hp

-- A finished record reports what came of the request that its worker has forwarded.
def Attributed (o : Options) (es : List Event) (p : Pool) : Prop :=
  ∀ t r, p.store.record t = some r → r.status = .completed ∨ r.status = .failed →
    ∃ w res, finisher o es t = some w ∧ .forward w res ∈ es ∧ Reports r res

theorem Attributed.step (a : Attributed o es p₁) (rn : (system o).Run es p₁)
    (h : step o p₁ e = some p₂) : Attributed o (es ++ [e]) p₂ := by
  intro t r hr hs
  have hm := moves_of_step (t := t) h
  rw [hr] at hm
  generalize hx : some r = x at hm
  cases hm
  case stay =>
    have ⟨w, res, hw, hf, hr⟩ := a t r hx.symm hs
    refine ⟨w, res, ?_, List.mem_append_left _ hf, hr⟩
    rw [← hw]
    -- A record that is there as finished already has not been finished by this step.
    refine System.lookup_observe_of_not_mem rn fun w' hn => ?_
    have ⟨r', hr', hp⟩ := pending_of_finished hn
    cases hx.trans hr'
    simp [hp] at hs
  case cas w now worker res r₀ hw ht hp hr₀ hs₀ =>
    refine ⟨w, res, ?_, ?_, ?_⟩
    · refine System.lookup_observe_of_eq rn ?_
      simp [Pool.finished, hw, ht, hr₀, hs₀]
    · exact List.mem_append_left _ <| (Custody.of_run rn).results w worker res hw hp
    · cases hx
      cases res <;> exact ⟨rfl, rfl⟩
  case put | timeout | evict =>
    cases hx
    simp [newPendingRecord, GC.pendingTimeoutMutate, GC.completeTTLMutate] at hs
  case delete | recover => contradiction

theorem Attributed.of_run (rn : (system o).Run es p) : Attributed o es p :=
  rn.invariant_of_run (by simp [Attributed, system, Pool.init, Store.record])
    fun _ _ _ _ rn a h => a.step rn h

end Asyncjob
