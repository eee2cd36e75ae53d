import VpnTunnel.Asyncjob.Lifecycle
import VpnTunnel.Asyncjob.Theorems.Pool

namespace Asyncjob

open Pool (step system)

variable {o : Options} {p p₁ p₂ : Pool} {e : Event} {es : List Event} {t : Tag} {r : Record}

-- What a step of the pool can do to the record of a tag.
inductive Move (o : Options) (p : Pool) (t : Tag) : Event → Option Record → Prop
  | stay {e : Event} : Move o p t e (p.store.record t)
  | put {k : Nat} {now : Time} {c : Submit.Call} {s : Store} :
      p.calls[k]? = some c → c.tag = t → p.store.put t (newPendingRecord t now) = .ok s →
      Move o p t (.put k now true) (some (newPendingRecord t now).reread)
  | cas {w : Nat} {now : Time} {worker : Worker} {res : Option UpstreamResponse} {r : Record} :
      (p.workers[w]? = some worker) → (worker.tag = t) → (worker.phase = .cas res) →
      (p.store.record t = some r) → (r.status = .pending) →
      Move o p t (.cas w now true) (some (workerMutate res now r).reread)
  | timeout {now : Time} {r : Record} : (p.store.record t = some r) →
      (GC.pendingTimeoutFilter o.gc now r) →
      Move o p t (.gcTimeout true) (some (GC.pendingTimeoutMutate now r).reread)
  | evict {now : Time} {r : Record} : (p.store.record t = some r) →
      (GC.completeTTLFilter o.gc now r) →
      Move o p t (.gcTombstone true) (some (GC.completeTTLMutate now r).reread)
  | delete {now : Time} {r : Record} : (p.store.record t = some r) →
      (GC.tombstoneTTLFilter o.gc now r) → Move o p t (.gcDelete true) none
  | recover {r : Record} : (p.store.record t = some r) → (r.status = .pending) →
      Move o p t .restart none

theorem Move.of_transition {filter : Record → Bool} {mutate : Record → Record} {s : Store}
    (hm : ∀ r, p.store.record t = some r → filter r → Move o p t e (some (mutate r).reread))
    (h : p.store.batchTransition filter mutate = .ok (n, s)) : Move o p t e (s.record t) := by
  have hs : Move o p t e (p.store.record t) := .stay
  rw [Store.batchTransition_record h]
  cases hr : p.store.record t <;> rw [hr] at hs
  case none => exact hs
  case some r =>
    cases hf : filter r <;> simp only [Option.map_some, hf]
    case false => exact hs
    case true  => exact hm r hr hf

theorem Move.of_delete {filter : Record → Bool} {s : Store}
    (hm : ∀ r, p.store.record t = some r → filter r → Move o p t e none)
    (h : p.store.batchDelete filter = .ok (n, s)) : Move o p t e (s.record t) := by
  have hs : Move o p t e (p.store.record t) := .stay
  rw [Store.batchDelete_record h]
  cases hr : p.store.record t <;> rw [hr] at hs
  case none => exact hs
  case some r =>
    cases hf : filter r <;> simp only [Option.filter, hf]
    case false => exact hs
    case true  => exact hm r hr hf

theorem moves_of_step (h : step o p₁ e = some p₂) : Move o p₁ t e (p₂.store.record t) := by
  cases Pool.step_elim h
  case submit | shutdown | drained | expired => exact .stay
  case call k c ph hc _ h =>
    cases h
    case put s hs _ =>
      change Move _ _ _ _ (s.record t)
      rw [Store.put_record hs]
      split
      case isTrue ht =>
        subst ht
        exact .put hc rfl hs
      case isFalse => exact .stay
    all_goals exact .stay
  case worker w worker ph hw hp h =>
    cases h
    case cas res now _ s hs =>
      have ⟨r, hr, hr', hs⟩ := Store.compareAndSwapStatus_record hs
      change Move _ _ _ _ (s.record t)
      rw [hs]
      split
      case isTrue ht =>
        subst ht
        exact .cas hw rfl hp hr hr'
      case isFalse => exact .stay
    all_goals exact .stay
  case gc h =>
    cases h
    case timeout hs   => exact .of_transition (fun _ => .timeout) hs
    case tombstone hs => exact .of_transition (fun _ => .evict) hs
    case delete hs    => exact .of_delete (fun _ => .delete) hs
    all_goals exact .stay
  case restart h =>
    obtain ⟨hs⟩ := Pool.stepRestart_elim h
    exact .of_delete (fun _ hr hp => .recover hr (by simpa using hp)) hs

namespace Record.Shaped

variable {C : Int → Prop}

theorem reread (h : r.Shaped C) : r.reread.Shaped C := by
  cases r
  case mk status _ _ _ _ =>
    cases status
    case unknown => exact h
    case known k => cases k <;> simp_all [Shaped, Record.reread, UpstreamResponse.reread]

theorem pending_response (h : r.Shaped C) (hs : r.status = .pending) : r.upstreamResponse = none := by
  simpa [Shaped, hs] using h

theorem tombstone_response (h : r.Shaped C) (hs : r.status = .tombstone) :
    r.upstreamResponse = none := by
  simpa [Shaped, hs] using h

end Record.Shaped

-- All records have their shape, and so have those that the workers are about to write.
structure Shaped (C : Int → Prop) (p : Pool) : Prop where
  records : ∀ (t : Tag) (r : Record), p.store.record t = some r → r.Shaped C
  results : ∀ (w : Nat) (worker : Worker) (resp : UpstreamResponse), p.workers[w]? = some worker →
    worker.phase = .cas (some resp) → C resp.statusCode

namespace Shaped

variable {C : Int → Prop}

theorem init : Shaped C .init where
  records t r h := by simp [Pool.init, Store.record] at h
  results w worker resp h := by simp [Pool.init] at h

theorem move (s : Shaped C p) (h502 : C 502) {x : Option Record} (m : Move o p t e x)
    (hx : x = some r) : r.Shaped C := by
  cases m
  case stay => exact s.records t r hx
  case put now _ _ _ _ _ =>
    cases hx
    exact .reread (r := newPendingRecord t now) rfl
  case cas w now worker res r₀ hw _ hp hr hr' =>
    cases hx
    apply Record.Shaped.reread
    cases res
    case none => exact ⟨_, rfl, h502⟩
    case some resp => exact ⟨_, rfl, s.results w worker resp hw hp⟩
  case timeout now r₀ hr hf =>
    cases hx
    apply Record.Shaped.reread
    have hp : r₀.status = .pending := by simp_all [GC.pendingTimeoutFilter]
    exact (s.records t r₀ hr).pending_response hp
  case evict =>
    cases hx
    exact .reread rfl
  case delete | recover => contradiction

-- A worker only gets a response to write when its request has been forwarded.
theorem step (s : Shaped C p₁) (h502 : C 502)
    (he : ∀ w resp, e = .forward w (some resp) → C resp.statusCode) (h : step o p₁ e = some p₂) :
    Shaped C p₂ where
  records t r hr := s.move h502 (moves_of_step h) hr
  results w worker resp hw hp := by
    cases Pool.step_elim h
    case submit | gc h | shutdown | drained | expired =>
      first | exact s.results w worker resp hw hp | cases h <;> exact s.results w worker resp hw hp
    case call h =>
      cases h
      case spawn =>
        cases List.getElem?_snoc_eq_some.mp hw
        case inl hw => exact s.results w worker resp hw hp
        case inr hw =>
          have ⟨_, hw⟩ := hw
          subst hw
          contradiction
      all_goals exact s.results w worker resp hw hp
    case worker h =>
      have hm {f : Worker → Worker} {w'} (hw : (p₁.workers.modify w' f)[w]? = some worker)
          (hf : ∀ x, (f x).phase = .cas (some resp) → C resp.statusCode) : C resp.statusCode := by
        cases List.getElem?_modify_eq_some.mp hw
        case inl hw =>
          have ⟨_, x, _, hx⟩ := hw
          exact hf x (hx ▸ hp)
        case inr hw => exact s.results w worker resp hw.right hp
      cases h
      case forward => exact hm hw fun _ hx => he _ _ (by cases hx; rfl)
      all_goals exact hm hw fun _ hx => nomatch hx
    case restart h =>
      cases Pool.stepRestart_elim h
      have ⟨x, _, hx⟩ := List.getElem?_map .. ▸ hw |> Option.map_eq_some_iff.mp
      subst hx
      exact absurd hp (x.phase.stop_ne_cas _)

theorem of_run (h502 : C 502) (r : (system o).Run es p)
    (hf : ∀ w resp, .forward w (some resp) ∈ es → C resp.statusCode) : Shaped C p := by
  induction r
  case init => exact .init
  case step hs hi =>
    apply step (hi fun w resp hm => hf w resp (by simp [hm])) h502 _ hs
    intro w resp he
    exact hf w resp (by simp [he])

end Shaped

theorem shaped (r : (system o).Reachable p) : Shaped (fun _ => True) p :=
  have ⟨_, r⟩ := r
  .of_run trivial r (by simp)

theorem Edge.refl {x : Option Record} (h : ∀ r, x = some r → r.Shaped C) : Edge x x := by
  cases x
  case none => exact .absent
  case some r =>
    have h := h r rfl
    cases hs : r.status
    case unknown => simp [Record.Shaped, hs] at h
    case known k =>
      cases k
      case pending   => exact .pending hs hs
      case tombstone => exact .tombstone hs hs (h.tombstone_response hs)
      all_goals exact .terminal (by simp [Record.Terminal, hs]) rfl rfl

-- Nothing comes back to the pending state.
theorem Edge.status_pending {x y : Option Record} (h : Edge x y)
    (hy : y.map (·.status) = some .pending) : x.map (·.status) ∈ [none, some .pending] := by
  cases h <;> simp_all [Record.Terminal]

-- A call of `SubmitOrFetch` writes its pending record over a record that has left that state. It found
-- no record for the tag when it looked, but it has not looked again.
def Overwrites (p : Pool) (e : Event) : Prop :=
  ∃ k now c s r, e = .put k now true ∧ p.calls[k]? = some c ∧
    p.store.put c.tag (newPendingRecord c.tag now) = .ok s ∧
    p.store.record c.tag = some r ∧ r.status ≠ .pending

theorem Overwrites.not_edge (ho : Overwrites p₁ e) (h : step o p₁ e = some p₂) :
    ∃ t, ¬Edge (p₁.store.record t) (p₂.store.record t) := by
  have ⟨k, now, c, s, r, he, hc, hs, hr, hp⟩ := ho
  subst he
  refine ⟨c.tag, ?_⟩
  simp only [step, Pool.stepCall, hc, Option.bind_eq_bind, Option.bind_some, hs, if_true] at h
  split at h <;> try contradiction
  cases h
  change ¬Edge _ (s.record c.tag)
  rw [hr, Store.put_record hs, if_pos rfl]
  intro hE
  simpa [hp] using hE.status_pending rfl

theorem Move.edge (s : Shaped C p) {x : Option Record} (m : Move o p t e x) (he : e ≠ .restart)
    (ho : ¬Overwrites p e) : Edge (p.store.record t) x := by
  cases m
  case stay => exact .refl (s.records t)
  case recover => contradiction
  case put k now c s' hc ht hs =>
    subst ht
    cases hr : p.store.record c.tag
    case none => exact .created rfl
    case some r =>
      refine .pending (Classical.byContradiction fun hp => ho ?_) rfl
      exact ⟨k, now, c, s', r, rfl, hc, hs, hr, hp⟩
  case cas res r _ _ _ hr hp =>
    rw [hr]
    refine .finished hp ?_
    cases res <;> simp [Record.Terminal, workerMutate]
  case timeout hr hf =>
    rw [hr]
    exact .finished (by simp_all [GC.pendingTimeoutFilter])
      (by simp [Record.Terminal, GC.pendingTimeoutMutate])
  case evict hr hf =>
    rw [hr]
    exact .evicted (by simp_all [GC.completeTTLFilter, Record.Terminal]) rfl rfl
  case delete hr hf =>
    rw [hr]
    exact .deleted (by simp_all [GC.tombstoneTTLFilter])

-- Each step follows the state machine, except those that overwrite a record.
theorem edge_iff (r : (system o).Reachable p₁) (h : step o p₁ e = some p₂) (he : e ≠ .restart) :
    (∀ t, Edge (p₁.store.record t) (p₂.store.record t)) ↔ ¬Overwrites p₁ e := by
  constructor
  · intro hE ho
    have ⟨t, ht⟩ := ho.not_edge h
    exact ht (hE t)
  · intro ho t
    exact (moves_of_step h).edge (shaped r) he ho

-- All steps of a run follow the state machine, for all tags.
def FollowsEdges (o : Options) (es : List Event) : Prop :=
  (system o).Meets (fun p₁ e => ∀ p₂, step o p₁ e = some p₂ →
    ∀ t, Edge (p₁.store.record t) (p₂.store.record t)) es

theorem followsEdges_iff (r : (system o).Run es p) (hr : .restart ∉ es) :
    FollowsEdges o es ↔ (system o).Meets (fun p e => ¬Overwrites p e) es := by
  refine System.Meets.congr r ?_
  intro p₁ e p₂ he r h
  have hn : e ≠ .restart := fun hn => hr (hn ▸ he)
  constructor
  · intro hE
    exact (edge_iff r h hn).mp (hE p₂ h)
  · intro ho p₂' h'
    cases h.symm.trans h'
    exact (edge_iff r h hn).mpr ho

-- Two calls with the same tag look for a record before one of them writes it. The job of the second one
-- has failed already when the first one writes its record.
def overwriteRun : List Event :=
  [.submit someTag someRequest, .check 0, .get 0 true, .claim 0, .drain 0,
   .submit someTag someRequest, .check 1, .get 1 true, .claim 1, .drain 1,
   .put 1 0 true, .add 1, .spawn 1, .forward 0 none, .cas 0 0 true]

theorem followsEdges_iff_overwriteRun :
    FollowsEdges .twoSlots overwriteRun ↔
      (system .twoSlots).Meets (fun p e => ¬Overwrites p e) overwriteRun :=
  followsEdges_iff (System.Run.of_isSome (by decide)) (by decide)

theorem overwriteRun_isSome : ((system .twoSlots).exec overwriteRun).isSome := by
  decide

theorem overwriteRun_put_isSome :
    (step .twoSlots (((system .twoSlots).exec overwriteRun).get overwriteRun_isSome)
      (.put 0 0 true)).isSome := by
  decide

theorem not_followsEdges_overwriteRun :
    ((system .twoSlots).exec (overwriteRun ++ [.put 0 0 true])).isSome ∧
      ¬FollowsEdges .twoSlots (overwriteRun ++ [.put 0 0 true]) := by
  refine ⟨by decide, ?_⟩
  intro h
  have hE := h overwriteRun _ [] _ rfl (.of_isSome overwriteRun_isSome) _
    (Option.some_get overwriteRun_put_isSome).symm someTag
  have hs := hE.status_pending (by decide)
  revert hs
  decide

end Asyncjob
