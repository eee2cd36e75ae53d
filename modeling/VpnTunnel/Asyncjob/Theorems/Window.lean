import VpnTunnel.Asyncjob.Theorems.Origin
import VpnTunnel.Asyncjob.Theorems.Reclaim

namespace Asyncjob

open Pool (step system)

variable {o : Options} {p p₁ p₂ : Pool} {e : Event} {es es₁ es₂ : List Event} {tag : Tag} {k w : Nat}
  {c : Submit.Call} {r : Record} {t now : Time} {resp : UpstreamResponse}

namespace Submit.Phase

-- The call has found no record when it looked. It has not written one yet, or it has.
def unwritten : Submit.Phase → Bool
  | .claim | .drain | .put _ => true
  | _                        => false

def looked (ph : Submit.Phase) : Bool :=
  ph.unwritten || ph.written

end Submit.Phase

-- The instants at which the clock has been read.
def readings (es : List Event) : List Time :=
  es.flatMap fun
    | .put _ now _ | .cas _ now _ | .gcStart now => [now]
    | _                                          => []

theorem readings_snoc : readings es ⊆ readings (es ++ [e]) := by
  simp [readings]

-- The time that a pass of the garbage collector goes by.
def GC.Phase.now? : GC.Phase → Option Time
  | .idle                                       => none
  | .timeout now | .tombstone now | .delete now => some now

theorem mem_readings (rn : (system o).Run es p) (hn : p.gc.now? = some now) : now ∈ readings es := by
  induction rn
  case init => contradiction
  case step p₁ p₂ e rn h hi =>
    have keep (hg : p₁.gc.now? = some now) : now ∈ readings (_ ++ [e]) := readings_snoc (hi hg)
    cases Pool.step_elim h
    case submit | shutdown | drained | expired => exact keep hn
    case call h => cases h <;> exact keep hn
    case worker h => cases h <;> exact keep hn
    case gc h =>
      cases h
      case start =>
        cases hn
        simp [readings]
      case delete | deleteFailed => contradiction
      all_goals exact keep (by simpa [GC.Phase.now?, *] using hn)
    case restart h =>
      cases Pool.stepRestart_elim h
      contradiction

-- What the batches that drop a result and a tombstone do to the record of a tag.
theorem gcTombstone_elim (tag : Tag) {io : Bool} (h : step o p₁ (.gcTombstone io) = some p₂) :
    p₂.store.record tag = p₁.store.record tag ∨ ∃ now r, p₁.gc.now? = some now ∧
      p₁.store.record tag = some r ∧ GC.completeTTLFilter o.gc now r ∧
      p₂.store.record tag = some (GC.completeTTLMutate now r).reread := by
  cases Pool.step_elim h
  case call h => cases h
  case worker h => cases h
  case gc h =>
    cases h
    case tombstoneFailed => exact .inl rfl
    case tombstone now _ s hg hb =>
      change s.record tag = _ ∨ ∃ now r, _ ∧ _ ∧ _ ∧ s.record tag = _
      rw [Store.batchTransition_record hb]
      cases hr : p₁.store.record tag
      case none => exact .inl rfl
      case some r =>
        cases hf : GC.completeTTLFilter o.gc now r
        case false => simp [hf]
        case true => exact .inr ⟨now, r, by rw [hg]; rfl, rfl, hf, by simp [hf]⟩

theorem gcDelete_elim (tag : Tag) {io : Bool} (h : step o p₁ (.gcDelete io) = some p₂) :
    p₂.store.record tag = p₁.store.record tag ∨ ∃ now r, p₁.gc.now? = some now ∧
      p₁.store.record tag = some r ∧ GC.tombstoneTTLFilter o.gc now r := by
  cases Pool.step_elim h
  case call h => cases h
  case worker h => cases h
  case gc h =>
    cases h
    case deleteFailed => exact .inl rfl
    case delete now _ s hg hb =>
      change s.record tag = _ ∨ _
      rw [Store.batchDelete_record hb]
      cases hr : p₁.store.record tag
      case none => exact .inl rfl
      case some r =>
        cases hf : GC.tombstoneTTLFilter o.gc now r
        case false => simp [hf]
        case true => exact .inr ⟨now, r, by rw [hg]; rfl, rfl, hf⟩

theorem put_elim {io : Bool} (h : step o p₁ (.put k now io) = some p₂) (hc : p₁.calls[k]? = some c) :
    (∃ body, c.phase = .put body) ∧ ∀ c₂, p₂.calls[k]? = some c₂ → ¬c₂.phase.unwritten := by
  cases Pool.step_elim h
  case worker h => cases h
  case gc h => cases h
  case call hc' hp h =>
    cases h <;> cases hc.symm.trans hc' <;> refine ⟨⟨_, hp⟩, fun c₂ hc₂ => ?_⟩ <;>
      simp only [Pool.abandon, Pool.setCall, List.getElem?_modify_eq, hc, Option.map_eq_map,
        Option.map_some, Option.some.injEq] at hc₂ <;>
      simp [← hc₂, Submit.Phase.unwritten]

-- A call has looked already, or it looks in this step and finds nothing.
theorem looked_elim (h : step o p₁ e = some p₂) (hk : p₂.calls[k]? = some c) (hl : c.phase.looked) :
    (∃ ph, p₁.calls[k]? = some ⟨c.tag, c.req, ph⟩ ∧ ph.looked ∧ (c.phase.unwritten → ph.unwritten)) ∨
      (e = .get k true ∧ p₁.store.record c.tag = none ∧ p₂.store = p₁.store) := by
  have refl (hk : p₁.calls[k]? = some c) : ∃ ph, p₁.calls[k]? = some ⟨c.tag, c.req, ph⟩ ∧ ph.looked ∧
      (c.phase.unwritten → ph.unwritten) :=
    ⟨c.phase, hk, hl, id⟩
  cases Pool.step_elim h
  case submit =>
    cases List.getElem?_snoc_eq_some.mp hk
    case inl hk => exact .inl (refl hk)
    case inr hk => cases hk.2; contradiction
  case worker h => cases h <;> exact .inl (refl hk)
  case gc h => cases h <;> exact .inl (refl hk)
  case shutdown | drained | expired => exact .inl (refl hk)
  case restart h =>
    cases Pool.stepRestart_elim h
    obtain ⟨x, _, hx⟩ := List.getElem?_map .. ▸ hk |> Option.map_eq_some_iff.mp
    cases hp : x.phase <;> simp [← hx, hp, Submit.Phase.stop, Submit.Phase.looked,
      Submit.Phase.unwritten, Submit.Phase.written] at hl
  case call k' c' ph hc hp h =>
    subst hp
    cases hp : c'.phase <;> rw [hp] at h <;> cases h
    case get.absent hn =>
      cases Pool.setCall_elim hc rfl hk
      case inl hk => exact .inl (refl hk)
      case inr hk =>
        obtain ⟨rfl, rfl⟩ := hk
        exact .inr ⟨rfl, Store.get_none hn, rfl⟩
    all_goals
      cases Pool.setCall_elim hc rfl hk
      case inl hk => exact .inl (refl hk)
      case inr hk =>
        obtain ⟨rfl, rfl⟩ := hk
        first
        | contradiction
        | exact .inl ⟨_, hc, by simp [hp, Submit.Phase.looked, Submit.Phase.unwritten,
            Submit.Phase.written], by simp [hp, Submit.Phase.unwritten]⟩

-- Nothing but the `Put` of a call makes a record where there was none.
theorem created_of_record_none (h : step o p₁ e = some p₂) (hn : p₁.store.record tag = none)
    (hr : p₂.store.record tag = some r) :
    ∃ k now c, e = .put k now true ∧ p₁.calls[k]? = some c ∧ c.tag = tag := by
  have hm := moves_of_step (t := tag) h
  generalize hx : p₂.store.record tag = x at hm
  cases hm
  case stay => simp [hn] at hx; simp [hx] at hr
  case put k now c s hc ht _ => exact ⟨k, now, c, rfl, hc, ht⟩
  all_goals simp_all

-- A call that is about to write a record has found none, and there is still none, because no other
-- call with the same tag is under way.
structure Unfound (p : Pool) : Prop where
  exclusive : Exclusive p
  record    : ∀ (k : Nat) (c : Submit.Call), p.calls[k]? = some c → c.phase.unwritten →
    p.store.record c.tag = none

theorem Submit.Phase.active_of_unwritten {ph : Submit.Phase} (h : ph.unwritten) : ph.active := by
  cases ph <;> simp_all [unwritten, active]

theorem Unfound.step (u : Unfound p₁) (h : step o p₁ e = some p₂) (hs : Sequential p₁ e) :
    Unfound p₂ where
  exclusive := u.exclusive.step h hs
  record k c hk hu := by
    have hl : c.phase.looked := by simp [Submit.Phase.looked, hu]
    cases looked_elim h hk hl
    case inr hn => rw [hn.2.2, hn.2.1]
    case inl hp =>
      obtain ⟨ph, hk₁, _, hp⟩ := hp
      have hn := u.record k _ hk₁ (hp hu)
      cases hr : p₂.store.record c.tag
      case none => rfl
      case some r =>
        obtain ⟨k', now, c', rfl, hc', ht⟩ := created_of_record_none h hn hr
        obtain ⟨⟨body, hb⟩, hu'⟩ := put_elim h hc'
        have hk' := u.exclusive k k' _ c' hk₁ hc' ht.symm (Submit.Phase.active_of_unwritten (hp hu))
          (by simp [hb, Submit.Phase.active])
        subst hk'
        exact absurd hu (hu' c hk)

theorem Unfound.of_run (rn : (system o).Run es p) (hs : (system o).Meets Sequential es) : Unfound p := by
  refine rn.invariant_of_meets ⟨?_, ?_⟩ (fun _ _ _ _ u hs h => u.step h hs) hs
  all_goals simp [Exclusive, system, Pool.init]

def NoneLooked (p : Pool) (tag : Tag) : Prop :=
  ∀ (k : Nat) (c : Submit.Call), p.calls[k]? = some c → c.tag = tag → ¬c.phase.looked

theorem NoneLooked.step (hn : NoneLooked p₁ tag) (h : step o p₁ e = some p₂)
    (hr : p₁.store.record tag = some r) : NoneLooked p₂ tag := by
  intro k c hk ht hl
  cases looked_elim h hk hl
  case inl hl =>
    obtain ⟨ph, hk, hl, _⟩ := hl
    exact hn k _ hk ht hl
  case inr hl =>
    rw [ht, hr] at hl
    simp at hl

-- The result that a worker has stored at `t` is there, and no call is about to replace it.
structure Fresh (p : Pool) (tag : Tag) (t : Time) (resp : UpstreamResponse) : Prop where
  record : ∃ r, p.store.record tag = some r ∧ (r.status = .completed ∨ r.status = .failed) ∧
    r.updatedAt = .ofUnix t.unix ∧ r.upstreamResponse = some resp
  calls : NoneLooked p tag

-- The result has been dropped, not before its time.
structure Evicted (o : Options) (p : Pool) (tag : Tag) (t : Time) : Prop where
  record : ∃ r, ∃ now : Time, p.store.record tag = some r ∧ r.status = .tombstone ∧
    r.evictedAt = .ofUnix now.unix ∧ o.gc.completeTTL - 10 ^ 9 < now - t
  calls : NoneLooked p tag

-- The clock has been read after the window has ended.
def Elapsed (o : Options) (es : List Event) (t : Time) : Prop :=
  ∃ now ∈ readings es, o.gc.completeTTL + o.gc.tombstoneTTL - 2 * 10 ^ 9 < now - t

theorem no_put (hn : NoneLooked p₁ tag) (h : step o p₁ (.put k now io) = some p₂)
    (hc : p₁.calls[k]? = some c) : c.tag ≠ tag := by
  intro ht
  obtain ⟨⟨body, hb⟩, _⟩ := put_elim h hc
  exact hn k c hc ht (by simp [hb, Submit.Phase.looked, Submit.Phase.unwritten])

theorem Fresh.step (f : Fresh p₁ tag t resp) (hC : 10 ^ 9 ≤ o.gc.completeTTL)
    (h : step o p₁ e = some p₂) : Fresh p₂ tag t resp ∨ Evicted o p₂ tag t := by
  obtain ⟨r, hr, hs, hu, hp⟩ := f.record
  have hn := f.calls.step h hr
  have hm := moves_of_step (t := tag) h
  generalize hx : p₂.store.record tag = x at hm
  cases hm
  case stay => exact .inl ⟨⟨r, hx.trans hr, hs, hu, hp⟩, hn⟩
  case put hc ht _ => exact absurd ht (no_put f.calls h hc)
  case evict =>
    cases gcTombstone_elim tag h
    case inl he => exact .inl ⟨⟨r, he.trans hr, hs, hu, hp⟩, hn⟩
    case inr he =>
      obtain ⟨now, r', _, hr', hf, he⟩ := he
      cases hr.symm.trans hr'
      refine .inr ⟨⟨_, now, he, rfl, Record.reread_evictedAt, ?_⟩, hn⟩
      exact Time.lt_sub_of_lt_sub_ofUnix hC (hu ▸ (of_decide_eq_true hf).2)
  case cas hr' hs' =>
    cases hr.symm.trans hr'
    simp [hs'] at hs
  case timeout hr' hf =>
    cases hr.symm.trans hr'
    simp_all [GC.pendingTimeoutFilter]
  case delete hr' hf =>
    cases hr.symm.trans hr'
    simp_all [GC.tombstoneTTLFilter]
  case recover hr' hs' =>
    cases hr.symm.trans hr'
    simp [hs'] at hs

theorem Evicted.step (v : Evicted o p₁ tag t) (rn : (system o).Run es p₁)
    (hT : 10 ^ 9 ≤ o.gc.tombstoneTTL) (h : step o p₁ e = some p₂) :
    Evicted o p₂ tag t ∨ Elapsed o es t := by
  obtain ⟨r, now, hr, hs, hu, hp⟩ := v.record
  have hn := v.calls.step h hr
  have hm := moves_of_step (t := tag) h
  generalize hx : p₂.store.record tag = x at hm
  cases hm
  case stay => exact .inl ⟨⟨r, now, hx.trans hr, hs, hu, hp⟩, hn⟩
  case put hc ht _ => exact absurd ht (no_put v.calls h hc)
  case delete =>
    cases gcDelete_elim tag h
    case inl he => exact .inl ⟨⟨r, now, he.trans hr, hs, hu, hp⟩, hn⟩
    case inr he =>
      obtain ⟨now', r', hg, hr', hf⟩ := he
      cases hr.symm.trans hr'
      have hd : o.gc.tombstoneTTL < now'.sub (.ofUnix now.unix) := hu ▸ (of_decide_eq_true hf).2
      have hd := Time.lt_sub_of_lt_sub_ofUnix hT hd
      have hi (c d x y z : Int) (h₁ : c - 10 ^ 9 < y - x) (h₂ : d - 10 ^ 9 < z - y) :
          c + d - 2 * 10 ^ 9 < z - x := by
        omega
      exact .inr ⟨now', mem_readings rn hg, hi _ _ t now now' hp hd⟩
  case cas hr' hs' =>
    cases hr.symm.trans hr'
    simp [hs'] at hs
  case timeout hr' hf =>
    cases hr.symm.trans hr'
    simp_all [GC.pendingTimeoutFilter]
  case evict hr' hf =>
    cases hr.symm.trans hr'
    simp_all [GC.completeTTLFilter]
  case recover hr' hs' =>
    cases hr.symm.trans hr'
    simp [hs'] at hs

-- The run ends with a worker that stores its result.
def Stores (o : Options) (es : List Event) (tag : Tag) (t : Time) (res : Option UpstreamResponse) :
    Prop :=
  ∃ es' p w worker, es = es' ++ [.cas w t true] ∧ (system o).Run es' p ∧ p.workers[w]? = some worker ∧
    worker.tag = tag ∧ worker.phase = .cas res ∧ p.store.pending tag

-- No call with the tag of the record is between writing the record and starting its worker when a worker
-- finishes the record.
def Unhindered (p : Pool) (e : Event) : Prop :=
  ∀ x ∈ p.finished e, p.written x.1 = 0

instance : Decidable (Unhindered p e) :=
  inferInstanceAs (Decidable (∀ x ∈ p.finished e, _ = 0))

theorem Fresh.of_stores {res : Option UpstreamResponse} (hst : Stores o es tag t res)
    (hs : (system o).Meets Sequential es) (hu : (system o).Meets Unhindered es)
    (rn : (system o).Run es p) : Fresh p tag t (res.getD .synthetic).reread := by
  obtain ⟨es', p₁, w, worker, rfl, rn₁, hw, rfl, hp, hr⟩ := hst
  obtain ⟨p₁', rn₁', h⟩ := rn.snoc_elim
  cases rn₁.deterministic rn₁'
  have h : Pool.step o p₁ (.cas w t true) = some p := h
  have ⟨r, hr', hs'⟩ := (Option.any_eq_true _ _).mp hr
  obtain ⟨res', hp', hm⟩ := Pool.record_of_cas rn₁.reachable h hw hr' (of_decide_eq_true hs')
  cases hp.symm.trans hp'
  refine ⟨⟨_, hm, ?_, ?_, ?_⟩, ?_⟩
  · cases res <;> simp [workerMutate]
  · cases res <;> rfl
  · cases res <;> rfl
  · intro k c hk ht hl
    cases looked_elim h hk hl
    case inr hl => simp at hl
    case inl hl =>
      obtain ⟨ph, hk₁, hl, _⟩ := hl
      cases Bool.or_eq_true _ _ ▸ hl
      case inl hl =>
        have hn := (Unfound.of_run rn₁ hs.of_append).record k _ hk₁ hl
        rw [show (⟨c.tag, c.req, ph⟩ : Submit.Call).tag = worker.tag from ht, hr'] at hn
        contradiction
      case inr hl =>
        have hz := hu.last rn₁ (worker.tag, w) (by simp [Pool.finished, hw, hr', of_decide_eq_true hs'])
        exact List.countP_eq_zero.mp hz _ (List.mem_of_getElem? hk₁) (by simp [ht, hl])

-- A call that returns while the result is there returns the result.
theorem Fresh.returns (f : Fresh p₁ tag t resp) (h : Pool.step o p₁ e = some p₂) {out : Outcome}
    (hk : p₁.calls[k]? = some c) (ht : c.tag = tag) (ha : c.phase.active)
    (hk₂ : p₂.calls[k]? = some { c with phase := .returned (.ok out) }) : out = .completed resp := by
  obtain ⟨r, hr, hs, _, hp⟩ := f.record
  have hn := f.calls k c hk ht
  have keep (hk₂ : p₁.calls[k]? = some { c with phase := .returned (.ok out) }) :
      out = .completed resp := by
    rw [hk, Option.some.injEq] at hk₂
    rw [hk₂] at ha
    contradiction
  cases Pool.step_elim h
  case submit =>
    cases List.getElem?_snoc_eq_some.mp hk₂
    case inl hk₂ => exact keep hk₂
    case inr hk₂ => simp at hk₂
  case worker h => cases h <;> exact keep hk₂
  case gc h => cases h <;> exact keep hk₂
  case shutdown | drained | expired => exact keep hk₂
  case restart h =>
    cases Pool.stepRestart_elim h
    simp only [List.getElem?_map, hk, Option.map_some, Option.some.injEq] at hk₂
    cases hp : c.phase <;> simp [hp, Submit.Phase.stop, Submit.Phase.active] at hk₂ ha
  case call k' c' ph hc hp' h =>
    subst hp'
    cases hp' : c'.phase <;> rw [hp'] at h <;> cases h
    case get.found r' hr' =>
      cases Pool.setCall_elim hc rfl hk₂
      case inl hk₂ => exact keep hk₂
      case inr hk₂ =>
        obtain ⟨rfl, he⟩ := hk₂
        cases hk.symm.trans hc
        cases hr.symm.trans (ht ▸ hr')
        have he : out = outcomeForRecord r := by simpa using he
        cases hs <;> simp_all [outcomeForRecord]
    all_goals
      cases Pool.setCall_elim hc rfl hk₂
      case inl hk₂ => exact keep hk₂
      case inr hk₂ =>
        obtain ⟨rfl, he⟩ := hk₂
        cases hk.symm.trans hc
        simp [hp', Submit.Phase.looked, Submit.Phase.unwritten, Submit.Phase.written] at hn he

-- What is promised about a tag after a worker has stored its result: no worker is started for the tag
-- before both periods have passed, as far as the clock has been read, and until the result is dropped
-- all calls that do not fail return it.
structure Window (o : Options) (es es' : List Event) (tag : Tag) (t : Time) (resp : UpstreamResponse) :
    Prop where
  dispatch : ∀ (l₁ : List Event) (k : Nat) (l₂ : List Event) (p : Pool) (c : Submit.Call),
    es' = l₁ ++ .spawn k :: l₂ → (system o).Run (es ++ l₁) p → p.calls[k]? = some c → c.tag = tag →
    ∀ now : Time, (∀ x ∈ readings (es ++ l₁), x ≤ now) →
      t + o.gc.completeTTL + o.gc.tombstoneTTL - 2 * 10 ^ 9 < now
  replay : ∀ (l₁ : List Event) (e : Event) (l₂ : List Event) (p₁ p₂ : Pool),
    es' = l₁ ++ e :: l₂ → (system o).Run (es ++ l₁) p₁ → Pool.step o p₁ e = some p₂ →
    (∀ m₁ m₂ p, l₁ = m₁ ++ m₂ → (system o).Run (es ++ m₁) p →
      (p.store.record tag).map (·.status) ≠ some .tombstone) →
    ∀ (k : Nat) (c : Submit.Call) (out : Outcome), p₁.calls[k]? = some c → c.tag = tag →
      c.phase.active → p₂.calls[k]? = some { c with phase := .returned (.ok out) } →
      out = .completed resp

section Window

variable (hC : 10 ^ 9 ≤ o.gc.completeTTL) (hT : 10 ^ 9 ≤ o.gc.tombstoneTTL)
  (rn₁ : (system o).Run es p₁) (f : Fresh p₁ tag t resp)

include hC rn₁ f

-- The result stays until it is dropped.
theorem fresh_of_run {l : List Event} (rn : (system o).Run (es ++ l) p)
    (hn : ∀ m₁ m₂ p, l = m₁ ++ m₂ → (system o).Run (es ++ m₁) p →
      (p.store.record tag).map (·.status) ≠ some .tombstone) : Fresh p tag t resp := by
  induction l using List.reverseRecOn generalizing p
  case nil =>
    rw [List.append_nil] at rn
    exact rn₁.deterministic rn ▸ f
  case append_singleton l e hi =>
    rw [← List.append_assoc] at rn
    obtain ⟨p', rn', h⟩ := rn.snoc_elim
    have f' := hi rn' fun m₁ m₂ p hl => hn m₁ (m₂ ++ [e]) p (by simp [hl])
    cases f'.step hC h
    case inl f => exact f
    case inr v =>
      obtain ⟨r, _, hr, hs, _⟩ := v.record
      refine absurd ?_ (hn (l ++ [e]) [] p (by simp) (by simpa using rn))
      simp [hr, hs]

include hT

theorem window_of_run {l : List Event} (rn : (system o).Run (es ++ l) p) :
    Fresh p tag t resp ∨ Evicted o p tag t ∨ Elapsed o (es ++ l) t := by
  induction l using List.reverseRecOn generalizing p
  case nil =>
    rw [List.append_nil] at rn
    exact .inl (rn₁.deterministic rn ▸ f)
  case append_singleton l e hi =>
    rw [← List.append_assoc] at rn ⊢
    obtain ⟨p', rn', h⟩ := rn.snoc_elim
    have later (he : Elapsed o (es ++ l) t) : Elapsed o (es ++ l ++ [e]) t := by
      obtain ⟨now, hn, hl⟩ := he
      exact ⟨now, readings_snoc hn, hl⟩
    obtain f' | v | he := hi rn'
    case inl =>
      cases f'.step hC h
      case inl f => exact .inl f
      case inr v => exact .inr (.inl v)
    case inr.inl =>
      cases v.step rn' hT h
      case inl v => exact .inr (.inl v)
      case inr he => exact .inr (.inr (later he))
    case inr.inr => exact .inr (.inr (later he))

end Window

theorem window_of_unhindered {res : Option UpstreamResponse} (rn : (system o).Run (es ++ es₂) p)
    (hs : (system o).Meets Sequential (es ++ es₂)) (hu : (system o).Meets Unhindered (es ++ es₂))
    (hC : 10 ^ 9 ≤ o.gc.completeTTL) (hT : 10 ^ 9 ≤ o.gc.tombstoneTTL)
    (hst : Stores o es tag t res) : Window o es es₂ tag t (res.getD .synthetic).reread := by
  obtain ⟨p₁, rn₁⟩ := rn.of_append
  have f := Fresh.of_stores hst hs.of_append hu.of_append rn₁
  constructor
  case replay =>
    intro l₁ e l₂ p₁ p₂ _ rn' h hn k c out hk ht ha hk₂
    exact (fresh_of_run hC rn₁ f rn' hn).returns h hk ht ha hk₂
  case dispatch =>
    intro l₁ k l₂ p' c he rn' hk ht now hr
    subst he
    -- The call that starts the worker has looked, and so the window is over.
    have hl : c.phase.looked := by
      rw [List.append_cons, ← List.append_assoc, ← List.append_assoc] at rn
      obtain ⟨p₂, rn⟩ := rn.of_append
      obtain ⟨p'', rn'', h⟩ := rn.snoc_elim
      cases rn'.deterministic rn''
      have h : step o p' (.spawn k) = some p₂ := h
      cases Pool.step_elim h
      case worker h => cases h
      case gc h => cases h
      case call hc hp h =>
        cases h
        cases hk.symm.trans hc
        simp [hp, Submit.Phase.looked, Submit.Phase.written]
    obtain f' | v | ⟨x, hx, hlt⟩ := window_of_run hC hT rn₁ f rn'
    case inl => exact absurd hl (f'.calls k c hk ht)
    case inr.inl => exact absurd hl (v.calls k c hk ht)
    case inr.inr =>
      have hi (a b c d e : Int) (h₁ : a + b - 2 * 10 ^ 9 < d - c) (h₂ : d ≤ e) :
          c + a + b - 2 * 10 ^ 9 < e := by
        omega
      exact hi _ _ t x now hlt (hr x hx)

theorem Stores.of_exec {res : Option UpstreamResponse}
    (h : ((system o).exec es).any fun p => p.workers[w]?.any fun worker =>
      worker.tag = tag ∧ worker.phase = .cas res ∧ p.store.pending tag) :
    Stores o (es ++ [.cas w t true]) tag t res := by
  obtain ⟨p, hp, h⟩ := (Option.any_eq_true _ _).mp h
  obtain ⟨worker, hw, h⟩ := (Option.any_eq_true _ _).mp h
  have ⟨ht, hr, hs⟩ := of_decide_eq_true h
  exact ⟨es, p, w, worker, rfl, .of_exec hp, hw, ht, hr, hs⟩

-- The first job ends when the second call has written its record, but has not started its worker yet.
def hinderedRun : List Event :=
  outlivedRun.take 26 ++ [.forward 0 none] ++ [.cas 0 (108000 * 10 ^ 9) true]

theorem hinderedRun_isSome : ((system .twoSlots).exec (hinderedRun ++ [.add 1])).isSome := by
  decide

theorem not_window_hinderedRun :
    (system .twoSlots).Meets Sequential (hinderedRun ++ [.add 1, .spawn 1]) ∧
      (readings (hinderedRun ++ [.add 1, .spawn 1])).Pairwise (· ≤ ·) ∧
      Stores .twoSlots hinderedRun someTag (108000 * 10 ^ 9) none ∧
      ((system .twoSlots).exec (hinderedRun ++ [.add 1, .spawn 1])).isSome ∧
      ¬Window .twoSlots hinderedRun [.add 1, .spawn 1] someTag (108000 * 10 ^ 9)
        UpstreamResponse.synthetic.reread := by
  refine ⟨.of_exec (by decide), by decide, .of_exec (by decide), by decide, ?_⟩
  intro h
  have hd := h.dispatch [.add 1] 1 [] _ _ rfl (.of_isSome hinderedRun_isSome)
    (Option.some_get (by decide)).symm (by decide) (108000 * 10 ^ 9) (by decide)
  revert hd
  decide

-- The window of the first job of this run ends before its tag is submitted again.
theorem window_of_unhindered_settledRun :
    Window .twoSlots (settledRun.take 10) (settledRun.drop 10) someTag 0
      UpstreamResponse.synthetic.reread := by
  have hr : ((system .twoSlots).exec (settledRun.take 10 ++ settledRun.drop 10)).isSome := by decide
  have hst : Stores .twoSlots (settledRun.take 9 ++ [.cas 0 0 true]) someTag 0 none :=
    .of_exec (by decide)
  exact window_of_unhindered (.of_isSome hr) (.of_exec (by decide)) (.of_exec (by decide)) (by decide)
    (by decide) hst

end Asyncjob
