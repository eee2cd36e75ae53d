import VpnTunnel.Asyncjob.Theorems.Custody

namespace Asyncjob

variable {o : Options} {p p₁ p₂ : Pool} {e : Event} {es : List Event} {t : Tag} {k w : Nat}
  {c : Submit.Call} {worker : Worker} {r : Record} {res : Option UpstreamResponse}

open Pool (step system created started)

-- The call of `SubmitOrFetch` that has created the record of a tag.
def creator (o : Options) (es : List Event) (t : Tag) : Option Nat :=
  ((system o).observe created es).reverse.lookup t

-- A finished record reports what came of the request of the call that has created the record.
def Genuine (o : Options) (es : List Event) (p : Pool) : Prop :=
  ∀ t r, p.store.record t = some r → r.status = .completed ∨ r.status = .failed →
    ∃ k w res, creator o es t = some k ∧ Carries o es p k w ∧ .forward w res ∈ es ∧ Reports r res

theorem creator_snoc_of_created (rn : (system o).Run es p) (h : created p e = [(t, k)]) :
    creator o (es ++ [e]) t = some k :=
  System.lookup_observe_of_eq rn h

theorem creator_snoc_of_not_created (rn : (system o).Run es p) (h : ∀ k, (t, k) ∉ created p e) :
    creator o (es ++ [e]) t = creator o es t :=
  System.lookup_observe_of_not_mem rn h

theorem Submit.Phase.active_of_written {ph : Submit.Phase} (h : ph.written) : ph.active := by
  cases ph <;> simp_all [written, active]

-- A call of `SubmitOrFetch` starts only after all earlier calls with its tag have returned.
def Sequential (p : Pool) (e : Event) : Prop :=
  ∀ x ∈ e.submit?, ∀ c ∈ p.calls, c.tag = x → ¬c.phase.active

-- When a record is created, no worker of an earlier record with the same tag is still at work.
def Settled (p : Pool) (e : Event) : Prop :=
  ∀ x ∈ created p e, ∀ worker ∈ p.workers, worker.tag = x.1 → ¬worker.phase.active

instance : Decidable (Sequential p e) :=
  inferInstanceAs (Decidable (∀ x ∈ e.submit?, ∀ c ∈ p.calls, _ → _))

instance : Decidable (Settled p e) :=
  inferInstanceAs (Decidable (∀ x ∈ created p e, ∀ worker ∈ p.workers, _ → _))

-- At most one call with a given tag has not returned yet.
def Exclusive (p : Pool) : Prop :=
  ∀ (k₁ k₂ : Nat) (c₁ c₂ : Submit.Call), p.calls[k₁]? = some c₁ → p.calls[k₂]? = some c₂ →
    c₁.tag = c₂.tag → c₁.phase.active → c₂.phase.active → k₁ = k₂

theorem Exclusive.step (g : Exclusive p₁) (h : step o p₁ e = some p₂) (hs : Sequential p₁ e) :
    Exclusive p₂ := by
  intro k₁ k₂ c₁ c₂ h₁ h₂ ht ha₁ ha₂
  cases (CallFrom.of_step h h₁).active ha₁ <;> cases (CallFrom.of_step h h₂).active ha₂
  case inl.inl h₁ h₂ =>
    have ⟨_, h₁, ha₁⟩ := h₁
    have ⟨_, h₂, ha₂⟩ := h₂
    exact g _ _ _ _ h₁ h₂ ht ha₁ ha₂
  case inl.inr h₁ h₂ =>
    have ⟨_, h₁, ha₁⟩ := h₁
    have ⟨_, he⟩ := h₂
    subst he
    exact absurd ha₁ <| hs _ rfl _ (List.mem_of_getElem? h₁) ht
  case inr.inl h₁ h₂ =>
    have ⟨_, h₂, ha₂⟩ := h₂
    have ⟨_, he⟩ := h₁
    subst he
    exact absurd ha₂ <| hs _ rfl _ (List.mem_of_getElem? h₂) ht.symm
  case inr.inr h₁ h₂ => exact h₁.left.trans h₂.left.symm

structure Origin (o : Options) (es : List Event) (p : Pool) : Prop where
  exclusive : ∀ (k₁ k₂ : Nat) (c₁ c₂ : Submit.Call), p.calls[k₁]? = some c₁ →
    p.calls[k₂]? = some c₂ → c₁.tag = c₂.tag → c₁.phase.active → c₂.phase.active → k₁ = k₂
  writers : ∀ (k : Nat) (c : Submit.Call), p.calls[k]? = some c → c.phase.written →
    creator o es c.tag = some k
  workers : ∀ (w : Nat) (worker : Worker), p.workers[w]? = some worker → worker.phase.active →
    creator o es worker.tag = (starters o es)[w]?
  records : Genuine o es p

namespace Origin

theorem init : Origin o [] .init where
  exclusive := by simp [Pool.init]
  writers   := by simp [Pool.init]
  workers   := by simp [Pool.init]
  records   := by simp [Genuine, Pool.init, Store.record]

variable (g : Origin o es p₁) (rn : (system o).Run es p₁) (h : step o p₁ e = some p₂)

include g h

include rn

theorem writers_step (hk : p₂.calls[k]? = some c) (hw : c.phase.written) :
    creator o (es ++ [e]) c.tag = some k := by
  cases CallFrom.of_step h hk
  case wrote hc => exact creator_snoc_of_created rn hc
  case submitted hp => simp [hp, Submit.Phase.written] at hw
  case kept ph hk _ hw' _ =>
    by_cases hc : ∃ k', (c.tag, k') ∈ created p₁ e
    case neg =>
      rw [creator_snoc_of_not_created rn (not_exists.mp hc)]
      exact g.writers k ⟨c.tag, c.req, ph⟩ hk (hw' hw)
    case pos =>
      -- The record is created by this very call, because no other call with its tag is active.
      obtain ⟨k', hc⟩ := hc
      obtain ⟨hc, ⟨c', _, hk', ht, hp, _⟩, _⟩ := created_elim h hc
      have hn := g.exclusive k k' _ c' hk hk' ht.symm (Submit.Phase.active_of_written (hw' hw))
        (by simp [hp, Submit.Phase.active])
      subst hn
      exact creator_snoc_of_created rn hc

theorem workers_step (hs : Settled p₁ e) (hw : p₂.workers[w]? = some worker)
    (ha : worker.phase.active) : creator o (es ++ [e]) worker.tag = (starters o (es ++ [e]))[w]? := by
  have hl := (Custody.of_run rn).length
  rw [starters_snoc rn]
  cases WorkerFrom.of_step h hw
  case kept ph hw ha' _ =>
    have hn (k) : (worker.tag, k) ∉ created p₁ e :=
      fun hc => hs _ hc _ (List.mem_of_getElem? hw) rfl (ha' ha)
    have hw' := (List.getElem?_eq_some_iff.mp hw).1
    rw [creator_snoc_of_not_created rn hn, List.getElem?_append_left (hl ▸ hw')]
    exact g.workers w ⟨worker.tag, worker.req, ph⟩ hw (ha' ha)
  case spawned k c body hn hp hc hcp ht hr =>
    rw [creator_snoc_of_not_created rn (by simp [created]), ht]
    simpa [started, hn, ← hl] using g.writers k c hc (by simp [hcp, Submit.Phase.written])

theorem records_step : Genuine o (es ++ [e]) p₂ := by
  intro t r hr hs
  by_cases hc : ∃ k, (t, k) ∈ created p₁ e
  case pos =>
    obtain ⟨k, hc⟩ := hc
    obtain ⟨_, _, r', hr', hp⟩ := created_elim h hc
    cases hr.symm.trans hr'
    simp [hp] at hs
  case neg =>
    rw [creator_snoc_of_not_created rn (not_exists.mp hc)]
    have hm := moves_of_step (t := t) h
    rw [hr] at hm
    generalize hx : some r = x at hm
    cases hm
    case stay =>
      obtain ⟨k, w, res, hk, hw, hf, hr⟩ := g.records t r hx.symm hs
      exact ⟨k, w, res, hk, hw.step rn h, List.mem_append_left _ hf, hr⟩
    case cas w now worker res r₀ hw ht hp hr₀ _ =>
      have cu := Custody.of_run rn
      have hk := g.workers w worker hw (by simp [hp, Worker.Phase.active])
      obtain ⟨k, hc⟩ := cu.workers w worker hw
      refine ⟨k, w, res, ht ▸ hk.trans hc.started, hc.step rn h, ?_, ?_⟩
      · exact List.mem_append_left _ <| cu.results w worker res hw hp
      · cases hx
        cases res <;> exact ⟨rfl, rfl⟩
    case put | timeout | evict =>
      cases hx
      simp [newPendingRecord, GC.pendingTimeoutMutate, GC.completeTTLMutate] at hs
    case delete | recover => contradiction

theorem step (hs : Sequential p₁ e) (hd : Settled p₁ e) : Origin o (es ++ [e]) p₂ where
  exclusive := Exclusive.step g.exclusive h hs
  writers _ _ := g.writers_step rn h
  workers _ _ := g.workers_step rn h hd
  records := g.records_step rn h

end Origin

theorem genuine_of_settled (rn : (system o).Run es p) (hs : (system o).Meets Sequential es)
    (hd : (system o).Meets Settled es) : Genuine o es p := by
  suffices Origin o es p from this.records
  induction rn
  case init => exact .init
  case step rn h hi => exact (hi hs.of_append hd.of_append).step rn h (hs.last rn) (hd.last rn)

-- The first job takes so long that its record is timed out, evicted and deleted. Its tag is then
-- submitted again, for another request.
def outlivedRun : List Event :=
  [.submit someTag someRequest, .check 0, .get 0 true, .claim 0, .drain 0, .put 0 0 true, .add 0,
   .spawn 0,
   .gcStart (600 * 10 ^ 9), .gcTimeout true, .gcTombstone true, .gcDelete true,
   .gcStart (7200 * 10 ^ 9), .gcTimeout true, .gcTombstone true, .gcDelete true,
   .gcStart (108000 * 10 ^ 9), .gcTimeout true, .gcTombstone true, .gcDelete true,
   .submit someTag { someRequest with url := { someUrl with path := .ofString "/other" } },
   .check 1, .get 1 true, .claim 1, .drain 1, .put 1 (108000 * 10 ^ 9) true, .add 1, .spawn 1]

-- The job of the first request finishes the record of the second one, which has not been forwarded.
def staleRun : List Event :=
  outlivedRun ++ [.forward 0 none, .cas 0 (108000 * 10 ^ 9) true]

theorem staleRun_isSome : ((system .twoSlots).exec staleRun).isSome := by
  decide

theorem staleRun_record_isSome :
    (Store.record (((system .twoSlots).exec staleRun).get staleRun_isSome).store someTag).isSome := by
  decide

theorem not_genuine_staleRun :
    (system .twoSlots).Meets Sequential staleRun ∧
      ¬Genuine .twoSlots staleRun (((system .twoSlots).exec staleRun).get staleRun_isSome) := by
  refine ⟨.of_exec (by decide), ?_⟩
  intro hg
  have ⟨k, w, res, hk, hw, hf, _⟩ :=
    hg someTag _ (Option.some_get staleRun_record_isSome).symm (by decide)
  have hc : creator .twoSlots staleRun someTag = some 1 := by decide
  have hs : starters .twoSlots staleRun = [0, 1] := by decide
  have hw := hs ▸ hw.started
  cases hc.symm.trans hk
  have hw : w = 1 := by
    match w with
    | 0 => simp at hw
    | 1 => rfl
    | n + 2 => simp at hw
  simp [staleRun, outlivedRun, hw] at hf

-- Here, the first job ends before its tag is submitted again.
def settledRun : List Event :=
  [.submit someTag someRequest, .check 0, .get 0 true, .claim 0, .drain 0, .put 0 0 true, .add 0,
   .spawn 0, .forward 0 none, .cas 0 0 true,
   .gcStart (7200 * 10 ^ 9), .gcTimeout true, .gcTombstone true, .gcDelete true,
   .gcStart (108000 * 10 ^ 9), .gcTimeout true, .gcTombstone true, .gcDelete true,
   .submit someTag someRequest, .check 1, .get 1 true, .claim 1, .drain 1,
   .put 1 (108000 * 10 ^ 9) true, .add 1, .spawn 1, .forward 1 none, .cas 1 (108000 * 10 ^ 9) true]

theorem settledRun_isSome : ((system .twoSlots).exec settledRun).isSome := by
  decide

theorem genuine_of_settled_settledRun :
    Genuine .twoSlots settledRun (((system .twoSlots).exec settledRun).get settledRun_isSome) :=
  genuine_of_settled (.of_isSome _) (.of_exec (by decide)) (.of_exec (by decide))

end Asyncjob
