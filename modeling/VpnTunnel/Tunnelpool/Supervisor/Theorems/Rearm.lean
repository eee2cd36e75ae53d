import VpnTunnel.Tunnelpool.Supervisor.Theorems.Basic

namespace Tunnelpool.Supervisor

variable {o : Options} {s s₀ s₁ s₂ : State} {e : Event} {es es₁ es₂ : List Event} {i : Nat}

namespace Pc

-- The request that the loop is about to answer, while the device is still as it was.
def handled? : Pc → Option RotateReq
  | precheck req | lock req | recheck req | unpublish req => req
  | _                                                     => none

-- The loop is in one of its selects, or has been called away from it by a request.
def serves : Pc → Bool
  | backoff | poll _ | head => true
  | pc                      => pc.handled?.isSome

theorem Listens.serves {pc : Pc} (h : pc.Listens) : pc.serves := by
  cases h <;> rfl

theorem listens_iff {pc : Pc} : pc.Listens ↔ pc = .backoff ∨ ∃ rep, pc = .poll rep := by
  constructor
  · rintro ⟨_ | _⟩
    · exact .inl rfl
    · exact .inr ⟨_, rfl⟩
  · rintro (rfl | ⟨_, rfl⟩)
    · exact .backoff
    · exact .poll

theorem Listens.handled? {pc : Pc} (h : pc.Listens) : pc.handled? = none := by
  cases h <;> rfl

end Pc

-- How long the loop waits in the select that it enters: for the next poll of a live device, or for the
-- next attempt to reconnect.
def State.wait (o : Options) (s : State) : Nat :=
  match s.device with
  | none   => s.backoff.toNat
  | some _ => o.poll.toNat

-- In this step, the loop does not leave its select for another reason than a request, and does not take
-- the device away.
def Refuses (s : State) (e : Event) : Prop :=
  e ≠ .ctxDone ∧ e ≠ .stopCh ∧ e ≠ .timer ∧ (e = .unpublish → s.device = none)

instance : Decidable (Refuses s e) :=
  inferInstanceAs (Decidable (_ ∧ _))

-- A call has its answer, and the answer is that nothing has been done.
def State.Refused (s : State) (i : Nat) : Prop :=
  ∃ c, s.rotates[i]? = some c ∧
    (c.reply = some .skippedActive ∨ (s.device = none ∧ c.reply = some .unavailable))

-- What is left of the state of the loop after requests that have been refused.
structure Unmoved (s₁ s₂ : State) : Prop where
  device  : s₂.device = s₁.device
  backoff : s₂.backoff = s₁.backoff
  serves  : s₂.pc.serves

theorem Unmoved.step (u : Unmoved s s₁) (hr : Refuses s₁ e) (st : Step o s₁ e s₂) : Unmoved s s₂ := by
  obtain ⟨hd, hb, hp⟩ := u
  cases st
  case tick | cancel | rotate | rotateCancel | rotateLoopDone | rotateReturn | stop | stopOnce |
      stopLoad | stopJoin => exact ⟨hd, hb, hp⟩
  case enterBackoff | enterPoll | rotateCh | skip | precheck | lock | recheck | notLive =>
    exact ⟨hd, hb, rfl⟩
  case unpublish hl => simp [Refuses, hl] at hr
  case ctxDone | stopCh | backoffTimer | pollTimer | settleTimer | settleDone => simp [Refuses] at hr
  all_goals simp_all [Pc.serves, Pc.handled?]

theorem Unmoved.wait (u : Unmoved s₁ s₂) : s₂.wait o = s₁.wait o := by
  simp only [State.wait, u.device, u.backoff]

-- When the loop has entered its select last.
def entered (o : Options) (es : List Event) : Nat :=
  ((system o).observe (fun s e => if e = .head then [s.now] else []) es).getLast?.getD 0

theorem entered_head (rn : (system o).Run es s) : entered o (es ++ [.head]) = s.now := by
  simp [entered, System.observe_snoc rn]

theorem entered_snoc (rn : (system o).Run es s) (he : e ≠ .head) : entered o (es ++ [e]) = entered o es := by
  simp [entered, System.observe_snoc rn, he]

-- A step that leads into a select enters it, or is taken by others while the loop is in it.
theorem Step.listens (st : Step o s₁ e s₂) (hl : s₂.pc.Listens) :
    (e = .head ∧ s₂.deadline = s₁.now + s₂.wait o) ∨
      (e ≠ .head ∧ s₁.pc.Listens ∧ s₂.deadline = s₁.deadline ∧ s₂.wait o = s₁.wait o) := by
  cases st
  case tick | cancel | rotate | rotateCancel | rotateLoopDone | rotateReturn | stop | stopOnce |
      stopLoad | stopJoin => exact .inr ⟨by simp, hl, rfl, rfl⟩
  case enterBackoff hd => exact .inl ⟨rfl, by simp [State.wait, hd]⟩
  case enterPoll hd => exact .inl ⟨rfl, by simp [State.wait, hd]⟩
  case buildErr site _ _ _ => cases site <;> cases hl
  case swap site _ => cases site <;> cases hl
  case closed site _ =>
    cases site
    case teardown exit _ => cases exit <;> cases hl
    case rotate => cases hl
  case tornDown exit _ _ => cases exit <;> cases hl
  all_goals cases hl

-- The timer of a select goes off a full wait after the loop has entered it.
theorem deadline_eq (rn : (system o).Run es s) (hl : s.pc.Listens) :
    s.deadline = entered o es + s.wait o := by
  induction rn
  case init => cases hl
  case step rn h hi =>
    cases (Step.of_step h).listens hl
    case inl hs =>
      obtain ⟨rfl, hs⟩ := hs
      rw [entered_head rn, hs]
    case inr hs =>
      obtain ⟨he, hl, hd, hw⟩ := hs
      rw [entered_snoc rn he, hd, hw, hi hl]

theorem Step.now_le (st : Step o s₁ e s₂) : s₁.now ≤ s₂.now := by
  cases st
  case tick => exact Nat.le_add_right ..
  case buildErr site _ _ _ => cases site <;> exact le_rfl
  case swap site _ => cases site <;> exact le_rfl
  case closed site _ => cases site <;> exact le_rfl
  all_goals exact le_rfl

-- A loop that has been called away enters its select later.
theorem le_entered (rn₁ : (system o).Run es₁ s₁) (hn : ¬s₁.pc.Listens)
    (rn : (system o).Run (es₁ ++ es₂) s) :
    s₁.now ≤ s.now ∧ (s.pc.Listens → s₁.now ≤ entered o (es₁ ++ es₂)) := by
  induction es₂ using List.reverseRecOn generalizing s
  case nil =>
    rw [List.append_nil] at rn ⊢
    cases rn₁.deterministic rn
    exact ⟨le_rfl, fun hl => absurd hl hn⟩
  case append_singleton es₂ e hi =>
    rw [← List.append_assoc] at rn ⊢
    obtain ⟨s', rn', h⟩ := rn.snoc_elim
    have ⟨ht, he⟩ := hi rn'
    refine ⟨ht.trans (Step.of_step h).now_le, fun hl => ?_⟩
    cases (Step.of_step h).listens hl
    case inl hs =>
      obtain ⟨rfl, _⟩ := hs
      rwa [entered_head rn']
    case inr hs => exact entered_snoc rn' hs.1 ▸ he hs.2.1

-- A request that the loop has received is in its hands, or has been refused.
def State.Served (s : State) (i : Nat) : Prop :=
  (∃ req c, s.pc.handled? = some req ∧ req.reply = i ∧ s.rotates[i]? = some c) ∨ s.Refused i

-- The calls and their answers stay, whatever happens to the phases.
def KeepsReplies (l₁ l₂ : List RotateCall) : Prop :=
  ∀ (i : Nat) (c : RotateCall), l₁[i]? = some c → ∃ c', l₂[i]? = some c' ∧ c'.reply = c.reply

theorem KeepsReplies.refl (l : List RotateCall) : KeepsReplies l l :=
  fun _ c hc => ⟨c, hc, rfl⟩

theorem KeepsReplies.setRotate (s : State) (j : Nat) (ph : RotatePhase) :
    KeepsReplies s.rotates (s.setRotate j ph).rotates := by
  intro i c hc
  by_cases hj : j = i
  case pos => exact ⟨{ c with phase := ph }, by simp [State.setRotate, hj, hc], rfl⟩
  case neg => exact ⟨c, by simpa [State.setRotate, hj] using hc, rfl⟩

theorem KeepsReplies.rotateIfIdle (s : State) (force : Bool) :
    KeepsReplies s.rotates (s.rotateIfIdle force).rotates :=
  fun _ c hc => ⟨c, List.getElem?_snoc_eq_some.mpr <| .inl hc, rfl⟩

theorem State.Refused.mono (h : s₁.Refused i) (hk : KeepsReplies s₁.rotates s₂.rotates)
    (hd : s₂.device = s₁.device) : s₂.Refused i := by
  obtain ⟨c, hc, h⟩ := h
  obtain ⟨c', hc', hr⟩ := hk i c hc
  exact ⟨c', hc', by rwa [hr, hd]⟩

theorem State.Served.mono (h : s₁.Served i) (hk : KeepsReplies s₁.rotates s₂.rotates)
    (hd : s₂.device = s₁.device) (hp : s₂.pc.handled? = s₁.pc.handled?) : s₂.Served i := by
  cases h
  case inr h => exact .inr (h.mono hk hd)
  case inl h =>
    obtain ⟨req, c, hr, hi, hc⟩ := h
    obtain ⟨c', hc', _⟩ := hk i c hc
    exact .inl ⟨req, c', hp ▸ hr, hi, hc'⟩

-- The answer to a request refuses that request, and leaves those alone that have been refused before.
theorem State.Served.reply {req : RotateReq} {res : RotateResult} (h : s.Served i)
    (hp : s.pc.handled? = some req)
    (hr : res = .skippedActive ∨ (s.device = none ∧ res = .unavailable)) :
    ({ s.reply req res with pc := .head } : State).Served i := by
  have hs (c : RotateCall) (hc : s.rotates[i]? = some c) (hi : req.reply = i) :
      ({ s.reply req res with pc := .head } : State).Refused i := by
    refine ⟨{ c with reply := some res }, by simp [State.reply, hi, hc], ?_⟩
    cases hr
    case inl hr => exact .inl (congrArg some hr)
    case inr hr => exact .inr ⟨hr.1, congrArg some hr.2⟩
  cases h
  case inl h =>
    obtain ⟨req', c, hp', hi, hc⟩ := h
    cases hp.symm.trans hp'
    exact .inr (hs c hc hi)
  case inr h =>
    by_cases hi : req.reply = i
    case pos =>
      obtain ⟨c, hc, _⟩ := h
      exact .inr (hs c hc hi)
    case neg =>
      obtain ⟨c, hc, h⟩ := h
      exact .inr ⟨c, by simpa [State.reply, hi] using hc, h⟩

theorem Step.served (st : Step o s₁ e s₂) (hr : Refuses s₁ e) (hp : s₁.pc.serves)
    (h : s₁.Served i ∨ e = .rotateCh i) : s₂.Served i := by
  have same (hn : ∀ i, e ≠ .rotateCh i) : s₁.Served i := h.resolve_right (hn i)
  cases st
  case tick | cancel | stop | stopOnce | stopLoad | stopJoin =>
    exact (same (by simp)).mono (.refl _) rfl rfl
  case rotate => exact (same (by simp)).mono (.rotateIfIdle _ _) rfl rfl
  case rotateCancel | rotateLoopDone | rotateReturn =>
    exact (same (by simp)).mono (.setRotate _ _ _) rfl rfl
  case enterBackoff hh _ | enterPoll hh _ | precheck hh _ | lock hh | recheck hh _ =>
    exact (same (by simp)).mono (.refl _) rfl (by rw [hh]; rfl)
  case skip hh _ =>
    refine (same (by simp)).reply ?_ (.inl rfl)
    cases hh
    case inl hh => rw [hh]; rfl
    case inr hh => rw [hh]; rfl
  case notLive hh hd => exact (same (by simp)).reply (by rw [hh]; rfl) (.inr ⟨hd, rfl⟩)
  case rotateCh j c hc _ hl =>
    by_cases hj : j = i
    case pos =>
      subst hj
      obtain ⟨c', hc', _⟩ := KeepsReplies.setRotate s₁ j .waiting j c hc
      exact .inl ⟨_, c', rfl, rfl, hc'⟩
    case neg =>
      have hs := h.resolve_right (by simpa using hj)
      cases hs
      case inl hs =>
        obtain ⟨_, _, hs, _⟩ := hs
        rw [hl.handled?] at hs
        contradiction
      case inr hs => exact .inr (hs.mono (.setRotate s₁ j .waiting) rfl)
  case unpublish hl => simp [Refuses, hl] at hr
  case ctxDone | stopCh | backoffTimer | pollTimer | settleTimer | settleDone => simp [Refuses] at hr
  all_goals simp_all [Pc.serves, Pc.handled?]

-- Without a request, the loop stays in its select.
theorem Step.undisturbed (st : Step o s₁ e s₂) (hr : Refuses s₁ e) (hn : ∀ i, e ≠ .rotateCh i)
    (h : s₁.pc.Listens ∧ s₁.deadline = s.deadline) : s₂.pc.Listens ∧ s₂.deadline = s.deadline := by
  obtain ⟨hl, hd⟩ := h
  cases st
  case tick | cancel | rotate | rotateCancel | rotateLoopDone | rotateReturn | stop | stopOnce |
      stopLoad | stopJoin => exact ⟨hl, hd⟩
  case rotateCh i _ _ _ _ => exact absurd rfl (hn i)
  case ctxDone | stopCh | backoffTimer | pollTimer | settleTimer | settleDone => simp [Refuses] at hr
  case skip hp _ => cases hp <;> simp_all [Pc.listens_iff]
  all_goals simp_all [Pc.listens_iff]

theorem Step.calledAway (st : Step o s₁ e s₂) (he : e = .rotateCh i) :
    s₂.now = s₁.now ∧ ¬s₂.pc.Listens := by
  cases st <;> cases he
  case rotateCh => exact ⟨rfl, fun h => by cases h⟩

section Run

variable (rn₁ : (system o).Run es s₁) (hl₁ : s₁.pc.Listens) (hr : (system o).MeetsFrom Refuses es es₂)

include rn₁ hl₁ hr

theorem unmoved_of_run (rn : (system o).Run (es ++ es₂) s) : Unmoved s₁ s :=
  rn₁.invariant_while (P := Unmoved s₁) ⟨rfl, rfl, hl₁.serves⟩
    (fun _ _ _ _ hk u h => u.step hk (Step.of_step h)) hr rn

theorem served_of_run (rn : (system o).Run (es ++ es₂) s) (hi : .rotateCh i ∈ es₂) : s.Served i := by
  induction es₂ using List.reverseRecOn generalizing s
  case nil => simp at hi
  case append_singleton es₂ e ih =>
    rw [← List.append_assoc] at rn
    obtain ⟨s', rn', h⟩ := rn.snoc_elim
    refine (Step.of_step h).served (hr es₂ e [] s' rfl rn') (unmoved_of_run rn₁ hl₁ hr.of_append rn').serves ?_
    cases List.mem_append.mp hi
    case inl hi => exact .inl (ih hr.of_append rn' hi)
    case inr hi => exact .inr (List.mem_singleton.mp hi).symm

end Run

-- Requests that are refused leave the device and the backoff alone, but each of them makes the loop wait
-- again, from when it is back in its select.
theorem refused_rearms (rn₁ : (system o).Run es s₁) (hl₁ : s₁.pc.Listens)
    (hr : (system o).MeetsFrom Refuses es es₂) (rn : (system o).Run (es ++ es₂) s) :
    s.device = s₁.device ∧ s.backoff = s₁.backoff ∧
    (s.pc.Listens →
      (∀ i, .rotateCh i ∈ es₂ → s.Refused i) ∧
      s.deadline = entered o (es ++ es₂) + s₁.wait o ∧
      ((∀ i, .rotateCh i ∉ es₂) → s.deadline = s₁.deadline) ∧
      ∀ l₁ i l₂ s', es₂ = l₁ ++ .rotateCh i :: l₂ → (system o).Run (es ++ l₁) s' →
        s'.now + s₁.wait o ≤ s.deadline) := by
  have u := unmoved_of_run rn₁ hl₁ hr rn
  refine ⟨u.device, u.backoff, fun hl => ?_⟩
  have hd := u.wait (o := o) ▸ deadline_eq rn hl
  refine ⟨?_, hd, ?_, ?_⟩
  · intro i hi
    cases served_of_run rn₁ hl₁ hr rn hi
    case inl hs =>
      obtain ⟨_, _, hs, _⟩ := hs
      rw [hl.handled?] at hs
      contradiction
    case inr hs => exact hs
  · intro hn
    have hk (l₁ : List Event) (e : Event) (l₂ : List Event) (s : State) (he : es₂ = l₁ ++ e :: l₂)
        (rn : (system o).Run (es ++ l₁) s) : Refuses s e ∧ ∀ i, e ≠ .rotateCh i :=
      ⟨hr l₁ e l₂ s he rn, fun i hi => hn i (by simp [he, hi])⟩
    exact (rn₁.invariant_while (P := fun s => s.pc.Listens ∧ s.deadline = s₁.deadline) ⟨hl₁, rfl⟩
      (fun _ _ _ _ hk h hs => (Step.of_step hs).undisturbed hk.1 hk.2 h) hk rn).2
  · intro l₁ i l₂ s' he rn'
    subst he
    rw [List.append_cons, ← List.append_assoc] at rn
    obtain ⟨s'', rn''⟩ := rn.of_append
    rw [← List.append_assoc] at rn''
    obtain ⟨s₂, rn₂, h⟩ := rn''.snoc_elim
    cases rn'.deterministic rn₂
    have h : step o s' (.rotateCh i) = some s'' := h
    have ⟨hn, hp⟩ := (Step.of_step h).calledAway rfl
    have hl := (le_entered rn'' hp (by simpa using rn)).2 hl
    rw [hd, ← hn]
    exact Nat.add_le_add_right (by simpa using hl) _

-- The first device is live, and the loop waits for its first poll.
def pollRun : List Event :=
  [.start, .built 0 (some true), .swap, .launch, .head]

-- A second before the poll, a rotation is asked for while there are sessions.
def askedRun : List Event :=
  [.tick 59000000000, .rotate false, .rotateCh 0, .busy true, .head]

theorem pollRun_isSome : ((system .twoExits).exec pollRun).isSome := by
  decide

theorem askedRun_isSome : ((system .twoExits).exec (pollRun ++ askedRun)).isSome := by
  decide

def pollState : State :=
  ((system .twoExits).exec pollRun).get pollRun_isSome

def askedState : State :=
  ((system .twoExits).exec (pollRun ++ askedRun)).get askedRun_isSome

-- The request is refused, and the poll that was due a second later has been put off for a minute.
theorem refused_postpones_poll :
    askedState.rotates = [⟨false, .waiting, some .skippedActive⟩] ∧
      askedState.device = pollState.device ∧
      pollState.deadline = 60000000000 ∧ askedState.deadline = 119000000000 ∧
      ((system .twoExits).exec (pollRun ++ [.tick 60000000000, .timer])).isSome ∧
      (system .twoExits).exec (pollRun ++ askedRun ++ [.tick 1000000000, .timer]) = none := by
  decide

theorem refused_rearms_askedRun :
    askedState.device = pollState.device ∧ askedState.backoff = pollState.backoff ∧
      askedState.Refused 0 ∧ 59000000000 + pollState.wait .twoExits ≤ askedState.deadline := by
  have hr : (system .twoExits).MeetsFrom Refuses pollRun askedRun := .of_exec (by decide)
  have h := refused_rearms (.of_isSome pollRun_isSome) .poll hr (.of_isSome askedRun_isSome)
  have hl := h.2.2 .poll
  have ha : ((system .twoExits).exec (pollRun ++ [.tick 59000000000, .rotate false])).isSome := by
    decide
  exact ⟨h.1, h.2.1, hl.1 0 (by decide), hl.2.2.2 _ 0 _ _ rfl (.of_isSome ha)⟩

end Tunnelpool.Supervisor
