import VpnTunnel.Asyncjob.Theorems.Custody

namespace Asyncjob

open Pool (step system created started)

variable {o : Options} {p p₁ p₂ : Pool} {e : Event} {es : List Event} {t : Tag} {k w : Nat}
  {c : Submit.Call} {worker : Worker}

namespace Submit.Phase

-- The call has claimed a slot, and has neither failed nor started its worker.
def holds : Submit.Phase → Bool
  | .drain | .put _ | .add _ | .spawn _ => true
  | _                                   => false

-- The call has not tried to claim a slot yet.
def early : Submit.Phase → Bool
  | .check | .get | .claim => true
  | _                      => false

-- The call has written its record, or may have.
def accepted : Submit.Phase → Bool
  | .add _ | .spawn _ | .returned (.ok .pending) | .dead => true
  | _                                                    => false

-- The call has returned an error, or that the queue is full.
def refused : Submit.Phase → Bool
  | .returned (.error _) | .returned (.ok .queueFull) => true
  | _                                                 => false

theorem not_accepted_of_refused {ph : Submit.Phase} (h : ph.refused) : ¬ph.accepted := by
  cases ph <;> try contradiction
  case returned res =>
    cases res
    case error  => simp [accepted]
    case ok out => cases out <;> simp_all [refused, accepted]

theorem not_holds_of_refused {ph : Submit.Phase} (h : ph.refused) : ph.holds = false := by
  cases ph <;> simp_all [refused, holds]

@[simp]
theorem not_holds_stop (ph : Submit.Phase) : ph.stop.holds = false := by
  cases ph <;> rfl

@[simp]
theorem not_early_stop (ph : Submit.Phase) : ph.stop.early = false := by
  cases ph <;> rfl

-- How a call goes on.
inductive Next : Submit.Phase → Submit.Phase → Prop
  | closed : Next .check (.returned (.error .poolClosed))
  | check : Next .check .get
  | getError {err : Error} : Next .get (.returned (.error (.getTag err)))
  | found {r : Record} : Next .get (.returned (.ok (outcomeForRecord r)))
  | absent : Next .get .claim
  | claim : Next .claim .drain
  | queueFull : Next .claim (.returned (.ok .queueFull))
  | drain {body : List UInt8} : Next .drain (.put body)
  | drainError {err : SubmitError} : Next .drain (.returned (.error err))
  | put {body : List UInt8} : Next (.put body) (.add body)
  | putError {body : List UInt8} {err : Error} :
      Next (.put body) (.returned (.error (.writePending err)))
  | add {body : List UInt8} : Next (.add body) (.spawn body)
  | spawn {body : List UInt8} : Next (.spawn body) (.returned (.ok .pending))
  | stop {ph : Submit.Phase} : Next ph ph.stop

-- A call does not come back to where it has not claimed a slot, and from where it has written its record.
theorem Next.early {ph₁ ph₂ : Submit.Phase} (h : Next ph₁ ph₂) (he : ph₂.early) : ph₁.early := by
  cases h
  case stop => simp at he
  all_goals simp_all [Phase.early]

theorem Next.accepted {ph₁ ph₂ : Submit.Phase} (h : Next ph₁ ph₂) (ha : ph₁.accepted) :
    ph₂.accepted := by
  cases h
  case stop => cases ph₁ <;> first | rfl | exact ha
  all_goals simp_all [Phase.accepted]

end Submit.Phase

-- The worker has not given its slot back yet.
def Worker.Phase.live : Worker.Phase → Bool
  | .forward | .cas _ | .release => true
  | _                            => false

@[simp]
theorem Worker.Phase.not_live_stop (ph : Worker.Phase) : ph.stop.live = false := by
  cases ph <;> rfl

-- Who can hold a slot.
inductive Holder
  | call (k : Nat)
  | worker (w : Nat)
  deriving DecidableEq

namespace Pool

theorem next_of_step (h : step o p₁ e = some p₂) {c₁ c₂ : Submit.Call}
    (h₁ : p₁.calls[k]? = some c₁) (h₂ : p₂.calls[k]? = some c₂) :
    c₂.phase = c₁.phase ∨ c₁.phase.Next c₂.phase := by
  cases step_elim h
  case submit =>
    cases h₂.symm.trans <| List.getElem?_snoc_eq_some.mpr <| .inl h₁
    exact .inl rfl
  case call k' c ph hc hp h =>
    have hm {ph'} (hk : (p₁.calls.modify k' ({ · with phase := ph' }))[k]? = some c₂)
        (hn : ph.Next ph') : c₂.phase = c₁.phase ∨ c₁.phase.Next c₂.phase := by
      cases List.getElem?_modify_eq_some.mp hk
      case inl hk =>
        obtain ⟨hk, c', hc', hx⟩ := hk
        subst hk hx
        cases h₁.symm.trans hc'
        cases h₁.symm.trans hc
        exact .inr (hp ▸ hn)
      case inr hk =>
        cases h₁.symm.trans hk.right
        exact .inl rfl
    cases h <;> exact hm h₂ (by constructor)
  case worker h => cases h <;> cases h₁.symm.trans h₂ <;> exact .inl rfl
  case gc h => cases h <;> cases h₁.symm.trans h₂ <;> exact .inl rfl
  case shutdown | drained | expired =>
    cases h₁.symm.trans h₂
    exact .inl rfl
  case restart h =>
    cases stepRestart_elim h
    simp only [List.getElem?_map, h₁, Option.map_some, Option.some.injEq] at h₂
    rw [← h₂]
    exact .inr .stop

def holding (p : Pool) : Nat :=
  p.calls.countP (·.phase.holds)

def live (p : Pool) : Nat :=
  p.workers.countP (·.phase.live)

def Holds (p : Pool) : Holder → Bool
  | .call k   => p.calls[k]?.any (·.phase.holds)
  | .worker w => p.workers[w]?.any (·.phase.live)

def holders (p : Pool) : List Holder :=
  ((List.range p.calls.length).map Holder.call ++
    (List.range p.workers.length).map Holder.worker).filter p.Holds

-- Who gets a slot in a step: a call that claims one, and the worker that a call hands its slot on to.
def taken (o : Options) (p : Pool) : Event → List Holder
  | .claim k => if p.slots < o.maxConcurrent then [.call k] else []
  | .spawn _ => [.worker p.workers.length]
  | _        => []

-- Who has no slot any more after a step: a call that returns an error, one that hands its slot on to a
-- worker, a worker that exits, and all of them when the process dies.
def given (p : Pool) : Event → List Holder
  | .drain k =>
    match p.calls[k]? with
    | some c => if (drainBody c.tag c.req).isOk then [] else [.call k]
    | none   => []
  | .put k now io =>
    match p.calls[k]? with
    | some c =>
      if io ∧ (p.store.put c.tag (newPendingRecord c.tag now)).isOk then [] else [.call k]
    | none => []
  | .spawn k   => [.call k]
  | .release w => [.worker w]
  | .restart   => p.holders
  | _          => []

end Pool

def takers (o : Options) (es : List Event) : List Holder :=
  (system o).observe (Pool.taken o) es

def givers (o : Options) (es : List Event) : List Holder :=
  (system o).observe Pool.given es

namespace Pool

-- The channel has one element for each holder, and never more than it has room for.
theorem slots_eq (r : (system o).Reachable p) :
    p.slots = p.holding + p.live ∧ p.slots ≤ o.maxConcurrent := by
  refine r.invariant (P := fun p => p.slots = p.holding + p.live ∧ p.slots ≤ o.maxConcurrent)
    (by simp [system, init, holding, live]) ?_
  intro p₁ e p₂ hi h
  cases step_elim h
  case submit => simpa [holding, live, Submit.Phase.holds] using hi
  case call k c ph hc hp h =>
    have hh (ph') : (p₁.setCall k ph').holding + ph.holds.toNat =
        p₁.holding + ph'.holds.toNat :=
      hp ▸ countP_setCall (·.phase.holds) hc ph'
    have hk {ph'} (he : ph'.holds = ph.holds) :
        p₁.slots = (p₁.setCall k ph').holding + p₁.live ∧ p₁.slots ≤ o.maxConcurrent := by
      have := he ▸ hh ph'
      omega
    have ha {res} (he : ph.holds) :
        p₁.slots - 1 = (p₁.setCall k (.returned res)).holding + p₁.live ∧
          p₁.slots - 1 ≤ o.maxConcurrent := by
      have hh : (p₁.setCall k (.returned res)).holding + ph.holds.toNat = p₁.holding := hh _
      rw [he, Bool.toNat_true] at hh
      omega
    cases h
    case claim hs =>
      have hh : (p₁.setCall k .drain).holding = p₁.holding + 1 := hh _
      change p₁.slots + 1 = (p₁.setCall k .drain).holding + p₁.live ∧ p₁.slots + 1 ≤ o.maxConcurrent
      omega
    case spawn body =>
      have hh : (p₁.setCall k (.returned (.ok .pending))).holding + 1 = p₁.holding := hh _
      have hw : List.countP (·.phase.live)
          (p₁.workers ++ [⟨c.tag, cloneRequest c.req body, .forward⟩]) = p₁.live + 1 := by
        simp [live, Worker.Phase.live]
      change p₁.slots = (p₁.setCall k (.returned (.ok .pending))).holding +
        List.countP (·.phase.live) (p₁.workers ++ [_]) ∧ p₁.slots ≤ o.maxConcurrent
      omega
    case drainError | putError => exact ha rfl
    all_goals exact hk rfl
  case worker w worker ph hw hp h =>
    have hh (ph') : (p₁.setWorker w ph').live + ph.live.toNat = p₁.live + ph'.live.toNat :=
      hp ▸ countP_setWorker (·.phase.live) hw ph'
    have hk {ph'} (he : ph'.live = ph.live) :
        p₁.slots = p₁.holding + (p₁.setWorker w ph').live ∧ p₁.slots ≤ o.maxConcurrent := by
      have := he ▸ hh ph'
      omega
    cases h
    case release =>
      have hh : (p₁.setWorker w .done).live + 1 = p₁.live := hh _
      change p₁.slots - 1 = p₁.holding + (p₁.setWorker w .done).live ∧
        p₁.slots - 1 ≤ o.maxConcurrent
      omega
    all_goals exact hk rfl
  case gc h => cases h <;> exact hi
  case shutdown | drained | expired => exact hi
  case restart h =>
    cases stepRestart_elim h
    have hc : (p₁.calls.map fun c : Submit.Call => (⟨c.tag, c.req, c.phase.stop⟩ : Submit.Call)).countP
        (·.phase.holds) = 0 := by
      simp
    have hw : (p₁.workers.map fun w : Worker => (⟨w.tag, w.req, w.phase.stop⟩ : Worker)).countP
        (·.phase.live) = 0 := by
      simp
    exact ⟨(congrArg₂ (· + ·) hc hw).symm, Nat.zero_le _⟩

theorem holds_setCall (hc : p.calls[k]? = some c) (ph : Submit.Phase) (x : Holder) :
    (p.setCall k ph).Holds x = if x = .call k then ph.holds else p.Holds x := by
  cases x
  case worker => rfl
  case call j =>
    by_cases hj : j = k
    case pos => simp [Holds, setCall, hj, hc]
    case neg => simp [Holds, setCall, hj, Ne.symm hj]

theorem holds_setWorker (hw : p.workers[w]? = some worker) (ph : Worker.Phase) (x : Holder) :
    (p.setWorker w ph).Holds x = if x = .worker w then ph.live else p.Holds x := by
  cases x
  case call => rfl
  case worker j =>
    by_cases hj : j = w
    case pos => simp [Holds, setWorker, hj, hw]
    case neg => simp [Holds, setWorker, hj, Ne.symm hj]

theorem count_holders (p : Pool) (x : Holder) : p.holders.count x = (p.Holds x).toNat := by
  cases hx : p.Holds x
  case false =>
    refine List.count_eq_zero.mpr fun hm => ?_
    simp [holders, hx] at hm
  case true =>
    have hn : p.holders.Nodup := by
      refine List.Nodup.filter _ <| List.nodup_append.mpr ⟨?_, ?_, by simp⟩
      · exact List.nodup_range.map fun _ _ => Holder.call.inj
      · exact List.nodup_range.map fun _ _ => Holder.worker.inj
    refine List.count_eq_one_of_mem hn <| List.mem_filter.mpr ⟨?_, hx⟩
    cases x
    case call k =>
      have ⟨c, hc, _⟩ := (Option.any_eq_true _ _).mp hx
      simp [(List.getElem?_eq_some_iff.mp hc).1]
    case worker w =>
      have ⟨worker, hw, _⟩ := (Option.any_eq_true _ _).mp hx
      simp [(List.getElem?_eq_some_iff.mp hw).1]

-- Who holds a slot after a step: those who have held it before, without those who have given it up and
-- with those who have got one.
theorem holds_of_step (h : step o p₁ e = some p₂) (x : Holder) :
    (p₂.Holds x).toNat + (p₁.given e).count x = (p₁.Holds x).toNat + (p₁.taken o e).count x := by
  cases step_elim h
  case submit tag req =>
    cases x
    case worker => rfl
    case call j =>
      have hj : (p₁.calls ++ [(⟨tag, req, .check⟩ : Submit.Call)])[j]?.any (·.phase.holds) =
          p₁.calls[j]?.any (·.phase.holds) := by
        by_cases hj : j = p₁.calls.length
        case pos => simp [hj, Submit.Phase.holds]
        case neg => rw [List.getElem?_snoc_of_ne hj]
      exact congrArg Bool.toNat hj
  case call k c ph hc hp h =>
    have hs {ph'} : (p₁.setCall k ph').Holds x = if x = .call k then ph'.holds else p₁.Holds x :=
      holds_setCall hc ph' x
    have hx (he : x = .call k) : p₁.Holds x = ph.holds := by simp [Holds, he, hc, hp]
    have keep {ph'} (he : ph'.holds = ph.holds) :
        ((p₁.setCall k ph').Holds x).toNat = (p₁.Holds x).toNat := by
      rw [hs]
      split
      case isTrue hk => rw [hx hk, he]
      case isFalse => rfl
    have drop {ph'} (h₁ : ph.holds) (h₂ : ph'.holds = false) :
        ((p₁.setCall k ph').Holds x).toNat + [Holder.call k].count x = (p₁.Holds x).toNat := by
      rw [hs]
      split
      case isTrue hk => rw [hx hk, h₁, h₂, hk, List.count_singleton_self]; rfl
      case isFalse hk => simp [Ne.symm hk]
    cases h
    case claim hs' =>
      rw [taken, if_pos hs']
      change ((p₁.setCall k .drain).Holds x).toNat = (p₁.Holds x).toNat + [Holder.call k].count x
      rw [hs]
      split
      case isTrue hk => rw [hx hk, hk, List.count_singleton_self]; rfl
      case isFalse hk => simp [Ne.symm hk]
    case queueFull hs' =>
      rw [taken, if_neg hs']
      exact keep rfl
    case drain hd =>
      have hg : p₁.given (.drain k) = [] := by simp [given, hc, hd, Except.isOk, Except.toBool]
      rw [hg]
      exact keep rfl
    case drainError hd =>
      have hg : p₁.given (.drain k) = [.call k] := by
        simp [given, hc, hd, Except.isOk, Except.toBool]
      rw [hg]
      exact drop rfl rfl
    case put now _ hd =>
      have hg : p₁.given (.put k now true) = [] := by
        simp [given, hc, hd, Except.isOk, Except.toBool]
      rw [hg]
      exact keep rfl
    case putError now io _ hd =>
      have hg : p₁.given (.put k now io) = [.call k] := by
        cases io <;> simp [given, hc, hd, Except.isOk, Except.toBool]
      rw [hg]
      exact drop rfl rfl
    case spawn body =>
      cases x
      case call j => exact drop rfl rfl
      case worker j =>
        by_cases hj : j = p₁.workers.length
        case pos => simp [hj, Holds, setCall, given, taken, Worker.Phase.live]
        case neg =>
          simp [Holds, setCall, given, taken, List.getElem?_snoc_of_ne hj, Ne.symm hj]
    all_goals exact keep rfl
  case worker w worker ph hw hp h =>
    have hs {ph'} : (p₁.setWorker w ph').Holds x = if x = .worker w then ph'.live else p₁.Holds x :=
      holds_setWorker hw ph' x
    have hx (he : x = .worker w) : p₁.Holds x = ph.live := by simp [Holds, he, hw, hp]
    have keep {ph'} (he : ph'.live = ph.live) :
        ((p₁.setWorker w ph').Holds x).toNat = (p₁.Holds x).toNat := by
      rw [hs]
      split
      case isTrue hk => rw [hx hk, he]
      case isFalse => rfl
    cases h
    case release =>
      change ((p₁.setWorker w .done).Holds x).toNat + [Holder.worker w].count x = (p₁.Holds x).toNat
      rw [hs]
      split
      case isTrue hk => rw [hx hk, hk, List.count_singleton_self]; rfl
      case isFalse hk => simp [Ne.symm hk]
    all_goals exact keep rfl
  case gc h => cases h <;> rfl
  case shutdown | drained | expired => rfl
  case restart h =>
    have hf : p₂.Holds x = false := by
      cases stepRestart_elim h
      cases x
      case call k => cases hc : p₁.calls[k]? <;> simp [Holds, hc]
      case worker w => cases hw : p₁.workers[w]? <;> simp [Holds, hw]
    rw [hf, given, count_holders]
    simp [taken]

-- The call has not tried to claim a slot yet, or the worker has not been started yet.
def Fresh (p : Pool) : Holder → Prop
  | .call k   => ∀ c, p.calls[k]? = some c → c.phase.early
  | .worker w => p.workers.length ≤ w

theorem early_of_step (h : step o p₁ e = some p₂) {c₁ c₂ : Submit.Call}
    (h₁ : p₁.calls[k]? = some c₁) (h₂ : p₂.calls[k]? = some c₂) (he : c₂.phase.early) :
    c₁.phase.early := by
  cases next_of_step h h₁ h₂
  case inl hp => exact hp ▸ he
  case inr hp => exact hp.early he

theorem taken_elim (h : step o p₁ e = some p₂) {x : Holder} (hx : x ∈ p₁.taken o e) :
    p₁.taken o e = [x] ∧ p₁.Fresh x ∧ ¬p₂.Fresh x := by
  cases e <;> simp only [taken, List.not_mem_nil] at hx
  case claim k =>
    split at hx <;> simp only [List.mem_singleton, List.not_mem_nil] at hx
    case isTrue hs =>
      subst hx
      refine ⟨if_pos hs, ?_⟩
      cases step_elim h
      case worker h => cases h
      case gc h => cases h
      case call c ph hc hp h =>
        cases h
        case queueFull hn => contradiction
        case claim =>
          constructor
          · intro c' hc'
            cases hc.symm.trans hc'
            simp [hp, Submit.Phase.early]
          · intro hf
            have := hf { c with phase := .drain } (by simp [setCall, hc])
            simp [Submit.Phase.early] at this
  case spawn k =>
    rw [List.mem_singleton] at hx
    subst hx
    have hl := workers_length h
    simp only [started, List.length_singleton] at hl
    refine ⟨rfl, Nat.le_refl _, ?_⟩
    simp only [Fresh]
    omega

theorem fresh_of_step (h : step o p₁ e = some p₂) {x : Holder} (hx : p₂.Fresh x) : p₁.Fresh x := by
  cases x
  case call k =>
    intro c hc
    have ⟨_, hc'⟩ := call_persists h hc
    exact early_of_step h hc hc' (hx _ hc')
  case worker w =>
    have := workers_length h
    simp only [Fresh] at hx ⊢
    omega

end Pool

theorem takers_snoc (rn : (system o).Run es p) : takers o (es ++ [e]) = takers o es ++ p.taken o e :=
  System.observe_snoc rn

theorem givers_snoc (rn : (system o).Run es p) : givers o (es ++ [e]) = givers o es ++ p.given e :=
  System.observe_snoc rn

theorem not_mem_takers_of_fresh (rn : (system o).Run es p) {x : Holder} (hx : p.Fresh x) :
    x ∉ takers o es := by
  induction rn
  case init => simp [takers]
  case step rn h hi =>
    rw [takers_snoc rn, List.mem_append, not_or]
    exact ⟨hi (Pool.fresh_of_step h hx), fun ht => (Pool.taken_elim h ht).2.2 hx⟩

-- Each slot that has been taken is held, or has been given up once.
theorem takers_balance (rn : (system o).Run es p) (x : Holder) :
    (takers o es).count x ≤ 1 ∧
      (takers o es).count x = (givers o es).count x + (p.Holds x).toNat := by
  induction rn
  case init => cases x <;> simp [takers, givers, system, Pool.init, Pool.Holds]
  case step p₁ _ e rn h hi =>
    have hs := Pool.holds_of_step h x
    rw [takers_snoc rn, givers_snoc rn, List.count_append, List.count_append]
    refine ⟨?_, by omega⟩
    by_cases hx : x ∈ p₁.taken o e
    case neg =>
      rw [List.count_eq_zero.mpr hx]
      exact hi.1
    case pos =>
      obtain ⟨ht, hf, _⟩ := Pool.taken_elim h hx
      rw [List.count_eq_zero.mpr (not_mem_takers_of_fresh rn hf), ht, List.count_singleton_self]

-- What a call has done once it has written a record or has started a worker.
theorem accepted_of_created (rn : (system o).Run es p)
    (h : k ∈ starters o es ∨ ∃ t, (t, k) ∈ (system o).observe created es) :
    ∃ c, p.calls[k]? = some c ∧ c.phase.accepted := by
  induction rn
  case init => simp [starters] at h
  case step p₁ p₂ e rn hs hi =>
    have hs : step o p₁ e = some p₂ := hs
    have hm {c₁ : Submit.Call} (h₁ : p₁.calls[k]? = some c₁) (ha : c₁.phase.accepted) :
        ∃ c, p₂.calls[k]? = some c ∧ c.phase.accepted := by
      obtain ⟨_, h₂⟩ := call_persists hs h₁
      refine ⟨_, h₂, ?_⟩
      cases Pool.next_of_step hs h₁ h₂
      case inl hp => exact hp ▸ ha
      case inr hn => exact hn.accepted ha
    rw [starters_snoc rn, System.observe_snoc rn] at h
    simp only [List.mem_append, exists_or] at h
    rcases h with (h | h) | (h | h)
    case inl.inl =>
      obtain ⟨c, hc, ha⟩ := hi (.inl h)
      exact hm hc ha
    case inr.inl =>
      obtain ⟨c, hc, ha⟩ := hi (.inr h)
      exact hm hc ha
    case inl.inr =>
      cases e <;> simp only [started, List.not_mem_nil, List.mem_singleton] at h
      subst h
      cases Pool.step_elim hs
      case worker h => cases h
      case gc h => cases h
      case call c ph hc hp h =>
        cases h
        exact hm hc (by simp [hp, Submit.Phase.accepted])
    case inr.inr =>
      obtain ⟨t, h⟩ := h
      obtain ⟨_, ⟨c, body, _, _, _, hc⟩, _⟩ := created_elim hs h
      exact ⟨_, hc, rfl⟩

-- A step of a call changes the store only by writing the record of the call.
theorem store_of_call (h : step o p₁ e = some p₂) (hk : e.call? = some k)
    (hn : ∀ t, (t, k) ∉ created p₁ e) : p₂.store = p₁.store := by
  cases Pool.step_elim h
  case submit | shutdown | drained | expired | restart => contradiction
  case worker h => cases h <;> contradiction
  case gc h => cases h <;> contradiction
  case call k' c ph hc hp h =>
    cases h
    case put hs =>
      cases hk
      exact absurd (by simp [created, hc, hs, Except.isOk, Except.toBool]) (hn c.tag)
    all_goals rfl

-- The call itself has not changed the store.
def WritesNothing (o : Options) (k : Nat) (p : Pool) (e : Event) : Prop :=
  e.call? = some k → ∀ p₂, step o p e = some p₂ → p₂.store = p.store

theorem slots_accounted (rn : (system o).Run es p) :
    (p.slots = p.holding + p.live ∧ p.slots ≤ o.maxConcurrent) ∧
    (∀ x, (takers o es).count x ≤ 1 ∧
      (takers o es).count x = (givers o es).count x + (p.Holds x).toNat) ∧
    ∀ k c, p.calls[k]? = some c → c.phase.refused →
      p.Holds (.call k) = false ∧ k ∉ starters o es ∧ (system o).Meets (WritesNothing o k) es := by
  refine ⟨Pool.slots_eq rn.reachable, takers_balance rn, ?_⟩
  intro k c hc hr
  have hn : ¬∃ c, p.calls[k]? = some c ∧ c.phase.accepted := by
    intro ⟨c', hc', ha⟩
    cases hc.symm.trans hc'
    exact Submit.Phase.not_accepted_of_refused hr ha
  have hw := not_or.mp <| mt (accepted_of_created rn) hn
  refine ⟨?_, hw.1, ?_⟩
  · simp [Pool.Holds, hc, Submit.Phase.not_holds_of_refused hr]
  · intro es₁ e es₂ p₁ he rn₁ hk p₂ hs
    refine store_of_call hs hk fun t => ?_
    exact (System.not_mem_observe_iff rn).mp (fun ht => hw.2 ⟨t, ht⟩) es₁ e es₂ p₁ he rn₁

-- The second call cannot read the body of its request.
def unreadableRun : List Event :=
  [.submit someTag someRequest, .check 0, .get 0 true, .claim 0, .drain 0, .put 0 0 true, .add 0,
   .spawn 0,
   .submit (.ofString "retry-tag-2") { someRequest with body := some ⟨[], true⟩ },
   .check 1, .get 1 true, .claim 1, .drain 1]

theorem unreadableRun_isSome : ((system .twoSlots).exec unreadableRun).isSome := by
  decide

def unreadablePool : Pool :=
  ((system .twoSlots).exec unreadableRun).get unreadableRun_isSome

theorem slots_accounted_unreadableRun :
    (unreadablePool.slots = unreadablePool.holding + unreadablePool.live ∧ unreadablePool.slots = 1) ∧
    unreadablePool.Holds (.call 1) = false ∧ 1 ∉ starters .twoSlots unreadableRun ∧
    (system .twoSlots).Meets (WritesNothing .twoSlots 1) unreadableRun := by
  have h := slots_accounted (System.Run.of_isSome unreadableRun_isSome)
  exact ⟨⟨h.1.1, by decide⟩, h.2.2 1 (unreadablePool.calls.get ⟨1, by decide⟩) (by decide) (by decide)⟩

end Asyncjob
