import VpnTunnel.Asyncjob.Theorems.Pool

namespace Asyncjob

variable {o : Options} {p p₁ p₂ m : Pool} {e : Event} {es es₁ es₂ : List Event} {t : Tag} {k : Nat}
  {c : Submit.Call} {w : Nat} {worker : Worker}

-- The call has written its record, but has not started its worker yet.
def Submit.Phase.written : Submit.Phase → Bool
  | .add _ | .spawn _ => true
  | _                 => false

@[simp]
theorem Submit.Phase.not_written_stop (ph : Submit.Phase) : ph.stop.written = false := by
  cases ph <;> rfl

-- The call that writes its record, if there is one.
def Event.put? : Event → Option Nat
  | .put k _ true => some k
  | _             => none

namespace Pool

def written (p : Pool) (t : Tag) : Nat :=
  p.calls.countP fun c => c.tag = t ∧ c.phase.written

-- How many workers have been started for a tag so far.
def dispatched (p : Pool) (t : Tag) : Nat :=
  p.workers.countP (·.tag = t)

-- How a step changes the number of calls that are about to start a worker, and of those started.
inductive Counts (p₁ p₂ : Pool) (t : Tag) : Event → Prop
  | keep {e : Event} : p₂.written t ≤ p₁.written t → p₂.dispatched t = p₁.dispatched t →
      Counts p₁ p₂ t e
  | write {k : Nat} {now : Time} {c : Submit.Call} : p₁.calls[k]? = some c → c.tag = t →
      p₂.written t ≤ p₁.written t + 1 → p₂.dispatched t = p₁.dispatched t →
      Counts p₁ p₂ t (.put k now true)
  | start {e : Event} : p₂.written t + 1 = p₁.written t → p₂.dispatched t = p₁.dispatched t + 1 →
      Counts p₁ p₂ t e

theorem written_setCall (hc : p.calls[k]? = some c) (ph : Submit.Phase) :
    (p.setCall k ph).written t + (decide (c.tag = t) && c.phase.written).toNat =
      p.written t + (decide (c.tag = t) && ph.written).toNat := by
  simpa [written] using countP_setCall (fun c => c.tag = t ∧ c.phase.written) hc ph

theorem written_setCall_le (hc : p.calls[k]? = some c) {ph : Submit.Phase}
    (h : ph.written → c.phase.written) : (p.setCall k ph).written t ≤ p.written t := by
  have hw := written_setCall (t := t) hc ph
  cases hp : ph.written
  case false =>
    simp only [hp, Bool.and_false, Bool.toNat_false] at hw
    omega
  case true =>
    rw [hp, h hp] at hw
    omega

theorem dispatched_setWorker (hw : p.workers[w]? = some worker) (ph : Worker.Phase) :
    (p.setWorker w ph).dispatched t = p.dispatched t :=
  Nat.add_right_cancel <| countP_setWorker (·.tag = t) hw ph

-- No call survives a restart, and the workers that were started stay started.
theorem counts_stepRestart (h : p₁.stepRestart = some p₂) :
    p₂.written t = 0 ∧ p₂.dispatched t = p₁.dispatched t := by
  cases stepRestart_elim h
  constructor
  · simp [written]
  · simp [dispatched, Function.comp_def]

theorem counts_of_step (h : step o p₁ e = some p₂) : Counts p₁ p₂ t e := by
  cases step_elim h
  case submit => exact .keep (by simp [written, Submit.Phase.written]) rfl
  case call k c ph hc hp h =>
    subst hp
    cases hp : c.phase <;> rw [hp] at h <;> cases h
    case put.put body now s hs =>
      have hw := written_setCall (t := t) hc (.add body)
      simp only [hp, Submit.Phase.written, Bool.and_false, Bool.and_true] at hw
      by_cases ht : c.tag = t
      case pos => exact .write hc ht (by simp_all [written, setCall]) rfl
      case neg => exact .keep (by simp_all [written, setCall]) rfl
    case spawn.spawn body =>
      have hw := written_setCall (t := t) hc (.returned (.ok .pending))
      simp only [hp, Submit.Phase.written, Bool.and_false, Bool.and_true] at hw
      by_cases ht : c.tag = t
      case pos => exact .start (by simp_all [written, setCall]) (by simp [dispatched, setCall, ht])
      case neg => exact .keep (by simp_all [written, setCall]) (by simp [dispatched, setCall, ht])
    all_goals exact .keep (written_setCall_le hc (by simp [hp, Submit.Phase.written])) rfl
  case worker hw _ h => cases h <;> exact .keep le_rfl (dispatched_setWorker hw _)
  case gc h => cases h <;> exact .keep le_rfl rfl
  case shutdown | drained | expired => exact .keep le_rfl rfl
  case restart h =>
    obtain ⟨hw, hd⟩ := counts_stepRestart (t := t) h
    exact .keep (by omega) hd

-- A call that writes its record still finds none, and no other call with the same tag is about to start
-- its worker.
def FirstWrite (p : Pool) (e : Event) : Prop :=
  ∀ k ∈ e.put?, ∀ c ∈ p.calls[k]?, c.tag ∉ p.store ∧ p.written c.tag = 0

instance : Decidable (FirstWrite p e) :=
  inferInstanceAs (Decidable (∀ k ∈ e.put?, ∀ c ∈ p.calls[k]?, _ ∧ _))

theorem written_le_one (r : (system o).Run es p) (hf : (system o).Meets FirstWrite es) :
    p.written t ≤ 1 := by
  refine r.invariant_of_meets (P := fun p => p.written t ≤ 1) (by simp [written, system, init]) ?_ hf
  intro p₁ e p₂ _ hw hf h
  cases counts_of_step (t := t) h
  case keep | start => omega
  case write hc ht hw' _ =>
    have := (hf _ rfl _ hc).right
    rw [ht] at this
    omega

-- The record of a tag is in the store at each point of the run after its first part.
def Kept (o : Options) (t : Tag) (es₁ es₂ : List Event) : Prop :=
  ∀ l₁ l₂ n, es₂ = l₁ ++ l₂ → (system o).Run (es₁ ++ l₁) n → t ∈ n.store

theorem Kept.of_exec
    (h : ∀ i ≤ es₂.length, ∀ n ∈ (system o).exec (es₁ ++ es₂.take i), t ∈ n.store) :
    Kept o t es₁ es₂ := by
  intro l₁ l₂ n hl r
  subst hl
  exact h l₁.length (by simp) n (by simpa using r.exec_eq)

theorem dispatched_at_most_once (r₁ : (system o).Run es₁ m) (r : (system o).Run (es₁ ++ es₂) p)
    (hk : Kept o t es₁ es₂) (hf : (system o).Meets FirstWrite (es₁ ++ es₂)) :
    p.dispatched t ≤ m.dispatched t + 1 := by
  have hm := written_le_one (t := t) r₁ hf.of_append
  suffices p.written t + p.dispatched t ≤ m.written t + m.dispatched t by omega
  refine r₁.invariant_while (K := fun p e => t ∈ p.store ∧ FirstWrite p e)
    (P := fun p => p.written t + p.dispatched t ≤ m.written t + m.dispatched t) le_rfl ?_ ?_ r
  · intro p₁ e p₂ _ hk hw h
    cases counts_of_step (t := t) h
    case keep | start => omega
    case write hc ht _ _ => exact absurd (ht ▸ hk.left) (hk.right _ rfl _ hc).left
  · intro l₁ e l₂ n hl rn
    subst hl
    exact ⟨hk l₁ _ n rfl rn, hf _ e l₂ n (by simp) rn⟩

def firstWrite : List Event :=
  [.submit someTag someRequest, .check 0, .get 0 true, .claim 0, .drain 0, .put 0 0 true]

theorem firstWrite_isSome : ((system .twoSlots).exec firstWrite).isSome := by
  decide

theorem firstWrite_spawn_isSome :
    ((system .twoSlots).exec (firstWrite ++ [.add 0, .spawn 0])).isSome := by
  decide

theorem dispatched_at_most_once_spawn :
    (((system .twoSlots).exec (firstWrite ++ [.add 0, .spawn 0])).get
        firstWrite_spawn_isSome).dispatched someTag ≤
      (((system .twoSlots).exec firstWrite).get firstWrite_isSome).dispatched someTag + 1 :=
  dispatched_at_most_once (.of_isSome _) (.of_isSome _) (.of_exec (by decide)) (.of_exec (by decide))

-- Both calls have looked for a record before the first one writes it.
def raceWrite : List Event :=
  [.submit someTag someRequest, .check 0, .get 0 true, .claim 0, .drain 0,
   .submit someTag someRequest, .check 1, .get 1 true, .claim 1, .drain 1, .put 0 0 true]

theorem dispatched_twice :
    Kept .twoSlots someTag raceWrite [.put 1 0 true, .add 0, .spawn 0, .add 1, .spawn 1] ∧
      ((system .twoSlots).exec raceWrite).map (·.dispatched someTag) = some 0 ∧
      ((system .twoSlots).exec
        (raceWrite ++ [.put 1 0 true, .add 0, .spawn 0, .add 1, .spawn 1])).map
          (·.dispatched someTag) = some 2 :=
  ⟨.of_exec (by decide), by decide, by decide⟩

end Pool
end Asyncjob
