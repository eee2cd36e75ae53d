import VpnTunnel.Lib.System
import VpnTunnel.Lib.Threads

-- A program is the tree of the calls that it makes: what it does after a call depends on what the call returns.
inductive Prog (Op : Type) (Res : Op → Type) (α : Type)
  | done (a : α)
  | call (op : Op) (next : Res op → Prog Op Res α)

-- What answers the calls of the processes, which are identified by numbers. A choice settles what the state
-- does not, and `exec = none` means that it is not a choice for the call. When the machine goes down, a loss
-- says what becomes of the state.
structure Kernel (Op : Type) (Res : Op → Type) (σ χ δ : Type) where
  exec  : Nat → σ → (op : Op) → χ → Option (Res op × σ)
  crash : δ → σ → σ

namespace Prog

variable {Op : Type} {Res : Op → Type} {α β : Type}

def bind : Prog Op Res α → (α → Prog Op Res β) → Prog Op Res β
  | done a, f       => f a
  | call op next, f => call op fun r => (next r).bind f

instance : Monad (Prog Op Res) where
  pure := done
  bind := bind

def perform (op : Op) : Prog Op Res (Res op) :=
  call op done

variable {σ χ δ : Type} (K : Kernel Op Res σ χ δ)

-- An execution of a program by a process that is alone.
inductive Returns (pid : Nat) : Prog Op Res α → σ → α → σ → Prop
  | done {a s} : Returns pid (done a) s a s
  | call {op} {next : Res op → Prog Op Res α} {c r s₁ s₂ a s₃} : (K.exec pid s₁ op c = some (r, s₂)) →
    Returns pid (next r) s₂ a s₃ → Returns pid (call op next) s₁ a s₃

-- The execution with given choices, one for each call.
def replay (pid : Nat) : Prog Op Res α → σ → List χ → Option (α × σ)
  | done a, s, _            => some (a, s)
  | call _ _, _, []         => none
  | call op next, s, c :: cs => do
    let (r, s) ← K.exec pid s op c
    (next r).replay pid s cs

-- What is true of the result whenever the process is alone.
def Ensures (pid : Nat) (Q : α → σ → Prop) : Prog Op Res α → σ → Prop
  | done a, s       => Q a s
  | call op next, s => ∀ c r s', K.exec pid s op c = some (r, s') → (next r).Ensures pid Q s'

-- Between the steps of a process the state changes as `R pid` allows. A step of the process itself is one that
-- all other processes put up with, and what the program returns is described by `Q`.
def Meets (R : Nat → σ → σ → Prop) (pid : Nat) (Q : α → σ → Prop) : Prog Op Res α → σ → Prop
  | done a, s       => ∀ s', R pid s s' → Q a s'
  | call op next, s => ∀ s', R pid s s' → ∀ c r s'', K.exec pid s' op c = some (r, s'') →
    (∀ pid' ≠ pid, R pid' s' s'') ∧ (next r).Meets R pid Q s''

namespace Ensures

variable {K} {pid : Nat} {s s' : σ}

theorem returns {Q : α → σ → Prop} {p : Prog Op Res α} {a : α} (e : p.Ensures K pid Q s)
    (h : p.Returns K pid s a s') : Q a s' := by
  induction h
  case done         => exact e
  case call he _ hi => exact hi (e _ _ _ he)

theorem perform_bind {Q : α → σ → Prop} {op : Op} {f : Res op → Prog Op Res α}
    (h : ∀ c r s', K.exec pid s op c = some (r, s') → (f r).Ensures K pid Q s') :
    (perform op >>= f).Ensures K pid Q s :=
  h

theorem bind {Q : α → σ → Prop} {Q' : β → σ → Prop} {p : Prog Op Res α} {f : α → Prog Op Res β}
    (e : p.Ensures K pid Q s) (hf : ∀ a s, Q a s → (f a).Ensures K pid Q' s) :
    (p >>= f).Ensures K pid Q' s := by
  induction p generalizing s
  case done a => exact hf a s e
  case call op next hi => exact fun c r s' he => hi r (e c r s' he)

end Ensures

theorem returns_of_replay {K : Kernel Op Res σ χ δ} {pid : Nat} {p : Prog Op Res α} {s s' : σ} {a : α} {cs : List χ}
    (h : p.replay K pid s cs = some (a, s')) : p.Returns K pid s a s' := by
  induction p generalizing s cs
  case done =>
    cases h
    exact .done
  case call op next hi =>
    cases cs
    case nil => contradiction
    case cons c cs =>
      obtain ⟨⟨r, s₁⟩, he, h⟩ := Option.bind_eq_some_iff.mp h
      exact .call he (hi r h)

-- A process that is alone comes to an end if there is an answer to each call.
theorem exists_returns {K : Kernel Op Res σ χ δ} {pid : Nat} {s : σ} {p : Prog Op Res α}
    (h : ∀ s op, ∃ c r s', K.exec pid s op c = some (r, s')) : ∃ a s', p.Returns K pid s a s' := by
  induction p generalizing s
  case done a => exact ⟨a, s, .done⟩
  case call op next hi =>
    have ⟨c, r, s₁, he⟩ := h s op
    have ⟨a, s₂, hr⟩ := hi r (s := s₁)
    exact ⟨a, s₂, .call he hr⟩

-- An assertion that goes on holding whatever the other processes do.
def Stable (R : σ → σ → Prop) (P : σ → Prop) : Prop :=
  ∀ ⦃s s'⦄, P s → R s s' → P s'

namespace Meets

variable {K} {R : Nat → σ → σ → Prop} {pid : Nat} {s s' : σ}

theorem done {Q : α → σ → Prop} {P : σ → Prop} {a : α} (hs : Stable (R pid) P) (hp : P s)
    (h : ∀ s, P s → Q a s) : (Prog.done a : Prog Op Res α).Meets K R pid Q s :=
  fun s' hr => h s' (hs hp hr)

-- It is enough to look at a call from the states in which a stable assertion holds.
theorem call {Q : α → σ → Prop} {P : σ → Prop} {op : Op} {next : Res op → Prog Op Res α}
    (hs : Stable (R pid) P) (hp : P s)
    (h : ∀ s c r s', P s → K.exec pid s op c = some (r, s') →
      (∀ pid' ≠ pid, R pid' s s') ∧ (next r).Meets K R pid Q s') :
    (Prog.call op next).Meets K R pid Q s :=
  fun s' hr c r s'' he => h s' c r s'' (hs hp hr) he

theorem perform_bind {Q : α → σ → Prop} {P : σ → Prop} {op : Op} {f : Res op → Prog Op Res α}
    (hs : Stable (R pid) P) (hp : P s)
    (h : ∀ s c r s', P s → K.exec pid s op c = some (r, s') →
      (∀ pid' ≠ pid, R pid' s s') ∧ (f r).Meets K R pid Q s') :
    (perform op >>= f).Meets K R pid Q s :=
  call hs hp h

theorem stable {Q : α → σ → Prop} {p : Prog Op Res α} (ht : ∀ s₁ s₂ s₃, R pid s₁ s₂ → R pid s₂ s₃ → R pid s₁ s₃)
    (m : p.Meets K R pid Q s) (h : R pid s s') : p.Meets K R pid Q s' := by
  cases p
  case done => exact fun s'' h' => m s'' (ht _ _ _ h h')
  case call => exact fun s'' h' => m s'' (ht _ _ _ h h')

theorem bind {Q : α → σ → Prop} {Q' : β → σ → Prop} {p : Prog Op Res α} {f : α → Prog Op Res β}
    (hr : ∀ s, R pid s s) (m : p.Meets K R pid Q s) (hf : ∀ a s, Q a s → (f a).Meets K R pid Q' s) :
    (p >>= f).Meets K R pid Q' s := by
  induction p generalizing s
  case done a => exact hf a s (m s (hr s))
  case call op next hi =>
    intro s' h c r s'' he
    have ⟨hg, m⟩ := m s' h c r s'' he
    exact ⟨hg, hi r m⟩

end Meets

end Prog

namespace Kernel

variable {Op : Type} {Res : Op → Type} {σ χ δ ι α : Type}

-- The kernel with choices of some kind only, of a machine that never goes down.
def only (K : Kernel Op Res σ χ δ) (C : χ → Bool) : Kernel Op Res σ χ Empty where
  exec pid s op c := if C c then K.exec pid s op c else none
  crash d _       := d.elim

theorem only_elim {K : Kernel Op Res σ χ δ} {C : χ → Bool} {pid : Nat} {s : σ} {op : Op} {c : χ}
    {x : Res op × σ} (h : (K.only C).exec pid s op c = some x) : C c ∧ K.exec pid s op c = some x := by
  simp only [only] at h
  split at h
  case isTrue hc  => exact ⟨hc, h⟩
  case isFalse hc => contradiction

-- The kernel with the choices that each process is granted.
open Classical in
noncomputable def granting (K : Kernel Op Res σ χ δ) (A : Nat → χ → Prop) : Kernel Op Res σ χ δ where
  exec pid s op c := if A pid c then K.exec pid s op c else none
  crash           := K.crash

theorem granting_elim {K : Kernel Op Res σ χ δ} {A : Nat → χ → Prop} {pid : Nat} {s : σ} {op : Op} {c : χ}
    {x : Res op × σ} (h : (K.granting A).exec pid s op c = some x) : A pid c ∧ K.exec pid s op c = some x := by
  simp only [granting] at h
  split at h
  case isTrue hc  => exact ⟨hc, h⟩
  case isFalse hc => contradiction

-- A machine with all processes that have been started. A process that was killed has no program any more, and
-- one that has returned has nothing left to do. When the machine goes down, all processes are gone, also those that
-- have returned.
structure Machine (Op : Type) (Res : Op → Type) (σ α : Type) where
  shared : σ
  procs  : List (Option (Prog Op Res α))

inductive Event (χ δ ι : Type)
  | start (i : ι)
  | call (pid : Nat) (c : χ)
  | kill (pid : Nat)
  | crash (d : δ)

namespace Machine

def Returned (m : Machine Op Res σ α) (pid : Nat) (a : α) : Prop :=
  m.procs[pid]? = some (some (.done a))

-- A process that does nothing any more.
def Finished (m : Machine Op Res σ α) (pid : Nat) : Prop :=
  ∃ p, m.procs[pid]? = some p ∧ ∀ op next, p ≠ some (.call op next)

def init (s : σ) : Machine Op Res σ α where
  shared := s
  procs  := []

end Machine

variable (K : Kernel Op Res σ χ δ) (progs : ι → Prog Op Res α)

def step (m : Machine Op Res σ α) : Event χ δ ι → Option (Machine Op Res σ α)
  | .start i    => some { m with procs := m.procs ++ [some (progs i)] }
  | .call pid c =>
    match m.procs[pid]? with
    | some (some (.call op next)) =>
      (K.exec pid m.shared op c).map fun (r, s) => ⟨s, m.procs.modify pid fun _ => some (next r)⟩
    | _                           => none
  | .kill pid   => some { m with procs := m.procs.modify pid fun _ => none }
  | .crash d    => some ⟨K.crash d m.shared, m.procs.map fun _ => none⟩

-- Any number of processes that run some of the programs, from a given state.
def system (s : σ) : System (Machine Op Res σ α) (Event χ δ ι) where
  init := .init s
  step := K.step progs

section Step

variable {K progs} {m m' : Machine Op Res σ α} {e : Event χ δ ι} {pid : Nat} {c : χ}

theorem call_elim (h : K.step progs m (.call pid c) = some m') :
    ∃ op next r s, m.procs[pid]? = some (some (.call op next)) ∧ K.exec pid m.shared op c = some (r, s) ∧
      m' = ⟨s, m.procs.modify pid fun _ => some (next r)⟩ := by
  simp only [step] at h
  split at h
  case h_1 op next hp =>
    obtain ⟨⟨r, s⟩, he, h⟩ := Option.map_eq_some_iff.mp h
    exact ⟨op, next, r, s, hp, he, h.symm⟩
  case h_2 => contradiction

theorem step_granting {A : Nat → χ → Prop} (h : K.step progs m e = some m')
    (ha : ∀ pid c, e = .call pid c → A pid c) : (K.granting A).step progs m e = some m' := by
  cases e
  case call pid c =>
    obtain ⟨op, next, r, s, hp, he, rfl⟩ := call_elim h
    simp [step, hp, granting, ha pid c rfl, he]
  case start | kill | crash => exact h

-- In a run each process makes the choices of the run.
theorem run_granting {s : σ} {es es' : List (Event χ δ ι)} (r : (K.system progs s).Run es m) (h : es ⊆ es') :
    ((K.granting fun pid c => .call pid c ∈ es').system progs s).Run es m := by
  induction r
  case init => exact .init
  case step hs hi =>
    have ⟨h, he⟩ := List.append_subset.mp h
    refine (hi h).step (step_granting hs ?_)
    rintro pid c rfl
    exact he (List.mem_singleton_self _)

theorem ne_of_finished {pid' : Nat} (hf : m.Finished pid') (h : K.step progs m (.call pid c) = some m') :
    pid' ≠ pid := by
  rintro rfl
  have ⟨p, hp, hn⟩ := hf
  obtain ⟨op, next, r, s, hc, _⟩ := call_elim h
  exact hn op next <| Option.some.inj <| hp.symm.trans hc

theorem finished_step (hf : m.Finished pid) (h : K.step progs m e = some m') : m'.Finished pid := by
  have ⟨p, hp, hn⟩ := hf
  cases e
  case start i =>
    cases Option.some.inj h
    exact ⟨p, List.getElem?_snoc_eq_some.mpr (.inl hp), hn⟩
  case call pid' c =>
    have hne := ne_of_finished hf h
    obtain ⟨op, next, r, s, _, _, rfl⟩ := call_elim h
    exact ⟨p, List.getElem?_modify_eq_some.mpr (.inr ⟨hne.symm, hp⟩), hn⟩
  case kill pid' =>
    cases Option.some.inj h
    by_cases hne : pid' = pid
    case pos => exact ⟨none, List.getElem?_modify_eq_some.mpr (.inl ⟨hne, p, hp, rfl⟩), by simp⟩
    case neg => exact ⟨p, List.getElem?_modify_eq_some.mpr (.inr ⟨hne, hp⟩), hn⟩
  case crash d =>
    cases Option.some.inj h
    exact ⟨none, by rw [List.getElem?_map, hp]; rfl, by simp⟩

end Step

-- The conditions under which programs may run side by side: what they rely on goes on holding while nothing
-- happens or others go on, a state that is lost keeps the invariant, and each program meets its part.
structure Concurrent (I : σ → Prop) (R : Nat → σ → σ → Prop) (Q : α → σ → Prop) : Prop where
  refl      : ∀ pid s, R pid s s
  trans     : ∀ pid s₁ s₂ s₃, R pid s₁ s₂ → R pid s₂ s₃ → R pid s₁ s₃
  invariant : ∀ pid s s', I s → R pid s s' → I s'
  crash     : ∀ d s, I s → I (K.crash d s)
  meets     : ∀ i pid s, I s → (progs i).Meets K R pid Q s

namespace Concurrent

structure Sound (K : Kernel Op Res σ χ δ) (I : σ → Prop) (R : Nat → σ → σ → Prop) (Q : α → σ → Prop)
    (m : Machine Op Res σ α) : Prop where
  invariant : I m.shared
  meets     : ∀ pid (p : Prog Op Res α), m.procs[pid]? = some (some p) → p.Meets K R pid Q m.shared

variable {K progs} {I : σ → Prop} {R : Nat → σ → σ → Prop} {Q : α → σ → Prop} {s : σ} {a : α}
variable {m m' : Machine Op Res σ α} {e : Event χ δ ι} {pid pid' : Nat} {c : χ}

-- A step of one process is among what every other process relies on.
theorem relies (hs : Sound K I R Q m) (hc : Concurrent K progs I R Q) (hn : pid' ≠ pid)
    (h : K.step progs m (.call pid c) = some m') : R pid' m.shared m'.shared := by
  obtain ⟨op, next, r, s, hp, he, rfl⟩ := call_elim h
  exact (hs.meets pid _ hp _ (hc.refl pid _) c r s he).left pid' hn

-- There is always a number that is not the one of the process that takes the step.
theorem invariant_call (hs : Sound K I R Q m) (hc : Concurrent K progs I R Q)
    (h : K.step progs m (.call pid c) = some m') : I m'.shared :=
  hc.invariant (pid + 1) _ _ hs.invariant <| relies hs hc (Nat.succ_ne_self pid) h

theorem sound_step (hc : Concurrent K progs I R Q) (hs : Sound K I R Q m) (h : K.step progs m e = some m') :
    Sound K I R Q m' := by
  cases e
  case start i =>
    cases Option.some.inj h
    refine ⟨hs.invariant, fun pid p hp => ?_⟩
    cases List.getElem?_snoc_eq_some.mp hp
    case inl hp => exact hs.meets pid p hp
    case inr hp => exact Option.some.inj hp.right ▸ hc.meets i pid _ hs.invariant
  case call pid c =>
    refine ⟨invariant_call hs hc h, fun pid' p hp' => ?_⟩
    by_cases hn : pid = pid'
    case pos =>
      subst hn
      obtain ⟨op, next, r, s, hp, he, rfl⟩ := call_elim h
      obtain ⟨_, _, _, hp'⟩ | ⟨hn, _⟩ := List.getElem?_modify_eq_some.mp hp'
      · exact Option.some.inj hp' ▸ (hs.meets pid _ hp _ (hc.refl pid _) c r s he).right
      · contradiction
    case neg =>
      have hr := relies hs hc (Ne.symm hn) h
      obtain ⟨op, next, r, s, hp, he, rfl⟩ := call_elim h
      obtain ⟨hn', _⟩ | ⟨_, hp'⟩ := List.getElem?_modify_eq_some.mp hp'
      · contradiction
      · exact (hs.meets pid' p hp').stable (hc.trans pid') hr
  case kill pid =>
    cases Option.some.inj h
    refine ⟨hs.invariant, fun pid' p hp => ?_⟩
    obtain ⟨_, _, _, hp⟩ | ⟨_, hp⟩ := List.getElem?_modify_eq_some.mp hp
    · contradiction
    · exact hs.meets pid' p hp
  case crash d =>
    cases Option.some.inj h
    refine ⟨hc.crash d _ hs.invariant, fun pid p hp => ?_⟩
    simp [List.getElem?_replicate] at hp

theorem sound (hc : Concurrent K progs I R Q) (hi : I s) (r : (K.system progs s).Reachable m) :
    Sound K I R Q m := by
  apply r.invariant
  case hi => exact ⟨hi, by simp [system, Machine.init]⟩
  case hs => exact fun _ _ _ hs h => sound_step hc hs h

theorem returned (hc : Concurrent K progs I R Q) (hi : I s) (r : (K.system progs s).Reachable m)
    (h : m.Returned pid a) : Q a m.shared :=
  (hc.sound hi r).meets pid _ h _ (hc.refl pid _)

end Concurrent

end Kernel
