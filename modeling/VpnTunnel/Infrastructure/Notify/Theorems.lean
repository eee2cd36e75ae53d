import VpnTunnel.Infrastructure.Notify.Basic

namespace Infrastructure.Notify

open Asyncjob (Time Duration)

structure Verdict where
  now     : Time
  ev      : TunnelChangeEvent
  dropped : Bool
  deriving DecidableEq

def verdict (s : State) : Event → List Verdict
  | .notify now ev => [⟨now, ev, (check s.last now ev).1⟩]
  | _              => []

-- What the check says about each event that is delivered.
def verdicts (start : Time) (es : List Event) : List Verdict :=
  (system start).observe verdict es

def Verdict.OnDemand (v : Verdict) : Prop :=
  v.ev.source = .onDemand

instance : DecidablePred Verdict.OnDemand :=
  fun _ => inferInstanceAs (Decidable (_ = _))

def Event.OnDemand : Event → Prop
  | notify _ ev => ev.source = .onDemand
  | _           => False

instance : DecidablePred Event.OnDemand
  | .notify _ _ => inferInstanceAs (Decidable (_ = _))
  | .enqueue _ | .send | .cancel | .exit => inferInstanceAs (Decidable False)

def pass (s : State) (e : Event) : List Verdict :=
  (verdict s e).filter fun v => v.OnDemand ∧ ¬v.dropped

-- The on-demand events that pass the check.
def passes (start : Time) (es : List Event) : List Verdict :=
  (system start).observe pass es

def Spaced (v w : Verdict) : Prop :=
  v.now + onDemandMinInterval ≤ w.now

def Deduped (v w : Verdict) : Prop :=
  v.ev.filename = w.ev.filename → v.now + onDemandDedupWindow ≤ w.now

instance : DecidableRel Deduped :=
  fun _ _ => inferInstanceAs (Decidable (_ → _))

-- The policy on a whole run. That the streaming events do not matter means that what the check says of the
-- on-demand ones is the same in every other run that has these.
structure Policy (start : Time) (es : List Event) : Prop where
  interval  : (passes start es).Pairwise Spaced
  window    : (passes start es).Pairwise Deduped
  streaming : ∀ v ∈ verdicts start es, v.ev.source = .streaming → v.dropped = false
  apart     : ∀ es' s', (system start).Run es' s' → es'.filter (·.OnDemand) = es.filter (·.OnDemand) →
    (verdicts start es').filter (·.OnDemand) = (verdicts start es).filter (·.OnDemand)

-- An event of another file than the last one that passed comes before the interval is over, or when no
-- event of its own file has passed within the window.
def Apart (start : Time) (es : List Event) (s : State) : Event → Prop
  | .notify now ev =>
    ev.source = .onDemand → ev.filename ≠ s.last.lastOnDemandFilename →
      s.last.lastOnDemandAt + onDemandMinInterval ≤ now →
      ∀ v ∈ passes start es, v.ev.filename = ev.filename → v.now + onDemandDedupWindow ≤ now
  | _ => True

instance : Decidable (Apart start es s e) :=
  match e with
  | .notify _ _ => inferInstanceAs (Decidable (_ → _))
  | .enqueue _ | .send | .cancel | .exit => inferInstanceAs (Decidable True)

variable {start now : Time} {es : List Event} {s s₁ s₂ : State} {e : Event} {l : OnDemand}
  {f : ByteString} {ev : TunnelChangeEvent}

theorem sub_lt_iff {t u d : Int} (hl : -2 ^ 63 < d) (hr : d < 2 ^ 63) : Time.sub t u < d ↔ ¬u + d ≤ t := by
  have h : max (-2 ^ 63) (min (2 ^ 63 - 1) (t - u)) < d ↔ ¬u + d ≤ t := by omega
  exact h

namespace OnDemand

theorem not_suppressed_iff :
    (l.suppressed now f).1 = false ↔
      l.lastOnDemandAt + onDemandMinInterval ≤ now ∧
      (f = l.lastOnDemandFilename → l.lastOnDemandAt + onDemandDedupWindow ≤ now) := by
  have hm : now.sub l.lastOnDemandAt < onDemandMinInterval ↔ _ := sub_lt_iff (by decide) (by decide)
  have hw : now.sub l.lastOnDemandAt < onDemandDedupWindow ↔ _ := sub_lt_iff (by decide) (by decide)
  simp only [suppressed, hm, hw]
  split
  case isTrue h  => simp [h]
  case isFalse h =>
    have hd := not_and_not_right.mp h
    split
    case isTrue h'  => simp [h']
    case isFalse h' => exact iff_of_true rfl ⟨not_not.mp h', hd⟩

theorem suppressed_snd :
    (l.suppressed now f).2 = if (l.suppressed now f).1 then l else ⟨f, now⟩ := by
  simp only [suppressed]
  split
  case isTrue => rfl
  case isFalse => split <;> rfl

end OnDemand

theorem check_onDemand (h : ev.source = .onDemand) : check l now ev = l.suppressed now ev.filename :=
  if_pos h

theorem mem_pass_iff {v : Verdict} :
    v ∈ pass s e ↔ ∃ now ev, e = .notify now ev ∧ ev.source = .onDemand ∧ v = ⟨now, ev, false⟩ ∧
      s.last.lastOnDemandAt + onDemandMinInterval ≤ now ∧
      (ev.filename = s.last.lastOnDemandFilename → s.last.lastOnDemandAt + onDemandDedupWindow ≤ now) := by
  constructor
  case mp =>
    intro h
    have ⟨hv, hp⟩ := List.mem_filter.mp h
    have ⟨ho, hd⟩ := of_decide_eq_true hp
    cases e
    case notify now ev =>
      cases List.mem_singleton.mp hv
      have hd : (check s.last now ev).1 = false := by simpa using hd
      refine ⟨now, ev, rfl, ho, by rw [hd], ?_⟩
      exact OnDemand.not_suppressed_iff.mp <| check_onDemand ho ▸ hd
    all_goals contradiction
  case mpr =>
    intro ⟨now, ev, he, ho, hv, hp⟩
    subst he hv
    have hd : (check s.last now ev).1 = false := check_onDemand ho ▸ OnDemand.not_suppressed_iff.mpr hp
    simp [pass, verdict, hd, Verdict.OnDemand, ho]

theorem pairwise_pass {R : Verdict → Verdict → Prop} : (pass s e).Pairwise R := by
  cases e
  case notify now ev => exact List.pairwise_singleton R _ |>.filter _
  all_goals exact .nil

def OnDemand.after (l : OnDemand) : Event → OnDemand
  | .notify now ev => (check l now ev).2
  | _              => l

theorem step_last (h : step s₁ e = some s₂) : s₂.last = s₁.last.after e := by
  cases e <;> simp only [step] at h
  case enqueue i =>
    have ⟨_, _, h⟩ := Option.bind_eq_some_iff.mp h
    cases h
    rfl
  case cancel =>
    cases h
    rfl
  all_goals
    split at h <;> cases h
    rfl

theorem OnDemand.after_of_not_onDemand (h : ¬e.OnDemand) : l.after e = l := by
  cases e
  case notify now ev => simp [after, check, show ev.source ≠ .onDemand from h]
  all_goals rfl

theorem after_of_pass {v : Verdict} (h : v ∈ pass s e) : s.last.after e = ⟨v.ev.filename, v.now⟩ := by
  have ⟨now, ev, he, ho, hv, hp⟩ := mem_pass_iff.mp h
  subst he hv
  rw [OnDemand.after, check_onDemand ho, OnDemand.suppressed_snd, OnDemand.not_suppressed_iff.mpr hp]
  rfl

-- What is remembered only gets younger.
theorem OnDemand.le_after : l.lastOnDemandAt ≤ (l.after e).lastOnDemandAt := by
  cases e
  case notify now ev =>
    by_cases ho : (Event.notify now ev).OnDemand
    case neg => rw [after_of_not_onDemand ho]
    case pos =>
      rw [after, check_onDemand ho, suppressed_snd]
      split
      case isTrue => rfl
      case isFalse h =>
        have hm := (not_suppressed_iff.mp <| Bool.eq_false_iff.mpr h).left
        exact Int.le_trans (Int.le_add_of_nonneg_right (by decide)) hm
  all_goals rfl

theorem le_lastOnDemandAt (r : (system start).Run es s) :
    ∀ v ∈ passes start es, v.now ≤ s.last.lastOnDemandAt := by
  apply r.invariant_of_run (P := fun es s => ∀ v ∈ passes start es, v.now ≤ s.last.lastOnDemandAt)
  case hi => simp [passes]
  case hs =>
    intro es s₁ e s₂ r hi h v hv
    rw [passes, System.observe_snoc r, List.mem_append] at hv
    rw [step_last h]
    cases hv
    case inl hv => exact Int.le_trans (hi v hv) OnDemand.le_after
    case inr hv => rw [after_of_pass hv]

-- The interval is kept by every step.
theorem spaced (r : (system start).Run es s) : (passes start es).Pairwise Spaced := by
  refine (System.pairwise_observe_iff r).mpr fun es₁ e es₂ s _ r => ⟨pairwise_pass, fun v hv w hw => ?_⟩
  have ⟨now, ev, _, _, hw, hm, _⟩ := mem_pass_iff.mp hw
  subst hw
  exact Int.le_trans (Int.add_le_add_right (le_lastOnDemandAt r v hv) _) hm

theorem deduped_iff (r : (system start).Run es s) :
    (passes start es).Pairwise Deduped ↔ (system start).MeetsAfter (Apart start) es := by
  rw [passes, System.pairwise_observe_iff r]
  refine System.MeetsAfter.congr r fun es₁ s₁ e s₂ he r₁ h => ?_
  clear he h
  cases e
  case notify now ev =>
    constructor
    case mp =>
      intro ⟨_, hp⟩ ho hf hm v hv he
      have hw : ⟨now, ev, false⟩ ∈ pass s₁ (.notify now ev) :=
        mem_pass_iff.mpr ⟨now, ev, rfl, ho, rfl, hm, fun he => absurd he hf⟩
      exact hp v hv _ hw he
    case mpr =>
      intro ha
      refine ⟨pairwise_pass, fun v hv w hw he => ?_⟩
      have ⟨_, _, hn, ho, hw, hm, hd⟩ := mem_pass_iff.mp hw
      cases hn
      subst hw
      by_cases hf : ev.filename = s₁.last.lastOnDemandFilename
      case pos => exact Int.le_trans (Int.add_le_add_right (le_lastOnDemandAt r₁ v hv) _) (hd hf)
      case neg => exact ha ho hf hm v hv he
  all_goals exact iff_of_true ⟨.nil, by simp [pass, verdict]⟩ trivial

theorem streaming_passes (r : (system start).Run es s) :
    ∀ v ∈ verdicts start es, v.ev.source = .streaming → v.dropped = false := by
  apply r.invariant_of_run
    (P := fun es _ => ∀ v ∈ verdicts start es, v.ev.source = .streaming → v.dropped = false)
  case hi => simp [verdicts]
  case hs =>
    intro es s₁ e s₂ r hi _ v hv hs
    rw [verdicts, System.observe_snoc r, List.mem_append] at hv
    cases hv
    case inl hv => exact hi v hv hs
    case inr hv =>
      cases e
      case notify now ev =>
        cases List.mem_singleton.mp hv
        simp_all [check]
      all_goals contradiction

-- The check, without anything but the on-demand events.
def replay (a : OnDemand × List Verdict) : Event → OnDemand × List Verdict
  | .notify now ev => ((a.1.suppressed now ev.filename).2,
      a.2 ++ [⟨now, ev, (a.1.suppressed now ev.filename).1⟩])
  | _ => a

theorem replay_eq (r : (system start).Run es s) :
    (es.filter (·.OnDemand)).foldl replay (⟨[], .zero⟩, []) =
      (s.last, (verdicts start es).filter (·.OnDemand)) := by
  apply r.invariant_of_run (P := fun es s => (es.filter (·.OnDemand)).foldl replay (⟨[], .zero⟩, []) =
    (s.last, (verdicts start es).filter (·.OnDemand)))
  case hi => rfl
  case hs =>
    intro es s₁ e s₂ r hi h
    rw [verdicts, System.observe_snoc r, List.filter_append, List.filter_append, List.foldl_append, hi,
      step_last h]
    by_cases ho : e.OnDemand
    case pos =>
      cases e
      case notify now ev =>
        have hc : check s₁.last now ev = s₁.last.suppressed now ev.filename := check_onDemand ho
        simp only [List.filter_cons_of_pos, List.filter_nil, ho, decide_true]
        simp [replay, verdict, OnDemand.after, Verdict.OnDemand, show ev.source = .onDemand from ho, hc]
        rfl
      all_goals contradiction
    case neg =>
      have hv : (verdict s₁ e).filter (·.OnDemand) = [] := by
        cases e
        case notify now ev =>
          have ho : ¬Verdict.OnDemand ⟨now, ev, (check s₁.last now ev).1⟩ := ho
          simp [verdict, ho]
        all_goals rfl
      simp [ho, hv, OnDemand.after_of_not_onDemand ho]
      rfl

theorem policy_iff (r : (system start).Run es s) :
    Policy start es ↔ (system start).MeetsAfter (Apart start) es := by
  refine ⟨fun p => (deduped_iff r).mp p.window, fun m => ?_⟩
  refine ⟨spaced r, (deduped_iff r).mpr m, streaming_passes r, fun es' s' r' he => ?_⟩
  have hr := replay_eq r'
  rw [he, replay_eq r] at hr
  exact (Prod.mk.inj hr).right.symm

def onDemandEvent (filename : String) (secs : Int) : Event :=
  .notify (secs * 10 ^ 9) ⟨.onDemand, .ofString filename⟩

-- The first tunnel is back after its window, and after a minute.
def windowRun : List Event :=
  [onDemandEvent "se.conf" 0, .enqueue 0, onDemandEvent "de.conf" 30, onDemandEvent "se.conf" 300]

def returnRun : List Event :=
  [onDemandEvent "se.conf" 0, .enqueue 0, onDemandEvent "de.conf" 30, onDemandEvent "se.conf" 60]

theorem policy_windowRun : Policy 0 windowRun :=
  policy_iff (.of_isSome (by decide)) |>.mpr <| .of_exec (by decide)

theorem not_policy_returnRun : (system 0).exec returnRun ≠ none ∧ ¬Policy 0 returnRun :=
  ⟨by decide, fun p => absurd p.window (by decide)⟩

end Infrastructure.Notify
