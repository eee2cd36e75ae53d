import VpnTunnel.Tunnelpool.Supervisor.Theorems.Rearm

namespace Tunnelpool.Supervisor

variable {o : Options} {s s₁ s₂ : State} {e : Event} {es : List Event}

-- Doubling an `Int64` that is positive either is exact, or it overflows to a number that is not positive.
theorem toInt_mul_two {d : Duration} (h : 0 < d.toInt) :
    ((d * 2).toInt = d.toInt * 2 ∧ d.toInt * 2 < 2 ^ 63) ∨ ((d * 2).toInt ≤ 0 ∧ 2 ^ 63 ≤ d.toInt * 2) := by
  have hb := d.toInt_lt
  have hd : (d * 2).toInt = (d.toInt * 2).bmod (2 ^ 64) := by simp [Int64.toInt_mul]
  rw [hd, Int.bmod_def]
  omega

theorem growBackoff_toInt {d max : Duration} (hd : 0 < d.toInt) :
    (growBackoff d max).toInt = min max.toInt (d.toInt * 2) := by
  have hb := max.toInt_lt
  have hz : (0 : Duration).toInt = 0 := rfl
  have ht := toInt_mul_two hd
  unfold growBackoff
  simp only [gt_iff_lt, Int64.lt_iff_toInt_lt, Int64.le_iff_toInt_le, hz]
  rw [if_neg (by omega)]
  split
  case isTrue h  => omega
  case isFalse h => omega

-- The pause before a reconnect that comes after `k` failed ones.
def Options.reconnectDelay (o : Options) (k : Nat) : Int :=
  min o.reconnectMax.toInt (o.reconnectMin.toInt * 2 ^ k)

namespace Options

theorem toInt_reconnectMin_pos : 0 < o.reconnectMin.toInt := by
  simpa [Int64.lt_iff_toInt_lt] using o.reconnectMin_pos

theorem toInt_reconnectMin_le : o.reconnectMin.toInt ≤ o.reconnectMax.toInt :=
  Int64.le_iff_toInt_le.mp o.reconnectMin_le

theorem reconnectDelay_zero : o.reconnectDelay 0 = o.reconnectMin.toInt := by
  rw [reconnectDelay, pow_zero, mul_one, min_eq_right toInt_reconnectMin_le]

theorem reconnectDelay_pos {k : Nat} : 0 < o.reconnectDelay k :=
  lt_min (o.toInt_reconnectMin_pos.trans_le o.toInt_reconnectMin_le)
    (Int.mul_pos o.toInt_reconnectMin_pos (Int.pow_pos (by decide)))

theorem reconnectDelay_succ {k : Nat} :
    o.reconnectDelay (k + 1) = min o.reconnectMax.toInt (o.reconnectDelay k * 2) := by
  have hm := o.toInt_reconnectMin_pos.trans_le o.toInt_reconnectMin_le
  have hp : 0 < o.reconnectMin.toInt * 2 ^ k := Int.mul_pos o.toInt_reconnectMin_pos (Int.pow_pos (by decide))
  rw [reconnectDelay, reconnectDelay, pow_succ, ← mul_assoc]
  omega

end Options

-- What a step tells about the tunnel.
inductive Report
  | failed
  | healthy
  deriving DecidableEq, Repr

-- A reconnect build fails, or a poll finds the device healthy.
def report (o : Options) (s : State) (e : Event) : Option Report :=
  match e, s.pc with
  | .built _ none, .build .reconnect => some .failed
  | .handshake hs, .health rep =>
    if (isHealthy o s.now (if rep then some hs else none)).1 then some .healthy else none
  | _, _ => none

def Report.count (k : Nat) : Option Report → Nat
  | none          => k
  | some .failed  => k + 1
  | some .healthy => 0

-- The number of reconnect builds that have failed since the last healthy poll.
def failures (o : Options) (es : List Event) : Nat :=
  ((system o).observe (fun s e => (report o s e).toList) es).foldl (fun k r => Report.count k (some r)) 0

theorem failures_snoc (rn : (system o).Run es s) :
    failures o (es ++ [e]) = Report.count (failures o es) (report o s e) := by
  rw [failures, System.observe_snoc rn, List.foldl_append]
  cases report o s e <;> rfl

-- `Start` has not launched the loop yet.
def Pc.starting : Pc → Bool
  | init | build .start | swap _ .start | launch => true
  | _                                            => false

theorem Pc.Listens.starting {pc : Pc} (h : pc.Listens) : pc.starting = false := by
  cases h <;> rfl

-- The backoff after `k` failures in a row. There are none before the loop has been launched.
def State.Backs (o : Options) (s : State) (k : Nat) : Prop :=
  if s.pc.starting then k = 0 else s.backoff.toInt = o.reconnectDelay k

theorem State.Backs.congr {k : Nat} (h : s₁.Backs o k) (hp : s₂.pc.starting = s₁.pc.starting)
    (hb : s₂.backoff = s₁.backoff) : s₂.Backs o k := by
  rwa [Backs, hp, hb]

theorem Step.backs {k : Nat} (st : Step o s₁ e s₂) (h : s₁.Backs o k) :
    s₂.Backs o (Report.count k (report o s₁ e)) := by
  cases st
  case tick | cancel | rotate | rotateCancel | rotateLoopDone | rotateReturn | stop | stopOnce |
      stopLoad | stopJoin => exact h.congr rfl rfl
  case launch hp =>
    have hk : k = 0 := by simpa [State.Backs, hp, Pc.starting] using h
    simp [State.Backs, Pc.starting, report, Report.count, hk, Options.reconnectDelay_zero]
  case healthy hp hh =>
    simp [State.Backs, Pc.starting, report, hp, hh, Report.count, Options.reconnectDelay_zero]
  case unhealthy hp hh =>
    simp only [report, hp, hh]
    exact h.congr (by rw [hp]; rfl) rfl
  case buildErr site _ hp _ =>
    cases site
    case start | rotate =>
      simp only [report, hp]
      exact h.congr (by rw [hp]; rfl) rfl
    case reconnect =>
      have hb : s₁.backoff.toInt = o.reconnectDelay k := by
        simpa [State.Backs, hp, Pc.starting] using h
      simp only [report, hp, Report.count, State.buildErr, State.Backs, Pc.starting]
      rw [if_neg (by simp), growBackoff_toInt (hb ▸ Options.reconnectDelay_pos), hb,
        Options.reconnectDelay_succ]
  case buildOk site _ _ hp _ =>
    simp only [report]
    exact h.congr (by cases site <;> rw [hp] <;> rfl) rfl
  case swap site hp   => exact h.congr (by cases site <;> rw [hp] <;> rfl) (by cases site <;> rfl)
  case closed site hp =>
    cases site
    case teardown exit => exact h.congr (by cases exit <;> rw [hp] <;> rfl) rfl
    case rotate        => exact h.congr (by rw [hp]; rfl) rfl
  case tornDown exit hp _ => exact h.congr (by cases exit <;> rw [hp] <;> rfl) rfl
  case skip hp _ => exact h.congr (by cases hp <;> simp [*, Pc.starting]) rfl
  case ctxDone hl | stopCh hl | rotateCh hl => exact h.congr (by rw [hl.starting]; rfl) rfl
  case start hp | enterBackoff hp _ | enterPoll hp _ | backoffTimer hp | pollTimer hp | settleTimer hp |
      settleDone hp | teardown hp _ | close hp | precheck hp _ | lock hp | recheck hp _ |
      notLive hp _ | unpublish hp _ => exact h.congr (by rw [hp]; rfl) rfl

theorem backs (rn : (system o).Run es s) : s.Backs o (failures o es) := by
  induction rn
  case init => rfl
  case step rn h hi => exact failures_snoc rn ▸ (Step.of_step h).backs hi

namespace Pc

-- The loop waits for the timer of a reconnect, or makes the reconnect.
def reconnects : Pc → Bool
  | backoff | build .reconnect => true
  | _                          => false

theorem starting_of_reconnects {pc : Pc} (h : pc.reconnects) : pc.starting = false := by
  cases pc
  case build site => cases site <;> first | rfl | contradiction
  all_goals first | rfl | contradiction

end Pc

theorem Step.reconnects (st : Step o s₁ e s₂) (hp : s₂.pc.reconnects) :
    (e = .head ∧ s₂.deadline = s₁.now + s₂.backoff.toNat) ∨
      (e ≠ .head ∧ s₁.pc.reconnects ∧ s₂.deadline = s₁.deadline ∧ s₂.backoff = s₁.backoff) := by
  cases st
  case tick | cancel | rotate | rotateCancel | rotateLoopDone | rotateReturn | stop | stopOnce |
      stopLoad | stopJoin => exact .inr ⟨by simp, hp, rfl, rfl⟩
  case enterBackoff         => exact .inl ⟨rfl, rfl⟩
  case backoffTimer h       => exact .inr ⟨by simp, by rw [h]; rfl, rfl, rfl⟩
  case buildErr site _ _ _  => cases site <;> contradiction
  case swap site _          => cases site <;> contradiction
  case tornDown exit _ _    => cases exit <;> contradiction
  case closed site _ =>
    cases site
    case teardown exit _ => cases exit <;> contradiction
    case rotate          => contradiction
  all_goals contradiction

-- The timer of a reconnect goes off a backoff after the loop has entered its select.
theorem deadline_of_reconnects (rn : (system o).Run es s) (hp : s.pc.reconnects) :
    s.deadline = entered o es + s.backoff.toNat := by
  induction rn
  case init => contradiction
  case step rn h hi =>
    cases (Step.of_step h).reconnects hp
    case inl hs =>
      obtain ⟨rfl, hs⟩ := hs
      rw [entered_head rn, hs]
    case inr hs =>
      obtain ⟨he, hp, hd, hb⟩ := hs
      rw [entered_snoc rn he, hd, hb, hi hp]

theorem State.Backs.toInt_eq {k : Nat} (h : s.Backs o k) (hp : s.pc.starting = false) :
    s.backoff.toInt = o.reconnectDelay k := by
  simpa [State.Backs, hp] using h

-- Once the loop has been launched, there is no way back.
theorem Step.starting (st : Step o s₁ e s₂) (hp : s₂.pc.starting) : s₁.pc.starting := by
  cases st
  case tick | cancel | rotate | rotateCancel | rotateLoopDone | rotateReturn | stop | stopOnce |
      stopLoad | stopJoin => exact hp
  case start h               => rw [h]; rfl
  case buildErr site _ h _   => cases site <;> first | contradiction | (rw [h]; rfl)
  case buildOk site _ _ h _  => cases site <;> first | contradiction | (rw [h]; rfl)
  case swap site h           => cases site <;> first | contradiction | (rw [h]; rfl)
  case tornDown exit _ _     => cases exit <;> contradiction
  case closed site _ =>
    cases site
    case teardown exit _ => cases exit <;> contradiction
    case rotate          => contradiction
  all_goals contradiction

theorem reconnectDelay_exact (rn : (system o).Run es s) :
    (s.pc.reconnects → (s.deadline : Int) = entered o es + o.reconnectDelay (failures o es)) ∧
    ∀ e s', step o s e = some s' → s.pc.starting = false →
      match report o s e with
      | some .failed  => failures o (es ++ [e]) = failures o es + 1
      | some .healthy => failures o (es ++ [e]) = 0
      | none          => failures o (es ++ [e]) = failures o es ∧ s'.backoff = s.backoff := by
  refine ⟨fun hp => ?_, fun e s' h hp => ?_⟩
  · have hb := (backs rn).toInt_eq (Pc.starting_of_reconnects hp)
    have hn : (s.backoff.toNat : Int) = s.backoff.toInt :=
      Int.toNat_of_nonneg (hb ▸ Options.reconnectDelay_pos.le)
    rw [deadline_of_reconnects rn hp, Int.natCast_add, hn, hb]
  · have hk := failures_snoc (e := e) rn
    have hp' : s'.pc.starting = false := by
      by_contra hs
      simp [(Step.of_step h).starting (by simpa using hs)] at hp
    have hb := (backs (rn.step h)).toInt_eq hp'
    cases hr : report o s e
    case some r => cases r <;> simpa [hr, Report.count] using hk
    case none =>
      rw [hr, Report.count] at hk
      exact ⟨hk, Int64.toInt_inj.mp (by rw [hb, hk, (backs rn).toInt_eq hp])⟩

-- The first connect and two reconnects fail, and the third one succeeds. The new device is torn down
-- before it has been healthy.
def flappingRun : List Event :=
  [.start, .built 0 none, .launch, .head, .tick 1000000000, .timer, .built 1 none, .head,
   .tick 2000000000, .timer, .built 0 none, .head, .tick 4000000000, .timer, .built 0 (some true), .swap,
   .head, .tick 60000000000, .timer, .handshake .zero, .teardown, .close, .closed, .head,
   .tick 4000000000, .timer]

theorem flappingRun_isSome : ((system .twoExits).exec flappingRun).isSome := by
  decide

theorem reconnectDelay_flappingRun : ∃ s, (system .twoExits).Run flappingRun s ∧
    s.pc = .build .reconnect ∧ failures .twoExits flappingRun = 2 ∧
    (s.deadline : Int) = entered .twoExits flappingRun + 4000000000 := by
  have rn := System.Run.of_isSome flappingRun_isSome
  have hk : failures .twoExits flappingRun = 2 := by decide
  have h := (reconnectDelay_exact rn).left (by decide)
  rw [hk] at h
  exact ⟨_, rn, by decide, hk, h.trans (by decide)⟩

end Tunnelpool.Supervisor
