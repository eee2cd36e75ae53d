import VpnTunnel.Application.Proxy.Tunnels.Basic
import VpnTunnel.Lib.Threads

namespace Application.Proxy.Tunnels

-- The channel that a waiter holds.
def WaitPhase.chan? : WaitPhase → Option Nat
  | reload ch | select ch => some ch
  | _                     => none

-- What a step of a waiter does to its phase.
inductive WaitStep (s : State) (j : Nat) (w : WaitCall) : Event → WaitPhase → Prop
  | load : (w.phase = .load) → WaitStep s j w (.load j) (s.afterLoad .lock)
  | lock : (w.phase = .lock) → WaitStep s j w (.lock j) (.reload s.tunnelNotify)
  | reload {ch} : (w.phase = .reload ch) → WaitStep s j w (.reload j) (s.afterLoad (.select ch))
  | woken {ch} : (w.phase = .select ch) → (ch ∈ s.closed) → WaitStep s j w (.woken j) .load
  | expired {ch} : (w.phase = .select ch) → (w.ctxDone = true) →
    WaitStep s j w (.expired j) (.returned false)

inductive Step (s : State) : Event → State → Prop
  | accept : Step s .accept { s with tunnels := s.tunnels ++ [.setup] }
  | giveUp {i} : (s.tunnels[i]? = some .setup) → Step s (.giveUp i) (s.setTunnel i .done)
  | start {i} : (s.tunnels[i]? = some .setup) → Step s (.start i) ((s.add 1).setTunnel i .counted)
  | finish {i} : (s.tunnels[i]? = some .counted) →
    Step s (.finish i) ((s.add (-1)).setTunnel i (if s.tunnelCount - 1 = 0 then .notify else .done))
  | notify {i} : (s.tunnels[i]? = some .notify) → Step s (.notify i) (s.renew.setTunnel i .done)
  | waitTunnels {b} : Step s (.waitTunnels b) { s with waits := s.waits ++ [⟨.load, b⟩] }
  | cancel {j w} : (s.waits[j]? = some w) →
    Step s (.cancel j) { s with waits := s.waits.modify j ({ · with ctxDone := true }) }
  | wait {j w e ph} : (s.waits[j]? = some w) → WaitStep s j w e ph → Step s e (s.setWait j ph)

variable {s s₁ s₂ : State} {e : Event} {es : List Event} {i j : Nat} {t : Tunnel} {w : WaitCall}

theorem Step.of_step (h : step s₁ e = some s₂) : Step s₁ e s₂ := by
  cases e
  case accept        => exact Option.some.inj h ▸ .accept
  case waitTunnels b => exact Option.some.inj h ▸ .waitTunnels
  case giveUp i =>
    simp only [step, stepTunnel, Option.bind_eq_some_iff, Option.ite_none_right_eq_some,
      Option.some.injEq] at h
    have ⟨_, ht, hp, h⟩ := h
    exact h ▸ .giveUp (hp ▸ ht)
  case start i =>
    simp only [step, stepTunnel, Option.bind_eq_some_iff, Option.ite_none_right_eq_some,
      Option.some.injEq] at h
    have ⟨_, ht, hp, h⟩ := h
    exact h ▸ .start (hp ▸ ht)
  case finish i =>
    simp only [step, stepTunnel, Option.bind_eq_some_iff, Option.ite_none_right_eq_some,
      Option.some.injEq] at h
    have ⟨_, ht, hp, h⟩ := h
    exact h ▸ .finish (hp ▸ ht)
  case notify i =>
    simp only [step, stepTunnel, Option.bind_eq_some_iff, Option.ite_none_right_eq_some,
      Option.some.injEq] at h
    have ⟨_, ht, hp, h⟩ := h
    exact h ▸ .notify (hp ▸ ht)
  case cancel j =>
    simp only [step, stepWait, Option.bind_eq_some_iff, Option.some.injEq] at h
    have ⟨_, hw, h⟩ := h
    exact h ▸ .cancel hw
  case load j =>
    simp only [step, stepWait, Option.bind_eq_some_iff, Option.ite_none_right_eq_some,
      Option.some.injEq] at h
    have ⟨_, hw, hp, h⟩ := h
    exact h ▸ .wait hw (.load hp)
  case lock j =>
    simp only [step, stepWait, Option.bind_eq_some_iff, Option.ite_none_right_eq_some,
      Option.some.injEq] at h
    have ⟨_, hw, hp, h⟩ := h
    exact h ▸ .wait hw (.lock hp)
  case reload j =>
    simp only [step, Option.bind_eq_some_iff, stepWait] at h
    have ⟨w, hw, h⟩ := h
    cases hp : w.phase
    all_goals simp only [hp, reduceCtorEq, Option.some.injEq] at h
    exact h ▸ .wait hw (.reload hp)
  case woken j =>
    simp only [step, Option.bind_eq_some_iff, stepWait] at h
    have ⟨w, hw, h⟩ := h
    cases hp : w.phase
    all_goals simp only [hp, reduceCtorEq, Option.ite_none_right_eq_some, Option.some.injEq] at h
    exact h.right ▸ .wait hw (.woken hp h.left)
  case expired j =>
    simp only [step, Option.bind_eq_some_iff, stepWait] at h
    have ⟨w, hw, h⟩ := h
    cases hp : w.phase
    all_goals simp only [hp, reduceCtorEq, Option.ite_none_right_eq_some, Option.some.injEq] at h
    exact h.right ▸ .wait hw (.expired hp h.left)

-- The channels that have been made are closed, except for the current one. A waiter only gets to wait
-- for that one while tunnels are counted, and the tunnel that counts down to zero then has it closed.
structure Consistent (s : State) : Prop where
  count  : s.tunnelCount = s.tunnels.countP (· = .counted)
  notify : s.tunnelNotify < s.made
  closed : ∀ ch, ch ∈ s.closed ↔ ch < s.made ∧ ch ≠ s.tunnelNotify
  held   : ∀ w ∈ s.waits, ∀ ch ∈ w.phase.chan?, ch < s.made
  awake  : ∀ w ∈ s.waits, ∀ ch, w.phase = .select ch → ch ∉ s.closed → s.tunnelCount = 0 →
    .notify ∈ s.tunnels

namespace Consistent

theorem init : Consistent .init where
  count  := rfl
  notify := Nat.one_pos
  closed := by
    simp only [State.init, List.not_mem_nil, false_iff]
    omega
  held   := by simp [State.init]
  awake  := by simp [State.init]

-- A step of a tunnel outside of the section of the mutex.
theorem setTunnel {n : Int} {t' : Tunnel} (c : Consistent s) (ht : s.tunnels[i]? = some t)
    (hn : n + (decide (t = .counted)).toNat = s.tunnelCount + (decide (t' = .counted)).toNat)
    (ha : n = 0 → (s.tunnelCount = 0 ∧ t ≠ .notify) ∨ t' = .notify) :
    Consistent { s with tunnelCount := n, tunnels := s.tunnels.modify i fun _ => t' } where
  count := by
    have hm := List.countP_modify (q := (· = .counted)) (g := fun _ => t') ht
    have hc := c.count
    simp only at hm ⊢
    omega
  notify := c.notify
  closed := c.closed
  held   := c.held
  awake w hw ch hp ho hz := by
    cases ha hz
    case inl h => exact List.mem_modify_of_ne ht (c.awake w hw ch hp ho h.left) h.right.symm
    case inr h => exact h ▸ List.mem_modify_self ht

theorem add_one_ne_zero (c : Consistent s) : s.tunnelCount + 1 ≠ 0 := by
  have := c.count
  omega

theorem renew (c : Consistent s) (ht : s.tunnels[i]? = some .notify) :
    Consistent (s.renew.setTunnel i .done) where
  count := by
    have hm := List.countP_modify (q := (· = .counted)) (g := fun _ => .done) ht
    have hc := c.count
    simp only [State.renew, State.setTunnel] at hm ⊢
    simp only [reduceCtorEq, decide_false, Bool.toNat_false] at hm
    omega
  notify := Nat.lt_succ_self _
  closed ch := by
    have hn := c.notify
    simp only [State.renew, State.setTunnel, List.mem_cons, c.closed ch]
    omega
  held w hw ch hc := Nat.lt_succ_of_lt (c.held w hw ch hc)
  -- All the channels that a waiter can hold are closed now.
  awake w hw ch hp ho := by
    have hm := c.held w hw ch (by simp [hp, WaitPhase.chan?])
    simp only [State.renew, State.setTunnel, List.mem_cons, not_or, c.closed ch] at ho
    exact absurd ⟨hm, ho.left⟩ ho.right

-- A step of the waiters does not change what they share.
theorem setWaits {ws : List WaitCall} (c : Consistent s)
    (h : ∀ w ∈ ws, (∃ w' ∈ s.waits, w'.phase = w.phase) ∨
      (∀ ch ∈ w.phase.chan?, ch < s.made) ∧ ∀ ch, w.phase = .select ch → s.tunnelCount ≠ 0) :
    Consistent { s with waits := ws } where
  count  := c.count
  notify := c.notify
  closed := c.closed
  held w hw := by
    cases h w hw
    case inl h =>
      have ⟨w', hw', hp⟩ := h
      exact hp ▸ c.held w' hw'
    case inr h => exact h.left
  awake w hw ch hp := by
    cases h w hw
    case inl h =>
      have ⟨w', hw', hp'⟩ := h
      exact c.awake w' hw' ch (hp'.trans hp)
    case inr h => exact fun _ hz => absurd hz (h.right ch hp)

-- What a waiter holds when it goes on, and what it has read if it goes on to wait.
theorem wait {ph : WaitPhase} (c : Consistent s) (hw : s.waits[j]? = some w) (h : WaitStep s j w e ph) :
    (∀ ch ∈ ph.chan?, ch < s.made) ∧ ∀ ch, ph = .select ch → s.tunnelCount ≠ 0 := by
  have hh := c.held w (List.mem_of_getElem? hw)
  cases h
  case load =>
    unfold State.afterLoad
    split <;> simp [WaitPhase.chan?]
  case lock => simpa [WaitPhase.chan?] using c.notify
  case reload ch hp =>
    unfold State.afterLoad
    split
    case isTrue => simp [WaitPhase.chan?]
    case isFalse hz => exact ⟨by simpa [hp, WaitPhase.chan?] using hh, fun _ _ => hz⟩
  case woken | expired => simp [WaitPhase.chan?]

theorem step (c : Consistent s₁) (h : Step s₁ e s₂) : Consistent s₂ := by
  cases h
  case accept =>
    refine ⟨?_, c.notify, c.closed, c.held, fun w hw ch hp ho hz => ?_⟩
    · simpa [List.countP_append] using c.count
    · exact List.mem_append_left _ (c.awake w hw ch hp ho hz)
  case giveUp ht => exact c.setTunnel ht rfl fun hz => .inl ⟨hz, by simp⟩
  case start ht  => exact c.setTunnel ht (by simp [State.add]) fun hz => absurd hz c.add_one_ne_zero
  case finish ht =>
    apply c.setTunnel ht
    case hn => split <;> simp [State.add]
    case ha => exact fun hz => .inr (if_pos hz)
  case notify ht => exact c.renew ht
  case waitTunnels b =>
    refine c.setWaits fun w hw => ?_
    cases List.mem_append.mp hw
    case inl hw => exact .inl ⟨w, hw, rfl⟩
    case inr hw => exact .inr <| List.mem_singleton.mp hw ▸ by simp [WaitPhase.chan?]
  case cancel =>
    refine c.setWaits fun w hw => .inl ?_
    cases List.mem_or_exists_of_mem_modify hw
    case inl hw => exact ⟨w, hw, rfl⟩
    case inr hw =>
      have ⟨w', hw', he⟩ := hw
      exact ⟨w', List.mem_of_getElem? hw', by rw [← he]⟩
  case wait hw h =>
    refine c.setWaits fun w' hw' => ?_
    cases List.mem_or_exists_of_mem_modify hw'
    case inl hw' => exact .inl ⟨w', hw', rfl⟩
    case inr hw' =>
      have ⟨_, _, he⟩ := hw'
      exact .inr <| he ▸ c.wait hw h

end Consistent

theorem consistent (r : system.Reachable s) : Consistent s :=
  r.invariant .init fun _ _ _ c h => c.step (.of_step h)

theorem State.afterLoad_eq_returned {next : WaitPhase} (hn : next ≠ .returned true) :
    s.afterLoad next = .returned true ↔ s.tunnelCount = 0 := by
  simp [State.afterLoad, hn]

-- A call returns nil in the step in which it reads zero.
theorem WaitStep.returned {ph : WaitPhase} (h : WaitStep s j w e ph) (hr : ph = .returned true) :
    s.tunnelCount = 0 ∧ ∀ ok, w.phase ≠ .returned ok := by
  cases h
  case lock | woken | expired => contradiction
  case load hp   => exact ⟨(State.afterLoad_eq_returned (by simp)).mp hr, by simp [hp]⟩
  case reload hp => exact ⟨(State.afterLoad_eq_returned (by simp)).mp hr, by simp [hp]⟩

theorem Step.returned (h : Step s₁ e s₂) (hw : s₂.waits[j]? = some w) (hp : w.phase = .returned true) :
    (∃ w', s₁.waits[j]? = some w' ∧ w'.phase = .returned true) ∨
      s₁.tunnelCount = 0 ∧ ∃ w', s₁.waits[j]? = some w' ∧ ∀ ok, w'.phase ≠ .returned ok := by
  cases h
  case accept | giveUp | start | finish | notify => exact .inl ⟨w, hw, hp⟩
  case waitTunnels =>
    cases List.getElem?_snoc_eq_some.mp hw
    case inl hw => exact .inl ⟨w, hw, hp⟩
    case inr hw => simp [← hw.right] at hp
  case cancel =>
    cases List.getElem?_modify_eq_some.mp hw
    case inl hw =>
      have ⟨_, w', hw', he⟩ := hw
      exact .inl ⟨w', hw', by rwa [← he] at hp⟩
    case inr hw => exact .inl ⟨w, hw.right, hp⟩
  case wait k w₁ ph hk h =>
    cases List.getElem?_modify_eq_some.mp hw
    case inr hw => exact .inl ⟨w, hw.right, hp⟩
    case inl hw =>
      have ⟨hj, _, _, he⟩ := hw
      subst hj
      have hr : ph = .returned true := by simpa [← he] using hp
      have ⟨hz, hn⟩ := h.returned hr
      exact .inr ⟨hz, w₁, hk, hn⟩

-- A call is under way in some state that the run goes through, and no tunnel is counted there.
def ZeroDuring (es : List Event) (j : Nat) : Prop :=
  ∃ es₁ es₂ s w, es = es₁ ++ es₂ ∧ system.Run es₁ s ∧ s.waits[j]? = some w ∧
    (∀ ok, w.phase ≠ .returned ok) ∧ s.tunnelCount = 0

theorem zeroDuring (r : system.Run es s) (hw : s.waits[j]? = some w) (hp : w.phase = .returned true) :
    ZeroDuring es j := by
  induction r generalizing w
  case init => simp [system, State.init] at hw
  case step es s₁ s₂ e r h hi =>
    cases (Step.of_step h).returned hw hp
    case inl h =>
      have ⟨_, hw', hp'⟩ := h
      have ⟨es₁, es₂, m, w', he, hm⟩ := hi hw' hp'
      exact ⟨es₁, es₂ ++ [e], m, w', by simp [he], hm⟩
    case inr h =>
      have ⟨hz, w', hw', hn⟩ := h
      exact ⟨es, [e], s₁, w', rfl, r, hw', hn, hz⟩

theorem waitTunnels_spec (r : system.Run es s) :
    (∀ (j : Nat) (w : WaitCall), s.waits[j]? = some w → w.phase = .returned true → ZeroDuring es j) ∧
    (s.tunnelCount = 0 → .notify ∉ s.tunnels →
      ∀ w ∈ s.waits, ∀ ch, w.phase = .select ch → ch ∈ s.closed) := by
  refine ⟨fun _ _ => zeroDuring r, fun hz hn w hw ch hp => ?_⟩
  by_contra ho
  exact hn <| (consistent r.reachable).awake w hw ch hp ho hz

-- Two calls wait for two tunnels. The first tunnel ends while the second call reads the channel, and a
-- third tunnel is started before the second one has notified the waiters.
def crossingRun : List Event :=
  [.accept, .start 0, .accept, .start 1, .waitTunnels false, .load 0, .lock 0, .reload 0,
   .waitTunnels false, .load 1, .lock 1, .finish 0, .reload 1, .finish 1, .accept, .start 2, .notify 1,
   .woken 0, .load 0, .lock 0, .reload 0, .finish 2, .notify 2, .woken 0, .load 0]

theorem crossingRun_isSome : (system.exec crossingRun).isSome := by
  decide

theorem waitTunnels_spec_crossingRun : ∃ s, system.Run crossingRun s ∧
    s.waits[0]? = some ⟨.returned true, false⟩ ∧ ZeroDuring crossingRun 0 ∧
    s.waits[1]? = some ⟨.select 0, false⟩ ∧ 0 ∈ s.closed := by
  have r := System.Run.of_isSome crossingRun_isSome
  have ⟨hr, hc⟩ := waitTunnels_spec r
  refine ⟨_, r, by decide, hr 0 ⟨.returned true, false⟩ (by decide) rfl, by decide, ?_⟩
  exact hc (by decide) (by decide) ⟨.select 0, false⟩ (by decide) 0 rfl

end Application.Proxy.Tunnels
