import VpnTunnel.Handlers.Forwarder.Basic
import VpnTunnel.Tunnelpool.Scheduler.Theorems.Grants

namespace Handlers.Forwarder

open Tunnelpool

variable {o : Scheduler.Options} {s s₁ s₂ m : State} {e : Event} {es es₁ es₂ : List Event} {k : Nat}
  {c : Call} {t : Transport} {i : Scheduler.CallID} {z : Zone} {d : Device} {res : Option Device}

-- What a step can do.
inductive Step (o : Scheduler.Options) (s : State) : Event → State → Prop
  | scheduler {e : Scheduler.Event} {s' : Scheduler.State} : SchedulerMay s e →
    (Scheduler.step o s.scheduler e = some s') → Step o s (.scheduler e) { s with scheduler := s' }
  | forward {i : Scheduler.CallID} {c : Scheduler.Call} {d : Device} {res : Option Device} :
    (s.scheduler.calls[i]? = some c) → (c.phase = .granted d res) → (∀ f ∈ s.calls, f.route ≠ i) →
    Step o s (.forward i) { s with calls := s.calls ++ [⟨i, c.tunnelID, d, res, .load⟩] }
  | hit {k : Nat} {c : Call} {t : Transport} {e : Event} : (s.calls[k]? = some c) →
    (c.phase = .load ∨ c.phase = .loadOrStore) → (s.transports.lookup c.tunnelID = some t) →
    (e = .load k ∨ e = .loadOrStore k) → Step o s e (s.setPhase k (.client t))
  | miss {k : Nat} {c : Call} : (s.calls[k]? = some c) → (c.phase = .load) →
    Step o s (.load k) (s.setPhase k .loadOrStore)
  | store {k : Nat} {c : Call} : (s.calls[k]? = some c) → (c.phase = .loadOrStore) →
    (s.transports.lookup c.tunnelID = none) →
    Step o s (.loadOrStore k)
      ({ s with transports := s.transports.insert c.tunnelID ⟨c.dialer, c.resolver⟩ }.setPhase k
        (.client ⟨c.dialer, c.resolver⟩))
  | dial {k : Nat} {c : Call} {t : Transport} {lookup : Bool} : (s.calls[k]? = some c) →
    (c.phase.transport? = some t) →
    Step o s (.dial k lookup)
      { s with dials := ⟨k, t.dialer, if lookup then t.resolver else none⟩ :: s.dials }
  | ret {k : Nat} {c : Call} {t : Transport} : (s.calls[k]? = some c) → (c.phase = .client t) →
    Step o s (.ret k) (s.setPhase k (.returned t))

theorem step_elim (h : step o s₁ e = some s₂) : Step o s₁ e s₂ := by
  cases e <;> simp only [step, Option.bind_eq_some_iff] at h
  case scheduler e =>
    have ⟨hm, h⟩ := Option.ite_none_right_eq_some.mp h
    have ⟨s', hs, h⟩ := Option.map_eq_some_iff.mp h
    exact h ▸ .scheduler hm hs
  case forward i =>
    have ⟨c, hc, h⟩ := h
    unfold forward at h
    split at h
    case h_1 hp =>
      have ⟨hn, h⟩ := Option.ite_none_right_eq_some.mp h
      exact Option.some.inj h ▸ .forward hc hp hn
    case h_2 => contradiction
  case load k =>
    have ⟨c, hc, h⟩ := h
    have ⟨hp, h⟩ := Option.ite_none_right_eq_some.mp h
    split at h
    case h_1 hl => exact Option.some.inj h ▸ .hit hc (.inl hp) hl (.inl rfl)
    case h_2    => exact Option.some.inj h ▸ .miss hc hp
  case loadOrStore k =>
    have ⟨c, hc, h⟩ := h
    have ⟨hp, h⟩ := Option.ite_none_right_eq_some.mp h
    split at h
    case h_1 hl => exact Option.some.inj h ▸ .hit hc (.inr hp) hl (.inr rfl)
    case h_2 hl => exact Option.some.inj h ▸ .store hc hp hl
  case dial k lookup =>
    have ⟨c, hc, h⟩ := h
    have ⟨t, ht, h⟩ := Option.bind_eq_some_iff.mp h
    have ⟨_, h⟩ := Option.ite_none_left_eq_some.mp h
    exact Option.some.inj h ▸ .dial hc ht
  case ret k =>
    have ⟨c, hc, h⟩ := h
    unfold ret at h
    split at h
    case h_1 hp => exact Option.some.inj h ▸ .ret hc hp
    case h_2    => contradiction

theorem scheduler_reachable (r : (system o).Reachable s) :
    (Scheduler.system o).Reachable s.scheduler := by
  refine r.project (Scheduler.system o) (·.scheduler) rfl fun s₁ e s₂ h => ?_
  cases step_elim h
  case scheduler hs => exact .inr ⟨_, hs⟩
  all_goals exact .inl rfl

-- A call holds the grant that it was made under until it returns, and all dialers come with their own
-- resolver.
structure Valid (s : State) : Prop where
  granted   : ∀ (k : Nat) (c : Call), s.calls[k]? = some c → (∀ t, c.phase ≠ .returned t) →
    ∃ c', s.scheduler.calls[c.route]? = some c' ∧ c'.phase = .granted c.dialer c.resolver
  call      : ∀ (k : Nat) (c : Call), s.calls[k]? = some c →
    s.scheduler.Authentic c.dialer c.resolver
  transport : ∀ z t, s.transports.lookup z = some t → s.scheduler.Authentic t.dialer t.resolver
  dial      : ∀ x ∈ s.dials, x.call < s.calls.length

namespace Valid

theorem setPhase {phase : Phase} (v : Valid s) (hc : s.calls[k]? = some c)
    (hp : ∀ t, c.phase ≠ .returned t) : Valid (s.setPhase k phase) where
  granted := by
    intro k' c' hc' hn
    cases List.getElem?_modify_eq_some.mp hc'
    case inr h => exact v.granted k' c' h.right hn
    case inl h =>
      have ⟨hk, c'', hc'', hf⟩ := h
      subst hk hf
      cases Option.some.inj <| hc ▸ hc''
      exact v.granted k c hc hp
  call := by
    intro k' c' hc'
    cases List.getElem?_modify_eq_some.mp hc'
    case inr h => exact v.call k' c' h.right
    case inl h =>
      have ⟨_, c'', hc'', hf⟩ := h
      exact hf ▸ v.call k' c'' hc''
  transport := v.transport
  dial      := by simpa [State.setPhase] using v.dial

theorem insert (v : Valid s) (h : s.scheduler.Authentic t.dialer t.resolver) :
    Valid { s with transports := s.transports.insert z t } where
  granted   := v.granted
  call      := v.call
  transport := by
    intro z' t' h'
    by_cases hz : z' = z
    case neg => exact v.transport z' t' (AList.lookup_insert_ne hz ▸ h')
    case pos =>
      subst hz
      cases AList.lookup_insert s.transports ▸ h'
      exact h
  dial      := v.dial

theorem schedulerStep {e : Scheduler.Event} {s' : Scheduler.State} (v : Valid s)
    (r : (system o).Reachable s) (hm : SchedulerMay s e)
    (h : Scheduler.step o s.scheduler e = some s') : Valid { s with scheduler := s' } := by
  have sh := Scheduler.shape (scheduler_reachable r)
  have hb := Scheduler.built_prefix_of_step sh h
  refine ⟨?_, fun k c hc => (v.call k c hc).mono hb, fun z t ht => (v.transport z t ht).mono hb,
    v.dial⟩
  intro k c hc hn
  have ⟨c', hc', hp⟩ := v.granted k c hc hn
  refine Scheduler.granted_of_step sh h hc' hp ⟨?_, ?_⟩
  all_goals
    intro he
    subst he
    have ⟨t, ht⟩ := hm c (List.mem_of_getElem? hc) rfl
    exact hn t ht

theorem step (v : Valid s₁) (r : (system o).Reachable s₁) (h : step o s₁ e = some s₂) : Valid s₂ := by
  cases step_elim h
  case scheduler hm hs => exact v.schedulerStep r hm hs
  case hit hc hp _ _   => exact v.setPhase hc (by cases hp <;> simp [*])
  case miss hc hp      => exact v.setPhase hc (by simp [hp])
  case ret hc hp       => exact v.setPhase hc (by simp [hp])
  case dial hc _ =>
    refine ⟨v.granted, v.call, v.transport, fun x hx => ?_⟩
    cases List.mem_cons.mp hx
    case inl hx => cases hx; exact (List.getElem?_eq_some_iff.mp hc).1
    case inr hx => exact v.dial x hx
  case store k c hc hp _ =>
    refine setPhase (c := c) (v.insert ?_) hc (by simp [hp])
    exact v.call k c hc
  case forward i c d res hc hp _ =>
    have ha := (Scheduler.grants (scheduler_reachable r)).held i d res ⟨c, hc, .inr hp⟩
    refine ⟨?_, ?_, v.transport, fun x hx => (v.dial x hx).trans (by simp)⟩
    · intro k c' hc' hn
      cases List.getElem?_snoc_eq_some.mp hc'
      case inl h => exact v.granted k c' h hn
      case inr h => exact h.right ▸ ⟨c, hc, hp⟩
    · intro k c' hc'
      cases List.getElem?_snoc_eq_some.mp hc'
      case inl h => exact v.call k c' h
      case inr h => exact h.right ▸ ha

end Valid

theorem valid (r : (system o).Reachable s) : Valid s :=
  r.invariant_of_reachable
    ⟨by simp [system, State.init], by simp [system, State.init], by simp [system, State.init],
      by simp [system, State.init]⟩
    fun _ _ _ r v h => v.step r h

-- Once call `k` has begun, it uses the transport `t`: the one that is in the map, or otherwise its own.
structure Uses (k : Nat) (z : Zone) (t own : Transport) (s : State) : Prop where
  call  : ∃ c, s.calls[k]? = some c ∧ c.tunnelID = z ∧ c.dialer = own.dialer ∧
    c.resolver = own.resolver ∧
    ∀ t', c.phase.transport? = some t' → t' = t ∧ s.transports.lookup z = some t
  entry : ∀ t', s.transports.lookup z = some t' → t' = t
  own   : t = own ∨ s.transports.lookup z = some t
  dials : ∀ x ∈ s.dials, x.call = k → x.dialer = t.dialer ∧ (x.resolver = none ∨ x.resolver = t.resolver)

namespace Uses

variable {own : Transport}

theorem setPhase {phase : Phase} {k' : Nat} (u : Uses k z t own s) (hc : s.calls[k']? = some c)
    (h : k' = k → ∀ t', phase.transport? = some t' → s.transports.lookup c.tunnelID = some t') :
    Uses k z t own (s.setPhase k' phase) := by
  refine ⟨?_, u.entry, u.own, u.dials⟩
  have ⟨c', hc', hz, hd, hr, ht⟩ := u.call
  by_cases hk : k' = k
  case neg => exact ⟨c', List.getElem?_modify_eq_some.mpr <| .inr ⟨hk, hc'⟩, hz, hd, hr, ht⟩
  case pos =>
    subst hk
    cases Option.some.inj <| hc ▸ hc'
    refine ⟨_, List.getElem?_modify_eq_some.mpr <| .inl ⟨rfl, c, hc, rfl⟩, hz, hd, hr, fun t' ht' => ?_⟩
    have hl := hz ▸ h rfl t' ht'
    cases u.entry t' hl
    exact ⟨rfl, hl⟩

-- Whoever stores a transport while call `k` has not found any holds a grant at the same time as `k`.
theorem eq_of_store {k' : Nat} (u : Uses k z t own s) (r : (system o).Reachable s)
    (hc : s.calls[k']? = some c) (hp : c.phase = .loadOrStore)
    (hl : s.transports.lookup z = none) : t = ⟨c.dialer, c.resolver⟩ := by
  have v := valid r
  have g := Scheduler.grants (scheduler_reachable r)
  have ⟨c₁, hc₁, _, hd, hr, ht⟩ := u.call
  have hn (t' : Transport) : c₁.phase ≠ .returned t' := by
    intro hp
    have ⟨_, hs⟩ := ht t' (by simp [hp, Phase.transport?])
    simp [hl] at hs
  have ⟨_, hg₁, hp₁⟩ := v.granted k c₁ hc₁ hn
  have ⟨_, hg₂, hp₂⟩ := v.granted k' c hc (by simp [hp])
  have ⟨hd', hr'⟩ := g.agree _ _ _ _ _ _ ⟨_, hg₁, .inr hp₁⟩ ⟨_, hg₂, .inr hp₂⟩
  have ho : t = own := u.own.resolve_right (by simp [hl])
  rw [ho, ← hd', ← hr', hd, hr]

theorem insert {z' : Zone} {t' : Transport} (u : Uses k z t own s) (hz : z' = z → t' = t) :
    Uses k z t own { s with transports := s.transports.insert z' t' } := by
  by_cases h : z = z'
  case neg =>
    have hi : (s.transports.insert z' t').lookup z = s.transports.lookup z := AList.lookup_insert_ne h
    exact ⟨hi ▸ u.call, hi ▸ u.entry, hi ▸ u.own, u.dials⟩
  case pos =>
    subst h
    cases hz rfl
    have hi : (s.transports.insert z t).lookup z = some t := AList.lookup_insert _
    have ⟨c, hc, hz, hd, hr, hu⟩ := u.call
    refine ⟨⟨c, hc, hz, hd, hr, fun t' ht' => ⟨(hu t' ht').left, hi⟩⟩, ?_, .inr hi, u.dials⟩
    exact fun t' ht' => Option.some.inj <| ht'.symm.trans hi

theorem step (u : Uses k z t own s₁) (r : (system o).Reachable s₁) (h : step o s₁ e = some s₂) :
    Uses k z t own s₂ := by
  cases step_elim h
  case scheduler      => exact ⟨u.call, u.entry, u.own, u.dials⟩
  case hit hc _ hl _  => exact u.setPhase hc (by simp [Phase.transport?, hl])
  case miss hc _      => exact u.setPhase hc (by simp [Phase.transport?])
  case forward        =>
    have ⟨c, hc, hu⟩ := u.call
    exact ⟨⟨c, List.getElem?_snoc_eq_some.mpr (.inl hc), hu⟩, u.entry, u.own, u.dials⟩
  case ret t' hc hp =>
    refine u.setPhase hc fun hk t'' ht'' => ?_
    subst hk
    have ⟨c', hc', hz, _, _, hu⟩ := u.call
    cases Option.some.inj <| hc ▸ hc'
    cases Option.some.inj ht''
    have ⟨hu, hl⟩ := hu t' (by simp [hp, Phase.transport?])
    rw [hz, hl, hu]
  case dial k' c t' lookup hc ht' =>
    refine ⟨u.call, u.entry, u.own, fun x hx hk => ?_⟩
    cases List.mem_cons.mp hx
    case inr hx => exact u.dials x hx hk
    case inl hx =>
      subst hx hk
      have ⟨c', hc', _, _, _, hu⟩ := u.call
      cases Option.some.inj <| hc ▸ hc'
      cases (hu t' ht').left
      cases lookup <;> simp
  case store k' c hc hp hl =>
    have hz (hz : c.tunnelID = z) : ⟨c.dialer, c.resolver⟩ = t := (u.eq_of_store r hc hp (hz ▸ hl)).symm
    refine setPhase (c := c) (u.insert hz) hc ?_
    simp [Phase.transport?]

end Uses

-- The transport that a call uses is decided when it begins.
theorem uses_of_run {c : Scheduler.Call} (rm : (system o).Run es₁ m)
    (r : (system o).Run (es₁ ++ .forward i :: es₂) s) (hc : m.scheduler.calls[i]? = some c)
    (hp : c.phase = .granted d res) :
    Uses m.calls.length c.tunnelID ((m.transports.lookup c.tunnelID).getD ⟨d, res⟩) ⟨d, res⟩ s := by
  rw [← List.singleton_append, ← List.append_assoc] at r
  have ⟨m', rm'⟩ := r.of_append
  have ⟨_, rm'', h⟩ := rm'.snoc_elim
  cases rm.deterministic rm''
  refine rm'.invariant_from ?_ (fun _ _ _ r u h => u.step r h) r
  cases step_elim (o := o) (e := .forward i) h
  case hit he => simp at he
  case forward hp' hc' _ =>
    cases Option.some.inj <| hc ▸ hc'
    cases hp ▸ hp'
    refine ⟨⟨_, List.getElem?_snoc_eq_some.mpr <| .inr ⟨rfl, rfl⟩, rfl, rfl, rfl, ?_⟩, ?_, ?_, ?_⟩
    · simp [Phase.transport?]
    · simp +contextual
    · cases m.transports.lookup c.tunnelID <;> simp
    · intro x hx hk
      exact absurd hk ((valid rm.reachable).dial x hx).ne

-- A device that is handed out while `Run` is running is open. After that, all devices are closed.
theorem open_iff_running {c : Scheduler.Call} (r : (system o).Reachable s)
    (hc : s.scheduler.calls[i]? = some c) (hp : c.phase = .granted d res) :
    ¬s.scheduler.ledger.WasClosed d ↔ s.scheduler.running := by
  have r := scheduler_reachable r
  have v := Scheduler.devices_valid r
  have g := Scheduler.grants r
  have hh : s.scheduler.Held i d res := ⟨c, hc, .inr hp⟩
  have ho : s.scheduler.ledger.WasOpened d := by
    have ⟨_, hb, _⟩ := g.held i d res hh
    exact v.opened d |>.mpr (List.getElem?_eq_some_iff.mp hb).1
  have hx : s.scheduler.ledger.IsOpen d ↔ s.scheduler.currentDevice = some d := v.exclusive.isOpen_iff
  constructor
  · intro hn
    by_contra hr
    have := Scheduler.stopped_no_device r (Bool.eq_false_iff.mpr hr)
    simp [this] at hx
    exact hx ⟨ho, hn⟩
  · intro hr
    exact (hx.mpr (g.current hr i d res hh).left).right

-- A connection is opened through what its call was given, and not through a device that was closed
-- before, if and only if the call was made while `Run` was running and no transport was left behind by
-- a device that has been closed.
theorem dial_through_iff {c : Scheduler.Call} {x : Dial} (rm : (system o).Run es₁ m)
    (r : (system o).Run (es₁ ++ .forward i :: es₂) s) (hc : m.scheduler.calls[i]? = some c)
    (hp : c.phase = .granted d res) (hx : x ∈ s.dials) (hk : x.call = m.calls.length) :
    (x.dialer = d ∧ (x.resolver = none ∨ x.resolver = res) ∧
      ¬m.scheduler.ledger.WasClosed x.dialer) ↔
    (m.scheduler.running ∧
      ∀ t, m.transports.lookup c.tunnelID = some t → m.scheduler.ledger.IsOpen t.dialer) := by
  have ⟨hd, hr⟩ := (uses_of_run rm r hc hp).dials x hx hk
  have ho := open_iff_running rm.reachable hc hp
  have sr := scheduler_reachable rm.reachable
  have g := Scheduler.grants sr
  have v := Scheduler.devices_valid sr
  have hh : m.scheduler.Held i d res := ⟨c, hc, .inr hp⟩
  cases hl : m.transports.lookup c.tunnelID
  case none =>
    simp only [hl, Option.getD_none] at hd hr
    simp [hd, hr, ho]
  case some t =>
    simp only [hl, Option.getD_some] at hd hr
    have ha := (valid rm.reachable).transport _ _ hl
    have hw : m.scheduler.ledger.WasOpened t.dialer := by
      have ⟨_, hb, _⟩ := ha
      exact v.opened _ |>.mpr (List.getElem?_eq_some_iff.mp hb).1
    simp only [Option.some.injEq, forall_eq', hd]
    constructor
    · intro ⟨he, _, hn⟩
      exact ⟨ho.mp (he ▸ hn), hw, hn⟩
    · intro ⟨hrun, hopen⟩
      -- The open device is the live one, which is what the call was given.
      have hcur : m.scheduler.currentDevice = some t.dialer := v.exclusive.isOpen_iff.mp hopen
      have he := Option.some.inj <| hcur.symm.trans (g.current hrun i d res hh).left
      have hres : t.resolver = res := ha.unique (he ▸ g.held i d res hh)
      exact ⟨he, hres ▸ hr, hopen.right⟩

-- Zone `a` is served, its device is closed when it becomes idle, and then zone `a` is served again.
def rebuildRun : List Event :=
  [.scheduler (.route "a"), .scheduler (.send 0), .scheduler (.loopRequest 0), .scheduler (.tick 5),
    .scheduler (.loopSettle (.ok true true) 0 0), .scheduler (.receive 0), .forward 0, .load 0,
    .loadOrStore 0, .dial 0 true, .ret 0, .scheduler (.release 0), .scheduler .loopRelease,
    .scheduler (.tick 60), .scheduler (.loopIdle 0), .scheduler (.route "a"), .scheduler (.send 1),
    .scheduler (.loopRequest 0), .scheduler (.tick 5), .scheduler (.loopSettle (.ok true true) 0 0),
    .scheduler (.receive 1)]

def redialRun : List Event :=
  rebuildRun ++ [.forward 1, .load 1, .dial 1 true]

theorem rebuildRun_isSome : ((system .twoZones).exec rebuildRun).isSome := by
  decide

theorem redialRun_isSome : ((system .twoZones).exec redialRun).isSome := by
  decide

-- The first call of `rebuildRun` is dialed as it should be.
theorem dial_through_iff_first :
    let m := ((system .twoZones).exec (rebuildRun.take 6)).get (by decide)
    m.scheduler.running ∧
      ∀ t, m.transports.lookup "a" = some t → m.scheduler.ledger.IsOpen t.dialer :=
  have rm : (system .twoZones).Run (rebuildRun.take 6) _ := .of_isSome (by decide)
  have r : (system .twoZones).Run (rebuildRun.take 6 ++ .forward 0 :: rebuildRun.drop 7) _ :=
    .of_isSome rebuildRun_isSome
  (dial_through_iff (x := ⟨0, 0, some 0⟩) (c := ⟨"a", "a.conf", .granted 0 (some 0), []⟩) rm r
    (by decide) rfl (by decide) (by decide)).mp (by decide)

-- The second call is given device 1 but dials and resolves through device 0, which was closed before.
theorem dial_through_closed :
    ∃ m s, (system .twoZones).Run rebuildRun m ∧ (system .twoZones).Run redialRun s ∧
      m.scheduler.calls[1]? = some ⟨"a", "a.conf", .granted 1 (some 1), []⟩ ∧ m.calls.length = 1 ∧
      ⟨1, 0, some 0⟩ ∈ s.dials ∧ m.scheduler.ledger.WasClosed 0 ∧ m.scheduler.running :=
  ⟨_, _, .of_isSome rebuildRun_isSome, .of_isSome redialRun_isSome, by decide, by decide, by decide,
    by decide, by decide⟩

end Handlers.Forwarder
