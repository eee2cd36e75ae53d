import VpnTunnel.Application.Proxy.Theorems.Sessions

namespace Tunnelpool.Supervisor

variable {o : Options} {s s₁ s₂ : State} {e : Event} {d : Device}

-- The device that a rotation closes which is not forced, from the moment at which the last check of
-- `busy` has let it through.
def State.condemned (s : State) : Option Device :=
  match s.pc with
  | .unpublish req => if req.force then none else s.device.map (·.device)
  | .close d (.rotate req) | .closing d (.rotate req) => if req.force then none else d
  | _ => none

-- The device whose `Close` such a rotation is in.
def State.idleClosing (s : State) : Option Device :=
  match s.pc with
  | .closing d (.rotate req) => if req.force then none else d
  | _                        => none

theorem condemned_of_idleClosing (h : s.idleClosing = some d) : s.condemned = some d := by
  unfold State.idleClosing at h
  unfold State.condemned
  split at h <;> simp_all

theorem Step.condemned (st : Step o s₁ e s₂) (h : s₂.condemned = some d) :
    s₁.condemned = some d ∨ e = .busy false := by
  cases st
  case recheck req b hp hb =>
    right
    cases hf : req.force <;> simp_all [State.condemned]
  case unpublish hp hd =>
    left
    simpa [State.condemned, hp, hd] using h
  case close site hp =>
    left
    cases site <;> simp_all [State.condemned, State.close]
  case buildErr site _ _ _ => cases site <;> simp [State.condemned, State.buildErr] at h
  case swap site _ => cases site <;> simp [State.condemned, State.swapDevice] at h
  case closed site _ =>
    cases site
    case teardown exit _ => cases exit <;> simp [State.condemned, State.closed, State.tornDown] at h
    case rotate => simp [State.condemned, State.closed] at h
  case tornDown exit _ _ => cases exit <;> simp [State.condemned, State.tornDown] at h
  case tick | cancel | rotate | rotateCancel | rotateLoopDone | rotateReturn | stop | stopOnce | stopLoad
    | stopJoin => exact .inl h
  all_goals simp [State.condemned, State.buildOk] at h

-- A device that can be read is not condemned.
theorem not_condemned_of_dialContext (r : (system o).Reachable s)
    (h : s.dialContext = some (.ok d)) : s.condemned ≠ some d := by
  have hu := unpublished_device r
  unfold State.dialContext at h
  unfold State.condemned
  intro hc
  split at hc
  case h_1 hp => simp [hp, Pc.locked] at h
  case h_2 hp | h_3 hp => simp [hp, hu (hp ▸ rfl), Pc.locked] at h
  case h_4 => cases hc

end Tunnelpool.Supervisor

namespace Application.Proxy

open Tunnelpool

variable {o : Supervisor.Options} {s s₁ s₂ : State} {e : Event} {es : List Event} {i c : Nat}
  {d : Device} {x : Session} {ph : Phase} {cp : ConnPhase} {target : Target} {keep : Bool}

theorem Step.supervisor_elim (st : Step o s₁ e s₂) :
    s₂.supervisor = s₁.supervisor ∨
    ∃ e' sup, SupervisorMay s₁ e' ∧ Supervisor.step o s₁.supervisor e' = some sup ∧
      s₂ = { s₁ with supervisor := sup } := by
  cases st
  case supervisor hm h => exact .inr ⟨_, _, hm, h, rfl⟩
  all_goals exact .inl rfl

theorem supervisor_reachable (r : (system o).Reachable s) :
    (Supervisor.system o).Reachable s.supervisor := by
  apply r.project (Supervisor.system o) State.supervisor rfl
  intro s₁ e s₂ h
  refine (Step.of_step h).supervisor_elim.imp_right ?_
  rintro ⟨e', sup, _, hs, rfl⟩
  exact ⟨e', hs⟩

-- Where the device of a session comes from, after a change of the sessions or the connections.

theorem mem_setPhase (h : x ∈ (s.setPhase i ph).sessions) : x ∈ s.sessions ∨ x.phase = ph := by
  have ⟨j, h⟩ := List.mem_iff_getElem?.mp h
  rw [State.setPhase, List.getElem?_modify_eq_some] at h
  cases h
  case inl h =>
    have ⟨_, _, _, h⟩ := h
    exact .inr (h ▸ rfl)
  case inr h => exact .inl <| List.mem_of_getElem? h.right

theorem via_setPhase {ph' : Phase} : (s.setPhase i ph').via ph = s.via ph :=
  rfl

theorem via_setConn (h : (s.setConn c cp).via ph = some d) :
    s.via ph = some d ∨ cp.device? = some d := by
  cases ph
  case waiting c' | exchange c' =>
    obtain ⟨y, hy, hd⟩ := Option.bind_eq_some_iff.mp h
    rw [State.setConn, List.getElem?_modify_eq_some] at hy
    cases hy
    case inl hy =>
      obtain ⟨_, _, _, hy⟩ := hy
      subst hy
      exact .inr hd
    case inr hy => exact .inl <| Option.bind_eq_some_iff.mpr ⟨y, hy.right, hd⟩
  all_goals exact .inl h

theorem via_setConn_eq {y : Conn} (hc : s.conns[c]? = some y) (h : cp.device? = y.phase.device?) :
    (s.setConn c cp).via ph = s.via ph := by
  cases ph
  case waiting c' | exchange c' =>
    by_cases he : c = c'
    case pos =>
      subst he
      simp [State.via, State.setConn, hc, h]
    case neg => simp [State.via, State.setConn, he]
  all_goals rfl

theorem via_release (h : (s.release c keep).via ph = some d) : s.via ph = some d := by
  cases ph
  case waiting c' | exchange c' =>
    obtain ⟨y, hy, hd⟩ := Option.bind_eq_some_iff.mp h
    rw [State.release, List.getElem?_modify_eq_some] at hy
    refine Option.bind_eq_some_iff.mpr ?_
    cases hy
    case inl hy =>
      obtain ⟨_, z, hz, hy⟩ := hy
      refine ⟨z, hz, ?_⟩
      subst hy
      cases hp : z.phase <;> cases keep <;> simp_all [ConnPhase.release, ConnPhase.device?]
    case inr hy => exact ⟨y, hy.right, hd⟩
  all_goals exact h

theorem via_startDial (h : (s.startDial target).via ph = some d) : s.via ph = some d := by
  cases ph
  case waiting c' | exchange c' =>
    have ⟨y, hy, hd⟩ := Option.bind_eq_some_iff.mp h
    rw [State.startDial, List.getElem?_snoc_eq_some] at hy
    cases hy
    case inl hy => exact Option.bind_eq_some_iff.mpr ⟨y, hy, hd⟩
    case inr hy => simp [← hy.right, ConnPhase.device?] at hd
  all_goals exact h

theorem Advance.via {ph₁ ph₂ : Phase} (a : Advance s ph₁ ph₂) (h : s.via ph₂ = some d) :
    s.via ph₁ = some d ∨ s.supervisor.dialContext = some (.ok d) := by
  cases a
  case read d' hd =>
    have h : d' = d := by simpa [State.via] using h
    exact .inr (h ▸ hd)
  all_goals first | exact .inl h | (simp [State.via] at h)

-- Some session has a connection over the device, or dials one.
def State.InUse (s : State) (d : Device) : Prop :=
  ∃ x ∈ s.sessions, s.via x.phase = some d

-- A device is in use because it was before, because a session has read it, or because one has taken an
-- idle connection over it.
theorem Step.inUse (st : Step o s₁ e s₂) (h : s₂.InUse d) :
    s₁.InUse d ∨ s₁.supervisor.dialContext = some (.ok d) ∨
    ∃ i c y, e = .take i c ∧ s₁.conns[c]? = some y ∧ y.phase = .idle d := by
  have ⟨x, hx, hd⟩ := h
  cases st
  case supervisor => exact .inl h
  case handle =>
    rw [List.mem_append, List.mem_singleton] at hx
    cases hx
    case inl hx => exact .inl ⟨x, hx, hd⟩
    case inr hx => simp [hx, State.via] at hd
  case connRead hr =>
    cases via_setConn hd
    case inl hd => exact .inl ⟨x, hx, hd⟩
    case inr hd =>
      cases Option.some.inj hd
      exact .inr <| .inl hr
  case connDead =>
    cases via_setConn hd
    case inl hd => exact .inl ⟨x, hx, hd⟩
    case inr hd => cases hd
  case pool hc hy =>
    rw [via_setConn_eq hc (by simp [hy, ConnPhase.device?])] at hd
    exact .inl ⟨x, hx, hd⟩
  -- In the other steps, one session enters a new phase.
  all_goals
    rw [via_setPhase] at hd
    cases mem_setPhase hx
  case advance.inl hx | reject.inl hx | count.inl hx | ret.inl hx => exact .inl ⟨x, hx, hd⟩
  case queue.inl hx => exact .inl ⟨x, hx, via_startDial hd⟩
  case finish.inl hx => exact .inl ⟨x, hx, via_release hd⟩
  case fail.inl hx =>
    cases via_setConn hd
    case inl hd => exact .inl ⟨x, hx, hd⟩
    case inr hd => cases hd
  case take.inl hc hy _ hx =>
    rw [via_setConn_eq hc (by simp [hy, ConnPhase.device?])] at hd
    exact .inl ⟨x, hx, hd⟩
  case deliver.inl hc hy hx =>
    rw [via_setConn_eq hc (by simp [hy, ConnPhase.device?])] at hd
    exact .inl ⟨x, hx, hd⟩
  all_goals rw [‹x.phase = _›] at hd
  case reject.inr | count.inr | ret.inr | finish.inr => simp [State.via] at hd
  case fail.inr hp _ => rcases hp with hp | hp <;> simp [hp, State.via] at hd
  case queue.inr =>
    have hd := via_startDial hd
    simp [State.via] at hd
  case advance.inr hi a _ =>
    cases a.via hd
    case inl hd => exact .inl ⟨_, List.mem_of_getElem? hi, hd⟩
    case inr hd => exact .inr <| .inl hd
  case take.inr c _ y d' hi hp hc hy ht _ =>
    have hd : d' = d := by simpa [State.via, State.setConn, hc, ConnPhase.device?] using hd
    exact .inr <| .inr ⟨_, c, y, rfl, hc, hd ▸ hy⟩
  case deliver.inr c _ y d' hi hp hc hy _ =>
    rw [via_setConn_eq hc (by simp [hy, ConnPhase.device?])] at hd
    exact .inl ⟨_, List.mem_of_getElem? hi, hp ▸ hd⟩

-- No session takes a connection over a device that is condemned. The connections it can take are
-- those that are idle after another exchange, or that were dialed for a session that did not wait.
def ReusesSafely (s : State) : Event → Prop
  | .take _ c => ∀ y ∈ s.conns[c]?, ∀ d ∈ y.phase.device?, s.supervisor.condemned ≠ some d
  | _         => True

instance : Decidable (ReusesSafely s e) := by
  cases e
  case take i c => exact inferInstanceAs (Decidable (∀ y ∈ s.conns[c]?, _))
  all_goals exact .isTrue trivial

theorem inFlight_of_via (h : s.via ph = some d) : ph.inFlight := by
  cases ph <;> first | rfl | simp [State.via] at h

-- The last check of `busy` only lets a rotation through while no session is in flight.
theorem not_inUse_of_not_busy (r : (system o).Reachable s) (h : SupervisorMay s (.busy false)) :
    ¬s.InUse d := by
  intro ⟨x, hx, hd⟩
  have hg : ¬0 < s.activeSessions := of_decide_eq_false (h _ rfl).symm
  have hn : 0 < s.inFlight := List.countP_pos_iff.mpr ⟨x, hx, inFlight_of_via hd⟩
  have := activeSessions_eq r
  omega

theorem not_condemned_of_inUse (r : (system o).Run es s) (m : (system o).Meets ReusesSafely es)
    (h : s.InUse d) : s.supervisor.condemned ≠ some d := by
  suffices h : ∀ d, s.InUse d → s.supervisor.condemned ≠ some d from h d ‹_›
  apply r.invariant_of_meets ?init ?step m
  case init =>
    intro d h
    simp [State.InUse, system, State.init] at h
  intro s₁ e s₂ r hs hk h d hd hc
  have st := Step.of_step h
  cases st.supervisor_elim
  case inl he =>
    rw [he] at hc
    rcases st.inUse hd with hd | hd | ⟨i, c, y, he, hy, hp⟩
    · exact hs d hd hc
    · exact Supervisor.not_condemned_of_dialContext (supervisor_reachable r) hd hc
    · subst he
      exact hk y hy d (by simp [hp, ConnPhase.device?]) hc
  case inr he =>
    obtain ⟨e', sup, hm, hs', rfl⟩ := he
    cases (Supervisor.Step.of_step hs').condemned hc
    case inl hc => exact hs d hd hc
    case inr he => exact not_inUse_of_not_busy r (he ▸ hm) hd

-- The events that take the loop from the last check of `busy` into `Close`.
def TearsDown (ks : List Event) : Prop :=
  ∀ k ∈ ks, k = .supervisor .unpublish ∨ k = .supervisor .close

theorem exec_close {d' : Device} {req : Supervisor.RotateReq}
    (hp : s.supervisor.pc = .close d' (.rotate req)) :
    step o s (.supervisor .close) =
      some { s with supervisor := s.supervisor.close d' (.rotate req) } := by
  simp [step, SupervisorMay, Supervisor.step, Supervisor.stepLoop, hp]

-- A condemned device is closed next, whatever the sessions do.
theorem exec_tearsDown (h : s.supervisor.condemned = some d) :
    ∃ ks sup, TearsDown ks ∧ ks.foldlM (step o) s = some { s with supervisor := sup } ∧
      sup.idleClosing = some d := by
  unfold Supervisor.State.condemned at h
  split at h
  case h_1 req hp =>
    have ⟨hf, live, hl, hd⟩ : req.force = false ∧ ∃ live, s.supervisor.device = some live ∧ live.device = d := by
      simpa using h
    let sup : Supervisor.State :=
      { s.supervisor with device := none, pc := .close live.device (.rotate req) }
    have h₁ : step o s (.supervisor .unpublish) = some { s with supervisor := sup } := by
      simp [step, SupervisorMay, Supervisor.step, Supervisor.stepLoop, Supervisor.State.unpublish, hp, hl, sup]
    have h₂ := exec_close (o := o) (s := { s with supervisor := sup }) rfl
    refine ⟨[.supervisor .unpublish, .supervisor .close], sup.close live.device (.rotate req),
      by simp [TearsDown], ?_, ?_⟩
    · simp [h₁, h₂]
    · simp [Supervisor.State.idleClosing, Supervisor.State.close, hf, hd]
  case h_2 d' req hp =>
    refine ⟨[.supervisor .close], s.supervisor.close d' (.rotate req), by simp [TearsDown], ?_, ?_⟩
    · simp [exec_close hp]
    · simpa [Supervisor.State.idleClosing, Supervisor.State.close] using h
  case h_3 d' req hp =>
    exact ⟨[], s.supervisor, by simp [TearsDown], rfl, by simpa [Supervisor.State.idleClosing, hp] using h⟩
  case h_4 => cases h

theorem take_inUse {y : Conn} (h : (system o).step s₁ (.take i c) = some s₂)
    (hc : y ∈ s₁.conns[c]?) (hd : d ∈ y.phase.device?) :
    s₂.supervisor = s₁.supervisor ∧ s₂.InUse d := by
  have ⟨x, hi, h⟩ := Option.bind_eq_some_iff.mp h
  simp only [stepSession] at h
  split at h
  case h_1 => simp [stepConnect] at h
  case h_2 =>
    obtain ⟨_, y', d', hc', hy, _, rfl⟩ := take_elim h
    cases hc.symm.trans hc'
    have hd : d' = d := by simpa [hy, ConnPhase.device?] using hd
    subst hd
    refine ⟨rfl, { x with phase := .exchange c }, ?_, ?_⟩
    · exact List.mem_of_getElem? (i := i) (by simp [State.setPhase, State.setConn, hi])
    · simp [State.via, State.setPhase, State.setConn, hc', ConnPhase.device?]

-- The device that an unforced rotation is closing is not in use.
def State.Spared (s : State) : Prop :=
  ∀ d, s.InUse d → s.supervisor.idleClosing ≠ some d

theorem meets_of_tearsDown {ks : List Event} (m : (system o).Meets ReusesSafely es) (h : TearsDown ks)
    (r : (system o).Run (es ++ ks) s) : (system o).Meets ReusesSafely (es ++ ks) := by
  induction ks using List.reverseRecOn generalizing s
  case nil => simpa using m
  case append_singleton ks k hi =>
    rw [← List.append_assoc] at r ⊢
    have ⟨s₁, r₁, _⟩ := r.snoc_elim
    refine (hi (fun k hk => h k (by simp [hk])) r₁).snoc r₁ ?_
    rcases h k (by simp) with rfl | rfl <;> trivial

-- The gauge counts the sessions in flight. A rotation that is not forced spares them in all states of
-- a run, and whenever it is carried out from there, if and only if no idle connection is taken over the
-- device that it closes.
theorem rotation_spares_iff (r : (system o).Run es s) :
    0 ≤ s.activeSessions ∧ ((∀ x ∈ s.sessions, ¬x.phase.inFlight) → s.activeSessions = 0) ∧
    ((∀ es₁ es₂ ks s', es = es₁ ++ es₂ → TearsDown ks → (system o).Run (es₁ ++ ks) s' → s'.Spared) ↔
      (system o).Meets ReusesSafely es) := by
  have hg := activeSessions_eq r.reachable
  refine ⟨by omega, ?_, ?_, ?_⟩
  · intro h
    rw [hg, Int.natCast_eq_zero]
    exact List.countP_eq_zero.mpr h
  · intro hs es₁ e es₂ s₁ he r₁
    cases e
    case take i c =>
      intro y hy d hd hc
      subst he
      rw [List.append_cons] at r
      have ⟨s₂, r₂⟩ := r.of_append
      have ⟨s₁', r₁', h⟩ := r₂.snoc_elim
      cases r₁.deterministic r₁'
      have ⟨he, ho⟩ := take_inUse h hy hd
      have ⟨ks, sup, hk, hx, hi⟩ := exec_tearsDown (o := o) (he ▸ hc)
      have hs := hs (es₁ ++ [.take i c]) es₂ ks _ (by simp) hk (r₂.of_exec_from hx)
      exact hs d ho hi
    all_goals trivial
  · intro m es₁ es₂ ks s' he hk r' d ho hi
    subst he
    have m' := meets_of_tearsDown m.of_append hk r'
    exact not_condemned_of_inUse r' m' ho (Supervisor.condemned_of_idleClosing hi)

-- Session 0 leaves its connection over device 0 idle.
def poolRun : List Event :=
  [.supervisor .start, .supervisor (.built 0 (some true)), .supervisor .swap, .supervisor .launch,
    .supervisor .head, .handle .http "http://a:80", .count 0, .queue 0, .connRead 0, .connDialed 0 true,
    .finish 0 true 200, .ret 0]

-- Session 1 takes the connection while a rotation checks for sessions in flight, which is skipped. The
-- next rotation goes through once the session has ended.
def skipRun : List Event :=
  poolRun ++ [.supervisor (.rotate false), .supervisor (.rotateCh 0), .supervisor (.busy false),
    .handle .http "http://a:80", .count 1, .take 1 0, .supervisor .lock, .supervisor (.busy true),
    .finish 1 true 200, .ret 1, .supervisor .head, .supervisor (.rotate false),
    .supervisor (.rotateCh 1), .supervisor (.busy false), .supervisor .lock, .supervisor (.busy false),
    .supervisor .unpublish, .supervisor .close]

theorem skipRun_isSome : ((system .twoExits).exec skipRun).isSome := by
  decide

theorem rotation_spares_iff_skipRun :
    let s := ((system .twoExits).exec skipRun).get skipRun_isSome
    s.supervisor.idleClosing = some 0 ∧ s.conns = [⟨"http://a:80", .idle 0⟩] ∧ s.Spared :=
  have r := System.Run.of_isSome skipRun_isSome
  ⟨by decide, by decide, (rotation_spares_iff r).right.right.mpr (.of_exec (by decide)) skipRun [] [] _
    (by simp) (by simp [TearsDown]) (by simpa using r)⟩

-- The rotation finds no session in flight, and then session 1 takes the connection.
theorem rotation_closes_under_exchange :
    let es := poolRun ++ [.supervisor (.rotate false), .supervisor (.rotateCh 0),
      .supervisor (.busy false), .supervisor .lock, .supervisor (.busy false),
      .handle .http "http://a:80", .count 1, .take 1 0, .supervisor .unpublish, .supervisor .close]
    ∃ s, (system .twoExits).Run es s ∧ s.supervisor.pc = .closing 0 (.rotate ⟨false, 0⟩) ∧
      s.sessions[1]? = some ⟨.http, "http://a:80", .exchange 0⟩ ∧
      s.conns = [⟨"http://a:80", .used 0⟩] ∧ ¬s.Spared := by
  refine ⟨_, .of_isSome (by decide), by decide, by decide, by decide, fun h => ?_⟩
  exact h 0 ⟨⟨.http, "http://a:80", .exchange 0⟩, by decide, by decide⟩ (by decide)

end Application.Proxy
