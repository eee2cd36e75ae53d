import VpnTunnel.Application.Proxy.Basic

namespace Application.Proxy

open Tunnelpool

variable {o : Supervisor.Options} {s s₁ s₂ : State} {e : Event} {i c : Nat} {x : Session} {y : Conn}

-- How a session moves on without touching a connection of the transport.
inductive Advance (s : State) : Phase → Phase → Prop
  | unavailable : Advance s .counted (.ending 502)
  | read {d : Device} :
    (s.supervisor.dialContext = some (.ok d)) → Advance s .counted (.dialing d)
  | dialErr {d : Device}  : Advance s (.dialing d) (.ending 502)
  | dialed {d : Device}   : Advance s (.dialing d) (.connected d)
  | noHijack {d : Device} : Advance s (.connected d) (.ending 500)
  | hijack {d : Device}   : Advance s (.connected d) (.hijacked d)
  | writeErr {d : Device} : Advance s (.hijacked d) (.ending 500)
  | write {d : Device}    : Advance s (.hijacked d) (.written d)
  | flushErr {d : Device} : Advance s (.written d) (.ending 500)
  | flush {d : Device}    : Advance s (.written d) (.tunnel d)
  | tunnelEnd {d : Device} : Advance s (.tunnel d) (.ending 200)
  | giveUp {c : Nat}      : Advance s (.waiting c) (.ending 502)

-- What a step can do. The steps of the supervisor and those that reuse a connection name their event.
inductive Step (o : Supervisor.Options) (s : State) : Event → State → Prop
  | supervisor {e : Supervisor.Event} {sup : Supervisor.State} :
    SupervisorMay s e → (Supervisor.step o s.supervisor e = some sup) →
    Step o s (.supervisor e) { s with supervisor := sup }
  | handle {e : Event} {handler : Handler} {target : Target} :
    Step o s e { s with sessions := s.sessions ++ [⟨handler, target, .begun⟩] }
  | reject {e : Event} {i code : Nat} {x : Session} :
    (s.sessions[i]? = some x) → (x.phase = .begun) → (code ∈ x.handler.rejections) →
    Step o s e (s.setPhase i (.done code))
  | count {e : Event} {i : Nat} {x : Session} :
    (s.sessions[i]? = some x) → (x.phase = .begun) →
    Step o s e ((s.add 1).setPhase i .counted)
  | ret {e : Event} {i code : Nat} {x : Session} :
    (s.sessions[i]? = some x) → (x.phase = .ending code) →
    Step o s e ((s.add (-1)).setPhase i (.done code))
  | advance {e : Event} {i : Nat} {x : Session} {ph : Phase} :
    (s.sessions[i]? = some x) → Advance s x.phase ph → Step o s e (s.setPhase i ph)
  | queue {e : Event} {i : Nat} {x : Session} :
    (s.sessions[i]? = some x) → (x.phase = .counted) →
    Step o s e ((s.startDial x.target).setPhase i (.waiting s.conns.length))
  | take {i c : Nat} {x : Session} {y : Conn} {d : Device} :
    (s.sessions[i]? = some x) → (x.phase = .counted ∨ ∃ c', x.phase = .waiting c') →
    (s.conns[c]? = some y) → (y.phase = .idle d) → (y.target = x.target) →
    Step o s (.take i c) ((s.setConn c (.used d)).setPhase i (.exchange c))
  | fail {e : Event} {i c : Nat} {x : Session} {ph : Phase} :
    (s.sessions[i]? = some x) → (x.phase = .exchange c ∨ x.phase = .waiting c) →
    (ph = .counted ∨ ph = .ending 502) → Step o s e ((s.setConn c .dead).setPhase i ph)
  | finish {e : Event} {i c code : Nat} {keep : Bool} {x : Session} :
    (s.sessions[i]? = some x) → (x.phase = .exchange c) →
    Step o s e ((s.release c keep).setPhase i (.ending code))
  | connRead {e : Event} {c : Nat} {y : Conn} {d : Device} :
    (s.conns[c]? = some y) → (s.supervisor.dialContext = some (.ok d)) →
    Step o s e (s.setConn c (.dialing d))
  | connDead {e : Event} {c : Nat} : Step o s e (s.setConn c .dead)
  | pool {e : Event} {c : Nat} {y : Conn} {d : Device} :
    (s.conns[c]? = some y) → (y.phase = .dialing d) → Step o s e (s.setConn c (.idle d))
  | deliver {e : Event} {i c : Nat} {x : Session} {y : Conn} {d : Device} :
    (s.sessions[i]? = some x) → (x.phase = .waiting c) →
    (s.conns[c]? = some y) → (y.phase = .dialing d) →
    Step o s e ((s.setConn c (.used d)).setPhase i (.exchange c))

theorem waiter_eq_some (h : s.waiter c = some i) :
    ∃ x, s.sessions[i]? = some x ∧ x.phase = .waiting c := by
  have ⟨hl, hx, _⟩ := List.findIdx?_eq_some_iff_getElem.mp h
  exact ⟨s.sessions[i], List.getElem?_eq_getElem hl, by simpa using hx⟩

theorem take_elim (h : stepHTTP s i x (.take i₁ c) = some s₂) :
    (x.phase = .counted ∨ ∃ c', x.phase = .waiting c') ∧
    ∃ y d, s.conns[c]? = some y ∧ y.phase = .idle d ∧ y.target = x.target ∧
      s₂ = (s.setConn c (.used d)).setPhase i (.exchange c) := by
  simp only [stepHTTP] at h
  split at h <;> try cases h
  case h_1 hp hc | h_2 hp hc =>
    split at h <;> cases h
    case isTrue ht => exact ⟨by simp [hp], _, _, hc, rfl, ht, rfl⟩

namespace Step

theorem of_stepConnect (hi : s.sessions[i]? = some x) (h : stepConnect s i x e = some s₂) :
    Step o s e s₂ := by
  cases e <;> simp only [stepConnect] at h
  case read =>
    split at h <;> try cases h
    case h_1 hp =>
      have ⟨res, hr, h⟩ := Option.map_eq_some_iff.mp h
      split at h <;> cases h
      case h_1 => exact .advance hi (hp ▸ .unavailable)
      case h_2 => exact .advance hi (hp ▸ .read hr)
  case tunnelEnd =>
    split at h <;> cases h
    case h_1 hp => exact .advance hi (hp ▸ .tunnelEnd)
  case dialed ok =>
    split at h <;> cases h
    case h_1 hp =>
      cases ok
      case false => exact .advance hi (hp ▸ .dialErr)
      case true  => exact .advance hi (hp ▸ .dialed)
  case hijack res =>
    split at h <;> cases h
    case h_1 hp =>
      split
      case isTrue  => exact .advance hi (hp ▸ .hijack)
      case isFalse => exact .advance hi (hp ▸ .noHijack)
  case write ok =>
    split at h <;> cases h
    case h_1 hp =>
      cases ok
      case false => exact .advance hi (hp ▸ .writeErr)
      case true  => exact .advance hi (hp ▸ .write)
  case flush ok =>
    split at h <;> cases h
    case h_1 hp =>
      cases ok
      case false => exact .advance hi (hp ▸ .flushErr)
      case true  => exact .advance hi (hp ▸ .flush)
  all_goals cases h

theorem of_stepHTTP (hi : s.sessions[i]? = some x) (he : ∀ i' c, e = .take i' c → i' = i)
    (h : stepHTTP s i x e = some s₂) : Step o s e s₂ := by
  cases e
  case take =>
    have ⟨hp, _, _, hc, hy, ht, h⟩ := take_elim h
    exact he _ _ rfl ▸ h ▸ .take hi hp hc hy ht
  all_goals simp only [stepHTTP] at h
  case queue =>
    split at h <;> cases h
    case isTrue hp => exact .queue hi hp.left
  case retry =>
    split at h <;> cases h
    case h_1 hp => exact .fail hi (.inl hp) (.inl rfl)
  case doErr =>
    split at h <;> cases h
    case h_1 hp => exact .advance hi (hp ▸ .giveUp)
    case h_2 hp => exact .fail hi (.inl hp) (.inr rfl)
  case finish =>
    split at h <;> cases h
    case h_1 hp => exact .finish hi hp
  all_goals cases h

theorem of_stepSession (hi : s.sessions[i]? = some x) (he : ∀ i' c, e = .take i' c → i' = i)
    (h : stepSession s i x e = some s₂) : Step o s e s₂ := by
  unfold stepSession at h
  split at h
  case h_1 =>
    split at h <;> cases h
    case isTrue hp => exact .reject hi hp.left hp.right
  case h_2 =>
    split at h <;> cases h
    case isTrue hp => exact .count hi hp
  case h_3 =>
    split at h <;> cases h
    case h_1 hp => exact .ret hi hp
  case h_4 =>
    split at h
    case h_1 => exact .of_stepConnect hi h
    case h_2 => exact .of_stepHTTP hi he h

theorem of_connErr : Step o s e (s.connErr c) := by
  unfold State.connErr
  cases hw : s.waiter c
  case none => exact .connDead
  case some i =>
    have ⟨_, hi, hp⟩ := waiter_eq_some hw
    exact .fail hi (.inr hp) (.inr rfl)

theorem of_deliver {d : Device} (hc : s.conns[c]? = some y) (hp : y.phase = .dialing d) :
    Step o s e (s.deliver c d) := by
  unfold State.deliver
  cases hw : s.waiter c
  case none => exact .pool hc hp
  case some i =>
    have ⟨_, hi, hw⟩ := waiter_eq_some hw
    exact .deliver hi hw hc hp

theorem of_stepConn (hc : s.conns[c]? = some y) (h : stepConn s c y e = some s₂) :
    Step o s e s₂ := by
  cases e <;> simp only [stepConn] at h
  case connRead =>
    split at h <;> try cases h
    case h_1 =>
      have ⟨res, hr, h⟩ := Option.map_eq_some_iff.mp h
      split at h <;> cases h
      case h_1 => exact of_connErr
      case h_2 => exact .connRead hc hr
  case connDialed ok =>
    split at h <;> cases h
    case h_1 hp =>
      cases ok
      case false => exact of_connErr
      case true  => exact of_deliver hc hp
  case connDrop =>
    split at h <;> cases h
    case h_1 => exact .connDead
  all_goals cases h

theorem of_step (h : step o s₁ e = some s₂) : Step o s₁ e s₂ := by
  cases e <;> simp only [step] at h
  case supervisor =>
    split at h <;> try cases h
    case isTrue hm =>
      have ⟨_, hs, h⟩ := Option.map_eq_some_iff.mp h
      exact h ▸ .supervisor hm hs
  case handle =>
    cases h
    exact .handle
  case connRead | connDialed | connDrop =>
    have ⟨_, hc, h⟩ := Option.bind_eq_some_iff.mp h
    exact .of_stepConn hc h
  all_goals
    have ⟨_, hi, h⟩ := Option.bind_eq_some_iff.mp h
    exact .of_stepSession hi (by simp) h

end Step
end Application.Proxy
