import Mathlib.Logic.Relation
import VpnTunnel.Tunnelpool.Supervisor.Basic

namespace Tunnelpool.Supervisor

-- What the owner of the devices has in its hands. A device goes through these stages in order, and
-- only in `published` can others reach it.
inductive Hold
  | nothing
  | fresh (d : Device)
  | published (d : Device)
  | withdrawn (d : Device)
  | closing (d : Device)
  deriving DecidableEq

namespace Hold

def device? : Hold → Option Device
  | nothing                                         => none
  | fresh d | published d | withdrawn d | closing d => d

def closing? : Hold → Option Device
  | closing d => d
  | _         => none

end Hold

-- The life of the devices, without what decides when the owner takes the next step.
structure Devices where
  now        : Nat
  built      : Nat
  hold       : Hold
  ledger     : Ledger Device
  closeCalls : List Device

namespace Devices

inductive Step (m : Devices) : Devices → Prop
  | tick {dt : Nat} : Step m { m with now := m.now + dt }
  | build : (m.hold = .nothing) →
    Step m { m with
      built  := m.built + 1
      hold   := .fresh m.built
      ledger := (m.now, .opened m.built) :: m.ledger }
  | publish {d : Device} : (m.hold = .fresh d) → Step m { m with hold := .published d }
  | withdraw {d : Device} : (m.hold = .published d) → Step m { m with hold := .withdrawn d }
  | close {d : Device} : (m.hold = .withdrawn d) →
    Step m { m with hold := .closing d, closeCalls := d :: m.closeCalls }
  | closed {d : Device} : (m.hold = .closing d) →
    Step m { m with hold := .nothing, ledger := (m.now, .closed d) :: m.ledger }

structure Valid (m : Devices) : Prop where
  exclusive  : m.ledger.Exclusive 0 m.hold.device?
  opened     : ∀ d, m.ledger.WasOpened d ↔ d < m.built
  past       : ∀ t e, (t, e) ∈ m.ledger → t ≤ m.now
  closeCalls : ∀ d, m.closeCalls.count d = m.ledger.closings d + m.hold.closing?.toList.count d

variable {m m₁ m₂ : Devices} {d : Device}

theorem Step.preserves_valid (st : Step m₁ m₂) (v : m₁.Valid) : m₂.Valid := by
  have ⟨hx, ho, hp, hc⟩ := v
  cases st
  case tick =>
    exact ⟨hx, ho, fun t e h => (hp t e h).trans (Nat.le_add_right ..), hc⟩
  case build h =>
    rw [h] at hx hc
    have hn : ¬m₁.ledger.WasOpened m₁.built := fun h => (ho _ |>.mp h).false
    refine ⟨.opened hx hn fun _ _ => hp _ _, ?_, ?_, ?_⟩
    · intro d
      rw [Ledger.wasOpened_cons_opened, ho, or_comm, Nat.lt_succ_iff_lt_or_eq]
    · intro t e he
      cases List.mem_cons.mp he
      case inl he => cases he; exact le_rfl
      case inr he => exact hp _ _ he
    · intro d
      simpa [Ledger.closings, Hold.closing?] using hc d
  case publish h | withdraw h =>
    rw [h] at hx hc
    exact ⟨hx, ho, hp, hc⟩
  case close d h =>
    rw [h] at hx hc
    refine ⟨hx, ho, hp, ?_⟩
    intro d'
    have hc := hc d'
    simp only [Hold.closing?, Option.toList_none, List.count_nil, Nat.add_zero] at hc
    simp [Hold.closing?, List.count_cons, hc]
  case closed d h =>
    rw [h] at hx hc
    refine ⟨.closed hx, by simpa using ho, ?_, ?_⟩
    · intro t e he
      cases List.mem_cons.mp he
      case inl he => cases he; exact le_rfl
      case inr he => exact hp _ _ he
    · intro d'
      have hc := hc d'
      simp only [Hold.closing?, Option.toList_some, List.count_singleton] at hc
      simp [Ledger.closings, List.countP_cons, Hold.closing?, hc]

namespace Valid

theorem open_unique (v : m.Valid) {d₁ d₂ : Device} (h₁ : m.ledger.IsOpen d₁)
    (h₂ : m.ledger.IsOpen d₂) : d₁ = d₂ :=
  Option.some.inj <| (v.exclusive.isOpen_iff.mp h₁).symm.trans (v.exclusive.isOpen_iff.mp h₂)

theorem closeCalls_eq_zero (v : m.Valid) (h : m.ledger.IsOpen d) (hc : m.hold ≠ .closing d) :
    m.closeCalls.count d = 0 := by
  rw [v.closeCalls, Ledger.closings_eq_zero h.right]
  cases hh : m.hold <;> simp_all [Hold.closing?]

theorem closeCalls_eq_one (v : m.Valid) (h : m.ledger.WasOpened d) (hh : m.hold = .nothing) :
    m.closeCalls.count d = 1 ∧ m.ledger.closings d = 1 := by
  have hc : m.ledger.closings d = 1 := v.exclusive.closings_eq_one h (by simp [hh, Hold.device?])
  simp [v.closeCalls, hc, hh, Hold.closing?]

end Valid
end Devices

-- The loop has a device in one of its local variables, or in the field that others read.
def State.hold (s : State) : Hold :=
  match s.pc with
  | .swap live _  => .fresh live.device
  | .close d _    => .withdrawn d
  | .closing d _  => .closing d
  | _             => s.device.elim .nothing (.published ·.device)

def State.devices (s : State) : Devices where
  now        := s.now
  built      := s.built
  hold       := s.hold
  ledger     := s.ledger
  closeCalls := s.closeCalls

end Tunnelpool.Supervisor
