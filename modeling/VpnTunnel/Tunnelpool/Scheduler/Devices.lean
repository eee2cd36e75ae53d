import Mathlib.Logic.Relation
import VpnTunnel.Tunnelpool.Scheduler.Basic

namespace Tunnelpool.Scheduler

-- The life of the devices, without the requests that they serve: a device is built at the end of a
-- settle delay, which starts while no device is live.
structure Devices where
  now     : Nat
  built   : Nat
  current : Option Device
  settle  : Option Nat
  ledger  : Ledger Device

namespace Devices

inductive Step (settleDelay : Nat) (m : Devices) : Devices → Prop
  | tick {d : Nat} : Step settleDelay m { m with now := m.now + d }
  | close {d : Device} {took : Nat} : (m.current = some d) →
    Step settleDelay m { m with
      now     := m.now + took
      current := none
      ledger  := (m.now + took, .closed d) :: m.ledger }
  | settle : (m.current = none) →
    Step settleDelay m { m with settle := some (m.now + settleDelay) }
  | fail {took : Nat} : Step settleDelay m { m with now := m.now + took, settle := none }
  | build {took : Nat} : (Fired m.settle m.now) →
    Step settleDelay m
      { now     := m.now + took
        built   := m.built + 1
        current := some m.built
        settle  := none
        ledger  := (m.now, .opened m.built) :: m.ledger }

abbrev Steps (settleDelay : Nat) : Devices → Devices → Prop :=
  Relation.ReflTransGen (Step settleDelay)

structure Valid (settleDelay : Nat) (m : Devices) : Prop where
  exclusive : m.ledger.Exclusive settleDelay m.current
  opened    : ∀ d, m.ledger.WasOpened d ↔ d < m.built
  past      : ∀ t e, (t, e) ∈ m.ledger → t ≤ m.now
  settling  : m.settle.isSome → m.current = none
  settled   : ∀ t ∈ m.settle, ∀ t' d, (t', .closed d) ∈ m.ledger → t' + settleDelay ≤ t

variable {m m₁ m₂ : Devices} {settleDelay : Nat}

-- When a device may be built, all devices have been closed for at least the settle delay.
theorem Valid.settled_of_fired (v : m.Valid settleDelay) (h : Fired m.settle m.now) {t : Nat}
    {d : Device} (hc : (t, .closed d) ∈ m.ledger) : t + settleDelay ≤ m.now :=
  have ⟨_, ht, hn⟩ := h
  v.settled _ ht _ _ hc |>.trans hn

theorem Step.preserves_valid (st : Step settleDelay m₁ m₂) (v : m₁.Valid settleDelay) :
    m₂.Valid settleDelay := by
  cases st
  case tick =>
    exact ⟨v.exclusive, v.opened, fun t e h => (v.past t e h).trans (Nat.le_add_right ..), v.settling,
      v.settled⟩
  case fail =>
    exact ⟨v.exclusive, v.opened, fun t e h => (v.past t e h).trans (Nat.le_add_right ..), by simp,
      by simp⟩
  case settle h =>
    refine ⟨v.exclusive, v.opened, v.past, fun _ => h, ?_⟩
    intro t ht t' d hc
    cases Option.mem_some.mp ht
    exact Nat.add_le_add_right (v.past _ _ hc) _
  case close d took h =>
    have hs : m₁.settle = none := by
      by_contra hs
      simp [v.settling (Option.isSome_iff_ne_none.mpr hs)] at h
    refine ⟨.closed (h ▸ v.exclusive), by simpa using v.opened, ?_, fun _ => rfl, by simp [hs]⟩
    intro t e he
    cases List.mem_cons.mp he
    case inl he => cases he; exact le_rfl
    case inr he => exact (v.past _ _ he).trans (Nat.le_add_right ..)
  case build took h =>
    have hc : m₁.current = none := v.settling h.isSome
    have hn : ¬m₁.ledger.WasOpened m₁.built := fun h => (v.opened _ |>.mp h).false
    refine ⟨.opened (hc ▸ v.exclusive) hn fun _ _ => v.settled_of_fired h, ?_, ?_, by simp, by simp⟩
    · intro d
      rw [Ledger.wasOpened_cons_opened, v.opened, or_comm, Nat.lt_succ_iff_lt_or_eq]
    · intro t e he
      cases List.mem_cons.mp he
      case inl he => cases he; exact Nat.le_add_right ..
      case inr he => exact (v.past _ _ he).trans (Nat.le_add_right ..)

theorem Steps.preserves_valid (st : Steps settleDelay m₁ m₂) (v : m₁.Valid settleDelay) :
    m₂.Valid settleDelay := by
  induction st
  case refl => exact v
  case tail st hi => exact st.preserves_valid hi

end Devices

def State.devices (s : State) : Devices where
  now     := s.now
  built   := s.built.length
  current := s.currentDevice
  settle  := s.settleTimer
  ledger  := s.ledger

end Tunnelpool.Scheduler
