import VpnTunnel.Handlers.Forwarder.Dial
import VpnTunnel.Lib.Netip.HostPort
import VpnTunnel.Lib.Netip.RoundTrip

open Netip Net

namespace Handlers.Forwarder

variable {ε : Type} {lookupHost : ByteString → Except ε (List Addr)}
  {address host port : ByteString} {ip first : Addr} {addrs : List Addr}

-- The dialer connects to the address without its zone, and to the IPv4 address that is mapped.
def Covered (ip : Addr) : Prop :=
  Ipdeny.contains Policy.denyCIDRs ip.withoutZone.unmap

-- What the code checks.
def Denied (ip : Addr) : Prop :=
  Ipdeny.contains Ipdeny.defaultDeny ip.unmap

-- The deny list covers the address, but does not contain it because of its zone.
def ZoneHides (ip : Addr) : Prop :=
  ip.zone ≠ [] ∧ ¬ip.is4In6 ∧ Covered ip

instance : Decidable (Covered ip) :=
  inferInstanceAs (Decidable (_ = true))

instance : Decidable (Denied ip) :=
  inferInstanceAs (Decidable (_ = true))

instance : Decidable (ZoneHides ip) :=
  inferInstanceAs (Decidable (_ ∧ _))

theorem contains_zoned {prefixes : List Prefix} {a : BitVec 128} {zone : ByteString}
    (h : zone ≠ []) : Ipdeny.contains prefixes (.v6 a zone) = false := by
  simp only [Ipdeny.contains, List.any_eq_false]
  intro p _
  cases hp : p.ip <;> simp [Prefix.contains, hp, h]

theorem covered_iff : Covered ip ↔ Denied ip ∨ ZoneHides ip := by
  cases ip
  case invalid | v4 => simp [Covered, Denied, ZoneHides, Ipdeny.defaultDeny, Addr.withoutZone, Addr.zone]
  case v6 a zone =>
    have hm : (Addr.v6 a []).is4In6 = (Addr.v6 a zone).is4In6 := rfl
    cases h : (Addr.v6 a zone).is4In6
    case true => simp [Covered, Denied, ZoneHides, Ipdeny.defaultDeny, Addr.withoutZone, Addr.unmap, hm, h]
    case false =>
      by_cases hz : zone = []
      case pos => simp [Covered, Denied, ZoneHides, Ipdeny.defaultDeny, Addr.withoutZone, Addr.zone, hz]
      case neg =>
        simp [Covered, Denied, ZoneHides, Ipdeny.defaultDeny, Addr.withoutZone, Addr.unmap, Addr.zone,
          hm, h, hz, contains_zoned hz]

-- The dialer is only called with an address that is not covered, and only if no address that the name
-- of the host resolves to is covered.
def DialsSafely (lookupHost : ByteString → Except ε (List Addr)) (address : ByteString) : Prop :=
  ∀ dialed, denyAwareDial lookupHost address = .ok dialed →
    (∃ host port ip, splitHostPort dialed = .ok (host, port) ∧ parseAddr host = .ok ip ∧
      ¬Covered ip) ∧
    ∀ host port addrs, splitHostPort address = .ok (host, port) → (parseAddr host).isOk = false →
      lookupHost host = .ok addrs → ∀ ip ∈ addrs, ¬Covered ip

-- The zone of the first address ends up in the text that is dialed.
def NotHidden (lookupHost : ByteString → Except ε (List Addr)) (address : ByteString) : Prop :=
  ∀ host port, splitHostPort address = .ok (host, port) →
    match parseAddr host with
    | .ok ip   => ¬ZoneHides ip
    | .error _ => ∀ first addrs, lookupHost host = .ok (first :: addrs) →
      (∃ ip ∈ first :: addrs, Denied ip) ∨
      ((∀ ip ∈ first :: addrs, ¬ZoneHides ip) ∧ first ≠ .invalid ∧ NoBrackets first.zone)

theorem noBrackets_string (h : ip ≠ .invalid) : NoBrackets ip.string ↔ NoBrackets ip.zone := by
  have ⟨s, hs, hp⟩ := string_eq h
  have hl : lbracket ∉ s := fun h => absurd (hp _ h) (by decide)
  have hr : rbracket ∉ s := fun h => absurd (hp _ h) (by decide)
  have hz : NoBrackets (zoneSuffix ip.zone) ↔ NoBrackets ip.zone := by
    have hl : lbracket ≠ percent := by decide
    have hr : rbracket ≠ percent := by decide
    by_cases hz : ip.zone = [] <;> simp [zoneSuffix, NoBrackets, hz, hl, hr]
  rw [← hz]
  simp [NoBrackets, hs, hl, hr]

theorem colon_mem_string (h : ip.zone ≠ []) : colon ∈ ip.string := by
  cases ip
  case invalid | v4 => simp [Addr.zone] at h
  case v6 a zone =>
    obtain ⟨ds, rest, hs, _⟩ := isColonText_string a zone
    simp [hs]

-- The dialed text can be read as an address if and only if it was made from one, and the zone does not
-- interfere with the brackets around it.
theorem splits_iff (hc : colon ∉ port) (hp : NoBrackets port) :
    (∃ host' port' ip, splitHostPort (joinHostPort first.string port) = .ok (host', port') ∧
      parseAddr host' = .ok ip ∧ ¬Covered ip) ↔
    first ≠ .invalid ∧ NoBrackets first.zone ∧ ¬Covered first := by
  constructor
  · rintro ⟨host', port', ip, hs, hi, hn⟩
    have hv : first ≠ .invalid := by
      intro hv
      have he : parseAddr Addr.invalid.string = .error .unableToParse := by decide
      rw [hv, splitHostPort_joinHostPort hc hp (by decide)] at hs
      cases hs
      simp [he] at hi
    have hz : NoBrackets first.zone := by
      by_cases hz : first.zone = []
      case pos => simp [hz, NoBrackets]
      case neg => exact (noBrackets_string hv).mp <|
        noBrackets_of_joinHostPort (colon_mem_string hz) hc hs
    rw [splitHostPort_joinHostPort hc hp ((noBrackets_string hv).mpr hz)] at hs
    cases hs
    rw [parseAddr_string hv] at hi
    cases hi
    exact ⟨hv, hz, hn⟩
  · rintro ⟨hv, hz, hn⟩
    exact ⟨_, _, first, splitHostPort_joinHostPort hc hp ((noBrackets_string hv).mpr hz),
      parseAddr_string hv, hn⟩

theorem ZoneHides.not_denied (h : ZoneHides ip) : ¬Denied ip := by
  cases ip
  case invalid | v4 => simp [ZoneHides, Addr.zone] at h
  case v6 a zone =>
    have hz : zone ≠ [] := h.left
    simpa [Denied, Addr.unmap, h.right.left] using contains_zoned hz

theorem not_covered_iff (h : ¬Denied ip) : ¬Covered ip ↔ ¬ZoneHides ip := by
  simp [covered_iff, h]

section Literal

variable (hs : splitHostPort address = .ok (host, port)) (hi : parseAddr host = .ok ip)

include hs hi

theorem denyAwareDial_literal_denied (hd : Denied ip) :
    denyAwareDial lookupHost address = .error .denyList := by
  simp only [denyAwareDial, hs, hi]
  exact if_pos hd

theorem denyAwareDial_literal (hd : ¬Denied ip) : denyAwareDial lookupHost address = .ok address := by
  simp only [denyAwareDial, hs, hi]
  exact if_neg hd

theorem dialsSafely_literal : DialsSafely lookupHost address ↔ ¬ZoneHides ip := by
  by_cases hd : Denied ip
  case pos =>
    have hz := mt ZoneHides.not_denied (not_not.mpr hd)
    simp [DialsSafely, denyAwareDial_literal_denied hs hi hd, hz]
  case neg =>
    have ha : denyAwareDial lookupHost address = _ := denyAwareDial_literal hs hi hd
    rw [← not_covered_iff hd]
    constructor
    · intro h
      have ⟨⟨_, _, _, hs', hi', hn⟩, _⟩ := h _ ha
      cases hs.symm.trans hs'
      cases hi.symm.trans hi'
      exact hn
    · intro hn dialed h
      cases ha.symm.trans h
      refine ⟨⟨host, port, ip, hs, hi, hn⟩, ?_⟩
      intro host' port' addrs' hs' hi'
      cases hs.symm.trans hs'
      simp [hi, Except.isOk, Except.toBool] at hi'

end Literal

section Name

variable {err : ParseError} (hs : splitHostPort address = .ok (host, port))
  (hi : parseAddr host = .error err) (hl : lookupHost host = .ok (first :: addrs))

include hs hi hl

theorem denyAwareDial_name_denied (hd : ∃ ip ∈ first :: addrs, Denied ip) :
    denyAwareDial lookupHost address = .error .denyList := by
  simp only [denyAwareDial, hs, hi, hl]
  exact if_pos (List.any_eq_true.mpr hd)

theorem denyAwareDial_name (hd : ¬∃ ip ∈ first :: addrs, Denied ip) :
    denyAwareDial lookupHost address = .ok (joinHostPort first.string port) := by
  simp only [denyAwareDial, hs, hi, hl]
  exact if_neg (mt List.any_eq_true.mp hd)

theorem dialsSafely_name : DialsSafely lookupHost address ↔ (∃ ip ∈ first :: addrs, Denied ip) ∨
    ((∀ ip ∈ first :: addrs, ¬ZoneHides ip) ∧ first ≠ .invalid ∧ NoBrackets first.zone) := by
  obtain ⟨_, hc, _, hp⟩ := splitHostPort_elim hs
  by_cases hd : ∃ ip ∈ first :: addrs, Denied ip
  case pos => simp only [DialsSafely, denyAwareDial_name_denied hs hi hl hd, hd]; simp
  case neg =>
    have hn : (∀ ip ∈ first :: addrs, ¬ZoneHides ip) ↔ ∀ ip ∈ first :: addrs, ¬Covered ip :=
      forall₂_congr fun ip hm => (not_covered_iff fun h => hd ⟨ip, hm, h⟩).symm
    have ha := denyAwareDial_name hs hi hl hd
    rw [hn, or_iff_right hd]
    constructor
    · intro h
      obtain ⟨h₁, h₂⟩ := h _ ha
      obtain ⟨hv, hz, _⟩ := (splits_iff hc hp).mp h₁
      exact ⟨h₂ host port _ hs (by simp [hi, Except.isOk, Except.toBool]) hl, hv, hz⟩
    · rintro ⟨hn, hv, hz⟩ dialed h
      cases ha.symm.trans h
      refine ⟨(splits_iff hc hp).mpr ⟨hv, hz, hn first List.mem_cons_self⟩, ?_⟩
      intro host' port' addrs' hs' _ hl'
      cases hs.symm.trans hs'
      cases hl.symm.trans hl'
      exact hn

end Name

theorem dialsSafely_iff : DialsSafely lookupHost address ↔ NotHidden lookupHost address := by
  cases hs : splitHostPort address
  case error => simp [DialsSafely, NotHidden, denyAwareDial, hs]
  case ok r =>
    rcases r with ⟨host, port⟩
    cases hi : parseAddr host
    case ok ip => simp [dialsSafely_literal hs hi, NotHidden, hs, hi]
    case error =>
      cases hl : lookupHost host
      case error => simp [DialsSafely, NotHidden, denyAwareDial, hs, hi, hl]
      case ok addrs =>
        cases addrs
        case nil => simp [DialsSafely, NotHidden, denyAwareDial, hs, hi, hl]
        case cons first addrs => simp [dialsSafely_name hs hi hl, NotHidden, hs, hi, hl]

theorem zone_bypasses_deny : ¬DialsSafely (fun _ => (.error () : Except Unit (List Addr)))
    (.ofString "[fc00::1%eth0]:443") := by
  have hs : splitHostPort (.ofString "[fc00::1%eth0]:443") =
    .ok (.ofString "fc00::1%eth0", .ofString "443") := by decide
  have hi : parseAddr (.ofString "fc00::1%eth0") =
    .ok (.v6 (0xfc00 <<< 112 + 1) (.ofString "eth0")) := by decide
  rw [dialsSafely_literal hs hi]
  decide

end Handlers.Forwarder
