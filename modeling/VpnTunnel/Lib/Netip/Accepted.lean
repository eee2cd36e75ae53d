import VpnTunnel.Lib.Batch
import VpnTunnel.Lib.Netip.HostPort
import VpnTunnel.Lib.Netip.Prefix
import VpnTunnel.Lib.Netip.RoundTrip

namespace Netip

variable {s t rest zone : ByteString} {c : UInt8} {ip : Addr}

theorem isPlain_of_isDigit (h : isDigit c) : isPlain c := by
  simp [isPlain, hexVal, h]

theorem isPlain_of_go {val digLen : Nat} {fields fields' : List UInt8}
    (h : parseIPv4Fields.go val digLen fields s = .ok fields') : ∀ c ∈ s, isPlain c := by
  induction s generalizing val digLen fields
  case nil => simp
  case cons b s hi =>
    simp only [parseIPv4Fields.go] at h
    refine List.forall_mem_cons.mpr ?_
    split at h
    case isTrue hb =>
      split at h
      case isTrue => cases h
      case isFalse =>
        split at h
        case isTrue => cases h
        case isFalse => exact ⟨isPlain_of_isDigit hb, hi h⟩
    case isFalse =>
      split at h
      case isFalse => cases h
      case isTrue hb =>
        split at h
        case isTrue => cases h
        case isFalse =>
          split at h
          case isTrue => cases h
          case isFalse => exact ⟨by simp [isPlain, hb], hi h⟩

theorem parseHex_elim {off acc off' acc' : Nat} (h : parseHex off acc s = .ok (off', acc', rest)) :
    ∃ digits, s = digits ++ rest ∧ ∀ c ∈ digits, isPlain c := by
  induction s generalizing off acc
  case nil =>
    cases h
    exact ⟨[], rfl, by simp⟩
  case cons b s hi =>
    simp only [parseHex] at h
    split at h
    case h_1 =>
      cases h
      exact ⟨[], rfl, by simp⟩
    case h_2 d hd =>
      split at h
      case isTrue => cases h
      case isFalse =>
        split at h
        case isTrue => cases h
        case isFalse =>
          obtain ⟨digits, hs, hp⟩ := hi h
          exact ⟨b :: digits, by rw [hs]; rfl, List.forall_mem_cons.mpr ⟨by simp [isPlain, hd], hp⟩⟩

theorem isPlain_of_parseGroups {n : Nat} {bytes bytes' : List UInt8} {ellipsis ellipsis' : Option Nat}
    (h : parseGroups n bytes ellipsis s = .ok (bytes', ellipsis', rest)) :
    ∀ c ∈ s, isPlain c ∨ c ∈ rest := by
  induction n generalizing bytes ellipsis s
  case zero =>
    cases h
    exact fun _ => .inr
  case succ n hi =>
    have ⟨⟨off, acc, t⟩, ht, h⟩ := Except.bind_eq_ok.mp h
    have ⟨digits, hs, hd⟩ := parseHex_elim ht
    -- The digits of the group are plain, unless they start an IPv4 address, which is plain as a whole.
    have hw (hr : ∀ c ∈ t, isPlain c ∨ c ∈ rest) : ∀ c ∈ s, isPlain c ∨ c ∈ rest := by
      rw [hs]
      exact List.forall_mem_append.mpr ⟨fun c hc => .inl (hd c hc), hr⟩
    simp only at h
    split at h
    case isTrue => cases h
    case isFalse =>
      split at h
      case isTrue =>
        split at h
        case isTrue => cases h
        case isFalse =>
          split at h
          case isTrue => cases h
          case isFalse =>
            have ⟨_, hf, _⟩ := Except.bind_eq_ok.mp h
            exact fun c hc => .inl <| isPlain_of_go hf c hc
      case isFalse hdot =>
        have hc : isPlain colon := by decide
        split at h
        case h_1 => exact hw (by simp)
        case h_2 b t =>
          split at h
          case isTrue => cases h
          case isFalse hb =>
            have hb : isPlain b := by rwa [not_not.mp hb]
            split at h
            case h_1 => cases h
            case h_2 b' t =>
              split at h
              case isTrue => exact hw <| List.forall_mem_cons.mpr ⟨.inl hb, hi h⟩
              case isFalse hb' =>
                have hb' : isPlain b' := by rwa [not_not.mp hb']
                split at h
                case isTrue => cases h
                case isFalse =>
                  split at h
                  case isTrue ht => exact hw (by simp [hb, hb', ht])
                  case isFalse =>
                    refine hw <| List.forall_mem_cons.mpr ⟨.inl hb, ?_⟩
                    exact List.forall_mem_cons.mpr ⟨.inl hb', hi h⟩

theorem isPlain_of_leadingEllipsis {ellipsis : Option Nat} (h : leadingEllipsis s = (ellipsis, t))
    (ht : ∀ c ∈ t, isPlain c) : ∀ c ∈ s, isPlain c := by
  unfold leadingEllipsis at h
  split at h
  case h_1 b b' s =>
    split at h
    case isTrue hb =>
      cases h
      have hc : isPlain colon := by decide
      simpa [hb, hc] using ht
    case isFalse =>
      cases h
      exact ht
  case h_2 =>
    cases h
    exact ht

-- Without its zone, an address that is accepted consists of plain characters.
theorem parseUnzoned_elim (h : parseUnzoned zone s = .ok ip) : ip.zone = zone ∧ ∀ c ∈ s, isPlain c := by
  rcases hl : leadingEllipsis s with ⟨ellipsis, t⟩
  simp only [parseUnzoned, hl] at h
  split at h
  case isTrue ht =>
    cases h
    exact ⟨rfl, isPlain_of_leadingEllipsis hl (by simp [ht.right])⟩
  case isFalse =>
    obtain ⟨⟨bytes, ellipsis', rest⟩, hg, h⟩ := Except.bind_eq_ok.mp h
    simp only at h
    split at h
    case isTrue => cases h
    case isFalse hr =>
      have ht : ∀ c ∈ t, isPlain c := by simpa [not_not.mp hr] using isPlain_of_parseGroups hg
      refine ⟨?_, isPlain_of_leadingEllipsis hl ht⟩
      split at h
      all_goals
        split at h <;> cases h
        rfl

theorem splitZone_elim (h : splitZone s = .ok (t, zone)) : s = t ++ zoneSuffix zone := by
  unfold splitZone at h
  split at h
  case isFalse =>
    cases h
    simp [zoneSuffix]
  case isTrue hp =>
    obtain ⟨x, y, hs, hx⟩ := List.eq_append_cons_of_mem hp
    obtain ⟨ht, hd⟩ := Net.takeWhile_append (t := y) hx
    simp only [hs, ht, hd, List.drop_one, List.tail_cons] at h
    split at h
    case isTrue => cases h
    case isFalse hz =>
      cases h
      rw [zoneSuffix, if_neg hz, hs]

-- What is accepted as an address is plain up to the zone.
theorem parseAddr_elim (h : parseAddr s = .ok ip) :
    ∃ t, s = t ++ zoneSuffix ip.zone ∧ ∀ c ∈ t, isPlain c := by
  unfold parseAddr at h
  split at h
  case h_1 => cases h
  case h_2 b _ =>
    split at h
    case isTrue =>
      obtain ⟨_, hf, h⟩ := Except.bind_eq_ok.mp h
      cases h
      exact ⟨s, by simp [zoneSuffix, Addr.zone], isPlain_of_go hf⟩
    case isFalse =>
      split at h
      case isFalse => cases h
      case isTrue =>
        obtain ⟨⟨t, zone⟩, hz, h⟩ := Except.bind_eq_ok.mp h
        obtain ⟨he, ht⟩ := parseUnzoned_elim h
        exact ⟨t, he ▸ splitZone_elim hz, ht⟩

theorem isDigit_of_parseUint {n m : Nat} (h : Strconv.parseUint n s = .ok m) : ∀ c ∈ s, isDigit c := by
  induction s generalizing n
  case nil => simp
  case cons b s hi =>
    simp only [Strconv.parseUint] at h
    split at h
    case isTrue => cases h
    case isFalse hb =>
      split at h
      case isTrue => cases h
      case isFalse => exact List.forall_mem_cons.mpr ⟨not_not.mp hb, hi h⟩

-- The characters of a number that `Atoi` accepts.
theorem isDigit_of_atoi {n : Int} (h : Strconv.atoi s = .ok n) :
    ∀ c ∈ s, isDigit c ∨ c = 0x2B ∨ c = 0x2D := by
  rcases hs : Strconv.sign s with ⟨neg, digits⟩
  have hd : ∀ c ∈ digits, isDigit c := by
    simp only [Strconv.atoi, hs] at h
    split at h
    case isTrue => cases h
    case isFalse =>
      have ⟨_, hu, _⟩ := Except.bind_eq_ok.mp h
      exact isDigit_of_parseUint hu
  unfold Strconv.sign at hs
  split at hs <;> cases hs
  all_goals simp_all

theorem splitSlash_elim {addr bits : ByteString} (h : splitSlash s = some (addr, bits)) :
    s = addr ++ slash :: bits := by
  by_cases hs : slash ∈ s
  case neg => simp [splitSlash, hs] at h
  case pos =>
    simp only [splitSlash, if_pos hs, Option.some.injEq, Prod.mk.injEq] at h
    have ⟨x, y, hr, hx⟩ := List.eq_append_cons_of_mem (List.mem_reverse.mpr hs)
    have ⟨ht, hd⟩ := Net.takeWhile_append (t := y) hx
    rw [hr, ht, hd] at h
    rw [← List.reverse_reverse s, hr, ← h.left, ← h.right]
    simp

-- A prefix has no zone, and its bits are a number.
theorem isPlain_of_parsePrefix {p : Prefix} (h : parsePrefix s = .ok p) :
    ∀ c ∈ s, isPlain c ∨ c = slash ∨ c = 0x2B ∨ c = 0x2D := by
  unfold parsePrefix at h
  split at h
  case h_1 => cases h
  case h_2 addr bits hs =>
    have ⟨ip, hip, h⟩ := Except.bind_eq_ok.mp h
    split at h
    case isTrue => cases h
    case isFalse hz =>
      have ⟨n, hn, _⟩ := Except.bind_eq_ok.mp h
      have ⟨t, ht, hp⟩ := parseAddr_elim (Except.mapError_eq_ok.mp hip)
      have hb : ∀ c ∈ bits, isDigit c ∨ c = 0x2B ∨ c = 0x2D := by
        unfold parseBits at hn
        split at hn
        case isTrue => cases hn
        case isFalse => exact isDigit_of_atoi (Except.mapError_eq_ok.mp hn)
      rw [not_not.mp hz, zoneSuffix, if_pos rfl, List.append_nil] at ht
      intro c hc
      rw [splitSlash_elim hs, List.mem_append, List.mem_cons] at hc
      rcases hc with hc | hc | hc
      · exact .inl <| hp c (ht ▸ hc)
      · exact .inr <| .inl hc
      · exact (hb c hc).imp isPlain_of_isDigit .inr

end Netip
