import VpnTunnel.Lib.Netip.AddrPort

namespace Infrastructure.Wireguard

open Net Netip

-- The resolver of the system. Of the addresses of a host there are only the bytes.
structure Resolver where
  services     : ByteString → Except ByteString Int
  lookupIPAddr : ByteString → Except ByteString (List ByteString)

-- The loop over the addresses, which stops at the first one of four bytes.
def firstIs4 (addrs : List ByteString) : Option Addr :=
  addrs.findSome? fun a => (addrFromSlice a).filter (·.is4)

def preferIs4 (addrs : List ByteString) : Except String Addr :=
  match addrs with
  | []     => .error "no addresses returned"
  | a :: _ =>
    match firstIs4 addrs with
    | some ip => .ok ip.unmap
    | none    =>
      match addrFromSlice a with
      | some ip => .ok ip.unmap
      | none    => .error "could not convert IP"

def resolveError (host err : ByteString) : ByteString :=
  .ofString "resolve " ++ host ++ .ofString ": " ++ err

def resolveEndpoint (r : Resolver) (endpoint : ByteString) : Except ByteString AddrPort := do
  let (host, portStr) ← (splitHostPort endpoint).mapError fun err =>
    .ofString "split host:port: " ++ addrError err.err endpoint
  let port ← (lookupPort r.services portStr).mapError (.ofString "parse port: " ++ ·)
  -- There is no lookup for a numeric address.
  match parseAddr host with
  | .ok addr => return ⟨addr, port⟩
  | .error _ =>
    let addrs ← (r.lookupIPAddr host).mapError (resolveError host)
    let ip ← (preferIs4 addrs).mapError fun err => resolveError host (.ofString err)
    return ⟨ip, port⟩

section Preference

-- The address that some bytes stand for.
def plain (a : ByteString) : Option Addr :=
  (addrFromSlice a).map (·.unmap)

def isIPv4 (a : ByteString) : Bool :=
  (plain a).any (·.is4)

-- The first IPv4 address, or else the first address.
def preferred (addrs : List ByteString) : Option Addr :=
  (addrs.find? isIPv4).or addrs.head? >>= plain

-- An IPv4 address of sixteen bytes that is the first one is found all the same: it is also the first address
-- of four bytes, or there is none of four bytes and the list starts with it.
def NotPassed (addrs : List ByteString) : Prop :=
  ∀ a, addrs.find? isIPv4 = some a → a.length = 16 →
    (addrs.find? (·.length = 4)).elim (addrs.head? = some a) (plain · = plain a)

variable {addrs : List ByteString} {a : ByteString}

theorem is4_addrFromSlice : (addrFromSlice a).filter (·.is4) = if a.length = 4 then plain a else none := by
  unfold plain addrFromSlice
  split <;> try split
  all_goals simp [Option.filter, Addr.is4]

theorem isIPv4_of_length (h : a.length = 4) : isIPv4 a := by
  simp [isIPv4, plain, addrFromSlice, h, Addr.is4]

theorem isSome_plain (h : a.length = 4 ∨ a.length = 16) : (plain a).isSome := by
  unfold plain addrFromSlice
  cases h <;> simp [*]

theorem firstIs4_eq : firstIs4 addrs = addrs.find? (·.length = 4) >>= plain := by
  unfold firstIs4
  induction addrs
  case nil => rfl
  case cons a addrs hi =>
    rw [List.findSome?_cons, is4_addrFromSlice, hi]
    by_cases h : a.length = 4
    case neg => simp [h]
    case pos =>
      have ⟨ip, hp⟩ := Option.isSome_iff_exists.mp <| isSome_plain (.inl h)
      simp [h, hp]

theorem unmap_firstIs4 {ip : Addr} (h : firstIs4 addrs = some ip) : ip.unmap = ip := by
  have ⟨a, _, ha⟩ := List.exists_of_findSome?_eq_some h
  exact Addr.unmap_of_is4 (Option.filter_eq_some_iff.mp ha).right

theorem preferIs4_toOption (hn : addrs ≠ []) :
    (preferIs4 addrs).toOption = (firstIs4 addrs).or (addrs.head? >>= plain) := by
  cases addrs
  case nil => contradiction
  case cons a addrs =>
    unfold preferIs4
    cases h : firstIs4 (a :: addrs)
    case some ip => simp [unmap_firstIs4 h, Except.toOption]
    case none =>
      simp only [List.head?_cons, Option.none_or, Option.bind_eq_bind, Option.bind_some]
      cases ha : addrFromSlice a <;> simp [plain, ha, Except.toOption]

theorem find?_length_of_isIPv4 (hf : addrs.find? isIPv4 = some a) (h : a.length = 4) :
    addrs.find? (·.length = 4) = some a := by
  have ⟨_, l, l', hl, hn⟩ := List.find?_eq_some_iff_append.mp hf
  refine List.find?_eq_some_iff_append.mpr ⟨by simpa using h, l, l', hl, fun b hb => ?_⟩
  have hb : ¬isIPv4 b := by simpa using hn b hb
  simpa using mt isIPv4_of_length hb

theorem find?_length_of_no_isIPv4 (hf : addrs.find? isIPv4 = none) : addrs.find? (·.length = 4) = none := by
  refine List.find?_eq_none.mpr fun a ha => ?_
  simpa using mt isIPv4_of_length (List.find?_eq_none.mp hf a ha)

-- Without an address of four bytes the choice is the first address, which is an IPv4 address only if it is
-- the first one.
theorem plain_head?_eq_iff (hf : addrs.find? isIPv4 = some a) :
    (addrs.head? >>= plain) = plain a ↔ addrs.head? = some a := by
  have ha : isIPv4 a := List.find?_some hf
  cases addrs
  case nil => simp at hf
  case cons b addrs =>
    refine ⟨fun h => ?_, fun h => by simp_all⟩
    have hb : isIPv4 b := by
      rw [isIPv4] at ha ⊢
      exact (show plain b = plain a from h) ▸ ha
    simpa [hb] using hf

theorem isSome_preferred (hn : addrs ≠ []) (hl : ∀ a ∈ addrs, a.length = 4 ∨ a.length = 16) :
    (preferred addrs).isSome := by
  cases hf : addrs.find? isIPv4
  case some a => simpa [preferred, hf] using isSome_plain <| hl a (List.mem_of_find?_eq_some hf)
  case none =>
    cases addrs
    case nil => contradiction
    case cons a addrs => simpa [preferred, hf] using isSome_plain <| hl a (by simp)

theorem preferIs4_eq_iff (hn : addrs ≠ []) (hl : ∀ a ∈ addrs, a.length = 4 ∨ a.length = 16) :
    (preferIs4 addrs).toOption = preferred addrs ↔ NotPassed addrs := by
  rw [preferIs4_toOption hn, firstIs4_eq, preferred]
  cases hf : addrs.find? isIPv4
  case none => simp [find?_length_of_no_isIPv4 hf, NotPassed, hf]
  case some a =>
    have ⟨ip, hp⟩ := Option.isSome_iff_exists.mp <| isSome_plain <| hl a (List.mem_of_find?_eq_some hf)
    cases hl a (List.mem_of_find?_eq_some hf)
    case inl h =>
      simp [find?_length_of_isIPv4 hf h, hp, NotPassed, hf, h]
    case inr h =>
      have hi : NotPassed addrs ↔
          (addrs.find? (·.length = 4)).elim (addrs.head? = some a) (plain · = plain a) := by
        simp [NotPassed, hf, h]
      rw [hi]
      cases hb : addrs.find? (·.length = 4)
      case none => simpa using plain_head?_eq_iff hf
      case some b =>
        have ⟨ip', hp'⟩ :=
          Option.isSome_iff_exists.mp <| isSome_plain <| hl b (List.mem_of_find?_eq_some hb)
        simp [hp, hp']

end Preference

variable {r : Resolver} {addrs : List ByteString} {endpoint host portStr : ByteString} {port : UInt16}

theorem resolveEndpoint_of_lookup (hs : splitHostPort endpoint = .ok (host, portStr))
    (hp : lookupPort r.services portStr = .ok port) (hh : ¬(parseAddr host).isOk)
    (ha : r.lookupIPAddr host = .ok addrs) :
    (resolveEndpoint r endpoint).toOption = (preferIs4 addrs).toOption.map (⟨·, port⟩) := by
  unfold resolveEndpoint
  simp only [hs, hp, ha, Except.mapError, bind, Except.bind]
  cases hc : parseAddr host
  case ok => simp [hc, Except.isOk, Except.toBool] at hh
  case error => cases preferIs4 addrs <;> rfl

theorem resolveEndpoint_prefers_iff (hs : splitHostPort endpoint = .ok (host, portStr))
    (hp : lookupPort r.services portStr = .ok port) (hh : ¬(parseAddr host).isOk)
    (ha : r.lookupIPAddr host = .ok addrs) (hn : addrs ≠ [])
    (hl : ∀ a ∈ addrs, a.length = 4 ∨ a.length = 16) :
    (∃ ip, preferred addrs = some ip ∧ resolveEndpoint r endpoint = .ok ⟨ip, port⟩) ↔
      NotPassed addrs := by
  have hr := resolveEndpoint_of_lookup hs hp hh ha
  rw [← preferIs4_eq_iff hn hl]
  constructor
  case mp =>
    intro ⟨ip, hi, he⟩
    rw [he] at hr
    have ⟨ip', hi', he'⟩ := Option.map_eq_some_iff.mp hr.symm
    cases he'
    rw [hi, hi']
  case mpr =>
    intro he
    have ⟨ip, hi⟩ := Option.isSome_iff_exists.mp <| isSome_preferred hn hl
    refine ⟨ip, hi, ?_⟩
    rw [he, hi] at hr
    cases h : resolveEndpoint r endpoint <;> simp_all [Except.toOption]

def ipv6 : ByteString :=
  [0x20, 0x01, 0x0d, 0xb8, 0, 0, 0, 0, 0, 0, 0, 0, 0, 0, 0, 1]

def ipv4In6 : ByteString :=
  [0, 0, 0, 0, 0, 0, 0, 0, 0, 0, 0xff, 0xff, 203, 0, 113, 1]

def resolver (addrs : List ByteString) : Resolver where
  services _     := .error (.ofString "unknown port")
  lookupIPAddr _ := .ok addrs

def vpnEndpoint : ByteString :=
  .ofString "vpn:51820"

theorem resolveEndpoint_prefers_ipv4In6 :
    ∃ ip, preferred [ipv4In6, ipv6] = some ip ∧
      resolveEndpoint (resolver [ipv4In6, ipv6]) vpnEndpoint = .ok ⟨ip, 51820⟩ :=
  have hs : splitHostPort vpnEndpoint = .ok (.ofString "vpn", .ofString "51820") := by decide
  have hf : [ipv4In6, ipv6].find? isIPv4 = some ipv4In6 := by decide
  resolveEndpoint_prefers_iff hs (by decide) (by decide) rfl (by simp) (by decide) |>.mpr
    fun a ha _ => by
      cases hf.symm.trans ha
      exact show [ipv4In6, ipv6].head? = some ipv4In6 from rfl

theorem resolveEndpoint_passes_ipv4In6 :
    preferred [ipv6, ipv4In6] = some (.v4 0xcb007101) ∧
      resolveEndpoint (resolver [ipv6, ipv4In6]) vpnEndpoint =
        .ok ⟨.v6 0x20010db8000000000000000000000001 [], 51820⟩ := by
  decide

end Infrastructure.Wireguard
