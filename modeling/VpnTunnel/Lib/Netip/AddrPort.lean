import VpnTunnel.Lib.Netip.Prefix

namespace Netip

structure AddrPort where
  addr : Addr
  port : UInt16
  deriving DecidableEq

-- The bytes of a `net.IP`, which has both lengths for an IPv4 address.
def addrFromSlice (slice : ByteString) : Option Addr :=
  if slice.length = 4 then some (.v4 (ofBytes 32 slice))
  else if slice.length = 16 then some (.v6 (ofBytes 128 slice) [])
  else none

def Addr.is4 : Addr → Bool
  | v4 _ => true
  | _    => false

@[simp]
theorem Addr.unmap_v4 (a : BitVec 32) : (v4 a).unmap = v4 a :=
  rfl

theorem Addr.unmap_of_is4 {ip : Addr} (h : ip.is4) : ip.unmap = ip := by
  cases ip
  case v4 => rfl
  all_goals contradiction

end Netip

namespace Net

open Netip

-- The loop of `parsePort` in 32 bits. It is left at a byte that is no digit, which means that there has to
-- be a lookup, or with the largest number.
def portDigits (n : UInt32) : ByteString → Option UInt32
  | []     => some n
  | d :: s =>
    if ¬isDigit d then none
    else if n ≥ 2 ^ 30 then some (2 ^ 32 - 1)
    else
      let nn := n * 10 + (d - 0x30).toUInt32
      if nn < n * 10 then some (2 ^ 32 - 1) else portDigits nn s

def parsePort (service : ByteString) : Option Int :=
  let (neg, digits) := Strconv.sign service
  if service = [] then some 0
  else (portDigits 0 digits).map fun n =>
    if neg then -(min n.toNat (2 ^ 30) : Nat) else (min n.toNat (2 ^ 30 - 1) : Nat)

def addrError (err : String) (addr : ByteString) : ByteString :=
  if addr = [] then .ofString err
  else .ofString "address " ++ addr ++ .ofString ": " ++ .ofString err

def AddrError.err : AddrError → String
  | missingPort        => "missing port in address"
  | tooManyColons      => "too many colons in address"
  | missingRbracket    => "missing ']' in address"
  | unexpectedLbracket => "unexpected '[' in address"
  | unexpectedRbracket => "unexpected ']' in address"

-- `services` is the lookup of the name of a service.
def lookupPort (services : ByteString → Except ByteString Int) (service : ByteString) :
    Except ByteString UInt16 := do
  let port ← (parsePort service).elim (services service) .ok
  if 0 > port ∨ port > 65535 then .error (addrError "invalid port" service)
  else return .ofNat port.toNat

end Net
