import VpnTunnel.Lib.Netip.Basic

namespace Strconv

inductive Error
  | invalidSyntax
  | outOfRange
  deriving DecidableEq, Repr

-- The loop of `ParseUint`, for the decimal digits of a 64-bit number.
def parseUint (n : Nat) : ByteString → Except Error Nat
  | []     => .ok n
  | c :: s =>
    if ¬Netip.isDigit c then .error .invalidSyntax
    else if 2 ^ 64 ≤ n * 10 + (c.toNat - 0x30) then .error .outOfRange
    else parseUint (n * 10 + (c.toNat - 0x30)) s

def sign : ByteString → Bool × ByteString
  | 0x2B :: s => (false, s)
  | 0x2D :: s => (true, s)
  | s         => (false, s)

def atoi (s : ByteString) : Except Error Int :=
  let (neg, digits) := sign s
  if digits = [] then .error .invalidSyntax
  else do
    let n ← parseUint 0 digits
    if neg then
      if n ≤ 2 ^ 63 then return -n else .error .outOfRange
    else
      if n < 2 ^ 63 then return n else .error .outOfRange

end Strconv

namespace Netip

abbrev slash : UInt8 := 0x2F

inductive PrefixError
  | noSlash
  | addr (err : ParseError)
  | zone
  | badBits
  | outOfRange
  deriving DecidableEq, Repr

-- The text before the last slash, and the text after it.
def splitSlash (s : ByteString) : Option (ByteString × ByteString) :=
  if slash ∈ s then
    some ((s.reverse.dropWhile (· ≠ slash)).tail.reverse, (s.reverse.takeWhile (· ≠ slash)).reverse)
  else
    none

def Addr.bitLen : Addr → Nat
  | invalid => 0
  | v4 _    => 32
  | v6 _ _  => 128

-- `Atoi` would accept a sign and leading zeros.
def parseBits (s : ByteString) : Except PrefixError Int :=
  if s.length > 1 ∧ s.head?.any (fun c => c < 0x31 ∨ 0x39 < c) then .error .badBits
  else (Strconv.atoi s).mapError fun _ => .badBits

def parsePrefix (s : ByteString) : Except PrefixError Prefix :=
  match splitSlash s with
  | none              => .error .noSlash
  | some (addr, bits) => do
    let ip ← (parseAddr addr).mapError .addr
    if ip.zone ≠ [] then .error .zone
    else
      let n ← parseBits bits
      if n < 0 ∨ ip.bitLen < n then .error .outOfRange else return { ip, bits := n.toNat }

def Prefix.string (p : Prefix) : ByteString :=
  p.ip.string ++ slash :: decimal p.bits

end Netip
