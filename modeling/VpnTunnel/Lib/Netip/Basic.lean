import Mathlib.Algebra.Order.Ring.Nat
import VpnTunnel.Lib.Bytes

namespace Netip

abbrev dot : UInt8 := 0x2E
abbrev colon : UInt8 := 0x3A
abbrev percent : UInt8 := 0x25
abbrev lbracket : UInt8 := 0x5B
abbrev rbracket : UInt8 := 0x5D

-- IP addresses. An IPv6 address without a zone has the empty zone.
inductive Addr
  | invalid
  | v4 (addr : BitVec 32)
  | v6 (addr : BitVec 128) (zone : ByteString)
  deriving DecidableEq

def ofBytes (w : Nat) (bs : List UInt8) : BitVec w :=
  .ofNat w <| bs.foldl (fun n b => n * 256 + b.toNat) 0

namespace Addr

def zone : Addr → ByteString
  | v6 _ z => z
  | _      => []

def withoutZone : Addr → Addr
  | v6 a _ => v6 a []
  | a      => a

def is4In6 : Addr → Bool
  | v6 a _ => a >>> 32 = 0xffff
  | _      => false

def unmap (ip : Addr) : Addr :=
  match ip with
  | v6 a _ => if ip.is4In6 then v4 (a.setWidth 32) else ip
  | _      => ip

end Addr

structure Prefix where
  ip   : Addr
  bits : Nat

-- A prefix contains no address that has a zone.
def Prefix.contains (p : Prefix) (ip : Addr) : Bool :=
  match p.ip, ip with
  | .v4 a, .v4 b      => (b ^^^ a) >>> (32 - p.bits) = 0
  | .v6 a _, .v6 b [] => (b ^^^ a) &&& (BitVec.allOnes 128 <<< (128 - p.bits)) = 0
  | _, _              => false

inductive ParseError
  | unableToParse
  | missingIPv6
  | leadingZero
  | octetTooLarge
  | noDigit
  | tooLong
  | tooShort
  | unexpectedCharacter
  | emptyZone
  | groupTooLong
  | groupTooLarge
  | misplacedIPv4
  | noRoomForIPv4
  | wantColon
  | trailingColon
  | multipleEllipses
  | trailingGarbage
  | emptyEllipsis
  deriving DecidableEq, Repr

def isDigit (c : UInt8) : Bool :=
  0x30 ≤ c ∧ c ≤ 0x39

def parseIPv4Fields (s : ByteString) : Except ParseError (List UInt8) :=
  go 0 0 [] s
where
  -- There is no digit before a dot at the start of the text and after another dot.
  go (val digLen : Nat) (fields : List UInt8) : ByteString → Except ParseError (List UInt8)
    | [] => if fields.length < 3 then .error .tooShort else .ok (fields ++ [.ofNat val])
    | c :: s =>
      if isDigit c then
        if digLen = 1 ∧ val = 0 then .error .leadingZero
        else if val * 10 + (c.toNat - 0x30) > 255 then .error .octetTooLarge
        else go (val * 10 + (c.toNat - 0x30)) (digLen + 1) fields s
      else if c = dot then
        if digLen = 0 ∨ s = [] then .error .noDigit
        else if fields.length = 3 then .error .tooLong
        else go 0 0 (fields ++ [.ofNat val]) s
      else .error .unexpectedCharacter

def parseIPv4 (s : ByteString) : Except ParseError Addr := do
  return .v4 (ofBytes 32 (← parseIPv4Fields s))

def hexVal (c : UInt8) : Option Nat :=
  if isDigit c then some (c.toNat - 0x30)
  else if 0x61 ≤ c ∧ c ≤ 0x66 then some (c.toNat - 0x61 + 10)
  else if 0x41 ≤ c ∧ c ≤ 0x46 then some (c.toNat - 0x41 + 10)
  else none

-- The number of digits at the head of a text, their value and the text after them.
def parseHex (off acc : Nat) : ByteString → Except ParseError (Nat × Nat × ByteString)
  | [] => .ok (off, acc, [])
  | c :: s =>
    match hexVal c with
    | none => .ok (off, acc, c :: s)
    | some d =>
      if off > 3 then .error .groupTooLong
      else if acc * 16 + d > 0xffff then .error .groupTooLarge
      else parseHex (off + 1) (acc * 16 + d) s

-- The loop of `parseIPv6`, which runs until all `n` groups that there is room for are filled. It returns
-- the bytes, at which of them there is an ellipsis, and the text that is left.
def parseGroups : Nat → List UInt8 → Option Nat → ByteString →
    Except ParseError (List UInt8 × Option Nat × ByteString)
  | 0, ip, ellipsis, s => .ok (ip, ellipsis, s)
  | n + 1, ip, ellipsis, s => do
    let (off, acc, rest) ← parseHex 0 0 s
    if off = 0 then .error .noDigit
    else if rest.head? = some dot then
      if ellipsis = none ∧ ip.length ≠ 12 then .error .misplacedIPv4
      else if ip.length + 4 > 16 then .error .noRoomForIPv4
      else return (ip ++ (← parseIPv4Fields s), ellipsis, [])
    else
      let ip := ip ++ [.ofNat (acc / 256), .ofNat (acc % 256)]
      match rest with
      | [] => return (ip, ellipsis, [])
      | c :: s =>
        if c ≠ colon then .error .wantColon
        else match s with
        | [] => .error .trailingColon
        | c' :: s' =>
          if c' ≠ colon then parseGroups n ip ellipsis s
          else if ellipsis.isSome then .error .multipleEllipses
          else if s' = [] then return (ip, some ip.length, [])
          else parseGroups n ip (some ip.length) s'

-- The text before the first percent sign, and the zone after it.
def splitZone (s : ByteString) : Except ParseError (ByteString × ByteString) :=
  if percent ∈ s then
    let zone := (s.dropWhile (· ≠ percent)).drop 1
    if zone = [] then .error .emptyZone else .ok (s.takeWhile (· ≠ percent), zone)
  else .ok (s, [])

def leadingEllipsis : ByteString → Option Nat × ByteString
  | c :: c' :: s => if c = colon ∧ c' = colon then (some 0, s) else (none, c :: c' :: s)
  | s            => (none, s)

-- The part of `parseIPv6` after the zone has been split off.
def parseUnzoned (zone s : ByteString) : Except ParseError Addr :=
  let (ellipsis, s) := leadingEllipsis s
  if ellipsis.isSome ∧ s = [] then return .v6 0 zone
  else do
    let (ip, ellipsis, s) ← parseGroups 8 [] ellipsis s
    if s ≠ [] then .error .trailingGarbage
    else match ellipsis with
    | none =>
      if ip.length < 16 then .error .tooShort else return .v6 (ofBytes 128 ip) zone
    | some k =>
      if ip.length < 16 then
        return .v6 (ofBytes 128 (ip.take k ++ .replicate (16 - ip.length) 0 ++ ip.drop k)) zone
      else .error .emptyEllipsis

def parseIPv6 (s : ByteString) : Except ParseError Addr := do
  let (s, zone) ← splitZone s
  parseUnzoned zone s

def parseAddr (s : ByteString) : Except ParseError Addr :=
  match s.find? (fun c => c = dot ∨ c = colon ∨ c = percent) with
  | none   => .error .unableToParse
  | some c =>
    if c = dot then parseIPv4 s else if c = colon then parseIPv6 s else .error .missingIPv6

-- Digits are lower case, and there are no leading zeros.
def digit (d : Nat) : UInt8 :=
  if d < 10 then .ofNat (0x30 + d) else .ofNat (0x61 + (d - 10))

def decimal (n : Nat) : ByteString :=
  (if n ≥ 100 then [digit (n / 100)] else []) ++ (if n ≥ 10 then [digit (n / 10 % 10)] else []) ++
    [digit (n % 10)]

def hex (n : Nat) : ByteString :=
  (if n ≥ 0x1000 then [digit (n / 0x1000)] else []) ++
    (if n ≥ 0x100 then [digit (n / 0x100 % 16)] else []) ++
    (if n ≥ 0x10 then [digit (n / 0x10 % 16)] else []) ++ [digit (n % 16)]

def octets (a : BitVec 32) : List Nat :=
  [a.toNat / 2 ^ 24, a.toNat / 2 ^ 16 % 256, a.toNat / 2 ^ 8 % 256, a.toNat % 256]

def groups (a : BitVec 128) : List Nat :=
  [a.toNat / 2 ^ 112, a.toNat / 2 ^ 96 % 2 ^ 16, a.toNat / 2 ^ 80 % 2 ^ 16, a.toNat / 2 ^ 64 % 2 ^ 16,
   a.toNat / 2 ^ 48 % 2 ^ 16, a.toNat / 2 ^ 32 % 2 ^ 16, a.toNat / 2 ^ 16 % 2 ^ 16, a.toNat % 2 ^ 16]

def string4 (a : BitVec 32) : ByteString :=
  [dot].intercalate ((octets a).map decimal)

-- The first of the longest runs of at least two zeros, from which group to before which one.
def zeroRun (gs : List Nat) : Option (Nat × Nat) :=
  (List.range gs.length).foldl (fun run i =>
    let j := i + ((gs.drop i).takeWhile (· = 0)).length
    if j - i ≥ 2 ∧ j - i > run.elim 0 (fun r => r.2 - r.1) then some (i, j) else run) none

def joinGroups (gs : List Nat) : ByteString :=
  [colon].intercalate (gs.map hex)

def stringGroups (gs : List Nat) : ByteString :=
  match zeroRun gs with
  | none        => joinGroups gs
  | some (i, j) => joinGroups (gs.take i) ++ [colon, colon] ++ joinGroups (gs.drop j)

def zoneSuffix (zone : ByteString) : ByteString :=
  if zone = [] then [] else percent :: zone

def Addr.string (ip : Addr) : ByteString :=
  match ip with
  | invalid => .ofString "invalid IP"
  | v4 a => string4 a
  | v6 a zone =>
    if ip.is4In6 then .ofString "::ffff:" ++ string4 (a.setWidth 32) ++ zoneSuffix zone
    else stringGroups (groups a) ++ zoneSuffix zone

end Netip

namespace Net

open Netip

inductive AddrError
  | missingPort
  | tooManyColons
  | missingRbracket
  | unexpectedLbracket
  | unexpectedRbracket
  deriving DecidableEq, Repr

-- The text up to the last colon, and the port after it.
def splitPort (s : ByteString) : Option (ByteString × ByteString) :=
  if colon ∈ s then
    some (((s.reverse.dropWhile (· ≠ colon)).drop 1).reverse,
      (s.reverse.takeWhile (· ≠ colon)).reverse)
  else none

def splitHostPort (s : ByteString) : Except AddrError (ByteString × ByteString) :=
  match splitPort s with
  | none => .error .missingPort
  | some (before, port) =>
    if s.head? = some lbracket then
      -- The first closing bracket has to be right before the last colon.
      let inner := s.takeWhile (· ≠ rbracket)
      if rbracket ∉ s then .error .missingRbracket
      else if inner ++ [rbracket] = s then .error .missingPort
      else if inner ++ [rbracket] ≠ before then
        if (s.drop (inner.length + 1)).head? = some colon then .error .tooManyColons
        else .error .missingPort
      else if lbracket ∈ s.drop 1 then .error .unexpectedLbracket
      else if rbracket ∈ s.drop (inner.length + 1) then .error .unexpectedRbracket
      else .ok (inner.drop 1, port)
    else if colon ∈ before then .error .tooManyColons
    else if lbracket ∈ s then .error .unexpectedLbracket
    else if rbracket ∈ s then .error .unexpectedRbracket
    else .ok (before, port)

def joinHostPort (host port : ByteString) : ByteString :=
  if colon ∈ host then lbracket :: host ++ [rbracket, colon] ++ port
  else host ++ [colon] ++ port

end Net
