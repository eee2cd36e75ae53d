import VpnTunnel.Lib.Netip.Basic
import VpnTunnel.Lib.Regexp.Clear

namespace Infrastructure.Observability

open Regexp ByteString Netip

section Patterns

-- `\w`
def isWord (c : UInt8) : Bool :=
  isAlnum c || c = 0x5F

def isLetter (c : UInt8) : Bool :=
  isLower c || isUpper c

-- `[0-9a-fA-F:]`
def isIPv6 (c : UInt8) : Bool :=
  (hexVal c).isSome || c = 0x3A

-- `[\w.-]`
def isHostname (c : UInt8) : Bool :=
  isWord c || c = 0x2E || c = 0x2D

-- `[\s"'=,(]`
def isDelimiter (c : UInt8) : Bool :=
  [0x09, 0x0A, 0x0C, 0x0D, 0x20, 0x22, 0x27, 0x3D, 0x2C, 0x28].contains c

-- `\d{1,3}`
def octet : Regexp UInt8 :=
  seq (cls isDigit) (upTo (cls isDigit) 2)

-- `:\d+`
def port : Regexp UInt8 :=
  seq (lit [0x3A]) (plus (cls isDigit))

-- `:\d+\b`
def portEnd : Regexp UInt8 :=
  seq (lit [0x3A]) (seq (plus (cls isDigit)) (boundary isWord))

def reIPv4Port : Pattern UInt8 where
  expr      := seq (boundary isWord) <| seq (times (seq octet (lit [0x2E])) 3) <| seq octet portEnd
  consuming := rfl

def reIPv6Port : Pattern UInt8 where
  expr      := seq (lit [0x5B]) <| seq (plus (cls isIPv6)) <| seq (lit [0x5D]) port
  consuming := rfl

-- The host and the port, without what is before them.
def hostPort : Regexp UInt8 :=
  seq (cls isLetter) <| seq (star (cls isHostname)) <| seq (lit [0x2E]) <|
    seq (times (cls isLetter) 2) <| seq (star (cls isLetter)) portEnd

def reHostnamePort : Pattern UInt8 where
  expr      := seq (alt start (cls isDelimiter)) hostPort
  consuming := rfl

def reLocalhostPort : Pattern UInt8 where
  expr      := seq (boundary isWord) <| seq (lit (ofString "localhost")) portEnd
  consuming := rfl

end Patterns

def scrubReplacement : ByteString :=
  ofString "<HOST:PORT>"

-- The bytes that are given back if a match starts with them.
def isGivenBack (c : UInt8) : Bool :=
  [0x20, 0x09, 0x0A, 0x22, 0x27, 0x3D, 0x2C, 0x28].contains c

-- A match is not empty.
def replaceHostname : ByteString → ByteString
  | []     => scrubReplacement
  | c :: _ => if isGivenBack c then c :: scrubReplacement else scrubReplacement

def scrubHostnames (s : ByteString) : ByteString :=
  replaceAll reHostnamePort replaceHostname s

def scrubString (s : ByteString) : ByteString :=
  let s := replaceAll reIPv4Port (fun _ => scrubReplacement) s
  let s := replaceAll reIPv6Port (fun _ => scrubReplacement) s
  let s := scrubHostnames s
  replaceAll reLocalhostPort (fun _ => scrubReplacement) s

section Handler

-- A `LogValuer` is given by the value that it returns. The values of all other kinds are in `β`.
mutual
inductive Value (β : Type)
  | string (s : ByteString)
  | group (attrs : Attrs β)
  | valuer (v : Value β)
  | other (v : β)

inductive Attrs (β : Type)
  | nil
  | cons (key : ByteString) (value : Value β) (attrs : Attrs β)
end

-- Besides these, the time, the level and the program counter are handed on.
structure Record (β : Type) where
  message : ByteString
  attrs   : Attrs β

def maxLogValues : Nat :=
  100

-- The value is resolved on the way, and the key is kept. After too many calls there is an error instead of a value.
mutual
def scrubAttr (tooMany : β) : Value β → Nat → Value β
  | _,         0     => .other tooMany
  | .valuer v, n + 1 => scrubAttr tooMany v n
  | .string s, _     => .string (scrubString s)
  | .group as, _     => .group (scrubAttrs tooMany as)
  | .other v,  _     => .other v

def scrubAttrs (tooMany : β) : Attrs β → Attrs β
  | .nil               => .nil
  | .cons key value as => .cons key (scrubAttr tooMany value maxLogValues) (scrubAttrs tooMany as)
end

-- What the next handler gets.
def handle (tooMany : β) (r : Record β) : Record β where
  message := scrubString r.message
  attrs   := scrubAttrs tooMany r.attrs

end Handler

end Infrastructure.Observability
