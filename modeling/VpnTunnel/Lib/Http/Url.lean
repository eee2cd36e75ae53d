import VpnTunnel.Lib.Netip.Basic

namespace Http

open ByteString

structure Userinfo where
  username : ByteString
  password : Option ByteString
  deriving DecidableEq

structure Url where
  scheme      : ByteString
  opaqueText  : ByteString
  user        : Option Userinfo
  host        : ByteString
  path        : ByteString
  rawPath     : ByteString
  omitHost    : Bool
  forceQuery  : Bool
  rawQuery    : ByteString
  fragment    : ByteString
  rawFragment : ByteString
  deriving DecidableEq

-- The parts of a URL, which differ in the bytes that have to be escaped.
inductive Encoding
  | path
  | userPassword
  | host
  | fragment

def slash : UInt8 := 0x2F

def percent : UInt8 := 0x25

def shouldEscape (c : UInt8) : Encoding → Bool
  | .path         => !(isAlnum c || (ofString "-_.~$&+,/:;=@").contains c)
  | .userPassword => !(isAlnum c || (ofString "-_.~$&+,;=").contains c)
  | .host         => !(isAlnum c || (ofString "-_.~!$&'()*+,;=:[]<>\"").contains c)
  | .fragment     => !(isAlnum c || (ofString "-_.~$&+,/:;=?@!()*").contains c)

def upperhex (n : UInt8) : UInt8 :=
  if n < 10 then 0x30 + n else 0x37 + n

def escape (mode : Encoding) (s : ByteString) : ByteString :=
  s.flatMap fun c =>
    if shouldEscape c mode then [percent, upperhex (c >>> 4), upperhex (c &&& 0xF)] else [c]

def unescape : ByteString → Option ByteString
  | []     => some []
  | c :: s =>
    if c = percent then
      match s with
      | a :: b :: s => do
        let hi ← Netip.hexVal a
        let lo ← Netip.hexVal b
        return .ofNat (16 * hi + lo) :: (← unescape s)
      | _ => none
    else do
      return c :: (← unescape s)

-- Some bytes are left as they are in a text that is escaped already.
def validEncoded (mode : Encoding) (s : ByteString) : Bool :=
  s.all fun c => (ofString "!$&'()*+,;=:@[]%").contains c || !shouldEscape c mode

-- Whether a part of a URL is printed as it was written.
def encodes (mode : Encoding) (raw s : ByteString) : Bool :=
  raw ≠ [] ∧ validEncoded mode raw ∧ unescape raw = some s

def Userinfo.string (u : Userinfo) : ByteString :=
  if u.username ≠ [] ∨ u.password.getD [] ≠ [] then
    escape .userPassword u.username ++
      u.password.elim [] fun p => ofString ":" ++ escape .userPassword p
  else []

namespace Url

def isAbs (u : Url) : Bool :=
  u.scheme ≠ []

def escapedPath (u : Url) : ByteString :=
  if encodes .path u.rawPath u.path then u.rawPath
  else if u.path = ofString "*" then u.path
  else escape .path u.path

def authority (u : Url) : ByteString :=
  if u.scheme = [] ∧ u.host = [] ∧ u.user = none then []
  else if u.omitHost ∧ u.host = [] ∧ u.user = none then []
  else
    (if u.host ≠ [] ∨ u.path ≠ [] ∨ u.user ≠ none then ofString "//" else []) ++
      u.user.elim [] (·.string ++ ofString "@") ++ escape .host u.host

-- The text up to the query.
def base (u : Url) : ByteString :=
  let scheme := if u.scheme ≠ [] then u.scheme ++ ofString ":" else []
  if u.opaqueText ≠ [] then scheme ++ u.opaqueText
  else
    let path := u.escapedPath
    let buf := scheme ++ u.authority
    let buf :=
      if path ≠ [] ∧ path.head? ≠ some slash ∧ u.host ≠ [] then buf ++ [slash] else buf
    -- A colon in the first segment of a relative path would be taken for the end of a scheme.
    let buf :=
      if buf = [] ∧ Netip.colon ∈ path.takeWhile (· ≠ slash) then buf ++ ofString "./" else buf
    buf ++ path

def query (u : Url) : ByteString :=
  if u.forceQuery ∨ u.rawQuery ≠ [] then ofString "?" ++ u.rawQuery else []

def escapedFragment (u : Url) : ByteString :=
  if encodes .fragment u.rawFragment u.fragment then u.rawFragment else escape .fragment u.fragment

def hash (u : Url) : ByteString :=
  if u.fragment ≠ [] then ofString "#" ++ u.escapedFragment else []

def string (u : Url) : ByteString :=
  u.base ++ u.query ++ u.hash

-- The text that goes into the error of a client, with the password replaced.
def stripPassword (u : Url) : ByteString :=
  match u.user with
  | some ⟨username, some password⟩ =>
    replaceFirst (Userinfo.string ⟨username, some password⟩ ++ ofString "@")
      (username ++ ofString ":***@") u.string
  | _ => u.string

end Url

def queryUnescape (s : ByteString) : Option ByteString :=
  unescape <| s.map fun c => if c = 0x2B then 0x20 else c

-- Pairs that can not be read are left out.
def parseQuery (query : ByteString) : List (ByteString × ByteString) :=
  (query.splitOn 0x26).filterMap fun pair =>
    if pair = [] ∨ 0x3B ∈ pair then
      none
    else do
      let key ← queryUnescape (pair.takeWhile (· ≠ 0x3D))
      let value ← queryUnescape ((pair.dropWhile (· ≠ 0x3D)).drop 1)
      return (key, value)

def Url.queryGet (u : Url) (key : ByteString) : ByteString :=
  (((parseQuery u.rawQuery).find? (·.1 = key)).map (·.2)).getD []

end Http
