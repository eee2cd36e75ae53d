import VpnTunnel.Lib.Netip.Prefix
import VpnTunnel.Lib.Text

namespace Infrastructure.Wgconf

open ByteString

structure InterfaceSection where
  privateKey : ByteString
  addresses  : List Netip.Prefix
  dns        : List Netip.Addr
  mtu        : Int

structure PeerSection where
  publicKey                  : ByteString
  endpoint                   : ByteString
  allowedIPs                 : List Netip.Prefix
  persistentKeepaliveSeconds : Int
  presharedKey               : ByteString

structure ParsedConfig where
  interface : InterfaceSection
  peer      : PeerSection

inductive Section
  | interface
  | peer
  deriving DecidableEq, Repr

def Section.header : Section → ByteString
  | interface => .ofString "[Interface]"
  | peer      => .ofString "[Peer]"

-- The errors, without the name of the file that all their texts start with.
inductive Error
  | openFile (err : String)
  | tooLong
  | multiPeer
  | unknownSection (line : ByteString)
  | address (err : Netip.PrefixError)
  | dns (err : Netip.ParseError)
  | mtu (err : Strconv.Error)
  | allowedIPs (err : Netip.PrefixError)
  | persistentKeepalive (err : Strconv.Error)
  | missingSection (sec : Section)
  | missingKey (sec : Section) (key : String)
  deriving DecidableEq, Repr

def warnAndSkipKeys : List ByteString :=
  ["preup", "postup", "predown", "postdown", "table", "fwmark", "saveconfig", "listenport"].map .ofString

def defaultMTU : Int :=
  1420

def defaultKeepalive : Int :=
  25

def keepaliveUnset : Int :=
  -1

-- `10.64.0.1`
def defaultDNS : Netip.Addr :=
  .v4 0x0A400001

-- `0.0.0.0/0` and `::/0`
def defaultAllowedIPs : List Netip.Prefix :=
  [⟨.v4 0, 0⟩, ⟨.v6 0 [], 0⟩]

-- The fields that are collected have the same names as those of the result.
structure Parser where
  currentSection : Option Section
  peerCount      : Nat
  iface          : InterfaceSection
  peer           : PeerSection
  seenInterface  : Bool
  seenPeer       : Bool
  keepaliveSet   : Bool

def Parser.init : Parser where
  currentSection := none
  peerCount      := 0
  iface          := { privateKey := [], addresses := [], dns := [], mtu := 0 }
  peer           := {
    publicKey := [], endpoint := [], allowedIPs := [], presharedKey := []
    persistentKeepaliveSeconds := keepaliveUnset
  }
  seenInterface  := false
  seenPeer       := false
  keepaliveSet   := false

-- The elements of a list that is separated by commas, without the empty ones.
def commaSeparated (val : ByteString) : List ByteString :=
  ((val.splitOn 0x2C).map trimSpace).filter (· ≠ [])

def parseCommaSeparatedPrefixes (val : ByteString) : Except Netip.PrefixError (List Netip.Prefix) :=
  (commaSeparated val).mapM Netip.parsePrefix

def parseCommaSeparatedAddrs (val : ByteString) : Except Netip.ParseError (List Netip.Addr) :=
  (commaSeparated val).mapM Netip.parseAddr

namespace Parser

variable (p : Parser)

def handleSection (line : ByteString) : Except Error Parser :=
  if line = Section.interface.header then
    .ok { p with currentSection := some .interface, seenInterface := true }
  else if line = Section.peer.header then
    if p.peerCount + 1 > 1 then
      .error .multiPeer
    else
      .ok { p with currentSection := some .peer, peerCount := p.peerCount + 1, seenPeer := true }
  else
    .error (.unknownSection line)

def handleInterfaceKey (lower rawVal : ByteString) : Except Error Parser :=
  if lower = .ofString "privatekey" then
    .ok { p with iface := { p.iface with privateKey := rawVal } }
  else if lower = .ofString "address" then do
    let prefixes ← (parseCommaSeparatedPrefixes rawVal).mapError .address
    return { p with iface := { p.iface with addresses := p.iface.addresses ++ prefixes } }
  else if lower = .ofString "dns" then do
    let addrs ← (parseCommaSeparatedAddrs rawVal).mapError .dns
    return { p with iface := { p.iface with dns := p.iface.dns ++ addrs } }
  else if lower = .ofString "mtu" then do
    let v ← (Strconv.atoi rawVal).mapError .mtu
    return { p with iface := { p.iface with mtu := v } }
  else
    .ok p

def handlePeerKey (lower rawVal : ByteString) : Except Error Parser :=
  if lower = .ofString "publickey" then
    .ok { p with peer := { p.peer with publicKey := rawVal } }
  else if lower = .ofString "endpoint" then
    .ok { p with peer := { p.peer with endpoint := rawVal } }
  else if lower = .ofString "allowedips" then do
    let prefixes ← (parseCommaSeparatedPrefixes rawVal).mapError .allowedIPs
    return { p with peer := { p.peer with allowedIPs := p.peer.allowedIPs ++ prefixes } }
  else if lower = .ofString "persistentkeepalive" then do
    let v ← (Strconv.atoi rawVal).mapError .persistentKeepalive
    return { p with peer := { p.peer with persistentKeepaliveSeconds := v }, keepaliveSet := true }
  else if lower = .ofString "presharedkey" then
    .ok { p with peer := { p.peer with presharedKey := rawVal } }
  else
    .ok p

-- A key before any section is skipped, and so is an unknown one.
def handleKey (table : CaseTable) (rawKey rawVal : ByteString) : Except Error Parser :=
  let lower := toLower table rawKey
  if lower ∈ warnAndSkipKeys then
    .ok p
  else
    match p.currentSection with
    | some .interface => p.handleInterfaceKey lower rawVal
    | some .peer      => p.handlePeerKey lower rawVal
    | none            => .ok p

def build : Except Error ParsedConfig :=
  if ¬p.seenInterface then .error (.missingSection .interface)
  else if ¬p.seenPeer then .error (.missingSection .peer)
  else if p.iface.privateKey = [] then .error (.missingKey .interface "PrivateKey")
  else if p.iface.addresses = [] then .error (.missingKey .interface "Address")
  else if p.peer.publicKey = [] then .error (.missingKey .peer "PublicKey")
  else if p.peer.endpoint = [] then .error (.missingKey .peer "Endpoint")
  else .ok {
    interface := { p.iface with
      dns := if p.iface.dns = [] then [defaultDNS] else p.iface.dns
      mtu := if p.iface.mtu = 0 then defaultMTU else p.iface.mtu }
    peer := { p.peer with
      allowedIPs := if p.peer.allowedIPs = [] then defaultAllowedIPs else p.peer.allowedIPs
      persistentKeepaliveSeconds :=
        if p.keepaliveSet then p.peer.persistentKeepaliveSeconds else defaultKeepalive } }

end Parser

-- What is left of a line without its comment and the spaces around it.
def content (line : ByteString) : ByteString :=
  trimSpace <| ((cut 0x23 line).map (·.1)).getD line

-- A line that is neither a header nor an assignment is skipped.
def Parser.handleLine (table : CaseTable) (p : Parser) (line : ByteString) : Except Error Parser :=
  let line := content line
  if line.head? = some 0x5B then
    p.handleSection line
  else
    match cut equals line with
    | none            => .ok p
    | some (key, val) => p.handleKey table (trimSpace key) (trimSpace val)

def parse (table : CaseTable) (body : ByteString) : Except Error ParsedConfig := do
  let (lines, tooLong) := scan body
  let p ← lines.foldlM (Parser.handleLine table) .init
  if tooLong then .error .tooLong else p.build

-- `Parse`, given what reading a file returns.
def parseFile (table : CaseTable) (read : String → Except String ByteString) (path : String) :
    Except Error ParsedConfig := do
  parse table (← (read path).mapError .openFile)

end Infrastructure.Wgconf
