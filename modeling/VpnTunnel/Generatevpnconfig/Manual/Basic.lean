import VpnTunnel.Generatevpnconfig.Prompt

namespace Generatevpnconfig

open ByteString
open Net Netip
open Wgtypes (parseKey)

def normalizeAddress (addr : ByteString) : Except Invalid ByteString :=
  if slash ∈ addr then
    .ok addr
  else do
    let parsed ← (parseAddr addr).mapError .address
    return addr ++ .ofString (if parsed.is4 then "/32" else "/128")

def validateAddress (addr : ByteString) : Except Invalid Unit := do
  let p ← (parsePrefix addr).mapError .cidr
  if p.bits ≠ p.ip.bitLen then .error (.notSingleHost p.bits p.ip.bitLen) else return ()

def validatePeerPublicKey (key : ByteString) : Except Invalid Unit :=
  if (parseKey key).isSome then .ok () else .error .key

def validateEndpoint (ep : ByteString) : Except Invalid Unit := do
  let (host, portStr) ← (splitHostPort ep).mapError .endpoint
  if host = [] then .error .emptyHost
  else
    let port ← (Strconv.atoi portStr).mapError (.portNotNumeric portStr)
    if port < 1 ∨ port > 65535 then .error (.portOutOfRange port) else return ()

def validateDNS (dns : ByteString) : Except Invalid Unit := do
  let _ ← (parseAddr dns).mapError .dns

-- The number of the elements that are not blank, if all of these are prefixes.
def countCIDRs : List ByteString → Except Invalid Nat
  | []      => .ok 0
  | p :: ps =>
    let p := trimSpace p
    if p = [] then
      countCIDRs ps
    else do
      let _ ← (parsePrefix p).mapError (.listedCIDR p)
      return (← countCIDRs ps) + 1

def validateAllowedIPs (val : ByteString) : Except Invalid Unit := do
  let valid ← countCIDRs (val.splitOn 0x2C)
  if valid = 0 then .error .noCIDR else return ()

-- The values that go into the file, besides the key.
structure Answers where
  address       : ByteString
  peerPublicKey : ByteString
  endpoint      : ByteString
  dns           : ByteString
  allowedIPs    : ByteString

def confLine (key : String) (val : ByteString) : ByteString :=
  .ofString key ++ .ofString " = " ++ val

def confLines (privateKey : ByteString) (a : Answers) : List ByteString := [
  .ofString "[Interface]",
  confLine "PrivateKey" privateKey,
  confLine "Address" a.address,
  confLine "DNS" a.dns,
  [],
  .ofString "[Peer]",
  confLine "PublicKey" a.peerPublicKey,
  confLine "AllowedIPs" a.allowedIPs,
  confLine "Endpoint" a.endpoint
]

-- Each line ends in a newline.
def buildConfBody (privateKey : ByteString) (a : Answers) : ByteString :=
  unlines (confLines privateKey a ++ [[]])

def readAddress (raw : ByteString) : Except Invalid ByteString := do
  if raw = [] then .error (.required "Address") else
    let normalized ← normalizeAddress raw
    validateAddress normalized
    return normalized

def promptAddress : Prompt ByteString :=
  ask readAddress (.error (.unexpectedEOF "Address"))

-- The questions of the manual mode after the one for the name.
def promptAnswers : Prompt Answers := do
  let address ← promptAddress
  let peerPublicKey ← promptRequired "Peer PublicKey (base64)" validatePeerPublicKey
  let endpoint ← promptRequired "Endpoint (host:port or [v6]:port)" validateEndpoint
  let dns ← promptOptional (.ofString "10.64.0.1") validateDNS
  let allowedIPs ← promptOptional (.ofString "0.0.0.0/0, ::/0") validateAllowedIPs
  return { address, peerPublicKey, endpoint, dns, allowedIPs }

end Generatevpnconfig
