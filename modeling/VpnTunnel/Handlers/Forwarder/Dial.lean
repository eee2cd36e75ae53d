import VpnTunnel.Lib.Netip.Basic

open Netip Net

namespace Policy

def denyCIDRs : List Prefix := [
  ⟨.v4 (ofBytes 32 [0, 0, 0, 0]), 8⟩,
  ⟨.v4 (ofBytes 32 [127, 0, 0, 0]), 8⟩,
  ⟨.v4 (ofBytes 32 [10, 0, 0, 0]), 8⟩,
  ⟨.v4 (ofBytes 32 [172, 16, 0, 0]), 12⟩,
  ⟨.v4 (ofBytes 32 [192, 168, 0, 0]), 16⟩,
  ⟨.v4 (ofBytes 32 [169, 254, 0, 0]), 16⟩,
  ⟨.v6 (ofBytes 128 [0, 0, 0, 0, 0, 0, 0, 0, 0, 0, 0, 0, 0, 0, 0, 1]) [], 128⟩,
  ⟨.v6 (ofBytes 128 [0xfc, 0, 0, 0, 0, 0, 0, 0, 0, 0, 0, 0, 0, 0, 0, 0]) [], 7⟩
]

end Policy

namespace Ipdeny

def defaultDeny : List Prefix :=
  Policy.denyCIDRs

def contains (prefixes : List Prefix) (ip : Addr) : Bool :=
  prefixes.any (·.contains ip)

end Ipdeny

namespace Handlers.Forwarder

inductive DialError (ε : Type)
  | address (err : AddrError)
  | denyList
  | lookup (err : ε)
  | noSuchHost (name : ByteString)
  deriving DecidableEq

variable {ε : Type}

-- The address that the dialer of the tunnel is called with, given what the resolver answers.
def denyAwareDial (lookupHost : ByteString → Except ε (List Addr)) (address : ByteString) :
    Except (DialError ε) ByteString :=
  match splitHostPort address with
  | .error err => .error (.address err)
  | .ok (host, port) =>
    match parseAddr host with
    | .ok ip =>
      if Ipdeny.contains Ipdeny.defaultDeny ip.unmap then .error .denyList
      else .ok address
    | .error _ =>
      match lookupHost host with
      | .error err => .error (.lookup err)
      | .ok [] => .error (.noSuchHost host)
      | .ok (first :: addrs) =>
        if (first :: addrs).any (fun addr => Ipdeny.contains Ipdeny.defaultDeny addr.unmap) then
          .error .denyList
        else .ok (joinHostPort first.string port)

end Handlers.Forwarder
