import VpnTunnel.Infrastructure.Config.Basic
import VpnTunnel.Tunnelpool.New

namespace Main

open Tunnelpool
open Infrastructure (Config)

-- Besides the file system, `run` calls on the file with the key of the digests, on the single-key
-- guard, and on the context.
structure Env extends Tunnelpool.Env where
  loadOrGenerate  : ByteString → String → Except String Digest
  verifySingleKey : List String → String → Except String Unit
  cancelled       : Bool

inductive Failure
  | discover (err : Error)
  | hmacKey (err : String)
  | fullSet (err : Error)
  | streamingSet (err : Error)
  | singleKey (err : String)
  | panic (message : String)
  deriving DecidableEq, Repr

structure Managers where
  digest       : Digest
  fullSet      : EligibleSet digest.derive
  streamingSet : EligibleSet id
  supervisor   : Supervisor.Options
  scheduler    : Scheduler.Options

def supervisorOptions (cfg : Config) (streamingSet : EligibleSet id) : SupervisorOptions where
  eligible        := streamingSet
  handshakeMaxAge := defaultHandshakeMaxAge
  reconnectMin    := cfg.vpnStream.reconnectMin
  reconnectMax    := cfg.vpnStream.reconnectMax
  pollInterval    := 0
  rotateSettle    := cfg.api.vpn.demand.settleDelay
  configDir       := cfg.dir

def schedulerOptions (cfg : Config) {digest : Digest} (fullSet : EligibleSet digest.derive) :
    SchedulerOptions digest where
  eligible    := fullSet
  settleDelay := cfg.api.vpn.demand.settleDelay
  grace       := cfg.api.vpn.demand.grace
  idleTTL     := cfg.api.vpn.demand.idleTTL
  configDir   := cfg.dir

def tunnelsDir (cfg : Config) : String :=
  Filepath.join cfg.dir "tunnels"

def newManagers (cfg : Config) (digest : Digest) (fullSet : EligibleSet digest.derive)
    (streamingSet : EligibleSet id) : Except Failure Managers := do
  let supervisor ← (newStreamingSupervisor (supervisorOptions cfg streamingSet)).mapError .panic
  let scheduler ← (newOnDemandScheduler (schedulerOptions cfg fullSet)).mapError .panic
  return { digest, fullSet, streamingSet, supervisor, scheduler }

-- The part of `run` that builds the tunnel managers. There is nothing to build if the process was told
-- to stop while it was starting.
def run (env : Env) (cfg : Config) : Except Failure (Option Managers) := do
  let discovered ← (discoverConfigs env.toEnv (tunnelsDir cfg)).mapError .discover
  let digest ← (env.loadOrGenerate cfg.tunnelIDHMACKeyFile cfg.dir).mapError .hmacKey
  let fullSet ← (newFullSet env.toEnv discovered cfg.dir digest.derive).mapError .fullSet
  let streamingSet ←
    (newEligibleSet env.toEnv discovered cfg.dir cfg.vpnStream.allowedCountries).mapError .streamingSet
  (env.verifySingleKey discovered cfg.dir).mapError .singleKey
  if env.cancelled then return none else return some (← newManagers cfg digest fullSet streamingSet)

end Main
