import VpnTunnel.Lib.Ledger
import VpnTunnel.Lib.Threads

namespace Tunnelpool.Supervisor

abbrev ConfigPath :=
  String

abbrev TunnelID :=
  String

abbrev Country :=
  String

-- A device is identified by the number of devices that were built before it.
abbrev Device :=
  Nat

abbrev Duration :=
  Int64

-- `clock.After` fires at once for a duration that is not positive.
def Duration.toNat (d : Duration) : Nat :=
  d.toNatClampNeg

-- `Sub` saturates at the bounds of a duration.
def sub (t u : Int) : Duration :=
  .ofInt <| max (-2 ^ 63) <| min (2 ^ 63 - 1) (t - u)

def base (path : List Char) : List Char :=
  if path = [] then
    ['.']
  else
    match path.reverse.dropWhile (· = '/') with
    | []   => ['/']
    | rest => (rest.takeWhile (· ≠ '/')).reverse

def trimConf (name : List Char) : List Char :=
  if ".conf".toList <:+ name then name.take (name.length - 5) else name

def tunnelIDFromPath (path : ConfigPath) : TunnelID :=
  .ofList <| trimConf <| base path.toList

def parseCountry (s : List Char) : Option Country :=
  match s with
  | [a, b] => if a.isAlpha ∧ b.isAlpha then some <| .ofList [a.toLower, b.toLower] else none
  | _      => none

def countryFromBasename (basename : TunnelID) : Country :=
  match basename.toList.splitOn '-' with
  | []            => ""
  | [part]        => (parseCountry part).getD ""
  | p₁ :: p₂ :: _ => (parseCountry p₁ <|> parseCountry p₂).getD ""

-- The part of `SupervisorOptions` that decides the behavior of the supervisor. The constructor panics
-- unless the bounds hold, and `NewEligibleSet` does not return an empty set.
structure Options where
  eligible            : List ConfigPath
  handshakeMaxAge     : Duration
  reconnectMin        : Duration
  reconnectMax        : Duration
  pollInterval        : Duration
  rotateSettle        : Duration
  eligible_ne_nil     : eligible ≠ []
  handshakeMaxAge_pos : 0 < handshakeMaxAge
  reconnectMin_pos    : 0 < reconnectMin
  reconnectMin_le     : reconnectMin ≤ reconnectMax
  rotateSettle_pos    : 0 < rotateSettle

-- The interval that `NewStreamingSupervisor` settles on.
def Options.poll (o : Options) : Duration :=
  if o.pollInterval ≤ 0 then
    let third := o.handshakeMaxAge / 3
    if third < 10000000000 then 10000000000 else third
  else
    o.pollInterval

inductive RotateOutcome
  | rotated
  | skippedActive
  | unavailable
  deriving DecidableEq, Repr

structure RotateResult where
  outcome : RotateOutcome
  country : Country
  deriving DecidableEq, Repr

namespace RotateResult

def zero : RotateResult :=
  ⟨.rotated, ""⟩

def skippedActive : RotateResult :=
  ⟨.skippedActive, ""⟩

def unavailable : RotateResult :=
  ⟨.unavailable, ""⟩

end RotateResult

-- A call of `RotateIfIdle` is identified by the number of calls that were made before it. This also
-- identifies its reply channel.
structure RotateReq where
  force : Bool
  reply : Nat
  deriving DecidableEq, Repr

-- The two selects of `RotateIfIdle` are `sending` and `waiting`.
inductive RotatePhase
  | sending
  | waiting
  | returned (result : RotateResult) (ctxErr : Bool)
  deriving DecidableEq, Repr

structure RotateCall where
  force : Bool
  phase : RotatePhase
  reply : Option RotateResult
  deriving DecidableEq, Repr

inductive StopPhase
  | once
  | load
  | join
  | returned
  deriving DecidableEq, Repr

structure StopCall where
  afterStart : Bool
  phase      : StopPhase
  deriving DecidableEq, Repr

-- The fields that are guarded by `mu`, while they are not nil. The reporter is the device itself, if
-- it implements `HealthReporter`.
structure Live where
  device   : Device
  deviceID : TunnelID
  reporter : Bool
  deriving DecidableEq, Repr

-- The places that a device is built at.
inductive Build
  | start
  | reconnect
  | rotate (req : RotateReq)
  deriving DecidableEq, Repr

-- The places that a device is closed at: in `teardown`, after which `loop` returns or goes on, and in
-- `handleRotate`.
inductive Close
  | teardown (exit : Bool)
  | rotate (req : RotateReq)
  deriving DecidableEq, Repr

-- Where `Start`, and then the goroutine that it launches, stands. In `recheck` and `unpublish` it
-- holds the write lock of `mu`, and it takes the lock for the time of a step in `swap` and `teardown`.
inductive Pc
  | init
  | build (site : Build)
  | swap (live : Live) (site : Build)
  | launch
  | head
  | backoff
  | poll (rep : Bool)
  | health (rep : Bool)
  | teardown (exit : Bool)
  | close (d : Device) (site : Close)
  | closing (d : Device) (site : Close)
  | precheck (req : RotateReq)
  | lock (req : RotateReq)
  | recheck (req : RotateReq)
  | unpublish (req : RotateReq)
  | settle (req : RotateReq)
  | exited
  deriving DecidableEq, Repr

-- The supervisor together with its callers. The timer of the select that the loop is in delivers from
-- the deadline on.
structure State where
  pc         : Pc
  device     : Option Live
  backoff    : Duration
  deadline   : Nat
  started    : Bool
  stopCh     : Bool
  ctxDone    : Bool
  rotates    : List RotateCall
  stops      : List StopCall
  -- The clock, and what has happened so far: the number of devices that were built, when they were
  -- built and when their `Close` returned, and the calls of `Close`, both newest first.
  now        : Nat
  built      : Nat
  ledger     : Ledger Device
  closeCalls : List Device
  deriving DecidableEq, Repr

def State.init : State where
  pc         := .init
  device     := none
  backoff    := 0
  deadline   := 0
  started    := false
  stopCh     := false
  ctxDone    := false
  rotates    := []
  stops      := []
  now        := 0
  built      := 0
  ledger     := []
  closeCalls := []

end Tunnelpool.Supervisor
