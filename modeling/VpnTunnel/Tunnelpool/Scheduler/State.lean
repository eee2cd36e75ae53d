import VpnTunnel.Lib.Ledger
import VpnTunnel.Lib.Queues
import VpnTunnel.Lib.Threads

namespace Tunnelpool.Scheduler

abbrev Zone :=
  String

abbrev ConfigPath :=
  String

-- A call of `Route` is identified by the number of calls that were made before it. This also
-- identifies its reply channel.
abbrev CallID :=
  Nat

-- A device is identified by the number of devices that were built before it.
abbrev Device :=
  Nat

def prefixUnknownZone : String :=
  "unknown_zone:"

def prefixZoneBringUpFailure : String :=
  "zone_bring_up_failure:"

def schedulerChanBuf : Nat :=
  256

-- The part of `SchedulerOptions` that decides the behavior of the scheduler. `NewOnDemandScheduler`
-- panics on durations that are not positive. The eligible set is a `NewFullSet`, whose keys are
-- digests of 64 characters.
structure Options where
  eligible        : Zone → Option ConfigPath
  settleDelay     : Nat
  grace           : Nat
  idleTTL         : Nat
  eligible_empty  : eligible "" = none
  settleDelay_pos : 0 < settleDelay
  grace_pos       : 0 < grace
  idleTTL_pos     : 0 < idleTTL

structure RouteRequest where
  tunnelID   : Zone
  configPath : ConfigPath
  replyCh    : CallID
  deriving DecidableEq, Repr

inductive RouteError
  | publicDetails (details : String)
  | ctxErr
  deriving DecidableEq, Repr

def unknownZone (tunnelID : Zone) : RouteError :=
  .publicDetails (prefixUnknownZone ++ " " ++ tunnelID ++ " is not in the eligible set")

def bringUpFailure (tunnelID : Zone) : RouteError :=
  .publicDetails (prefixZoneBringUpFailure ++ " " ++ tunnelID ++ " device could not be started")

-- The resolver is the device itself, if it implements `Resolver`.
inductive RouteReply
  | ok (dialer : Device) (resolver : Option Device)
  | err (e : RouteError)
  deriving DecidableEq, Repr

-- Where a caller stands. The two selects of `Route` are `sending` and `waiting`, and each of them can
-- be left by the cancellation of the caller's context.
inductive Phase
  | sending
  | waiting
  | granted (dialer : Device) (resolver : Option Device)
  | released
  | refused (e : RouteError)
  | cancelledSending
  | cancelledWaiting
  deriving DecidableEq, Repr

structure Call where
  tunnelID   : Zone
  configPath : ConfigPath
  phase      : Phase
  replyCh    : List RouteReply
  deriving DecidableEq, Repr

structure BuiltDevice where
  tunnelID   : Zone
  configPath : ConfigPath
  resolver   : Bool
  reporter   : Bool
  deriving DecidableEq, Repr

-- The state of a scheduler together with all of its callers. The timers hold the earliest moment at
-- which the channel returned by `clock.After` can deliver.
structure State where
  -- The variables of `Run`, while it is running.
  running          : Bool
  currentZone      : Zone
  currentDevice    : Option Device
  currentResolver  : Option Device
  activeJobs       : Nat
  pending          : Queues Zone RouteRequest
  pendingFIFO      : List Zone
  graceTimer       : Option Nat
  idleTimer        : Option Nat
  settling         : Bool
  settleZone       : Zone
  settleConfigPath : ConfigPath
  settleBatch      : List RouteRequest
  settleTimer      : Option Nat
  -- The fields that are guarded by `snapMu`.
  snapID           : Zone
  snapReporter     : Option Device
  -- The channels, and the calls with their reply channels.
  reqCh            : List RouteRequest
  releaseCh        : Nat
  calls            : List Call
  -- The clock, and what has happened so far: the devices in the order in which they were built, when
  -- they were built and closed, and the replies that were sent (newest first).
  now              : Nat
  built            : List BuiltDevice
  ledger           : Ledger Device
  answers          : List (CallID × RouteReply)

def State.init : State where
  running          := true
  currentZone      := ""
  currentDevice    := none
  currentResolver  := none
  activeJobs       := 0
  pending          := ∅
  pendingFIFO      := []
  graceTimer       := none
  idleTimer        := none
  settling         := false
  settleZone       := ""
  settleConfigPath := ""
  settleBatch      := []
  settleTimer      := none
  snapID           := ""
  snapReporter     := none
  reqCh            := []
  releaseCh        := 0
  calls            := []
  now              := 0
  built            := []
  ledger           := []
  answers          := []

namespace State

def setPhase (s : State) (i : CallID) (phase : Phase) : State :=
  { s with calls := s.calls.modify i ({ · with phase }) }

def reply (s : State) (i : CallID) (r : RouteReply) : State :=
  { s with
    calls   := s.calls.modify i fun c => { c with replyCh := c.replyCh ++ [r] }
    answers := (i, r) :: s.answers }

end State
end Tunnelpool.Scheduler
