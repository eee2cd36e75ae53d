import VpnTunnel.Lib.System
import VpnTunnel.Tunnelpool.Scheduler.State

namespace Tunnelpool.Scheduler

-- The closures of `Run`. Each of them takes the state that it is called in as its last argument. The
-- arguments `took` and `closeTook` are the time that calls to the device builder and to `Close` take.

def grant (req : RouteRequest) (d : Device) (res : Option Device) (s : State) : State :=
  { s with activeJobs := s.activeJobs + 1 }.reply req.replyCh (.ok d res)

def grantAll (reqs : List RouteRequest) (d : Device) (res : Option Device) (s : State) : State :=
  reqs.foldl (fun s req => grant req d res s) s

def failAll (reqs : List RouteRequest) (err : RouteError) (s : State) : State :=
  reqs.foldl (fun s req => s.reply req.replyCh (.err err)) s

def enqueuePending (req : RouteRequest) (s : State) : State :=
  { s with
    pendingFIFO :=
      if req.tunnelID ∈ s.pending then s.pendingFIFO else s.pendingFIFO ++ [req.tunnelID]
    pending     := s.pending.insert req.tunnelID (s.pending.queued req.tunnelID ++ [req]) }

def teardown (closeTook : Nat) (s : State) : State :=
  match s.currentDevice with
  | none   => s
  | some d =>
    { s with
      currentDevice   := none
      currentZone     := ""
      currentResolver := none
      snapID          := ""
      snapReporter    := none
      now             := s.now + closeTook
      ledger          := (s.now + closeTook, .closed d) :: s.ledger }

-- The two-pointer pass keeps the order of the zones that still have requests.
def compactFIFO (s : State) : State :=
  { s with pendingFIFO := s.pendingFIFO.filter fun z => 0 < (s.pending.queued z).length }

def removeFIFO (ss : List Zone) (v : Zone) : List Zone :=
  ss.erase v

-- The zone is `""` when no eligible zone is found.
def pickNextZone (excludeZone : Zone) (s : State) : (Zone × List RouteRequest) × State :=
  let s := compactFIFO s
  match s.pendingFIFO.find? (fun z => z ≠ excludeZone ∧ 0 < (s.pending.queued z).length) with
  | none   => (("", []), s)
  | some z =>
    ((z, s.pending.queued z), { s with pending := s.pending.erase z, pendingFIFO := s.pendingFIFO.erase z })

def hasCrossZonePending (s : State) : Bool :=
  s.pending.entries.any fun ⟨z, reqs⟩ => z ≠ s.currentZone ∧ 0 < reqs.length

def beginSwitch (o : Options) (tunnelID : Zone) (configPath : ConfigPath)
    (batch : List RouteRequest) (closeTook : Nat) (s : State) : State :=
  let s := teardown closeTook s
  { s with
    settling         := true
    settleZone       := tunnelID
    settleConfigPath := configPath
    settleBatch      := batch
    graceTimer       := none
    idleTimer        := none
    settleTimer      := some (s.now + o.settleDelay) }

def startNextIfPending (o : Options) (closeTook : Nat) (s : State) : State :=
  match pickNextZone "" s with
  | ((tunnelID, reqs), s) =>
    if tunnelID = "" then
      s
    else
      beginSwitch o tunnelID (o.eligible tunnelID |>.getD "") reqs closeTook s

-- The outcome of the device builder. A device may implement `Resolver` and `HealthReporter`.
inductive BuildResult
  | ok (resolver reporter : Bool)
  | err
  deriving DecidableEq, Repr

-- The builder is invoked at the current time and returns `took` later.
def finishSwitch (o : Options) (res : BuildResult) (took closeTook : Nat) (s : State) : State :=
  let tunnelID   := s.settleZone
  let configPath := s.settleConfigPath
  let batch      := s.settleBatch
  let s := { s with
    settling         := false
    settleTimer      := none
    settleZone       := ""
    settleConfigPath := ""
    settleBatch      := [] }
  match res with
  | .err =>
    startNextIfPending o closeTook
      (failAll batch (bringUpFailure tunnelID) { s with now := s.now + took })
  | .ok resolver reporter =>
    let d   := s.built.length
    let res := if resolver then some d else none
    grantAll batch d res { s with
      currentZone     := tunnelID
      currentDevice   := some d
      currentResolver := res
      snapID          := tunnelID
      snapReporter    := if reporter then some d else none
      now             := s.now + took
      built           := s.built ++ [⟨tunnelID, configPath, resolver, reporter⟩]
      ledger          := (s.now, .opened d) :: s.ledger }

-- The branches of the select in `Run`. A branch only touches the variables of `Run`, and only sends to
-- reply channels, which never blocks. So a whole branch is a single step in the interleaving with the
-- callers.

def onDone (closeTook : Nat) (s : State) : State :=
  let s := if s.settling then { failAll s.settleBatch .ctxErr s with settleBatch := [] } else s
  let s := s.pending.entries.foldl (fun s e => failAll e.2 .ctxErr s) s
  { teardown closeTook { s with pending := ∅ } with running := false }

def onRequest (o : Options) (req : RouteRequest) (closeTook : Nat) (s : State) : State :=
  if s.settling then
    if req.tunnelID = s.settleZone then
      { s with settleBatch := s.settleBatch ++ [req] }
    else
      enqueuePending req s
  else
    match s.currentDevice with
    | some d =>
      if s.currentZone = req.tunnelID then
        { grant req d s.currentResolver s with graceTimer := none, idleTimer := none }
      else
        let s := enqueuePending req s
        if s.activeJobs = 0 ∧ s.graceTimer = none then
          { s with graceTimer := some (s.now + o.grace), idleTimer := none }
        else
          s
    | none =>
      beginSwitch o req.tunnelID req.configPath (req :: s.pending.queued req.tunnelID) closeTook
        { s with
          pending     := s.pending.erase req.tunnelID
          pendingFIFO := removeFIFO s.pendingFIFO req.tunnelID }

def onRelease (o : Options) (s : State) : State :=
  let s := if 0 < s.activeJobs then { s with activeJobs := s.activeJobs - 1 } else s
  if 0 < s.activeJobs ∨ s.settling then
    s
  else if hasCrossZonePending s then
    { s with graceTimer := some (s.now + o.grace), idleTimer := none }
  else if s.currentDevice.isSome then
    { s with idleTimer := some (s.now + o.idleTTL), graceTimer := none }
  else
    s

def onGrace (o : Options) (closeTook : Nat) (s : State) : State :=
  match pickNextZone s.currentZone { s with graceTimer := none } with
  | ((tunnelID, reqs), s) =>
    if tunnelID = "" then
      if s.currentDevice.isSome then { s with idleTimer := some (s.now + o.idleTTL) } else s
    else
      beginSwitch o tunnelID (o.eligible tunnelID |>.getD "") reqs closeTook s

def onIdle (closeTook : Nat) (s : State) : State :=
  let s := { s with idleTimer := none }
  if s.currentDevice.isSome ∧ s.activeJobs = 0 then teardown closeTook s else s

-- What the callers and the environment do, and the branches of the select in `Run`.
inductive Event
  | tick (d : Nat)
  | route (tunnelID : Zone)
  | send (i : CallID)
  | cancel (i : CallID)
  | receive (i : CallID)
  | release (i : CallID)
  | releaseDone (i : CallID)
  | loopDone (closeTook : Nat)
  | loopRequest (closeTook : Nat)
  | loopSettle (res : BuildResult) (took closeTook : Nat)
  | loopRelease
  | loopGrace (closeTook : Nat)
  | loopIdle (closeTook : Nat)
  deriving DecidableEq, Repr

-- The lookup at the start of `Route`.
def route (o : Options) (tunnelID : Zone) (s : State) : State :=
  match o.eligible tunnelID with
  | none =>
    { s with calls := s.calls ++ [⟨tunnelID, "", .refused (unknownZone tunnelID), []⟩] }
  | some configPath =>
    { s with calls := s.calls ++ [⟨tunnelID, configPath, .sending, []⟩] }

def Call.request (c : Call) (i : CallID) : RouteRequest where
  tunnelID   := c.tunnelID
  configPath := c.configPath
  replyCh    := i

def RouteReply.phase : RouteReply → Phase
  | ok dialer resolver => .granted dialer resolver
  | err e              => .refused e

-- A timer has fired, if its channel can deliver.
def Fired (timer : Option Nat) (now : Nat) : Prop :=
  ∃ t ∈ timer, t ≤ now

instance : Decidable (Fired timer now) :=
  match timer with
  | none   => .isFalse (by simp [Fired])
  | some t => decidable_of_iff (t ≤ now) (by simp [Fired])

theorem Fired.isSome (h : Fired timer now) : timer.isSome :=
  Option.isSome_iff_exists.mpr <| h.imp fun _ => And.left

-- A step of the caller `i`.
def stepCall (s : State) (i : CallID) (c : Call) : Event → Option State
  | .send _ =>
    if c.phase = .sending ∧ s.reqCh.length < schedulerChanBuf then
      some <| { s with reqCh := s.reqCh ++ [c.request i] }.setPhase i .waiting
    else
      none
  | .cancel _ =>
    match c.phase with
    | .sending => some <| s.setPhase i .cancelledSending
    | .waiting => some <| s.setPhase i .cancelledWaiting
    | _        => none
  | .receive _ =>
    match c.phase, c.replyCh with
    | .waiting, r :: rs =>
      some { s with calls := s.calls.modify i ({ · with phase := r.phase, replyCh := rs }) }
    | _, _ => none
  | .release _ =>
    match c.phase with
    | .granted .. =>
      if s.releaseCh < schedulerChanBuf then
        some <| { s with releaseCh := s.releaseCh + 1 }.setPhase i .released
      else
        none
    | _ => none
  | .releaseDone _ =>
    match c.phase with
    | .granted .. => if s.running then none else some <| s.setPhase i .released
    | _           => none
  | _ => none

-- A step of `Run`, which waits in its select.
def stepLoop (o : Options) (s : State) : Event → Option State
  | .loopDone closeTook => some <| onDone closeTook s
  | .loopRequest closeTook =>
    match s.reqCh with
    | []           => none
    | req :: reqCh => some <| onRequest o req closeTook { s with reqCh }
  | .loopSettle res took closeTook =>
    if Fired s.settleTimer s.now then some <| finishSwitch o res took closeTook s else none
  | .loopRelease =>
    if 0 < s.releaseCh then
      some <| onRelease o { s with releaseCh := s.releaseCh - 1 }
    else
      none
  | .loopGrace closeTook =>
    if Fired s.graceTimer s.now then some <| onGrace o closeTook s else none
  | .loopIdle closeTook =>
    if Fired s.idleTimer s.now then some <| onIdle closeTook s else none
  | _ => none

def step (o : Options) (s : State) (e : Event) : Option State :=
  match e with
  | .tick d         => some { s with now := s.now + d }
  | .route tunnelID => some <| route o tunnelID s
  | .send i | .cancel i | .receive i | .release i | .releaseDone i =>
    s.calls[i]?.bind (stepCall s i · e)
  | _ => if s.running then stepLoop o s e else none

def system (o : Options) : System State Event where
  init := .init
  step := step o

-- A small instance, for runs on concrete inputs.
def Options.twoZones : Options where
  eligible        := fun z => if z = "a" then some "a.conf" else if z = "b" then some "b.conf" else none
  settleDelay     := 5
  grace           := 10
  idleTTL         := 60
  eligible_empty  := rfl
  settleDelay_pos := by decide
  grace_pos       := by decide
  idleTTL_pos     := by decide

end Tunnelpool.Scheduler
