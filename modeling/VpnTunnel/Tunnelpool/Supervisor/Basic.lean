import VpnTunnel.Lib.System
import VpnTunnel.Tunnelpool.Supervisor.State

namespace Tunnelpool.Supervisor

def growBackoff (d max : Duration) : Duration :=
  if d ≤ 0 then
    max
  else
    let doubled := d * 2
    if doubled > max ∨ doubled ≤ 0 then max else doubled

-- What `LastHandshake` returns: an error, the zero time, or a time that is not zero.
inductive Handshake
  | err
  | zero
  | time (t : Int)
  deriving DecidableEq, Repr

def isHealthy (o : Options) (now : Nat) (rep : Option Handshake) : Bool × String :=
  match rep with
  | none            => (true, "")
  | some .err       => (false, "health_query_error")
  | some .zero      => (false, "no_handshake")
  | some (.time hs) => if sub now hs > o.handshakeMaxAge then (false, "stale_handshake") else (true, "")

def Pc.locked : Pc → Bool
  | recheck _ | unpublish _ => true
  | _                       => false

namespace State

-- The reply channels have room for the one reply that is sent.
def reply (s : State) (req : RotateReq) (result : RotateResult) : State :=
  { s with rotates := s.rotates.modify req.reply ({ · with reply := some result }) }

def setRotate (s : State) (i : Nat) (phase : RotatePhase) : State :=
  { s with rotates := s.rotates.modify i ({ · with phase }) }

def setStop (s : State) (i : Nat) (phase : StopPhase) : State :=
  { s with stops := s.stops.modify i ({ · with phase }) }

def live (s : State) (configPath : ConfigPath) (reporter : Bool) : Live where
  device   := s.built
  deviceID := tunnelIDFromPath configPath
  reporter := reporter

def buildOk (s : State) (site : Build) (configPath : ConfigPath) (reporter : Bool) : State :=
  { s with
    pc     := .swap (s.live configPath reporter) site
    built  := s.built + 1
    ledger := (s.now, .opened s.built) :: s.ledger }

def buildErr (o : Options) (s : State) : Build → State
  | .start      => { s with pc := .launch }
  | .reconnect  => { s with pc := .head, backoff := growBackoff s.backoff o.reconnectMax }
  | .rotate req => { s.reply req .unavailable with pc := .head }

def swapDevice (s : State) (live : Live) : Build → State
  | .start     => { s with device := live, pc := .launch }
  | .reconnect => { s with device := live, pc := .head }
  | .rotate req =>
    { s.reply req ⟨.rotated, countryFromBasename live.deviceID⟩ with device := live, pc := .head }

-- Where `loop` goes on after `teardown`.
def tornDown (s : State) (exit : Bool) : State :=
  { s with pc := if exit then .exited else .head }

def teardown (s : State) (exit : Bool) : State :=
  match s.device with
  | none      => s.tornDown exit
  | some live => { s with device := none, pc := .close live.device (.teardown exit) }

def close (s : State) (d : Device) (site : Close) : State :=
  { s with pc := .closing d site, closeCalls := d :: s.closeCalls }

def closed (o : Options) (s : State) (d : Device) (site : Close) : State :=
  let s := { s with ledger := (s.now, .closed d) :: s.ledger }
  match site with
  | .teardown exit => s.tornDown exit
  | .rotate req    => { s with pc := .settle req, deadline := s.now + o.rotateSettle.toNat }

-- The loop reads the device and enters the select that belongs to it.
def enter (o : Options) (s : State) : State :=
  match s.device with
  | none      => { s with pc := .backoff, deadline := s.now + s.backoff.toNat }
  | some live => { s with pc := .poll live.reporter, deadline := s.now + o.poll.toNat }

def checkHealth (o : Options) (s : State) (rep : Bool) (hs : Handshake) : State :=
  if (isHealthy o s.now (if rep then some hs else none)).1 then
    { s with pc := .head, backoff := o.reconnectMin }
  else
    { s with pc := .teardown false }

-- The function `busy` is not called for a forced rotation, and its value is not used then.
def gate (s : State) (req : RotateReq) (busy : Bool) (next : Pc) : State :=
  if !req.force && busy then
    { s.reply req .skippedActive with pc := .head }
  else
    { s with pc := next }

def unpublish (s : State) (req : RotateReq) : State :=
  match s.device with
  | none      => { s.reply req .unavailable with pc := .head }
  | some live => { s with device := none, pc := .close live.device (.rotate req) }

-- The read of the pointer in `DialContext`, which the write lock keeps out. The dial then goes through
-- the device that was read.
def dialContext (s : State) : Option (Except String Device) :=
  if s.pc.locked then
    none
  else
    match s.device with
    | none      => some <| .error "Streaming tunnel temporarily unavailable; reconnecting."
    | some live => some <| .ok live.device

def rotateIfIdle (s : State) (force : Bool) : State :=
  let phase := if s.started then .sending else .returned .unavailable false
  { s with rotates := s.rotates ++ [⟨force, phase, none⟩] }

end State

-- The cases of the selects of the loop are `ctxDone`, `stopCh`, `rotateCh` and `timer`.
inductive Event
  | tick (dt : Nat)
  | cancel
  | start
  | built (i : Nat) (res : Option Bool)
  | swap
  | launch
  | head
  | ctxDone
  | stopCh
  | rotateCh (i : Nat)
  | timer
  | handshake (hs : Handshake)
  | teardown
  | close
  | closed
  | busy (b : Bool)
  | lock
  | unpublish
  | rotate (force : Bool)
  | rotateCancel (i : Nat)
  | rotateLoopDone (i : Nat)
  | rotateReturn (i : Nat)
  | stop
  | stopOnce (i : Nat)
  | stopLoad (i : Nat)
  | stopJoin (i : Nat)
  deriving DecidableEq, Repr

-- What `Start` and the loop do next.
def stepLoop (o : Options) (s : State) : Event → Option State
  | .start =>
    match s.pc with
    | .init => some { s with pc := .build .start }
    | _     => none
  | .built i res =>
    match s.pc with
    | .build site => o.eligible[i]?.map fun configPath =>
      match res with
      | none          => s.buildErr o site
      | some reporter => s.buildOk site configPath reporter
    | _ => none
  | .swap =>
    match s.pc with
    | .swap live site => some <| s.swapDevice live site
    | _               => none
  | .launch =>
    match s.pc with
    | .launch => some { s with pc := .head, started := true, backoff := o.reconnectMin }
    | _       => none
  | .head =>
    match s.pc with
    | .head => some <| s.enter o
    | _     => none
  | .ctxDone =>
    if s.ctxDone then
      match s.pc with
      | .backoff | .poll _ => some { s with pc := .teardown true }
      | .settle req        => some { s.reply req .unavailable with pc := .head }
      | _                  => none
    else
      none
  | .stopCh =>
    if s.stopCh then
      match s.pc with
      | .backoff | .poll _ => some { s with pc := .teardown true }
      | _                  => none
    else
      none
  | .rotateCh i => s.rotates[i]?.bind fun c =>
    match c.phase, s.pc with
    | .sending, .backoff | .sending, .poll _ =>
      some { s.setRotate i .waiting with pc := .precheck ⟨c.force, i⟩ }
    | _, _ => none
  | .timer =>
    if s.deadline ≤ s.now then
      match s.pc with
      | .backoff    => some { s with pc := .build .reconnect }
      | .poll rep   => some { s with pc := .health rep }
      | .settle req => some { s with pc := .build (.rotate req) }
      | _           => none
    else
      none
  | .handshake hs =>
    match s.pc with
    | .health rep => some <| s.checkHealth o rep hs
    | _           => none
  | .teardown =>
    match s.pc with
    | .teardown exit => some <| s.teardown exit
    | _              => none
  | .close =>
    match s.pc with
    | .close d site => some <| s.close d site
    | _             => none
  | .closed =>
    match s.pc with
    | .closing d site => some <| s.closed o d site
    | _               => none
  | .busy b =>
    match s.pc with
    | .precheck req => some <| s.gate req b (.lock req)
    | .recheck req  => some <| s.gate req b (.unpublish req)
    | _             => none
  | .lock =>
    match s.pc with
    | .lock req => some { s with pc := .recheck req }
    | _         => none
  | .unpublish =>
    match s.pc with
    | .unpublish req => some <| s.unpublish req
    | _              => none
  | _ => none

-- What a call of `RotateIfIdle` does next, besides the rendezvous with the loop.
def stepRotate (s : State) (i : Nat) (c : RotateCall) : Event → Option State
  | .rotateCancel _ =>
    match c.phase with
    | .sending | .waiting => some <| s.setRotate i (.returned .zero true)
    | _                   => none
  | .rotateLoopDone _ =>
    if c.phase = .sending ∧ s.pc = .exited then
      some <| s.setRotate i (.returned .unavailable false)
    else
      none
  | .rotateReturn _ =>
    match c.phase, c.reply with
    | .waiting, some result => some <| s.setRotate i (.returned result false)
    | _, _                  => none
  | _ => none

def stepStop (s : State) (i : Nat) (c : StopCall) : Event → Option State
  | .stopOnce _ => if c.phase = .once then some { s.setStop i .load with stopCh := true } else none
  | .stopLoad _ =>
    if c.phase = .load then
      some <| s.setStop i (if s.started then .join else .returned)
    else
      none
  | .stopJoin _ =>
    if c.phase = .join ∧ s.pc = .exited then some <| s.setStop i .returned else none
  | _ => none

def step (o : Options) (s : State) (e : Event) : Option State :=
  match e with
  | .tick dt       => some { s with now := s.now + dt }
  | .cancel        => some { s with ctxDone := true }
  | .rotate force  => some <| s.rotateIfIdle force
  | .stop          => some { s with stops := s.stops ++ [⟨s.started, .once⟩] }
  | .rotateCancel i | .rotateLoopDone i | .rotateReturn i =>
    s.rotates[i]?.bind fun c => stepRotate s i c e
  | .stopOnce i | .stopLoad i | .stopJoin i => s.stops[i]?.bind fun c => stepStop s i c e
  | _ => stepLoop o s e

def system (o : Options) : System State Event where
  init := .init
  step := step o

def Options.twoExits : Options where
  eligible            := ["/etc/tunnels/se-sto-wg-001.conf", "/etc/tunnels/mullvad-de-fra-wg-004.conf"]
  handshakeMaxAge     := 180000000000
  reconnectMin        := 1000000000
  reconnectMax        := 60000000000
  pollInterval        := 0
  rotateSettle        := 15000000000
  eligible_ne_nil     := by simp
  handshakeMaxAge_pos := by decide
  reconnectMin_pos    := by decide
  reconnectMin_le     := by decide
  rotateSettle_pos    := by decide

end Tunnelpool.Supervisor
