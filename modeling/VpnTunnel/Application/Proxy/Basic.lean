import VpnTunnel.Tunnelpool.Supervisor.Basic

namespace Application.Proxy

open Tunnelpool

abbrev Device :=
  Supervisor.Device

-- What a connection of the transport is pooled by: the scheme, host and port of the request.
abbrev Target :=
  String

inductive Handler
  | http
  | connect
  deriving DecidableEq, Repr

-- The codes that a handler answers with before it counts the session: the client is not
-- authenticated, the target is not of the expected form, or the outbound request cannot be built.
def Handler.rejections : Handler → List Nat
  | http    => [407, 400, 500]
  | connect => [407, 400]

-- Where a session stands. In `tunnel` it has been handed off to its goroutine, and in `ending` all
-- that is left is to decrement the gauge. The phases of `HandleHTTP` name a connection of the
-- transport, that it waits for while the transport dials or that its exchange goes over.
inductive Phase
  | begun
  | counted
  | dialing (d : Device)
  | connected (d : Device)
  | hijacked (d : Device)
  | written (d : Device)
  | tunnel (d : Device)
  | waiting (c : Nat)
  | exchange (c : Nat)
  | ending (code : Nat)
  | done (code : Nat)
  deriving DecidableEq, Repr

def Phase.inFlight : Phase → Bool
  | begun | done _ => false
  | _              => true

structure Session where
  handler : Handler
  target  : Target
  phase   : Phase
  deriving DecidableEq, Repr

-- A connection of the transport, starting with the goroutine that dials it.
inductive ConnPhase
  | queued
  | dialing (d : Device)
  | idle (d : Device)
  | used (d : Device)
  | dead
  deriving DecidableEq, Repr

def ConnPhase.device? : ConnPhase → Option Device
  | queued | dead              => none
  | dialing d | idle d | used d => d

def ConnPhase.isIdle : ConnPhase → Bool
  | idle _ => true
  | _      => false

def ConnPhase.release (keep : Bool) : ConnPhase → ConnPhase
  | used d => if keep then idle d else dead
  | ph     => ph

structure Conn where
  target : Target
  phase  : ConnPhase
  deriving DecidableEq, Repr

-- The proxy service, whose dialer is the supervisor.
structure State where
  supervisor     : Supervisor.State
  activeSessions : Int
  sessions       : List Session
  conns          : List Conn
  deriving DecidableEq, Repr

namespace State

def init : State where
  supervisor     := .init
  activeSessions := 0
  sessions       := []
  conns          := []

def setPhase (s : State) (i : Nat) (phase : Phase) : State :=
  { s with sessions := s.sessions.modify i ({ · with phase }) }

def setConn (s : State) (c : Nat) (phase : ConnPhase) : State :=
  { s with conns := s.conns.modify c ({ · with phase }) }

def add (s : State) (n : Int) : State :=
  { s with activeSessions := s.activeSessions + n }

def startDial (s : State) (target : Target) : State :=
  { s with conns := s.conns ++ [⟨target, .queued⟩] }

-- The connection of an exchange that has ended is pooled or closed.
def release (s : State) (c : Nat) (keep : Bool) : State :=
  { s with conns := s.conns.modify c fun x => { x with phase := x.phase.release keep } }

-- The device that a session in the given phase has a connection over, or dials one.
def via (s : State) : Phase → Option Device
  | .dialing d | .connected d | .hijacked d | .written d | .tunnel d => d
  | .waiting c | .exchange c => s.conns[c]?.bind (·.phase.device?)
  | _ => none

-- The session that is still waiting for the connection to be dialed.
def waiter (s : State) (c : Nat) : Option Nat :=
  s.sessions.findIdx? (·.phase = .waiting c)

def connErr (s : State) (c : Nat) : State :=
  let s' := s.setConn c .dead
  (s.waiter c).elim s' (s'.setPhase · (.ending 502))

def deliver (s : State) (c : Nat) (d : Device) : State :=
  (s.waiter c).elim (s.setConn c (.idle d)) ((s.setConn c (.used d)).setPhase · (.exchange c))

end State

inductive Hijack
  | noHijacker
  | err
  | ok
  deriving DecidableEq, Repr

inductive Event
  | supervisor (e : Supervisor.Event)
  | handle (handler : Handler) (target : Target)
  | reject (i : Nat) (code : Nat)
  | count (i : Nat)
  | read (i : Nat)
  | dialed (i : Nat) (ok : Bool)
  | hijack (i : Nat) (res : Hijack)
  | write (i : Nat) (ok : Bool)
  | flush (i : Nat) (ok : Bool)
  | tunnelEnd (i : Nat)
  | queue (i : Nat)
  | take (i c : Nat)
  | connRead (c : Nat)
  | connDialed (c : Nat) (ok : Bool)
  | connDrop (c : Nat)
  | retry (i : Nat)
  | doErr (i : Nat)
  | finish (i : Nat) (keep : Bool) (code : Nat)
  | ret (i : Nat)
  deriving DecidableEq, Repr

-- The `busy` function of a rotation is `ActiveSessions() > 0`.
def SupervisorMay (s : State) (e : Supervisor.Event) : Prop :=
  ∀ b, e = .busy b → b = decide (0 < s.activeSessions)

instance : Decidable (SupervisorMay s e) :=
  inferInstanceAs (Decidable (∀ _ : Bool, _))

-- What `HandleCONNECT` and the goroutine that it hands off to do next.
def stepConnect (s : State) (i : Nat) (x : Session) : Event → Option State
  | .read _ =>
    match x.phase with
    | .counted => s.supervisor.dialContext.map fun
      | .error _ => s.setPhase i (.ending 502)
      | .ok d    => s.setPhase i (.dialing d)
    | _ => none
  | .dialed _ ok =>
    match x.phase with
    | .dialing d => some <| s.setPhase i (if ok then .connected d else .ending 502)
    | _          => none
  | .hijack _ res =>
    match x.phase with
    | .connected d => some <| s.setPhase i (if res = .ok then .hijacked d else .ending 500)
    | _            => none
  | .write _ ok =>
    match x.phase with
    | .hijacked d => some <| s.setPhase i (if ok then .written d else .ending 500)
    | _           => none
  | .flush _ ok =>
    match x.phase with
    | .written d => some <| s.setPhase i (if ok then .tunnel d else .ending 500)
    | _          => none
  | .tunnelEnd _ =>
    match x.phase with
    | .tunnel _ => some <| s.setPhase i (.ending 200)
    | _         => none
  | _ => none

-- What `HandleHTTP` does next in `httpClient.Do` and with the response. A connection is only dialed if
-- none is idle. While the session waits for the dial, it can be given one that has become idle.
def stepHTTP (s : State) (i : Nat) (x : Session) : Event → Option State
  | .queue _ =>
    if x.phase = .counted ∧ ∀ c ∈ s.conns, c.target = x.target → !c.phase.isIdle then
      some <| (s.startDial x.target).setPhase i (.waiting s.conns.length)
    else
      none
  | .take _ c =>
    match x.phase, s.conns[c]? with
    | .counted, some ⟨target, .idle d⟩ | .waiting _, some ⟨target, .idle d⟩ =>
      if target = x.target then some <| (s.setConn c (.used d)).setPhase i (.exchange c) else none
    | _, _ => none
  | .retry _ =>
    match x.phase with
    | .exchange c => some <| (s.setConn c .dead).setPhase i .counted
    | _           => none
  | .doErr _ =>
    match x.phase with
    | .waiting _  => some <| s.setPhase i (.ending 502)
    | .exchange c => some <| (s.setConn c .dead).setPhase i (.ending 502)
    | _           => none
  | .finish _ keep code =>
    match x.phase with
    | .exchange c => some <| (s.release c keep).setPhase i (.ending code)
    | _           => none
  | _ => none

-- What the goroutine that dials a connection does next, and the closing of an idle connection. The
-- connection or the error is delivered to the session that the dial was started for, if it still
-- waits, and otherwise the connection becomes idle.
def stepConn (s : State) (c : Nat) (x : Conn) : Event → Option State
  | .connRead _ =>
    match x.phase with
    | .queued => s.supervisor.dialContext.map fun
      | .error _ => s.connErr c
      | .ok d    => s.setConn c (.dialing d)
    | _ => none
  | .connDialed _ ok =>
    match x.phase with
    | .dialing d => some <| if ok then s.deliver c d else s.connErr c
    | _          => none
  | .connDrop _ =>
    match x.phase with
    | .idle _ => some <| s.setConn c .dead
    | _       => none
  | _ => none

def stepSession (s : State) (i : Nat) (x : Session) : Event → Option State
  | .reject _ code =>
    if x.phase = .begun ∧ code ∈ x.handler.rejections then some <| s.setPhase i (.done code) else none
  | .count _ =>
    if x.phase = .begun then
      some <| (s.add 1).setPhase i .counted
    else
      none
  | .ret _ =>
    match x.phase with
    | .ending code => some <| (s.add (-1)).setPhase i (.done code)
    | _            => none
  | e =>
    match x.handler with
    | .connect => stepConnect s i x e
    | .http    => stepHTTP s i x e

def step (o : Supervisor.Options) (s : State) (e : Event) : Option State :=
  match e with
  | .supervisor e =>
    if SupervisorMay s e then
      (Supervisor.step o s.supervisor e).map ({ s with supervisor := · })
    else
      none
  | .handle handler target => some { s with sessions := s.sessions ++ [⟨handler, target, .begun⟩] }
  | .connRead c | .connDialed c _ | .connDrop c => s.conns[c]?.bind fun x => stepConn s c x e
  | .reject i _ | .count i | .read i | .dialed i _ | .hijack i _ | .write i _ | .flush i _ | .tunnelEnd i
  | .queue i | .take i _ | .retry i | .doErr i | .finish i _ _ | .ret i =>
    s.sessions[i]?.bind fun x => stepSession s i x e

def system (o : Supervisor.Options) : System State Event where
  init := .init
  step := step o

end Application.Proxy
