import VpnTunnel.Lib.System

namespace Application.Proxy.Tunnels

-- Where a connection stands, as far as its tunnel is concerned: `HandleCONNECT` has not counted it yet,
-- it is counted, or its goroutine has read zero from its decrement of `tunnelCount` and is about to
-- enter the section of `tunnelMu`.
inductive Tunnel
  | setup
  | counted
  | notify
  | done
  deriving DecidableEq, Repr

-- Where a call of `WaitTunnels` stands. From `reload` on it holds the channel that it has read in the
-- section of `tunnelMu`. A channel is identified by the number of channels that were made before it.
inductive WaitPhase
  | load
  | lock
  | reload (ch : Nat)
  | select (ch : Nat)
  | returned (ok : Bool)
  deriving DecidableEq, Repr

structure WaitCall where
  phase   : WaitPhase
  ctxDone : Bool
  deriving DecidableEq, Repr

-- The fields of `ProxyService` that the tunnels and the waiters share, the channels that have been made
-- and closed so far, and the goroutines.
structure State where
  tunnelCount  : Int
  tunnelNotify : Nat
  made         : Nat
  closed       : List Nat
  tunnels      : List Tunnel
  waits        : List WaitCall
  deriving DecidableEq, Repr

namespace State

-- `NewProxyService` makes the first channel.
def init : State where
  tunnelCount  := 0
  tunnelNotify := 0
  made         := 1
  closed       := []
  tunnels      := []
  waits        := []

def setTunnel (s : State) (i : Nat) (t : Tunnel) : State :=
  { s with tunnels := s.tunnels.modify i fun _ => t }

def setWait (s : State) (j : Nat) (phase : WaitPhase) : State :=
  { s with waits := s.waits.modify j ({ · with phase }) }

def add (s : State) (n : Int) : State :=
  { s with tunnelCount := s.tunnelCount + n }

-- The section of `tunnelMu` in the deferred function of a tunnel.
def renew (s : State) : State :=
  { s with closed := s.tunnelNotify :: s.closed, tunnelNotify := s.made, made := s.made + 1 }

-- `WaitTunnels` returns if it reads zero.
def afterLoad (s : State) (next : WaitPhase) : WaitPhase :=
  if s.tunnelCount = 0 then .returned true else next

end State

-- `start` and `finish` are the two operations on the counter, and `notify` and `lock` are the two
-- sections of the mutex. `giveUp` is an early return of the handler.
inductive Event
  | accept
  | giveUp (i : Nat)
  | start (i : Nat)
  | finish (i : Nat)
  | notify (i : Nat)
  | waitTunnels (ctxDone : Bool)
  | cancel (j : Nat)
  | load (j : Nat)
  | lock (j : Nat)
  | reload (j : Nat)
  | woken (j : Nat)
  | expired (j : Nat)
  deriving DecidableEq, Repr

def stepTunnel (s : State) (i : Nat) (t : Tunnel) : Event → Option State
  | .giveUp _ => if t = .setup then some <| s.setTunnel i .done else none
  | .start _  => if t = .setup then some <| (s.add 1).setTunnel i .counted else none
  | .finish _ =>
    if t = .counted then
      some <| (s.add (-1)).setTunnel i (if s.tunnelCount - 1 = 0 then .notify else .done)
    else
      none
  | .notify _ => if t = .notify then some <| s.renew.setTunnel i .done else none
  | _         => none

def stepWait (s : State) (j : Nat) (w : WaitCall) : Event → Option State
  | .cancel _ => some { s with waits := s.waits.modify j ({ · with ctxDone := true }) }
  | .load _   => if w.phase = .load then some <| s.setWait j (s.afterLoad .lock) else none
  | .lock _   => if w.phase = .lock then some <| s.setWait j (.reload s.tunnelNotify) else none
  | .reload _ =>
    match w.phase with
    | .reload ch => some <| s.setWait j (s.afterLoad (.select ch))
    | _          => none
  | .woken _ =>
    match w.phase with
    | .select ch => if ch ∈ s.closed then some <| s.setWait j .load else none
    | _          => none
  | .expired _ =>
    match w.phase with
    | .select _ => if w.ctxDone then some <| s.setWait j (.returned false) else none
    | _         => none
  | _ => none

def step (s : State) (e : Event) : Option State :=
  match e with
  | .accept              => some { s with tunnels := s.tunnels ++ [.setup] }
  | .waitTunnels ctxDone => some { s with waits := s.waits ++ [⟨.load, ctxDone⟩] }
  | .giveUp i | .start i | .finish i | .notify i => s.tunnels[i]?.bind fun t => stepTunnel s i t e
  | .cancel j | .load j | .lock j | .reload j | .woken j | .expired j =>
    s.waits[j]?.bind fun w => stepWait s j w e

def system : System State Event where
  init := .init
  step := step

end Application.Proxy.Tunnels
