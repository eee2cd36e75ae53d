import VpnTunnel.Asyncjob.Record
import VpnTunnel.Lib.System

namespace Infrastructure.Notify

open Asyncjob (Time Duration)

inductive Source
  | streaming
  | onDemand
  deriving DecidableEq, Repr

-- The other fields only go into the text of the message.
structure TunnelChangeEvent where
  source   : Source
  filename : ByteString
  deriving DecidableEq

def onDemandDedupWindow : Duration :=
  5 * 60 * 10 ^ 9

def onDemandMinInterval : Duration :=
  20 * 10 ^ 9

def notifyQueueBuf : Nat :=
  32

-- What `mu` guards.
structure OnDemand where
  lastOnDemandFilename : ByteString := []
  lastOnDemandAt       : Time       := .zero
  deriving DecidableEq

-- The flag is whether the event has to be dropped, and the state is the one after the check.
def OnDemand.suppressed (l : OnDemand) (now : Time) (filename : ByteString) : Bool × OnDemand :=
  if filename = l.lastOnDemandFilename ∧ now.sub l.lastOnDemandAt < onDemandDedupWindow then (true, l)
  else if now.sub l.lastOnDemandAt < onDemandMinInterval then (true, l)
  else (false, ⟨filename, now⟩)

-- `calls` are the callers of `Notify` that are past the check and have not enqueued their event.
structure State where
  now       : Time
  last      : OnDemand
  calls     : List TunnelChangeEvent
  ch        : List TunnelChangeEvent
  cancelled : Bool
  done      : Bool
  deriving DecidableEq

inductive Event
  -- A caller enters `Notify`, and the clock is read under the lock.
  | notify (now : Time) (ev : TunnelChangeEvent)
  -- The caller enqueues its event, or drops it.
  | enqueue (i : Nat)
  -- The sender takes the next event.
  | send
  | cancel
  -- The sender leaves its loop.
  | exit
  deriving DecidableEq

def check (l : OnDemand) (now : Time) (ev : TunnelChangeEvent) : Bool × OnDemand :=
  if ev.source = .onDemand then l.suppressed now ev.filename else (false, l)

def step (s : State) : Event → Option State
  | .notify now ev =>
    if s.now ≤ now then
      let (dropped, last) := check s.last now ev
      some { s with now, last, calls := if dropped then s.calls else s.calls ++ [ev] }
    else none
  | .enqueue i => do
    let ev ← s.calls[i]?
    let ch := if s.ch.length < notifyQueueBuf then s.ch ++ [ev] else s.ch
    some { s with calls := s.calls.eraseIdx i, ch }
  | .send =>
    match s.done, s.ch with
    | false, _ :: ch => some { s with ch }
    | _, _           => none
  | .cancel => some { s with cancelled := true }
  | .exit   => if s.cancelled ∧ ¬s.done then some { s with done := true } else none

-- A new notifier, and a clock that does not go back.
def system (start : Time) : System State Event where
  init := ⟨start, {}, [], [], false, false⟩
  step := step

end Infrastructure.Notify
