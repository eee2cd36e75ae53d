import VpnTunnel.Lib.System

namespace Httpserver

inductive Socket
  | opened
  | closed
  deriving DecidableEq, Repr

-- What the goroutine of a connection does next: `net/http` waits for a request, or `rootHandler` has
-- called one of the handlers. From `hijacked` on, the connection belongs to `HandleCONNECT`, which
-- writes the answer and hands the connection over to the goroutine of the tunnel. If the answer cannot
-- be written, it closes the client's end and then the upstream's. The goroutine of the tunnel copies
-- in both directions, closes both ends, and goes through its deferred function.
inductive Phase
  | waiting
  | http
  | connect
  | dialing
  | dialed
  | discard
  | hijacked
  | written
  | flushed
  | abortClient
  | abortUpstream
  | counted
  | copying (inDone outDone : Bool)
  | closeUpstream
  | uncount
  | notify
  | done
  | dropped
  deriving DecidableEq, Repr

structure Conn where
  phase    : Phase
  hijacked : Bool
  client   : Socket
  upstream : Option Socket
  deriving DecidableEq, Repr

inductive Hijack
  | noHijacker
  | err
  | ok
  deriving DecidableEq, Repr

inductive Direction
  | fromClient
  | fromUpstream
  deriving DecidableEq, Repr

inductive Conn.Event
  | request (connect : Bool)
  | drop
  | respond
  | reject
  | dial
  | dialed (ok : Bool)
  | hijack (res : Hijack)
  | discard
  | write (ok : Bool)
  | flush (ok : Bool)
  | abortClient
  | abortUpstream
  | count
  | spawn
  | copied (dir : Direction)
  | closeClient
  | closeUpstream
  | uncount
  | notify
  deriving DecidableEq, Repr

namespace Conn

def accepted : Conn where
  phase    := .waiting
  hijacked := false
  client   := .opened
  upstream := none

-- `tunnelCount` is the value that the counter of the service has before the step.
def step (tunnelCount : Int) (c : Conn) (e : Event) : Option Conn :=
  match c.phase, e with
  | .waiting, .request connect      => some { c with phase := if connect then .connect else .http }
  | .waiting, .drop                 => some { c with phase := .dropped, client := .closed }
  | .http, .respond                 => some { c with phase := .waiting }
  | .connect, .reject               => some { c with phase := .waiting }
  | .connect, .dial                 => some { c with phase := .dialing }
  | .dialing, .dialed false         => some { c with phase := .waiting }
  | .dialing, .dialed true          => some { c with phase := .dialed, upstream := some .opened }
  | .dialed, .hijack .ok            => some { c with phase := .hijacked, hijacked := true }
  | .dialed, .hijack _              => some { c with phase := .discard }
  | .discard, .discard              => some { c with phase := .waiting, upstream := some .closed }
  | .hijacked, .write ok            => some { c with phase := if ok then .written else .abortClient }
  | .written, .flush ok             => some { c with phase := if ok then .flushed else .abortClient }
  | .abortClient, .abortClient      => some { c with phase := .abortUpstream, client := .closed }
  | .abortUpstream, .abortUpstream  => some { c with phase := .done, upstream := some .closed }
  | .flushed, .count                => some { c with phase := .counted }
  | .counted, .spawn                => some { c with phase := .copying false false }
  | .copying false b, .copied .fromClient   => some { c with phase := .copying true b }
  | .copying b false, .copied .fromUpstream => some { c with phase := .copying b true }
  | .copying true true, .closeClient => some { c with phase := .closeUpstream, client := .closed }
  | .closeUpstream, .closeUpstream  => some { c with phase := .uncount, upstream := some .closed }
  -- Only the tunnel whose decrement reads zero notifies the waiters.
  | .uncount, .uncount =>
    some { c with phase := if tunnelCount - 1 = 0 then .notify else .done }
  | .notify, .notify                => some { c with phase := .done }
  | _, _                            => none

end Conn

-- What `tunnelCount.Add` is called with in a step of a handler or a tunnel.
def Conn.Event.delta : Conn.Event → Int
  | count   => 1
  | uncount => -1
  | _       => 0

-- Whether a step closes the channel `tunnelNotify` and replaces it by the next one.
def Conn.Event.renews : Conn.Event → Bool
  | notify => true
  | _      => false

-- The call of `Shutdown`: in `draining` it is in `http.Server.Shutdown`, and afterwards in `WaitTunnels`.
-- The channels that `tunnelNotify` goes through are numbered, and a waiter holds the number of the one
-- that it read.
inductive Shutdown
  | notCalled
  | draining
  | load
  | lock
  | reload (ch : Nat)
  | select (ch : Nat)
  | returned (ok : Bool)
  deriving DecidableEq, Repr

structure State where
  conns        : List Conn
  tunnelCount  : Int
  tunnelNotify : Nat
  ctxDone      : Bool
  shutdown     : Shutdown
  deriving DecidableEq, Repr

def State.init : State where
  conns        := []
  tunnelCount  := 0
  tunnelNotify := 0
  ctxDone      := false
  shutdown     := .notCalled

-- `net/http` waits for the connections in these phases. It does not know of a connection any more once
-- it has been hijacked.
def Phase.tracked : Phase → Bool
  | waiting | http | connect | dialing | dialed | discard => true
  | _                                                     => false

inductive Event
  | accept
  | conn (i : Nat) (e : Conn.Event)
  | ctxDone
  | shutdown
  | drained
  | drainErr
  | load
  | lock
  | reload
  | woken
  | expired
  deriving DecidableEq, Repr

-- `tunnelCount.Load() == 0` returns from `WaitTunnels`.
def State.loaded (s : State) (next : Shutdown) : State :=
  { s with shutdown := if s.tunnelCount = 0 then .returned true else next }

def stepShutdown (s : State) : Event → Option State
  | .shutdown => if s.shutdown = .notCalled then some { s with shutdown := .draining } else none
  | .drained  =>
    if s.shutdown = .draining ∧ ∀ c ∈ s.conns, ¬c.phase.tracked then
      some { s with shutdown := .load }
    else
      none
  | .drainErr =>
    if s.shutdown = .draining ∧ s.ctxDone then some { s with shutdown := .returned false } else none
  | .load => if s.shutdown = .load then some <| s.loaded .lock else none
  | .lock => if s.shutdown = .lock then some { s with shutdown := .reload s.tunnelNotify } else none
  | .reload =>
    match s.shutdown with
    | .reload ch => some <| s.loaded (.select ch)
    | _          => none
  | .woken =>
    match s.shutdown with
    | .select ch => if ch < s.tunnelNotify then some { s with shutdown := .load } else none
    | _          => none
  | .expired =>
    match s.shutdown with
    | .select _ => if s.ctxDone then some { s with shutdown := .returned false } else none
    | _         => none
  | _ => none

def step (s : State) : Event → Option State
  -- Once `Shutdown` has been called, no connection is accepted.
  | .accept =>
    if s.shutdown = .notCalled then some { s with conns := s.conns ++ [.accepted] } else none
  | .conn i e =>
    s.conns[i]?.bind fun c => (c.step s.tunnelCount e).map fun c' =>
      { s with
        conns        := s.conns.modify i fun _ => c'
        tunnelCount  := s.tunnelCount + e.delta
        tunnelNotify := s.tunnelNotify + e.renews.toNat }
  | .ctxDone => some { s with ctxDone := true }
  | e => stepShutdown s e

def system : System State Event where
  init := .init
  step := step

end Httpserver
