import Mathlib.Logic.Function.Basic
import VpnTunnel.Lib.System

namespace Application.Proxy.Copy

-- The two connections of an established tunnel.
inductive Side
  | client
  | upstream
  deriving DecidableEq, Repr

def Side.other : Side → Side
  | client   => upstream
  | upstream => client

instance {P : Side → Prop} [DecidablePred P] : Decidable (∀ x, P x) :=
  decidable_of_iff (P .client ∧ P .upstream) ⟨fun h x => by cases x <;> simp [h], fun h => ⟨h _, h _⟩⟩

-- What is at the other end of a connection. Its first bytes may have been read ahead by the buffered
-- reader that `Hijack` returns. The connection itself is a `*net.TCPConn` or some other `net.Conn`.
structure Peer where
  tcp   : Bool
  ahead : List UInt8
  sends : List UInt8
  deriving DecidableEq, Repr

def Peer.stream (p : Peer) : List UInt8 :=
  p.ahead ++ p.sends

-- What the goroutine that copies in one direction does next: `io.Copy` reads and writes in turns, the
-- number of bytes is sent to the goroutine of the tunnel, and the destination is half-closed.
inductive Phase
  | read
  | write (chunk : List UInt8)
  | report
  | halfClose
  | done
  deriving DecidableEq, Repr

-- One direction of the tunnel: the bytes on their way from the source, its goroutine with the channel
-- that it reports to, and the bytes that the destination has received.
structure Dir where
  unsent      : List UInt8
  buffered    : List UInt8
  ahead       : List UInt8
  eof         : Bool
  phase       : Phase
  copied      : Nat
  ch          : Option Nat
  delivered   : List UInt8
  writeClosed : Bool
  deriving DecidableEq, Repr

inductive Dir.Event
  | send (n : Nat)
  | eof
  | read (n : Nat)
  | readEnd
  | write
  | report
  | halfClose
  deriving DecidableEq, Repr

namespace Dir

def init (p : Peer) : Dir where
  unsent      := p.sends
  buffered    := []
  ahead       := p.ahead
  eof         := false
  phase       := .read
  copied      := 0
  ch          := none
  delivered   := []
  writeClosed := false

-- A read returns what was read ahead even if the connection has been closed since.
def read (srcClosed : Bool) (d : Dir) (n : Nat) : Option Dir :=
  if d.ahead ≠ [] then
    if 0 < n ∧ n ≤ d.ahead.length then
      some { d with ahead := d.ahead.drop n, phase := .write (d.ahead.take n) }
    else
      none
  else if !srcClosed ∧ 0 < n ∧ n ≤ d.buffered.length then
    some { d with buffered := d.buffered.drop n, phase := .write (d.buffered.take n) }
  else
    none

-- A read returns an error, or `io.EOF`.
def ends (srcClosed : Bool) (d : Dir) : Bool :=
  d.ahead = [] && (srcClosed || (d.buffered = [] && d.eof))

-- `srcClosed` and `dstClosed` say whether the tunnel has closed its two connections. Other than that,
-- there are no I/O errors.
def step (srcClosed dstClosed dstTCP : Bool) (d : Dir) (e : Event) : Option Dir :=
  match e, d.phase with
  | .send n, _ =>
    if 0 < n ∧ n ≤ d.unsent.length then
      some { d with unsent := d.unsent.drop n, buffered := d.buffered ++ d.unsent.take n }
    else
      none
  | .eof, _             => if d.unsent = [] ∧ !d.eof then some { d with eof := true } else none
  | .read n, .read      => d.read srcClosed n
  | .readEnd, .read     => if d.ends srcClosed then some { d with phase := .report } else none
  | .write, .write chunk =>
    if dstClosed || d.writeClosed then
      some { d with phase := .report }
    else
      some { d with
        phase     := .read
        copied    := d.copied + chunk.length
        delivered := d.delivered ++ chunk }
  | .report, .report       => some { d with phase := .halfClose, ch := some d.copied }
  | .halfClose, .halfClose => some { d with phase := .done, writeClosed := d.writeClosed || dstTCP }
  | _, _                   => none

end Dir

-- What the goroutine of the tunnel does next.
inductive Main
  | recvIn
  | recvOut (bytesIn : Nat)
  | closeClient (bytesIn bytesOut : Nat)
  | closeUpstream (bytesIn bytesOut : Nat)
  | done (bytesIn bytesOut : Nat)
  deriving DecidableEq, Repr

-- A direction is named after its source.
structure State where
  dir    : Side → Dir
  closed : Side → Bool
  main   : Main

inductive Event
  | dir (x : Side) (e : Dir.Event)
  | recv
  | close
  deriving DecidableEq, Repr

namespace State

def init (p : Side → Peer) : State where
  dir    := fun x => .init (p x)
  closed := fun _ => false
  main   := .recvIn

def setDir (s : State) (x : Side) (d : Dir) : State :=
  { s with dir := Function.update s.dir x d }

def close (s : State) (x : Side) : State :=
  { s with closed := Function.update s.closed x true }

-- `halfClose` closes a connection that is not a `*net.TCPConn`.
def afterDir (s : State) (p : Side → Peer) (x : Side) (e : Dir.Event) : State :=
  if e = .halfClose ∧ !(p x.other).tcp then s.close x.other else s

def recv (s : State) : Option State :=
  match s.main with
  | .recvIn    => (s.dir .client).ch.map fun n =>
    { s.setDir .client { s.dir .client with ch := none } with main := .recvOut n }
  | .recvOut m => (s.dir .upstream).ch.map fun n =>
    { s.setDir .upstream { s.dir .upstream with ch := none } with main := .closeClient m n }
  | _          => none

def closeConn (s : State) : Option State :=
  match s.main with
  | .closeClient m n   => some { s.close .client with main := .closeUpstream m n }
  | .closeUpstream m n => some { s.close .upstream with main := .done m n }
  | _                  => none

end State

def step (p : Side → Peer) (s : State) : Event → Option State
  | .dir x e => ((s.dir x).step (s.closed x) (s.closed x.other) (p x.other).tcp e).map fun d =>
    (s.setDir x d).afterDir p x e
  | .recv    => s.recv
  | .close   => s.closeConn

def system (p : Side → Peer) : System State Event where
  init := .init p
  step := step p

end Application.Proxy.Copy
