import VpnTunnel.Asyncjob.Gc
import VpnTunnel.Lib.Http.Request
import VpnTunnel.Lib.System

namespace Asyncjob

abbrev Request :=
  Http.Request

inductive Outcome
  | pending
  | completed (response : UpstreamResponse)
  | tombstoned
  | queueFull
  deriving DecidableEq

inductive SubmitError
  | poolClosed
  | getTag (err : Error)
  | bodyTooLarge (echo : ByteString)
  | drainBody
  | writePending (err : Error)
  deriving DecidableEq

def outcomeForRecord (r : Record) : Outcome :=
  match r.status with
  | .pending       => .pending
  | .completed     => .completed (r.upstreamResponse.getD .zero)
  | .failed        => .completed (r.upstreamResponse.getD .zero)
  | .failedTimeout => .completed (r.upstreamResponse.getD .zero)
  | .tombstone     => .tombstoned
  | .unknown _ _   => .pending

def maxBodyBytes : Nat :=
  10 * 1024 * 1024

def maxTagEchoLenLog : Nat := 64

def drainBody (tag : Tag) (req : Request) : Except SubmitError (List UInt8) :=
  match req.body with
  | none => .ok []
  | some body =>
    -- Reading stops after one byte more than allowed, before an error that comes later.
    if body.data.length > maxBodyBytes then .error (.bodyTooLarge (tag.take maxTagEchoLenLog))
    else if body.fails then .error .drainBody
    else .ok body.data

def cloneRequest (src : Request) (body : List UInt8) : Request :=
  if body.length > 0 then
    { src with body := some { data := body, fails := false }, contentLength := body.length }
  else
    { src with body := some { data := [], fails := false }, contentLength := 0 }

namespace Submit

-- Where a call of `SubmitOrFetch` is. In `drain`, `put`, `add` and `spawn` it holds a slot.
inductive Phase
  | check
  | get
  | claim
  | drain
  | put (body : List UInt8)
  | add (body : List UInt8)
  | spawn (body : List UInt8)
  | returned (res : Except SubmitError Outcome)
  | dead
  deriving DecidableEq

structure Call where
  tag   : Tag
  req   : Request
  phase : Phase
  deriving DecidableEq

end Submit

namespace Worker

inductive Phase
  | forward
  | cas (res : Option UpstreamResponse)
  | release
  | done
  | exited
  | dead
  deriving DecidableEq

end Worker

structure Worker where
  tag   : Tag
  req   : Request
  phase : Worker.Phase
  deriving DecidableEq

namespace GC

-- Before which batch a pass is, and the time that it has read.
inductive Phase
  | idle
  | timeout (now : Time)
  | tombstone (now : Time)
  | delete (now : Time)

end GC

inductive Shutdown
  | notCalled
  | waiting
  | returned (ok : Bool)
  deriving DecidableEq

structure Pool where
  store    : Store
  slots    : Nat
  wg       : Nat
  closed   : Bool
  shutdown : Shutdown
  calls    : List Submit.Call
  workers  : List Worker
  gc       : GC.Phase

structure Options where
  maxConcurrent : Nat
  gc            : GCConfig

def UpstreamResponse.synthetic : UpstreamResponse where
  statusCode := 502
  header     := none
  body       := some (ByteString.ofString "upstream error")

-- What a worker writes: the response of the upstream, or a synthetic one if forwarding failed.
def workerMutate (res : Option UpstreamResponse) (now : Time) (r : Record) : Record :=
  match res with
  | some resp => { r with status := .completed, updatedAt := now, upstreamResponse := some resp }
  | none =>
    { r with status := .failed, updatedAt := now, upstreamResponse := some .synthetic }

namespace Pool

def init : Pool where
  store    := ∅
  slots    := 0
  wg       := 0
  closed   := false
  shutdown := .notCalled
  calls    := []
  workers  := []
  gc       := .idle

def setCall (p : Pool) (k : Nat) (ph : Submit.Phase) : Pool :=
  { p with calls := p.calls.modify k ({ · with phase := ph }) }

def setWorker (p : Pool) (w : Nat) (ph : Worker.Phase) : Pool :=
  { p with workers := p.workers.modify w ({ · with phase := ph }) }

-- A call that returns without having started a worker gives its slot back.
def abandon (p : Pool) (k : Nat) (err : SubmitError) : Pool :=
  { p with slots := p.slots - 1 }.setCall k (.returned (.error err))

end Pool

-- Clock readings, the results of the forwarder and failures of the database are chosen by the
-- environment.
inductive Event
  | submit (tag : Tag) (req : Request)
  | check (k : Nat)
  | get (k : Nat) (io : Bool)
  | claim (k : Nat)
  | drain (k : Nat)
  | put (k : Nat) (now : Time) (io : Bool)
  | add (k : Nat)
  | spawn (k : Nat)
  | forward (w : Nat) (res : Option UpstreamResponse)
  | cas (w : Nat) (now : Time) (io : Bool)
  | release (w : Nat)
  | done (w : Nat)
  | gcStart (now : Time)
  | gcTimeout (io : Bool)
  | gcTombstone (io : Bool)
  | gcDelete (io : Bool)
  | shutdown
  | drained
  | expired
  | restart
  deriving DecidableEq

namespace Pool

variable (o : Options) (p : Pool)

def stepCall (k : Nat) (c : Submit.Call) : Event → Option Pool
  | .check _ =>
    match c.phase with
    | .check => some <| p.setCall k (if p.closed then .returned (.error .poolClosed) else .get)
    | _ => none
  | .get _ io =>
    match c.phase with
    | .get =>
      match if io then p.store.get c.tag else .error .io with
      | .error err     => some <| p.setCall k (.returned (.error (.getTag err)))
      | .ok (some r)   => some <| p.setCall k (.returned (.ok (outcomeForRecord r)))
      | .ok none       => some <| p.setCall k .claim
    | _ => none
  | .claim _ =>
    match c.phase with
    | .claim =>
      if p.slots < o.maxConcurrent then some <| { p with slots := p.slots + 1 }.setCall k .drain
      else some <| p.setCall k (.returned (.ok .queueFull))
    | _ => none
  | .drain _ =>
    match c.phase with
    | .drain =>
      match drainBody c.tag c.req with
      | .ok body   => some <| p.setCall k (.put body)
      | .error err => some <| p.abandon k err
    | _ => none
  | .put _ now io =>
    match c.phase with
    | .put body =>
      match if io then p.store.put c.tag (newPendingRecord c.tag now) else .error .io with
      | .ok store  => some <| { p with store := store }.setCall k (.add body)
      | .error err => some <| p.abandon k (.writePending err)
    | _ => none
  | .add _ =>
    match c.phase with
    | .add body => some <| { p with wg := p.wg + 1 }.setCall k (.spawn body)
    | _ => none
  | .spawn _ =>
    match c.phase with
    | .spawn body =>
      let w := { tag := c.tag, req := cloneRequest c.req body, phase := .forward }
      some <| { p with workers := p.workers ++ [w] }.setCall k (.returned (.ok .pending))
    | _ => none
  | _ => none

def stepWorker (w : Nat) (worker : Worker) : Event → Option Pool
  | .forward _ res =>
    match worker.phase with
    | .forward => some <| p.setWorker w (.cas res)
    | _ => none
  | .cas _ now io =>
    match worker.phase with
    | .cas res =>
      let r :=
        if io then p.store.compareAndSwapStatus worker.tag .pending (workerMutate res now)
        else .error .io
      match r with
      | .ok (_, store) => some <| { p with store := store }.setWorker w .release
      | .error _       => some <| p.setWorker w .release
    | _ => none
  | .release _ =>
    match worker.phase with
    | .release => some <| { p with slots := p.slots - 1 }.setWorker w .done
    | _ => none
  | .done _ =>
    match worker.phase with
    | .done => some <| { p with wg := p.wg - 1 }.setWorker w .exited
    | _ => none
  | _ => none

def stepGC : Event → Option Pool
  | .gcStart now =>
    match p.gc with
    | .idle => some { p with gc := .timeout now }
    | _ => none
  | .gcTimeout io =>
    match p.gc with
    | .timeout now =>
      let store := if io then (GC.timeoutBatch o.gc now p.store).2 else p.store
      some { p with store := store, gc := .tombstone now }
    | _ => none
  | .gcTombstone io =>
    match p.gc with
    | .tombstone now =>
      let store := if io then (GC.tombstoneBatch o.gc now p.store).2 else p.store
      some { p with store := store, gc := .delete now }
    | _ => none
  | .gcDelete io =>
    match p.gc with
    | .delete now =>
      let store := if io then (GC.deleteBatch o.gc now p.store).2 else p.store
      some { p with store := store, gc := .idle }
    | _ => none
  | _ => none

def stepShutdown : Event → Option Pool
  | .shutdown =>
    match p.shutdown with
    | .notCalled => some { p with closed := true, shutdown := .waiting }
    | _ => none
  | .drained =>
    if p.shutdown = .waiting ∧ p.wg = 0 then some { p with shutdown := .returned true } else none
  | .expired =>
    if p.shutdown = .waiting then some { p with shutdown := .returned false } else none
  | _ => none

-- The process dies, at any point, and a new one is started on the same database. It serves no
-- request before the recovery has succeeded.
def stepRestart : Option Pool :=
  match runRecovery p.store with
  | .ok (_, store) => some {
      Pool.init with
      store   := store
      calls   := p.calls.map fun c =>
        match c.phase with
        | .returned _ => c
        | _           => { c with phase := .dead }
      workers := p.workers.map fun w =>
        match w.phase with
        | .exited => w
        | _       => { w with phase := .dead }
    }
  | .error _ => none

def step (e : Event) : Option Pool :=
  match e with
  | .submit tag req => some { p with calls := p.calls ++ [{ tag, req, phase := .check }] }
  | .check k | .get k _ | .claim k | .drain k | .put k _ _ | .add k | .spawn k =>
    p.calls[k]? >>= fun c => p.stepCall o k c e
  | .forward w _ | .cas w _ _ | .release w | .done w =>
    p.workers[w]? >>= fun worker => p.stepWorker w worker e
  | .gcStart _ | .gcTimeout _ | .gcTombstone _ | .gcDelete _ => p.stepGC o e
  | .shutdown | .drained | .expired => p.stepShutdown e
  | .restart => p.stepRestart

def system : System Pool Event where
  init := .init
  step := step o

end Pool

def Options.twoSlots : Options where
  maxConcurrent := 2
  gc            := .default

def someTag : Tag :=
  .ofString "retry-tag-1"

def someUrl : Http.Url where
  scheme      := .ofString "https"
  opaqueText  := []
  user        := none
  host        := .ofString "example.com"
  path        := .ofString "/"
  rawPath     := []
  omitHost    := false
  forceQuery  := false
  rawQuery    := []
  fragment    := []
  rawFragment := []

def someRequest : Request where
  method        := .ofString "POST"
  url           := someUrl
  host          := .ofString "example.com"
  header        := ∅
  body          := none
  contentLength := 0

end Asyncjob
