import VpnTunnel.Tunnelpool.Scheduler.Basic

namespace Handlers.Forwarder

open Tunnelpool

abbrev Zone :=
  Scheduler.Zone

abbrev Device :=
  Scheduler.Device

-- What matters of a `http.Transport` is what its dial function closes over.
structure Transport where
  dialer   : Device
  resolver : Option Device
  deriving DecidableEq, Repr

-- `transportFor` accesses the map twice, with `Load` and with `LoadOrStore`.
inductive Phase
  | load
  | loadOrStore
  | client (t : Transport)
  | returned (t : Transport)
  deriving DecidableEq, Repr

def Phase.transport? : Phase → Option Transport
  | client t | returned t => t
  | _                     => none

-- A call of `Forward` or `ForwardRaw`, with the call of `Route` whose grant it was made under.
structure Call where
  route    : Scheduler.CallID
  tunnelID : Zone
  dialer   : Device
  resolver : Option Device
  phase    : Phase
  deriving DecidableEq, Repr

-- A connection that is opened for a call. The resolver is consulted unless the host is an address.
structure Dial where
  call     : Nat
  dialer   : Device
  resolver : Option Device
  deriving DecidableEq, Repr

-- The forwarder with the scheduler that hands out its dialers.
structure State where
  scheduler  : Scheduler.State
  transports : AList fun _ : Zone => Transport
  calls      : List Call
  dials      : List Dial

namespace State

def init : State where
  scheduler  := .init
  transports := ∅
  calls      := []
  dials      := []

def setPhase (s : State) (k : Nat) (phase : Phase) : State :=
  { s with calls := s.calls.modify k ({ · with phase }) }

end State

inductive Event
  | scheduler (e : Scheduler.Event)
  | forward (i : Scheduler.CallID)
  | load (k : Nat)
  | loadOrStore (k : Nat)
  | dial (k : Nat) (lookup : Bool)
  | ret (k : Nat)
  deriving DecidableEq, Repr

-- The release is deferred until the call made under the grant has returned.
def CanRelease (s : State) (i : Scheduler.CallID) : Prop :=
  ∀ c ∈ s.calls, c.route = i → ∃ t, c.phase = .returned t

instance : Decidable (CanRelease s i) :=
  have (c : Call) : Decidable (∃ t, c.phase = .returned t) :=
    match h : c.phase with
    | .returned t => .isTrue ⟨t, rfl⟩
    | .load | .loadOrStore | .client _ => .isFalse (by simp)
  inferInstanceAs (Decidable (∀ c ∈ s.calls, _))

def SchedulerMay (s : State) : Scheduler.Event → Prop
  | .release i | .releaseDone i => CanRelease s i
  | _                           => True

instance : Decidable (SchedulerMay s e) :=
  match e with
  | .release i | .releaseDone i => inferInstanceAs (Decidable (CanRelease s i))
  | .tick _ | .route _ | .send _ | .cancel _ | .receive _ | .loopDone _ | .loopRequest _
  | .loopSettle .. | .loopRelease | .loopGrace _ | .loopIdle _ => .isTrue trivial

-- A caller of `Route` forwards its request once, through what it was granted.
def forward (s : State) (i : Scheduler.CallID) (c : Scheduler.Call) : Option State :=
  match c.phase with
  | .granted dialer resolver =>
    if ∀ f ∈ s.calls, f.route ≠ i then
      some { s with calls := s.calls ++ [⟨i, c.tunnelID, dialer, resolver, .load⟩] }
    else
      none
  | _ => none

def load (s : State) (k : Nat) (c : Call) : Option State :=
  if c.phase = .load then
    match s.transports.lookup c.tunnelID with
    | some t => some <| s.setPhase k (.client t)
    | none   => some <| s.setPhase k .loadOrStore
  else
    none

def loadOrStore (s : State) (k : Nat) (c : Call) : Option State :=
  if c.phase = .loadOrStore then
    match s.transports.lookup c.tunnelID with
    | some t => some <| s.setPhase k (.client t)
    | none   =>
      let t := ⟨c.dialer, c.resolver⟩
      some <| { s with transports := s.transports.insert c.tunnelID t }.setPhase k (.client t)
  else
    none

-- A transport may still dial for a call that has returned. Without a resolver nothing is looked up.
def dial (s : State) (k : Nat) (lookup : Bool) (c : Call) : Option State :=
  c.phase.transport?.bind fun t =>
    if lookup ∧ t.resolver = none then
      none
    else
      some { s with dials := ⟨k, t.dialer, if lookup then t.resolver else none⟩ :: s.dials }

def ret (s : State) (k : Nat) (c : Call) : Option State :=
  match c.phase with
  | .client t => some <| s.setPhase k (.returned t)
  | _         => none

def step (o : Scheduler.Options) (s : State) : Event → Option State
  | .scheduler e =>
    if SchedulerMay s e then
      (Scheduler.step o s.scheduler e).map ({ s with scheduler := · })
    else
      none
  | .forward i     => s.scheduler.calls[i]?.bind (forward s i)
  | .load k        => s.calls[k]?.bind (load s k)
  | .loadOrStore k => s.calls[k]?.bind (loadOrStore s k)
  | .dial k lookup => s.calls[k]?.bind (dial s k lookup)
  | .ret k         => s.calls[k]?.bind (ret s k)

def system (o : Scheduler.Options) : System State Event where
  init := .init
  step := step o

end Handlers.Forwarder
