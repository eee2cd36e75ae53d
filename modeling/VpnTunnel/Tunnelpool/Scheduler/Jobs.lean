import VpnTunnel.Tunnelpool.Scheduler.Theorems.Basic

namespace Tunnelpool.Scheduler

def RouteReply.isGrant : RouteReply → Bool
  | ok ..  => true
  | err .. => false

def Phase.isGranted : Phase → Bool
  | granted .. => true
  | _          => false

namespace Call

-- The grants that were sent to a call and that have not been released.
def grants (c : Call) : Nat :=
  c.replyCh.countP RouteReply.isGrant + c.phase.isGranted.toNat

-- The replies that a call is owed or has not received yet.
def tickets (c : Call) : Nat :=
  match c.phase with
  | .waiting | .cancelledWaiting => 1
  | _                            => 0

-- A call got a reply, if it acted on it.
def Got (c : Call) : RouteReply → Prop
  | .ok dialer resolver => c.phase = .granted dialer resolver ∨ c.phase = .released
  | .err e              => c.phase = .refused e

end Call

-- The requests and grants, without the devices: a request waits until it is taken out and served, and
-- a grant is counted until its release has been received.
structure Jobs where
  waiting    : Multiset RouteRequest
  calls      : List Call
  activeJobs : Nat
  releaseCh  : Nat
  answers    : List (CallID × RouteReply)

namespace Jobs

inductive Step (running : Bool) (j : Jobs) : Jobs → Prop
  | refl : Step running j j
  | call {c : Call} : (c.replyCh = []) → (c.tickets = 0) → (c.phase.isGranted = false) →
    Step running j { j with calls := j.calls ++ [c] }
  | send {i : CallID} {c : Call} : (j.calls[i]? = some c) → (c.phase = .sending) →
    Step running j { j with
      waiting := c.request i ::ₘ j.waiting
      calls   := j.calls.modify i ({ · with phase := .waiting }) }
  | cancelSending {i : CallID} {c : Call} : (j.calls[i]? = some c) → (c.phase = .sending) →
    Step running j { j with calls := j.calls.modify i ({ · with phase := .cancelledSending }) }
  | cancelWaiting {i : CallID} {c : Call} : (j.calls[i]? = some c) → (c.phase = .waiting) →
    Step running j { j with calls := j.calls.modify i ({ · with phase := .cancelledWaiting }) }
  | receive {i : CallID} {c : Call} {r : RouteReply} {rs : List RouteReply} :
    (j.calls[i]? = some c) → (c.phase = .waiting) → (c.replyCh = r :: rs) →
    Step running j { j with calls := j.calls.modify i ({ · with phase := r.phase, replyCh := rs }) }
  | release {i : CallID} {c : Call} : (j.calls[i]? = some c) → c.phase.isGranted →
    Step running j { j with
      calls     := j.calls.modify i ({ · with phase := .released })
      releaseCh := j.releaseCh + 1 }
  | releaseDone {i : CallID} {c : Call} : (running = false) → (j.calls[i]? = some c) →
    c.phase.isGranted →
    Step running j { j with calls := j.calls.modify i ({ · with phase := .released }) }
  | serve {r : RouteReply} {reqs : List RouteRequest} {rest : Multiset RouteRequest} :
    (j.waiting = reqs + rest) →
    Step running j { j with
      waiting    := rest
      calls      := deliver r j.calls reqs
      activeJobs := j.activeJobs + if r.isGrant then reqs.length else 0
      answers    := (reqs.map (·.replyCh, r)).reverse ++ j.answers }
  | countDown : (0 < j.releaseCh) →
    Step running j { j with activeJobs := j.activeJobs - 1, releaseCh := j.releaseCh - 1 }

structure Valid (j : Jobs) : Prop where
  request : ∀ q ∈ j.waiting, ∃ c, j.calls[q.replyCh]? = some c ∧ c.request q.replyCh = q
  tickets : ∀ (i : CallID) (c : Call), j.calls[i]? = some c →
    j.waiting.countP (·.replyCh = i) + c.replyCh.length = c.tickets
  answers : ∀ (i : CallID) (r : RouteReply), (i, r) ∈ j.answers →
    ∃ c, j.calls[i]? = some c ∧ (r ∈ c.replyCh ∨ c.Got r)

-- Each active job is a grant that has not been released, or a release that has not been received.
def Accounted (j : Jobs) : Prop :=
  j.activeJobs = (j.calls.map Call.grants).sum + j.releaseCh

end Jobs

def State.waiting (s : State) : Multiset RouteRequest :=
  s.reqCh + s.settleBatch + s.pending.all

def State.jobs (s : State) : Jobs where
  waiting    := s.waiting
  calls      := s.calls
  activeJobs := s.activeJobs
  releaseCh  := s.releaseCh
  answers    := s.answers

end Tunnelpool.Scheduler
