import VpnTunnel.Asyncjob.Store

namespace Asyncjob

structure GCConfig where
  pendingTimeout : Duration
  completeTTL    : Duration
  tombstoneTTL   : Duration

def GCConfig.default : GCConfig where
  pendingTimeout := 5 * 60 * 10 ^ 9
  completeTTL    := 60 * 60 * 10 ^ 9
  tombstoneTTL   := 24 * 60 * 60 * 10 ^ 9

namespace GC

variable (g : GCConfig) (now : Time)

-- The three batches of `passOnce`. All of them use the time that was read when the pass began.
def pendingTimeoutFilter (r : Record) : Bool :=
  r.status = .pending ∧ now.sub r.updatedAt > g.pendingTimeout

def pendingTimeoutMutate (r : Record) : Record :=
  { r with status := .failedTimeout, updatedAt := now }

def completeTTLFilter (r : Record) : Bool :=
  (r.status = .completed ∨ r.status = .failed ∨ r.status = .failedTimeout) ∧
    now.sub r.updatedAt > g.completeTTL

def completeTTLMutate (r : Record) : Record :=
  { r with status := .tombstone, upstreamResponse := none, evictedAt := now, updatedAt := now }

def tombstoneTTLFilter (r : Record) : Bool :=
  r.status = .tombstone ∧ now.sub r.evictedAt > g.tombstoneTTL

-- A batch that fails is logged and counts as one that found nothing to do.
def safeRun (s : Store) : Except Error (Nat × Store) → Nat × Store
  | .ok r    => r
  | .error _ => (0, s)

def timeoutBatch (s : Store) : Nat × Store :=
  safeRun s <| s.batchTransition (pendingTimeoutFilter g now) (pendingTimeoutMutate now)

def tombstoneBatch (s : Store) : Nat × Store :=
  safeRun s <| s.batchTransition (completeTTLFilter g now) (completeTTLMutate now)

def deleteBatch (s : Store) : Nat × Store :=
  safeRun s <| s.batchDelete (tombstoneTTLFilter g now)

-- One pass. It returns how many records were timed out, evicted and deleted.
def passOnce (s : Store) : (Nat × Nat × Nat) × Store :=
  let (timedOut, s) := timeoutBatch g now s
  let (tombstoned, s) := tombstoneBatch g now s
  let (deleted, s) := deleteBatch g now s
  ((timedOut, tombstoned, deleted), s)

end GC
end Asyncjob
