import VpnTunnel.Asyncjob.Record

namespace Asyncjob

-- `WriteHeader` panics on all other codes.
def ValidCode (code : Int) : Prop :=
  100 ≤ code ∧ code ≤ 999

instance (code : Int) : Decidable (ValidCode code) :=
  inferInstanceAs (Decidable (_ ∧ _))

namespace Record

def Terminal (r : Record) : Prop :=
  r.status = .completed ∨ r.status = .failed ∨ r.status = .failedTimeout

instance (r : Record) : Decidable r.Terminal :=
  inferInstanceAs (Decidable (_ ∨ _))

-- Which records have a response, and that its status code satisfies `C`.
def Shaped (C : Int → Prop) (r : Record) : Prop :=
  match r.status with
  | .pending       => r.upstreamResponse = none
  | .completed     => ∃ resp, r.upstreamResponse = some resp ∧ C resp.statusCode
  | .failed        => ∃ resp, r.upstreamResponse = some resp ∧ C resp.statusCode
  | .failedTimeout => r.upstreamResponse = none
  | .tombstone     => r.upstreamResponse = none
  | .unknown _ _   => False

end Record

-- The documented state machine of a tag: pending, then one of the terminal states, then tombstone,
-- then absent. `none` stands for the absent record.
inductive Edge : Option Record → Option Record → Prop
  | absent : Edge none none
  | created {r : Record} : r.status = .pending → Edge none (some r)
  | pending {r r' : Record} : r.status = .pending → r'.status = .pending → Edge (some r) (some r')
  | finished {r r' : Record} : r.status = .pending → r'.Terminal → Edge (some r) (some r')
  | terminal {r r' : Record} : r.Terminal → r'.status = r.status →
      r'.upstreamResponse = r.upstreamResponse → Edge (some r) (some r')
  | evicted {r r' : Record} : r.Terminal → r'.status = .tombstone → r'.upstreamResponse = none →
      Edge (some r) (some r')
  | tombstone {r r' : Record} : r.status = .tombstone → r'.status = .tombstone →
      r'.upstreamResponse = none → Edge (some r) (some r')
  | deleted {r : Record} : r.status = .tombstone → Edge (some r) none

end Asyncjob
