import VpnTunnel.Tunnelpool.Eligible.Theorems
import VpnTunnel.Tunnelpool.Scheduler.State

namespace Tunnelpool

open Supervisor (ConfigPath TunnelID Duration)

-- The function that `hmackey.DeriveID` is for a fixed key. A digest has 64 characters.
structure Digest where
  derive        : TunnelID → String
  length_derive : ∀ name, (derive name).length = 64

def defaultHandshakeMaxAge : Duration :=
  180000000000

namespace View

variable {keyFn : TunnelID → String}

-- The paths that `RandomPath` draws from.
def paths (v : View keyFn) : List ConfigPath :=
  v.order.map fun key => (v.lookup key).getD ""

end View

theorem EligibleSet.paths_ne_nil {keyFn : TunnelID → String} (set : EligibleSet keyFn) : set.paths ≠ [] := by
  simpa [View.paths] using set.ne_nil

theorem EligibleSet.lookup_empty {digest : Digest} (set : EligibleSet digest.derive) :
    set.lookup "" = none := by
  by_contra hn
  have ⟨path, hl⟩ := Option.ne_none_iff_exists'.mp hn
  have ⟨ent, he, _⟩ := Option.map_eq_some_iff.mp hl
  simpa [← set.key_eq he] using digest.length_derive ent.basename

theorem Supervisor.Duration.toNat_pos {d : Duration} (h : 0 < d) : 0 < d.toNat := by
  have hi : (0 : Int) < d.toInt := by simpa [Int64.lt_iff_toInt_lt] using h
  exact Int.pos_iff_toNat_pos.mp hi

structure SupervisorOptions where
  eligible        : Option (EligibleSet id)
  handshakeMaxAge : Duration
  reconnectMin    : Duration
  reconnectMax    : Duration
  pollInterval    : Duration
  rotateSettle    : Duration
  configDir       : String

-- The error is the text of the panic.
def newStreamingSupervisor (opts : SupervisorOptions) : Except String Supervisor.Options :=
  match opts.eligible with
  | none => .error "tunnelpool: StreamingSupervisor requires a non-nil EligibleSet"
  | some set =>
    if ha : 0 < opts.handshakeMaxAge then
      if hr : 0 < opts.reconnectMin then
        if hm : opts.reconnectMin ≤ opts.reconnectMax then
          if hs : 0 < opts.rotateSettle then
            if opts.configDir ≠ "" then
              .ok {
                eligible            := set.paths
                handshakeMaxAge     := opts.handshakeMaxAge
                reconnectMin        := opts.reconnectMin
                reconnectMax        := opts.reconnectMax
                pollInterval        := opts.pollInterval
                rotateSettle        := opts.rotateSettle
                eligible_ne_nil     := set.paths_ne_nil
                handshakeMaxAge_pos := ha
                reconnectMin_pos    := hr
                reconnectMin_le     := hm
                rotateSettle_pos    := hs
              }
            else .error "tunnelpool: StreamingSupervisor requires non-empty ConfigDir"
          else .error "tunnelpool: StreamingSupervisor requires RotateSettle > 0"
        else .error "tunnelpool: StreamingSupervisor requires ReconnectMax >= ReconnectMin"
      else .error "tunnelpool: StreamingSupervisor requires ReconnectMin > 0"
    else .error "tunnelpool: StreamingSupervisor requires HandshakeMaxAge > 0"

structure SchedulerOptions (digest : Digest) where
  eligible    : Option (EligibleSet digest.derive)
  settleDelay : Duration
  grace       : Duration
  idleTTL     : Duration
  configDir   : String

def newOnDemandScheduler {digest : Digest} (opts : SchedulerOptions digest) :
    Except String Scheduler.Options :=
  match opts.eligible with
  | none => .error "tunnelpool: OnDemandScheduler requires a non-nil EligibleSet"
  | some set =>
    if hs : 0 < opts.settleDelay then
      if hg : 0 < opts.grace then
        if hi : 0 < opts.idleTTL then
          if opts.configDir ≠ "" then
            .ok {
              eligible        := set.lookup
              settleDelay     := opts.settleDelay.toNat
              grace           := opts.grace.toNat
              idleTTL         := opts.idleTTL.toNat
              eligible_empty  := set.lookup_empty
              settleDelay_pos := Supervisor.Duration.toNat_pos hs
              grace_pos       := Supervisor.Duration.toNat_pos hg
              idleTTL_pos     := Supervisor.Duration.toNat_pos hi
            }
          else .error "tunnelpool: OnDemandScheduler requires non-empty ConfigDir"
        else .error "tunnelpool: OnDemandScheduler requires IdleTTL > 0"
      else .error "tunnelpool: OnDemandScheduler requires Grace > 0"
    else .error "tunnelpool: OnDemandScheduler requires SettleDelay > 0"

end Tunnelpool
