import VpnTunnel.Infrastructure.Config.Theorems
import VpnTunnel.Lib.Json

namespace Infrastructure.Config

open Policy (Duration)

-- The durations that are decoded through a pointer.
inductive DurationField
  | reconnectMin
  | reconnectMax
  | shutdownTimeout
  | grace
  | settleDelay
  | idleTTL

namespace DurationField

-- The value that the file gives explicitly.
def explicit? (r : RawConfig) : DurationField → Option Duration
  | reconnectMin    => r.vpnStream.reconnectMin
  | reconnectMax    => r.vpnStream.reconnectMax
  | shutdownTimeout => r.api.bind (·.shutdownTimeout)
  | grace           => ((r.api.bind (·.vpn)).bind (·.demand)).bind (·.grace)
  | settleDelay     => ((r.api.bind (·.vpn)).bind (·.demand)).bind (·.settleDelay)
  | idleTTL         => ((r.api.bind (·.vpn)).bind (·.demand)).bind (·.idleTTL)

def get (c : Config) : DurationField → Duration
  | reconnectMin    => c.vpnStream.reconnectMin
  | reconnectMax    => c.vpnStream.reconnectMax
  | shutdownTimeout => c.api.shutdownTimeout
  | grace           => c.api.vpn.demand.grace
  | settleDelay     => c.api.vpn.demand.settleDelay
  | idleTTL         => c.api.vpn.demand.idleTTL

-- The value that stands for an absent field between `toConfig` and `applyDefaults`.
def absent : DurationField → Duration
  | shutdownTimeout => apiShutdownAbsent
  | _               => lazyDurationAbsent

def policy : DurationField → Duration
  | reconnectMin    => Policy.defaultStreamingReconnectMin
  | reconnectMax    => Policy.defaultStreamingReconnectMax
  | shutdownTimeout => Policy.defaultAPIShutdownTimeout
  | grace           => Policy.defaultOnDemandGrace
  | settleDelay     => Policy.defaultOnDemandSettleDelay
  | idleTTL         => Policy.defaultOnDemandIdleTTL

-- The update of the block in which the settings of the scheduler are.
def modifyDemand (f : RawAPIVPNDemand → RawAPIVPNDemand) (r : RawConfig) : RawConfig :=
  { r with api := r.api.map fun a =>
    { a with vpn := a.vpn.map fun v => { v with demand := v.demand.map f } } }

-- The same file without the field.
def erase (r : RawConfig) : DurationField → RawConfig
  | reconnectMin    => { r with vpnStream := { r.vpnStream with reconnectMin := none } }
  | reconnectMax    => { r with vpnStream := { r.vpnStream with reconnectMax := none } }
  | shutdownTimeout => { r with api := r.api.map ({ · with shutdownTimeout := none }) }
  | grace           => modifyDemand ({ · with grace := none }) r
  | settleDelay     => modifyDemand ({ · with settleDelay := none }) r
  | idleTTL         => modifyDemand ({ · with idleTTL := none }) r

end DurationField

abbrev Env.withRaw (env : Env) (r : RawConfig) : Env :=
  { env with unmarshal := fun _ => .ok r }

variable {env : Env} {path : String} {data : env.Data} {r : RawConfig} {c : Config}
  {field : DurationField} {v : Duration}

theorem toConfig_elim (h : r.toConfig env = .ok c) :
    field.get c = (field.explicit? r).getD field.absent := by
  simp only [RawConfig.toConfig] at h
  split at h
  case h_2 => contradiction
  case h_1 api ha =>
    simp only [Except.bind_eq_ok, Except.pure_eq_ok] at h
    have ⟨_, _, hc⟩ := h
    subst hc
    cases field <;> simp [DurationField.get, DurationField.explicit?, DurationField.absent, ha] <;> rfl

-- A field that is absent can not be told from one with the value that stands for it.
theorem toConfig_erase (h : field.explicit? r = some field.absent) :
    (field.erase r).toConfig env = r.toConfig env := by
  cases ha : r.api
  case none =>
    cases field <;> simp [RawConfig.toConfig, DurationField.erase, DurationField.modifyDemand, ha]
  case some api =>
    cases field <;>
      simp only [DurationField.explicit?, DurationField.absent, ha, Option.bind_some,
        Option.bind_eq_some_iff] at h
    case reconnectMin | reconnectMax =>
      simp [RawConfig.toConfig, RawConfig.toVPNStream, DurationField.erase, ha, h]
    case shutdownTimeout =>
      simp [RawConfig.toConfig, DurationField.erase, ha, h]
    case grace | settleDelay | idleTTL =>
      have ⟨d, ⟨vpn, hv, hd⟩, hf⟩ := h
      simp [RawConfig.toConfig, RawConfig.toAPIVPN, DurationField.erase, DurationField.modifyDemand, ha, hv, hd, hf]

theorem get_applyDefaults :
    field.get c.applyDefaults = orDefault field.absent field.policy (field.get c) := by
  cases field <;> rfl

theorem get_dir {dir : String} : field.get { c with dir } = field.get c := by
  cases field <;> rfl

theorem policy_ne_absent : field.policy ≠ field.absent := by
  cases field <;> decide

theorem Valid.nonneg (h : c.Valid) (field : DurationField) : 0 ≤ field.get c := by
  cases field
  case reconnectMin    => exact Int64.le_of_lt h.reconnectMin
  case reconnectMax    => exact Int64.le_of_lt <| Int64.lt_of_lt_of_le h.reconnectMin h.reconnectMax
  case shutdownTimeout => exact h.apiShutdown
  case grace           => exact Int64.le_of_lt h.grace
  case settleDelay     => exact Int64.le_of_lt h.settle_pos
  case idleTTL         => exact Int64.le_of_lt h.idleTTL

theorem Loaded.get (h : Loaded env path r c) :
    field.get c = orDefault field.absent field.policy ((field.explicit? r).getD field.absent) := by
  have ⟨cfg, abs, ht, _, hc⟩ := h.config
  rw [hc, get_applyDefaults, get_dir, toConfig_elim ht]

theorem probeBlock_eq {probe : ByteString → Option env.Data} {key : String}
    {check : (ByteString → Option env.Data) → Except Error Unit} :
    probeBlock env probe key check =
      ((probe (.ofString key)).bind fun raw => (env.unmarshalProbe raw).toOption).elim (.ok ()) check := by
  unfold probeBlock
  split
  case h_1 hp => simp [hp]
  case h_2 raw hp => split <;> simp_all [Except.toOption]

-- The file that has been probed is the same one.
theorem probed_withRaw {probe : ByteString → Option env.Data} :
    Probed (env.withRaw r) path probe ↔ Probed env path probe := by
  have hu : probeUpstream (env.withRaw r) probe path = probeUpstream env probe path := by
    simp only [probeUpstream, probeBlock_eq]
    congr
    funext upstream
    cases upstream (.ofString "configs") <;> rfl
  have ha : probeAPI (env.withRaw r) probe = probeAPI env probe := by
    simp only [probeAPI, probeBlock_eq]
    rfl
  constructor
  · intro h
    exact ⟨h.admin, hu ▸ h.upstream, h.removed, ha ▸ h.api⟩
  · intro h
    exact ⟨h.admin, hu ▸ h.upstream, h.removed, ha ▸ h.api⟩

theorem load_withRaw {r' : RawConfig} (hd : env.readFile path = .ok data)
    (hr : env.unmarshal data = .ok r) (h : r'.toConfig env = r.toConfig env) :
    load (env.withRaw r') path = .ok c ↔ load env path = .ok c := by
  have hl : Loaded (env.withRaw r') path r' c ↔ Loaded env path r c := by
    constructor
    · intro ⟨⟨cfg, abs, ht, ha, hc⟩, hv⟩
      exact ⟨⟨cfg, abs, h ▸ ht, ha, hc⟩, hv⟩
    · intro ⟨⟨cfg, abs, ht, ha, hc⟩, hv⟩
      exact ⟨⟨cfg, abs, h.trans ht, ha, hc⟩, hv⟩
  rw [load_eq_ok_iff, load_eq_ok_iff]
  constructor
  · rintro ⟨data', probe, r₁, hd', hp, hr', hb, hl'⟩
    cases hd.symm.trans hd'
    cases hr'
    exact ⟨data, probe, r, hd, hp, hr, probed_withRaw.mp hb, hl.mp hl'⟩
  · rintro ⟨data', probe, r₁, hd', hp, hr', hb, hl'⟩
    cases hd.symm.trans hd'
    cases hr.symm.trans hr'
    exact ⟨data, probe, r', hd, hp, rfl, probed_withRaw.mpr hb, hl.mpr hl'⟩

-- A value that is given explicitly is kept, or the file is rejected.
structure Respected (env : Env) (path : String) (field : DurationField) (v : Duration) : Prop where
  kept     : ∀ c, load env path = .ok c → field.get c = v
  negative : v < 0 → ∀ c, load env path ≠ .ok c

theorem respected_iff (hd : env.readFile path = .ok data) (hr : env.unmarshal data = .ok r)
    (hv : field.explicit? r = some v) :
    Respected env path field v ↔
      v ≠ field.absent ∨ ∀ c, load (env.withRaw (field.erase r)) path ≠ .ok c := by
  have hg {c} (h : load env path = .ok c) : c.Valid ∧ field.get c = orDefault field.absent field.policy v := by
    have ⟨data', _, r', hd', _, hr', _, hl⟩ := load_eq_ok_iff.mp h
    cases hd.symm.trans hd'
    cases hr.symm.trans hr'
    exact ⟨hl.valid, by rw [hl.get, hv, Option.getD_some]⟩
  by_cases ha : v = field.absent
  case pos =>
    subst ha
    have he : (∀ c, load (env.withRaw (field.erase r)) path ≠ .ok c) ↔ ∀ c, load env path ≠ .ok c :=
      forall_congr' fun c => not_congr <| load_withRaw hd hr (toConfig_erase hv)
    rw [he, or_iff_right (not_not.mpr rfl)]
    constructor
    · intro h c hc
      have hp := (hg hc).right
      rw [orDefault, if_pos rfl, h.kept c hc] at hp
      exact policy_ne_absent hp.symm
    · intro h
      exact ⟨fun c hc => absurd hc (h c), fun _ => h⟩
  case neg =>
    have hk {c} (h : load env path = .ok c) : field.get c = v := (hg h).right.trans (if_neg ha)
    refine iff_of_true ⟨fun c h => hk h, fun hn c h => ?_⟩ (.inl ha)
    have hz := (hg h).left.nonneg field
    rw [hk h] at hz
    exact Int64.lt_irrefl (Int64.lt_of_lt_of_le hn hz)

-- The file `{"api": {"shutdown_timeout": v, "auth": {..}}}`, which relies on the defaults otherwise.
def shutdownFile (v : Duration) : Json :=
  .obj [(.ofString "api", .obj [
    (.ofString "shutdown_timeout", .num v.toInt),
    (.ofString "auth", .obj [
      (.ofString "proxy_token_file", .str (.ofString "auth/proxy.token")),
      (.ofString "admin_token_file", .str (.ofString "auth/admin.token"))])])]

def shutdownRaw (v : Duration) : RawConfig where
  vpnStream           := {
    listen           := []
    allowedCountries := []
    auth             := ⟨[], []⟩
    reconnectMin     := none
    reconnectMax     := none
    dialTimeout      := 0
    idleTimeout      := 0
    shutdownTimeout  := 0
  }
  accessLog           := ⟨[], 0, 0, 0, none⟩
  operational         := ⟨[], []⟩
  api                 := some {
    listen              := []
    shutdownTimeout     := some v
    auth                := ⟨.ofString "auth/proxy.token", .ofString "auth/admin.token"⟩
    maxRequestBodyBytes := 0
    vpn                 := none
    log                 := []
  }
  tunnelIDHMACKeyFile := none

def shutdownEnv (v : Duration) : Env where
  Data           := Json
  readFile       := fun _ => .ok (shutdownFile v)
  unmarshalProbe := fun data => (data.toMap some).elim (.error "not an object") (.ok ·.lookup)
  unmarshal      := fun _ => .ok (shutdownRaw v)
  compile        := fun _ => none
  getwd          := .root
  quote          := (·.text)
  durationString := fun d => toString d

-- An explicit zero is not replaced by the default.
theorem respected_shutdownEnv_zero : ∃ c, load (shutdownEnv 0) "/v/proxy.json" = .ok c ∧
    Respected (shutdownEnv 0) "/v/proxy.json" .shutdownTimeout 0 ∧ c.api.shutdownTimeout = 0 := by
  have hs : (load (shutdownEnv 0) "/v/proxy.json").toOption.isSome := by decide +kernel
  have ⟨c, hc⟩ := Option.isSome_iff_exists.mp hs
  have hc := Except.toOption_eq_some.mp hc
  have hr : Respected (shutdownEnv 0) "/v/proxy.json" .shutdownTimeout 0 :=
    have hd : (shutdownEnv 0).readFile "/v/proxy.json" = .ok (shutdownFile 0) := rfl
    (respected_iff hd rfl rfl).mpr (.inl (by decide))
  exact ⟨c, hc, hr, hr.kept c hc⟩

theorem not_respected_shutdownEnv_neg :
    (DurationField.shutdownTimeout.explicit? (shutdownRaw (-1)) = some (-1)) ∧
    (∃ c, load (shutdownEnv (-1)) "/v/proxy.json" = .ok c ∧
      c.api.shutdownTimeout = Policy.defaultAPIShutdownTimeout) ∧
    ¬Respected (shutdownEnv (-1)) "/v/proxy.json" .shutdownTimeout (-1) := by
  have hs : (load (shutdownEnv (-1)) "/v/proxy.json").toOption.map (·.api.shutdownTimeout) =
      some Policy.defaultAPIShutdownTimeout := by
    decide +kernel
  have ⟨c, hc, hv⟩ := Option.map_eq_some_iff.mp hs
  have hc := Except.toOption_eq_some.mp hc
  exact ⟨rfl, ⟨c, hc, hv⟩, fun h => h.negative (by decide) c hc⟩

end Infrastructure.Config
