import VpnTunnel.Infrastructure.Config.Basic
import VpnTunnel.Lib.Batch

namespace Infrastructure.Config

variable {env : Env} {c : Config} {p : Prop} [Decidable p]

@[simp]
theorem require_eq_ok {u : Unit} : require p details = .ok u ↔ p := by
  simp [require]

-- What the fields of an accepted configuration look like.
structure Valid (c : Config) : Prop where
  listen          : isHostPort c.vpnStream.listen
  dialTimeout     : 0 ≤ c.vpnStream.dialTimeout
  idleTimeout     : 0 ≤ c.vpnStream.idleTimeout
  shutdownTimeout : 0 ≤ c.vpnStream.shutdownTimeout
  accessLog       : c.accessLog.path ≠ []
  auth            : c.vpnStream.auth.token = [] ∨ c.vpnStream.auth.tokenFile = []
  countries       : ∀ cc ∈ c.vpnStream.allowedCountries, isCountryCode cc
  reconnectMin    : 0 < c.vpnStream.reconnectMin
  reconnectMax    : c.vpnStream.reconnectMin ≤ c.vpnStream.reconnectMax
  apiListen       : isHostPort c.api.listen
  apiShutdown     : 0 ≤ c.api.shutdownTimeout
  proxyToken      : c.api.auth.proxyTokenFile ≠ []
  adminToken      : c.api.auth.adminTokenFile ≠ []
  tokens          : Filepath.clean c.api.auth.proxyTokenFile.text ≠
    Filepath.clean c.api.auth.adminTokenFile.text
  body            : 0 < c.api.maxRequestBodyBytes
  timeout         : 0 < c.api.vpn.timeout
  maxTimeout      : c.api.vpn.timeout ≤ c.api.vpn.maxTimeout
  storagePath     : c.api.vpn.async.storagePath ≠ []
  hmacKeyFile     : c.tunnelIDHMACKeyFile ≠ []
  grace           : 0 < c.api.vpn.demand.grace
  settleDelay     : minSettleDelay ≤ c.api.vpn.demand.settleDelay
  idleTTL         : 0 < c.api.vpn.demand.idleTTL

theorem Valid.settle_pos (h : c.Valid) : 0 < c.api.vpn.demand.settleDelay :=
  Int64.lt_of_lt_of_le (by decide) h.settleDelay

theorem validateCountries_eq_ok_iff {codes : List ByteString} {u : Unit} :
    validateCountries env codes = .ok u ↔ ∀ cc ∈ codes, isCountryCode cc := by
  simp only [validateCountries, List.forM_eq_ok, require_eq_ok]
  constructor
  · intro h cc hc
    have ⟨i, hi, he⟩ := List.mem_iff_getElem.mp hc
    exact h (cc, i) (List.mem_zipIdx_iff_getElem?.mpr (he ▸ List.getElem?_eq_getElem hi))
  · intro h (cc, i) hc
    exact h cc (List.mem_of_getElem? (List.mem_zipIdx_iff_getElem?.mp hc))

theorem validate_eq_ok_iff {u : Unit} : validate env c = .ok u ↔ c.Valid := by
  simp only [validate, validateVPNStream, validateAPI, validateDemand, Except.bind_eq_ok, require_eq_ok,
    validateCountries_eq_ok_iff, exists_and_left, exists_const]
  constructor
  · rintro ⟨⟨_, _, _, _, _, _, _, _, _, _⟩, ⟨_, _, _, _, _, _, _, _, _, _⟩, _, _, _, _, _⟩
    constructor <;> assumption
  · intro h
    have hr := Int64.lt_of_lt_of_le h.reconnectMin h.reconnectMax
    have ht := Int64.lt_of_lt_of_le h.timeout h.maxTimeout
    exact ⟨⟨h.listen, h.dialTimeout, h.idleTimeout, h.shutdownTimeout, h.accessLog, h.auth, h.countries,
      h.reconnectMin, hr, h.reconnectMax⟩, ⟨h.apiListen, h.apiShutdown, h.proxyToken, h.adminToken,
      h.tokens, h.body, h.timeout, ht, h.maxTimeout, h.storagePath⟩, h.hmacKeyFile, h.grace, h.settle_pos,
      h.settleDelay, h.idleTTL⟩

-- None of the settings that were moved or removed is in the file.
structure Probed (env : Env) (path : String) (probe : ByteString → Option env.Data) : Prop where
  admin    : probeRemovedKey env probe "admin" "config.admin: removed in v5; use the api block" = .ok ()
  upstream : probeUpstream env probe path = .ok ()
  removed  : probeRemovedKeys env probe removedKeys = .ok ()
  api      : probeAPI env probe = .ok ()

-- How a configuration that is accepted comes about.
structure Loaded (env : Env) (path : String) (r : RawConfig) (c : Config) : Prop where
  config   : ∃ cfg abs, r.toConfig env = .ok cfg ∧ Filepath.abs env.getwd path = .ok abs ∧
    c = { cfg with dir := Filepath.dir abs }.applyDefaults
  valid    : c.Valid

theorem load_eq_ok_iff : load env path = .ok c ↔ ∃ data probe r, env.readFile path = .ok data ∧
    env.unmarshalProbe data = .ok probe ∧ env.unmarshal data = .ok r ∧ Probed env path probe ∧
    Loaded env path r c := by
  simp only [load, plain, Except.bind_eq_ok, Except.mapError_eq_ok, Except.pure_eq_ok,
    validate_eq_ok_iff]
  constructor
  · rintro ⟨data, hd, probe, hp, _, h₁, _, h₂, _, h₃, _, h₄, r, hr, cfg, hc, abs, ha, _, hv, rfl⟩
    exact ⟨data, probe, r, hd, hp, hr, ⟨h₁, h₂, h₃, h₄⟩, ⟨cfg, abs, hc, ha, rfl⟩, hv⟩
  · rintro ⟨data, probe, r, hd, hp, hr, ⟨h₁, h₂, h₃, h₄⟩, ⟨cfg, abs, hc, ha, rfl⟩, hv⟩
    exact ⟨data, hd, probe, hp, _, h₁, _, h₂, _, h₃, _, h₄, r, hr, cfg, hc, abs, ha, (), hv, rfl⟩

theorem load_elim (h : load env path = .ok c) : c.Valid ∧ ∃ abs, c.dir = Filepath.dir abs := by
  have ⟨_, _, _, _, _, _, _, hl⟩ := load_eq_ok_iff.mp h
  have ⟨_, abs, _, _, hc⟩ := hl.config
  exact ⟨hl.valid, abs, hc ▸ rfl⟩

end Infrastructure.Config
