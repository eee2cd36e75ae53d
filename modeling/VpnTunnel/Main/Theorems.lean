import VpnTunnel.Infrastructure.Config.Theorems
import VpnTunnel.Lib.Json
import VpnTunnel.Main.Basic
import VpnTunnel.Tunnelpool.Supervisor.Theorems.Settle

namespace Tunnelpool

open Supervisor (ConfigPath TunnelID Country tunnelIDFromPath countryFromBasename)
open Infrastructure.Config (isCountryCode)

variable {env : Env}

theorem lowerByte_of_isLower {b : UInt8} (h : ByteString.isLower b) :
    ByteString.lowerByte b = b ∧ b < 0x80 := by
  simp only [ByteString.isLower, Bool.and_eq_true, decide_eq_true_eq, UInt8.le_iff_toNat_le] at h
  have hu : ¬ByteString.isUpper b := by
    simp only [ByteString.isUpper, Bool.and_eq_true, decide_eq_true_eq, UInt8.le_iff_toNat_le]
    simp at h ⊢
    omega
  refine ⟨if_neg hu, ?_⟩
  rw [UInt8.lt_iff_toNat_lt]
  simp at h ⊢
  omega

-- The codes of an accepted configuration are in lower case already.
theorem toLower_of_isCountryCode {table : ByteString.CaseTable} {cc : ByteString} (h : isCountryCode cc) :
    cc.toLower table = cc := by
  unfold isCountryCode at h
  split at h
  case h_2 => contradiction
  case h_1 a b =>
    have ⟨ha, hb⟩ := Bool.and_eq_true_iff.mp h
    have ⟨ha, ha'⟩ := lowerByte_of_isLower ha
    have ⟨hb, hb'⟩ := lowerByte_of_isLower hb
    rw [ByteString.toLower_of_ascii (by simp [Utf8.Ascii, ha', hb'])]
    simp [ha, hb]

theorem allows_iff {allowed : List ByteString} {country : Country} (h : ∀ cc ∈ allowed, isCountryCode cc) :
    allows env allowed country ↔ allowed = [] ∨ ∃ cc ∈ allowed, cc.text = country := by
  have hm : (allowed.map fun cc => (cc.toLower env.table).text) = allowed.map (·.text) :=
    List.map_congr_left fun cc hc => by rw [toLower_of_isCountryCode (h cc hc)]
  simp [allows, hm]

end Tunnelpool

namespace Main

open Tunnelpool
open Supervisor (ConfigPath tunnelIDFromPath countryFromBasename)
open Infrastructure (Config)
open Infrastructure.Config (load minSettleDelay)

variable {env : Env} {cfg : Config} {m : Managers}

-- The settings that the constructors receive.
structure Managers.Wired (m : Managers) (cfg : Config) : Prop where
  eligible     : m.supervisor.eligible = m.streamingSet.paths
  reconnectMin : m.supervisor.reconnectMin = cfg.vpnStream.reconnectMin
  reconnectMax : m.supervisor.reconnectMax = cfg.vpnStream.reconnectMax
  rotateSettle : m.supervisor.rotateSettle = cfg.api.vpn.demand.settleDelay
  lookup       : m.scheduler.eligible = m.fullSet.lookup
  settleDelay  : m.scheduler.settleDelay = m.supervisor.rotateSettle.toNat
  grace        : m.scheduler.grace = cfg.api.vpn.demand.grace.toNatClampNeg
  idleTTL      : m.scheduler.idleTTL = cfg.api.vpn.demand.idleTTL.toNatClampNeg

theorem newStreamingSupervisor_of_valid (hv : cfg.Valid) (hd : cfg.dir ≠ "") (set : EligibleSet id) :
    ∃ o, newStreamingSupervisor (supervisorOptions cfg set) = .ok o ∧ o.eligible = set.paths ∧
      o.reconnectMin = cfg.vpnStream.reconnectMin ∧ o.reconnectMax = cfg.vpnStream.reconnectMax ∧
      o.rotateSettle = cfg.api.vpn.demand.settleDelay := by
  have ha : 0 < defaultHandshakeMaxAge := by decide
  simp [newStreamingSupervisor, supervisorOptions, ha, hv.reconnectMin, hv.reconnectMax, hv.settle_pos, hd]

theorem newOnDemandScheduler_of_valid (hv : cfg.Valid) (hd : cfg.dir ≠ "") {digest : Digest}
    (set : EligibleSet digest.derive) :
    ∃ o, newOnDemandScheduler (schedulerOptions cfg set) = .ok o ∧ o.eligible = set.lookup ∧
      o.settleDelay = cfg.api.vpn.demand.settleDelay.toNatClampNeg ∧
      o.grace = cfg.api.vpn.demand.grace.toNatClampNeg ∧
      o.idleTTL = cfg.api.vpn.demand.idleTTL.toNatClampNeg := by
  simp [newOnDemandScheduler, schedulerOptions, hv.grace, hv.idleTTL, hv.settle_pos, hd,
    Supervisor.Duration.toNat]

theorem newManagers_of_valid (hv : cfg.Valid) (hd : cfg.dir ≠ "") {digest : Digest}
    (fullSet : EligibleSet digest.derive) (streamingSet : EligibleSet id) :
    ∃ m, newManagers cfg digest fullSet streamingSet = .ok m ∧ m.Wired cfg := by
  have ⟨o₁, h₁, he₁, hr₁, hm₁, hs₁⟩ := newStreamingSupervisor_of_valid hv hd streamingSet
  have ⟨o₂, h₂, he₂, hs₂, hg₂, hi₂⟩ := newOnDemandScheduler_of_valid hv hd fullSet
  refine ⟨⟨digest, fullSet, streamingSet, o₁, o₂⟩, ?_, he₁, hr₁, hm₁, hs₁, he₂, ?_, hg₂, hi₂⟩
  · simp [newManagers, h₁, h₂, Except.mapError, bind, Except.bind, pure, Except.pure]
  · rw [hs₂, hs₁]
    rfl

theorem not_panic (hv : cfg.Valid) (hd : cfg.dir ≠ "") (message : String) :
    run env cfg ≠ .error (.panic message) := by
  intro h
  simp only [run, Except.bind_eq_error, Except.mapError_eq_error, reduceCtorEq, and_false, exists_false,
    false_or] at h
  have ⟨_, _, _, _, fullSet, _, streamingSet, _, _, _, h⟩ := h
  split at h
  case isTrue => contradiction
  case isFalse =>
    have ⟨m, hm, _⟩ := newManagers_of_valid hv hd fullSet streamingSet
    simp [hm, bind, Except.bind, pure, Except.pure] at h

theorem wired_of_run (hv : cfg.Valid) (hd : cfg.dir ≠ "") (h : run env cfg = .ok (some m)) :
    m.Wired cfg := by
  simp only [run, Except.bind_eq_ok, Except.mapError_eq_ok] at h
  have ⟨_, _, _, _, fullSet, _, streamingSet, _, _, _, h⟩ := h
  have ⟨m', hm, hw⟩ := newManagers_of_valid hv hd fullSet streamingSet
  split at h
  case isTrue => simp [Except.pure_eq_ok] at h
  case isFalse =>
    simp only [hm, bind, Except.bind, pure, Except.pure, Except.ok.injEq, Option.some.injEq] at h
    exact h ▸ hw

-- The path that is drawn from the streaming set.
theorem randomPath_of_valid (hv : cfg.Valid) {discovered : List ConfigPath} {set : EligibleSet id}
    (hd : discoverConfigs env.toEnv (tunnelsDir cfg) = .ok discovered)
    (hs : newEligibleSet env.toEnv discovered cfg.dir cfg.vpnStream.allowedCountries = .ok set)
    (rand : Nat) : ∃ path, set.randomPath rand = some path ∧ path ∈ discovered ∧ Filepath.isAbs path ∧
      (cfg.vpnStream.allowedCountries = [] ∨ ∃ cc ∈ cfg.vpnStream.allowedCountries,
        cc.text = countryFromBasename (tunnelIDFromPath path)) := by
  have ⟨key, ent, hl, hr⟩ := set.randomPath_spec rand
  have ⟨path, hp, he, ha⟩ := (collected_newSet hs).sound hl
  have hc := isClean_of_discoverConfigs hd hp
  rw [resolveConfig_of_isClean hc, Except.ok.injEq] at he
  refine ⟨_, hr, he ▸ hp, he ▸ hc.left, ?_⟩
  rw [← ent.basename_eq, ← ent.country_eq]
  exact (allows_iff hv.countries).mp ha

theorem wiring_safe {cenv : Config.Env} {path : String} (h : load cenv path = .ok cfg) (env : Env) :
    (∀ message, run env cfg ≠ .error (.panic message)) ∧
    (0 < cfg.vpnStream.reconnectMin ∧ cfg.vpnStream.reconnectMin ≤ cfg.vpnStream.reconnectMax ∧
      5000000000 ≤ cfg.api.vpn.demand.settleDelay ∧ 0 < cfg.api.vpn.demand.grace ∧
      0 < cfg.api.vpn.demand.idleTTL) ∧
    (∀ m, run env cfg = .ok (some m) → m.Wired cfg) ∧
    ∀ discovered, discoverConfigs env.toEnv (tunnelsDir cfg) = .ok discovered →
      (∀ (digest : Digest) full, newFullSet env.toEnv discovered cfg.dir digest.derive = .ok full →
        full.order ≠ []) ∧
      ∀ set, newEligibleSet env.toEnv discovered cfg.dir cfg.vpnStream.allowedCountries = .ok set →
        set.order ≠ [] ∧ ∀ rand, ∃ path, set.randomPath rand = some path ∧ path ∈ discovered ∧
          Filepath.isAbs path ∧ (cfg.vpnStream.allowedCountries = [] ∨
            ∃ cc ∈ cfg.vpnStream.allowedCountries,
              cc.text = countryFromBasename (tunnelIDFromPath path)) := by
  have ⟨hv, abs, hd⟩ := Infrastructure.Config.load_elim h
  have hd : cfg.dir ≠ "" := hd ▸ Filepath.dir_ne_empty
  refine ⟨not_panic hv hd, ⟨hv.reconnectMin, hv.reconnectMax, hv.settleDelay, hv.grace, hv.idleTTL⟩,
    fun _ => wired_of_run hv hd, fun discovered hc => ⟨fun _ full _ => full.ne_nil, fun set hs => ?_⟩⟩
  exact ⟨set.ne_nil, randomPath_of_valid hv hc hs⟩

-- The file `{"vpnstream": {"reconnect_min": "1s"}, "api": {"auth": {..}}}`, which relies on the defaults
-- for everything else.
def someFile : Json :=
  .obj [
    (.ofString "vpnstream", .obj [(.ofString "reconnect_min", .str (.ofString "1s"))]),
    (.ofString "api", .obj [(.ofString "auth", .obj [
      (.ofString "proxy_token_file", .str (.ofString "auth/proxy.token")),
      (.ofString "admin_token_file", .str (.ofString "auth/admin.token"))])])
  ]

def someRaw : Infrastructure.RawConfig where
  vpnStream           := {
    listen           := []
    allowedCountries := []
    auth             := ⟨[], []⟩
    reconnectMin     := some Policy.Duration.second
    reconnectMax     := none
    dialTimeout      := 0
    idleTimeout      := 0
    shutdownTimeout  := 0
  }
  accessLog           := ⟨[], 0, 0, 0, none⟩
  operational         := ⟨[], []⟩
  api                 := some {
    listen              := []
    shutdownTimeout     := none
    auth                := ⟨.ofString "auth/proxy.token", .ofString "auth/admin.token"⟩
    maxRequestBodyBytes := 0
    vpn                 := none
    log                 := []
  }
  tunnelIDHMACKeyFile := none

def someConfigEnv : Config.Env where
  Data           := Json
  readFile       := fun _ => .ok someFile
  unmarshalProbe := fun data => (data.toMap some).elim (.error "not an object") (.ok ·.lookup)
  unmarshal      := fun _ => .ok someRaw
  compile        := fun _ => none
  getwd          := .root
  quote          := (·.text)
  durationString := fun d => toString d

def someEnv : Env where
  getwd           := .root
  readDir         := fun _ => .ok [⟨".gitkeep", true⟩, ⟨"se.conf", true⟩, ⟨"old", false⟩]
  table           := default
  quote           := id
  loadOrGenerate  := fun _ _ => .ok {
    derive        := fun name => .ofList <| (name.toList ++ List.replicate 64 '0').take 64
    length_derive := by simp }
  verifySingleKey := fun _ _ => .ok ()
  cancelled       := false

def someStart : Option (Config × Managers) := do
  let cfg ← (load someConfigEnv "/v/proxy.json").toOption
  let m ← (← (run someEnv cfg).toOption)
  return (cfg, m)

theorem someStart_isSome : someStart.isSome := by
  decide +kernel

theorem exists_someStart : ∃ cfg m, someStart = some (cfg, m) ∧
    load someConfigEnv "/v/proxy.json" = .ok cfg ∧ run someEnv cfg = .ok (some m) := by
  have ⟨⟨cfg, m⟩, h⟩ := Option.isSome_iff_exists.mp someStart_isSome
  refine ⟨cfg, m, h, ?_⟩
  simp only [someStart, Option.bind_eq_bind, Option.bind_eq_some_iff, Option.pure_def, Option.some.injEq,
    Prod.mk.injEq, Except.toOption_eq_some] at h
  have ⟨_, hl, o, hr, _, ho, hc, hm⟩ := h
  subst hc hm
  exact ⟨hl, ho ▸ hr⟩

theorem wiring_safe_someStart : ∃ cfg m, load someConfigEnv "/v/proxy.json" = .ok cfg ∧
    run someEnv cfg = .ok (some m) ∧ m.Wired cfg := by
  have ⟨cfg, m, _, hl, hr⟩ := exists_someStart
  exact ⟨cfg, m, hl, hr, (wiring_safe hl someEnv).right.right.left m hr⟩

-- The settle delay is kept by the rotations. A reconnect keeps the minimal backoff instead.
theorem settled_before_build {cenv : Config.Env} {path : String} {s : Supervisor.State}
    {site : Supervisor.Build} {t : Nat} {d : Supervisor.Device} (h : load cenv path = .ok cfg)
    (hr : run env cfg = .ok (some m)) (r : (Supervisor.system m.supervisor).Reachable s)
    (hp : s.pc = .build site) (hm : (t, .closed d) ∈ s.ledger) :
    (∀ req, site = .rotate req → t + cfg.api.vpn.demand.settleDelay.toNatClampNeg ≤ s.now) ∧
    (site = .reconnect → t + cfg.vpnStream.reconnectMin.toNatClampNeg ≤ s.now) ∧
    (cfg.api.vpn.demand.settleDelay ≤ cfg.vpnStream.reconnectMin →
      t + cfg.api.vpn.demand.settleDelay.toNatClampNeg ≤ s.now) := by
  have ⟨hv, _, hd⟩ := Infrastructure.Config.load_elim h
  have hw := wired_of_run hv (hd ▸ Filepath.dir_ne_empty) hr
  have hb := Supervisor.pause_le_of_build r hp hm
  cases site
  case start =>
    have ⟨hl, _⟩ := (Supervisor.paused r).closed t d hm
    simp [hp, Supervisor.Pc.launched] at hl
  case rotate req =>
    have hb : t + m.supervisor.rotateSettle.toNat ≤ s.now := hb
    rw [hw.rotateSettle] at hb
    exact ⟨fun _ _ => hb, by simp, fun _ => hb⟩
  case reconnect =>
    have hb : t + m.supervisor.reconnectMin.toNat ≤ s.now := hb
    rw [hw.reconnectMin] at hb
    refine ⟨by simp, fun _ => hb, fun hs => ?_⟩
    exact (Nat.add_le_add_left (Supervisor.Duration.toNat_mono hs) t).trans hb

-- The first device turns out to have no handshake, and is closed. The minimal backoff of a second later,
-- the next one is built.
def staleRun : List Supervisor.Event := [
  .start, .built 0 (some true), .swap, .launch, .head, .tick 60000000000, .timer, .handshake .zero,
  .teardown, .close, .closed, .head, .tick 1000000000, .timer]

def staleCheck (cfg : Config) (s : Supervisor.State) : Bool :=
  s.pc = .build .reconnect ∧ (60000000000, .closed 0) ∈ s.ledger ∧
    s.now < 60000000000 + cfg.api.vpn.demand.settleDelay.toNatClampNeg

theorem staleRun_check : someStart.any fun (cfg, m) =>
    ((Supervisor.system m.supervisor).exec staleRun).any (staleCheck cfg) := by
  decide +kernel

theorem not_settled_staleRun : ∃ cfg m s, load someConfigEnv "/v/proxy.json" = .ok cfg ∧
    run someEnv cfg = .ok (some m) ∧ (Supervisor.system m.supervisor).Run staleRun s ∧
    s.pc = .build .reconnect ∧ (60000000000, .closed 0) ∈ s.ledger ∧
    s.now < 60000000000 + cfg.api.vpn.demand.settleDelay.toNatClampNeg := by
  have ⟨cfg, m, hs, hl, hr⟩ := exists_someStart
  have hc := staleRun_check
  rw [hs, Option.any_some] at hc
  have ⟨s, he, hc⟩ := Option.any_eq_true _ _ |>.mp hc
  exact ⟨cfg, m, s, hl, hr, .of_exec he, of_decide_eq_true hc⟩

def rotateRun : List Supervisor.Event := [
  .start, .built 0 (some true), .swap, .launch, .head, .rotate true, .rotateCh 0, .busy false, .lock,
  .busy false, .unpublish, .close, .closed, .tick 15000000000, .timer]

theorem rotateRun_check : someStart.any fun (_, m) =>
    ((Supervisor.system m.supervisor).exec rotateRun).any fun s =>
      s.pc = .build (.rotate ⟨true, 0⟩) ∧ (0, .closed 0) ∈ s.ledger := by
  decide +kernel

theorem settled_before_build_rotateRun : ∃ cfg m s, load someConfigEnv "/v/proxy.json" = .ok cfg ∧
    run someEnv cfg = .ok (some m) ∧ (Supervisor.system m.supervisor).Run rotateRun s ∧
    (0, .closed 0) ∈ s.ledger ∧ 0 + cfg.api.vpn.demand.settleDelay.toNatClampNeg ≤ s.now := by
  have ⟨cfg, m, hs, hl, hr⟩ := exists_someStart
  have hc := rotateRun_check
  rw [hs, Option.any_some] at hc
  have ⟨s, he, hc⟩ := Option.any_eq_true _ _ |>.mp hc
  have ⟨hp, hm⟩ := of_decide_eq_true hc
  have rn : (Supervisor.system m.supervisor).Run rotateRun s := .of_exec he
  exact ⟨cfg, m, s, hl, hr, rn, hm, (settled_before_build hl hr ⟨_, rn⟩ hp hm).left _ rfl⟩

end Main
