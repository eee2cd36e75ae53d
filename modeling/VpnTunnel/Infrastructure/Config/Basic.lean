import Mathlib.Data.List.Basic
import VpnTunnel.Lib.Filepath
import VpnTunnel.Lib.Netip.Basic

namespace Policy

-- Durations are in nanoseconds.
abbrev Duration :=
  Int64

namespace Duration

def second : Duration :=
  1000000000

def minute : Duration :=
  60 * second

def hour : Duration :=
  60 * minute

end Duration

open Duration

def defaultListen : ByteString := .ofString "127.0.0.1:7788"
def defaultDialTimeout : Duration := 10 * second
def defaultIdleTimeout : Duration := 90 * second
def defaultShutdownTimeout : Duration := 15 * second
def defaultAccessLogPath : ByteString := .ofString "./logs/access.log"
def defaultAccessLogSizeMB : Int64 := 100
def defaultAccessLogAgeDays : Int64 := 14
def defaultAccessLogBackups : Int64 := 7
def defaultOperationalLevel : ByteString := .ofString "info"
def defaultOperationalFormat : ByteString := .ofString "text"
def defaultAPIListen : ByteString := .ofString "127.0.0.1:8888"
def defaultAPIShutdownTimeout : Duration := 5 * second
def defaultAPIMaxRequestBodyBytes : Int64 := 10 * 1024 * 1024
def defaultAPIUpstreamTimeout : Duration := 30 * second
def defaultAPIMaxUpstreamTimeout : Duration := 5 * minute
def defaultAsyncStoragePath : ByteString := .ofString "/opt/vpntunnel/state/async.db"
def defaultTunnelIDHMACKeyFile : ByteString := .ofString "./auth/tunnel-id.key"
def defaultStreamingReconnectMin : Duration := 10 * minute
def defaultStreamingReconnectMax : Duration := 3 * hour
def defaultOnDemandGrace : Duration := 10 * second
def defaultOnDemandSettleDelay : Duration := 15 * second
def defaultOnDemandIdleTTL : Duration := 168 * hour

end Policy

namespace Infrastructure

open Policy (Duration)

namespace Config

structure Auth where
  token     : ByteString
  tokenFile : ByteString
  deriving DecidableEq

structure VPNStream where
  listen           : ByteString
  allowedCountries : List ByteString
  auth             : Auth
  reconnectMin     : Duration
  reconnectMax     : Duration
  dialTimeout      : Duration
  idleTimeout      : Duration
  shutdownTimeout  : Duration
  deriving DecidableEq

structure AccessLog where
  path       : ByteString
  maxSizeMB  : Int64
  maxAgeDays : Int64
  maxBackups : Int64
  compress   : Bool
  deriving DecidableEq

structure Operational where
  level  : ByteString
  format : ByteString
  deriving DecidableEq

structure APIAuth where
  proxyTokenFile : ByteString
  adminTokenFile : ByteString
  deriving DecidableEq

structure OnDemand where
  grace       : Duration
  settleDelay : Duration
  idleTTL     : Duration
  deriving DecidableEq

-- The pattern is the text that was compiled.
structure PathSanitizePattern where
  pattern     : ByteString
  replacement : ByteString
  deriving DecidableEq

structure LogConfig where
  pathSanitizePatterns : List PathSanitizePattern
  deriving DecidableEq

structure AsyncConfig where
  storagePath : ByteString
  deriving DecidableEq

structure APIVPN where
  async      : AsyncConfig
  demand     : OnDemand
  timeout    : Duration
  maxTimeout : Duration
  deriving DecidableEq

structure API where
  listen              : ByteString
  shutdownTimeout     : Duration
  auth                : APIAuth
  maxRequestBodyBytes : Int64
  vpn                 : APIVPN
  log                 : LogConfig
  deriving DecidableEq

end Config

open Config in
structure Config where
  vpnStream           : VPNStream
  accessLog           : AccessLog
  operational         : Operational
  api                 : API
  tunnelIDHMACKeyFile : ByteString
  dir                 : String
  deriving DecidableEq

-- What the file is decoded into. A field that is a pointer is `none` where it is absent or `null`, and
-- the other ones have their zero value there.
structure RawVPNStream where
  listen           : ByteString
  allowedCountries : List ByteString
  auth             : Config.Auth
  reconnectMin     : Option Duration
  reconnectMax     : Option Duration
  dialTimeout      : Duration
  idleTimeout      : Duration
  shutdownTimeout  : Duration

structure RawAccessLog where
  path       : ByteString
  maxSizeMB  : Int64
  maxAgeDays : Int64
  maxBackups : Int64
  compress   : Option Bool

structure RawAPIVPNDemand where
  grace       : Option Duration
  settleDelay : Option Duration
  idleTTL     : Option Duration

structure RawAsync where
  storagePath : Option ByteString

structure RawAPIVPN where
  async      : Option RawAsync
  demand     : Option RawAPIVPNDemand
  timeout    : Duration
  maxTimeout : Duration

structure RawPathSanitizePattern where
  pattern     : ByteString
  replacement : ByteString

structure RawAPI where
  listen              : ByteString
  shutdownTimeout     : Option Duration
  auth                : Config.APIAuth
  maxRequestBodyBytes : Int64
  vpn                 : Option RawAPIVPN
  log                 : List RawPathSanitizePattern

structure RawConfig where
  vpnStream           : RawVPNStream
  accessLog           : RawAccessLog
  operational         : Config.Operational
  api                 : Option RawAPI
  tunnelIDHMACKeyFile : Option ByteString

namespace Config

inductive Error
  | publicDetails (details : String)
  | plain (message : String)
  deriving DecidableEq, Repr

-- What `Load` calls on: the files, the decoding of JSON into a map and into a `rawConfig`, the
-- compilation of regular expressions (of which the error is returned), and the printing of values.
structure Env where
  Data           : Type
  readFile       : String → Except String Data
  unmarshalProbe : Data → Except String (ByteString → Option Data)
  unmarshal      : Data → Except String RawConfig
  compile        : ByteString → Option String
  getwd          : Filepath.Getwd
  quote          : ByteString → String
  durationString : Duration → String

def apiShutdownAbsent : Duration :=
  -1

def lazyDurationAbsent : Duration :=
  Int64.minValue + 1

def require (p : Prop) [Decidable p] (details : String) : Except Error Unit :=
  if p then .ok () else .error (.publicDetails details)

section Probes

variable (env : Env) (probe : ByteString → Option env.Data)

def probeRemovedKey (key message : String) : Except Error Unit :=
  require (probe (.ofString key) = none) message

def probeRemovedKeys (keys : List (String × String)) : Except Error Unit :=
  forM keys fun (key, message) => probeRemovedKey env probe key message

-- The check of the block that is stored for a key. It is skipped if there is no such block, or if the
-- block can not be decoded, which then only leads to a warning.
def probeBlock (key : String) (check : (ByteString → Option env.Data) → Except Error Unit) :
    Except Error Unit :=
  match probe (.ofString key) with
  | none     => .ok ()
  | some raw =>
    match env.unmarshalProbe raw with
    | .error _ => .ok ()
    | .ok sub  => check sub

def probeUpstream (path : String) : Except Error Unit :=
  probeBlock env probe "upstream" fun upstream =>
    match upstream (.ofString "configs") with
    | some _ => .error <| .publicDetails <|
      "config.upstream.configs: removed; tunnels are now auto-discovered from " ++
        Filepath.join (Filepath.dir path) "tunnels" ++ " — delete this field"
    | none => .error <| .publicDetails
      "config.upstream: moved to vpnstream (allowed_countries → vpnstream.allowed_countries)"

def removedKeys : List (String × String) := [
  ("listen", "config.listen: moved to vpnstream.listen"),
  ("auth", "config.auth: moved to vpnstream.auth"),
  ("dial_timeout", "config.dial_timeout: moved to vpnstream.dial_timeout"),
  ("idle_timeout", "config.idle_timeout: moved to vpnstream.idle_timeout"),
  ("shutdown_timeout", "config.shutdown_timeout: moved to vpnstream.shutdown_timeout"),
  ("streaming", "config.streaming: moved to vpnstream (reconnect_min/reconnect_max)"),
  ("ondemand", "config.ondemand: moved to api.vpn.demand"),
  ("health", "config.health: removed; handshake_max_age is now a built-in constant " ++
    "(tunnelpool.DefaultHandshakeMaxAge = 180s)")
]

def removedAPIKeys : List (String × String) := [
  ("tls", "config.api.tls: removed; use the -tls-cert-dir, -tls-hostname, -tls-ip-sans CLI flags"),
  ("upstream_timeout", "config.api.upstream_timeout: moved to api.vpn.timeout"),
  ("max_upstream_timeout", "config.api.max_upstream_timeout: moved to api.vpn.max_timeout"),
  ("async", "config.api.async: moved to api.vpn.async (only storage_path survives; " ++
    "max_concurrent_jobs/pending_timeout/complete_ttl/tombstone_ttl are now built-in constants in " ++
    "internal/application/asyncjob)")
]

def removedAsyncKeys : List (String × String) :=
  ["max_concurrent_jobs", "pending_timeout", "complete_ttl", "tombstone_ttl"].map fun key =>
    (key, "config.api.vpn.async." ++ key ++
      ": removed; now a built-in constant in internal/application/asyncjob")

def removedAuthKeys : List (String × String) := [
  ("user_token_file", "config.api.auth.user_token_file: renamed to proxy_token_file"),
  ("deploy_token_file", "config.api.auth.deploy_token_file: removed; the deploy role no longer " ++
    "exists — the release health-check uses the admin token")
]

def probeAPI : Except Error Unit :=
  probeBlock env probe "api" fun api => do
    probeRemovedKeys env api removedAPIKeys
    probeBlock env api "vpn" fun vpn =>
      probeBlock env vpn "async" fun async => probeRemovedKeys env async removedAsyncKeys
    probeBlock env api "auth" fun auth => probeRemovedKeys env auth removedAuthKeys

end Probes

def compilePatterns (env : Env) (patterns : List RawPathSanitizePattern) :
    Except Error (List PathSanitizePattern) :=
  patterns.zipIdx.mapM fun (rp, i) => do
    let field := "config.api.log.path_sanitize_patterns[" ++ toString i ++ "].pattern: "
    require (rp.pattern ≠ []) (field ++ "must not be empty")
    match env.compile rp.pattern with
    | some err => .error <| .publicDetails (field ++ "invalid regex: " ++ err)
    | none     => return { pattern := rp.pattern, replacement := rp.replacement }

end Config

open Config

namespace RawConfig

def toVPNStream (r : RawVPNStream) : VPNStream where
  listen           := r.listen
  allowedCountries := r.allowedCountries
  auth             := { token := r.auth.token.trimSpace, tokenFile := r.auth.tokenFile.trimSpace }
  reconnectMin     := r.reconnectMin.getD lazyDurationAbsent
  reconnectMax     := r.reconnectMax.getD lazyDurationAbsent
  dialTimeout      := r.dialTimeout
  idleTimeout      := r.idleTimeout
  shutdownTimeout  := r.shutdownTimeout

def toAPIVPN (vpn : Option RawAPIVPN) : APIVPN :=
  let demand := vpn.bind (·.demand)
  {
    async      := ⟨((vpn.bind (·.async)).bind (·.storagePath)).getD Policy.defaultAsyncStoragePath⟩
    demand     := {
      grace       := (demand.bind (·.grace)).getD lazyDurationAbsent
      settleDelay := (demand.bind (·.settleDelay)).getD lazyDurationAbsent
      idleTTL     := (demand.bind (·.idleTTL)).getD lazyDurationAbsent
    }
    timeout    := (vpn.map (·.timeout)).getD 0
    maxTimeout := (vpn.map (·.maxTimeout)).getD 0
  }

-- The directory is filled in later, by `Load`.
def toConfig (env : Env) (r : RawConfig) : Except Error Config := do
  let some api := r.api | .error <| .publicDetails <| "config.api: block is required; add an api " ++
    "block (see configs/proxy.example.json for the required fields)"
  let patterns ← compilePatterns env api.log
  return {
    vpnStream           := toVPNStream r.vpnStream
    accessLog           := {
      path       := r.accessLog.path
      maxSizeMB  := r.accessLog.maxSizeMB
      maxAgeDays := r.accessLog.maxAgeDays
      maxBackups := r.accessLog.maxBackups
      compress   := r.accessLog.compress.getD true
    }
    operational         := r.operational
    api                 := {
      listen              := api.listen
      shutdownTimeout     := api.shutdownTimeout.getD apiShutdownAbsent
      auth                := api.auth
      maxRequestBodyBytes := api.maxRequestBodyBytes
      vpn                 := toAPIVPN api.vpn
      log                 := ⟨patterns⟩
    }
    tunnelIDHMACKeyFile := r.tunnelIDHMACKeyFile.getD Policy.defaultTunnelIDHMACKeyFile
    dir                 := ""
  }

end RawConfig

namespace Config

def orDefault [DecidableEq α] (absent default : α) (value : α) : α :=
  if value = absent then default else value

def applyDefaults (c : Config) : Config where
  vpnStream           := { c.vpnStream with
    listen          := orDefault [] Policy.defaultListen c.vpnStream.listen
    dialTimeout     := orDefault 0 Policy.defaultDialTimeout c.vpnStream.dialTimeout
    idleTimeout     := orDefault 0 Policy.defaultIdleTimeout c.vpnStream.idleTimeout
    shutdownTimeout := orDefault 0 Policy.defaultShutdownTimeout c.vpnStream.shutdownTimeout
    reconnectMin    :=
      orDefault lazyDurationAbsent Policy.defaultStreamingReconnectMin c.vpnStream.reconnectMin
    reconnectMax    :=
      orDefault lazyDurationAbsent Policy.defaultStreamingReconnectMax c.vpnStream.reconnectMax
  }
  accessLog           := { c.accessLog with
    path       := orDefault [] Policy.defaultAccessLogPath c.accessLog.path
    maxSizeMB  := orDefault 0 Policy.defaultAccessLogSizeMB c.accessLog.maxSizeMB
    maxAgeDays := orDefault 0 Policy.defaultAccessLogAgeDays c.accessLog.maxAgeDays
    maxBackups := orDefault 0 Policy.defaultAccessLogBackups c.accessLog.maxBackups
  }
  operational         := {
    level  := orDefault [] Policy.defaultOperationalLevel c.operational.level
    format := orDefault [] Policy.defaultOperationalFormat c.operational.format
  }
  api                 := { c.api with
    shutdownTimeout     :=
      orDefault apiShutdownAbsent Policy.defaultAPIShutdownTimeout c.api.shutdownTimeout
    listen              := orDefault [] Policy.defaultAPIListen c.api.listen
    maxRequestBodyBytes :=
      orDefault 0 Policy.defaultAPIMaxRequestBodyBytes c.api.maxRequestBodyBytes
    vpn                 := { c.api.vpn with
      timeout    := orDefault 0 Policy.defaultAPIUpstreamTimeout c.api.vpn.timeout
      maxTimeout := orDefault 0 Policy.defaultAPIMaxUpstreamTimeout c.api.vpn.maxTimeout
      demand     := {
        grace       := orDefault lazyDurationAbsent Policy.defaultOnDemandGrace c.api.vpn.demand.grace
        settleDelay :=
          orDefault lazyDurationAbsent Policy.defaultOnDemandSettleDelay c.api.vpn.demand.settleDelay
        idleTTL     :=
          orDefault lazyDurationAbsent Policy.defaultOnDemandIdleTTL c.api.vpn.demand.idleTTL
      }
    }
  }
  tunnelIDHMACKeyFile := c.tunnelIDHMACKeyFile
  dir                 := c.dir

def isHostPort (addr : ByteString) : Bool :=
  addr ≠ [] && (Net.splitHostPort addr).isOk

def isCountryCode : ByteString → Bool
  | [a, b] => ByteString.isLower a && ByteString.isLower b
  | _      => false

def minSettleDelay : Duration :=
  5 * Duration.second

def validateCountries (env : Env) (codes : List ByteString) : Except Error Unit :=
  forM codes.zipIdx fun (cc, i) =>
    require (isCountryCode cc) <| "config.vpnstream.allowed_countries[" ++ toString i ++ "]: " ++
      env.quote cc ++ " is not a valid two-letter lowercase country code"

def validateVPNStream (env : Env) (c : Config) : Except Error Unit := do
  let v := c.vpnStream
  require (isHostPort v.listen) "config.vpnstream.listen: must be host:port"
  require (0 ≤ v.dialTimeout) "config.vpnstream.dial_timeout: must be >= 0"
  require (0 ≤ v.idleTimeout) "config.vpnstream.idle_timeout: must be >= 0"
  require (0 ≤ v.shutdownTimeout) "config.vpnstream.shutdown_timeout: must be >= 0"
  require (c.accessLog.path ≠ []) "config.access_log.path: required"
  require (v.auth.token = [] ∨ v.auth.tokenFile = [])
    "config.vpnstream.auth: token and token_file are mutually exclusive; pick one"
  validateCountries env v.allowedCountries
  require (0 < v.reconnectMin) "config.vpnstream.reconnect_min: must be > 0"
  require (0 < v.reconnectMax) "config.vpnstream.reconnect_max: must be > 0"
  require (v.reconnectMin ≤ v.reconnectMax) <|
    "config.vpnstream.reconnect_min (" ++ env.durationString v.reconnectMin ++
      ") must be <= reconnect_max (" ++ env.durationString v.reconnectMax ++ ")"

def validateAPI (env : Env) (c : Config) : Except Error Unit := do
  let a := c.api
  require (isHostPort a.listen) "config.api.listen: must be host:port"
  require (0 ≤ a.shutdownTimeout) "config.api.shutdown_timeout: must be >= 0"
  require (a.auth.proxyTokenFile ≠ []) "config.api.auth.proxy_token_file: required"
  require (a.auth.adminTokenFile ≠ []) "config.api.auth.admin_token_file: required"
  require (Filepath.clean a.auth.proxyTokenFile.text ≠ Filepath.clean a.auth.adminTokenFile.text)
    "config.api.auth: proxy_token_file and admin_token_file resolve to the same path"
  require (0 < a.maxRequestBodyBytes) "config.api.max_request_body_bytes: must be > 0"
  require (0 < a.vpn.timeout) "config.api.vpn.timeout: must be > 0"
  require (0 < a.vpn.maxTimeout) "config.api.vpn.max_timeout: must be > 0"
  require (a.vpn.timeout ≤ a.vpn.maxTimeout) <|
    "config.api.vpn.timeout (" ++ env.durationString a.vpn.timeout ++
      ") must be <= max_timeout (" ++ env.durationString a.vpn.maxTimeout ++ ")"
  require (a.vpn.async.storagePath ≠ []) "config.api.vpn.async.storage_path: must not be empty"

def validateDemand (env : Env) (d : OnDemand) : Except Error Unit := do
  require (0 < d.grace) "config.api.vpn.demand.grace: must be > 0"
  require (0 < d.settleDelay) "config.api.vpn.demand.settle_delay: must be > 0"
  require (minSettleDelay ≤ d.settleDelay) <|
    "config.api.vpn.demand.settle_delay: must be >= " ++ env.durationString minSettleDelay ++
      " (got " ++ env.durationString d.settleDelay ++ ")"
  require (0 < d.idleTTL) "config.api.vpn.demand.idle_ttl: must be > 0"

def validate (env : Env) (c : Config) : Except Error Unit := do
  validateVPNStream env c
  validateAPI env c
  require (c.tunnelIDHMACKeyFile ≠ []) "config.tunnel_id_hmac_key_file: must not be empty"
  validateDemand env c.api.vpn.demand

def plain (what : String) : Except String α → Except Error α :=
  Except.mapError fun err => .plain (what ++ ": " ++ err)

def load (env : Env) (path : String) : Except Error Config := do
  let data ← plain ("open config " ++ path) (env.readFile path)
  let probe ← plain ("decode config " ++ path) (env.unmarshalProbe data)
  probeRemovedKey env probe "admin" "config.admin: removed in v5; use the api block"
  probeUpstream env probe path
  probeRemovedKeys env probe removedKeys
  probeAPI env probe
  let raw ← plain ("decode config " ++ path) (env.unmarshal data)
  let cfg ← raw.toConfig env
  let absPath ← plain ("resolve config path " ++ path) (Filepath.abs env.getwd path)
  let cfg := { cfg with dir := Filepath.dir absPath }.applyDefaults
  validate env cfg
  return cfg

end Config
end Infrastructure
