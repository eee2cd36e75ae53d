import VpnTunnel.Infrastructure.Wgconf.Basic
import VpnTunnel.Lib.Batch
import VpnTunnel.Lib.Wgtypes
import VpnTunnel.Tunnelpool.Eligible.Basic

namespace Tunnelpool

open Infrastructure
open Supervisor (base)

-- A key that cannot be parsed is told from one that can.
def privateKeyFingerprint (sha256 : ByteString → ByteString) (base64Key : ByteString) : ByteString :=
  match Wgtypes.parseKey base64Key with
  | none     => .ofString "raw:" ++ Hex.encode ((sha256 base64Key).take 8)
  | some key => Hex.encode ((sha256 key.bytes).take 8)

inductive VerifyError
  | publicDetails (details : String)
  | allFailed (lastParseErr : Option (String × Wgconf.Error))
  deriving DecidableEq, Repr

structure Verification where
  fingerprints  : List ByteString
  parseFailures : Nat
  lastParseErr  : Option (String × Wgconf.Error)

def Verification.init : Verification where
  fingerprints  := []
  parseFailures := 0
  lastParseErr  := none

def resolvePath (configDir cfgPath : String) : String :=
  if Filepath.isAbs cfgPath then cfgPath else Filepath.join configDir cfgPath

def distinctKeys (n : Nat) : String :=
  "tunnel config: found " ++ toString n ++ " distinct WireGuard private keys across discovered " ++
    "configs; all configs must share a single [Interface] PrivateKey (one Mullvad device account); " ++
    "verify your config export"

section

variable (table : ByteString.CaseTable) (sha256 : ByteString → ByteString)
  (read : String → Except String ByteString)

def verifyConfig (configDir : String) (v : Verification) (cfgPath : String) : Verification :=
  match Wgconf.parseFile table read (resolvePath configDir cfgPath) with
  | .error err => { v with
    parseFailures := v.parseFailures + 1
    lastParseErr  := some (.ofList (base cfgPath.toList), err) }
  | .ok parsed => { v with
    fingerprints := v.fingerprints.insert (privateKeyFingerprint sha256 parsed.interface.privateKey) }

def verifySingleKey (configPaths : List String) (configDir : String) : Except VerifyError Unit :=
  let v := configPaths.foldl (verifyConfig table sha256 read configDir) .init
  if v.parseFailures = configPaths.length ∧ configPaths.length > 0 then
    .error (.allFailed v.lastParseErr)
  else if v.fingerprints.length > 1 then
    .error (.publicDetails (distinctKeys v.fingerprints.length))
  else
    .ok ()

variable {table sha256 read} {configDir : String} {configPaths : List String}

-- The fingerprint of the key in a file, if it can be parsed.
def fingerprint? (table : ByteString.CaseTable) (sha256 : ByteString → ByteString)
    (read : String → Except String ByteString) (path : String) : Option ByteString :=
  (Wgconf.parseFile table read path).toOption.map (privateKeyFingerprint sha256 ·.interface.privateKey)

theorem foldl_verifyConfig {v : Verification}
    (h : ∀ p ∈ configPaths, (fingerprint? table sha256 read (resolvePath configDir p)).isSome)
    (hn : v.fingerprints.Nodup) :
    (configPaths.foldl (verifyConfig table sha256 read configDir) v).parseFailures = v.parseFailures ∧
      (configPaths.foldl (verifyConfig table sha256 read configDir) v).fingerprints.Nodup ∧
      ∀ fp, fp ∈ (configPaths.foldl (verifyConfig table sha256 read configDir) v).fingerprints ↔
        fp ∈ v.fingerprints ∨
          ∃ p ∈ configPaths, fingerprint? table sha256 read (resolvePath configDir p) = some fp := by
  induction configPaths generalizing v
  case nil => simpa using hn
  case cons p ps hi =>
    have ⟨hp, hps⟩ := List.forall_mem_cons.mp h
    have ⟨fp, hf⟩ := Option.isSome_iff_exists.mp hp
    have ⟨parsed, hr, he⟩ := Option.map_eq_some_iff.mp hf
    have hv : verifyConfig table sha256 read configDir v p =
        { v with fingerprints := v.fingerprints.insert fp } := by
      rw [verifyConfig, Except.toOption_eq_some.mp hr, ← he]
    have ⟨h₁, h₂, h₃⟩ := hi (v := { v with fingerprints := v.fingerprints.insert fp }) hps hn.insert
    rw [List.foldl_cons, hv]
    refine ⟨h₁, h₂, fun fp' => ?_⟩
    rw [h₃]
    simp only [List.mem_insert_iff, List.exists_mem_cons_iff, hf, Option.some.injEq]
    tauto

-- Files that can be parsed are accepted if their keys have the same fingerprint.
theorem verifySingleKey_eq_ok_iff
    (h : ∀ p ∈ configPaths, (fingerprint? table sha256 read (resolvePath configDir p)).isSome) :
    verifySingleKey table sha256 read configPaths configDir = .ok () ↔
      ∀ p₁ ∈ configPaths, ∀ p₂ ∈ configPaths,
        fingerprint? table sha256 read (resolvePath configDir p₁) =
          fingerprint? table sha256 read (resolvePath configDir p₂) := by
  have ⟨hf, hn, hm⟩ := foldl_verifyConfig (v := .init) h .nil
  rw [verifySingleKey]
  generalize configPaths.foldl _ _ = v at hf hn hm
  have hm (fp) : fp ∈ v.fingerprints ↔
      ∃ p ∈ configPaths, fingerprint? table sha256 read (resolvePath configDir p) = some fp := by
    simp [hm, Verification.init]
  have hc : ¬(v.parseFailures = configPaths.length ∧ configPaths.length > 0) := by
    simp only [hf, Verification.init]
    omega
  have hl : (if v.fingerprints.length > 1 then
      Except.error (.publicDetails (distinctKeys v.fingerprints.length)) else .ok ()) =
        (.ok () : Except VerifyError Unit) ↔ v.fingerprints.length ≤ 1 := by
    split <;> simp <;> omega
  rw [if_neg hc, hl, hn.length_le_one_iff]
  constructor
  · intro he p₁ h₁ p₂ h₂
    have ⟨fp₁, hf₁⟩ := Option.isSome_iff_exists.mp (h p₁ h₁)
    have ⟨fp₂, hf₂⟩ := Option.isSome_iff_exists.mp (h p₂ h₂)
    rw [hf₁, hf₂, he fp₁ ((hm fp₁).mpr ⟨p₁, h₁, hf₁⟩) fp₂ ((hm fp₂).mpr ⟨p₂, h₂, hf₂⟩)]
  · intro he fp₁ h₁ fp₂ h₂
    have ⟨p₁, h₁, hf₁⟩ := (hm fp₁).mp h₁
    have ⟨p₂, h₂, hf₂⟩ := (hm fp₂).mp h₂
    exact Option.some.inj <| hf₁.symm.trans <| (he p₁ h₁ p₂ h₂).trans hf₂

end

end Tunnelpool
