import VpnTunnel.Generatevpnconfig.Scanner
import VpnTunnel.Tunnelpool.Verify

namespace Generatevpnconfig

open ByteString
open Infrastructure (Wgconf.ParsedConfig Wgconf.parse Wgconf.parseFile)
open Tunnelpool (verifySingleKey privateKeyFingerprint resolvePath fingerprint?)
open Wgtypes (Key parseKey)

variable {env : Env} {cfg : RunConfig} {key : Key} {zip : Except String (List ZipFile)}
  {files files' : Files} {entries : List ZipConf} {e e₁ e₂ : ZipConf} {report : Report}
  {sha256 : ByteString → ByteString} {configPaths : List String} {configDir : String}

-- The private key that the tool settles on for a body.
def scannedKey (table : CaseTable) (key : Key) (body : ByteString) : ByteString :=
  if (parseKey (extractInterfacePrivateKey table body)).isSome then
    extractInterfacePrivateKey table body
  else
    key.string

def usedKey (table : CaseTable) (key : Key) (body : ByteString) : ByteString :=
  (laterKeys table body).getLast?.getD (scannedKey table key body)

def preparedBody (table : CaseTable) (key : Key) (body : ByteString) : ByteString :=
  ((resolveKey table key body).toOption.map (·.1)).getD []

theorem resolveKey_elim {table : CaseTable} {body body' privStr : ByteString}
    (h : resolveKey table key body = .ok (body', privStr)) :
    body' = preparedBody table key body ∧ privStr = scannedKey table key body := by
  refine ⟨by rw [preparedBody, h]; rfl, ?_⟩
  rw [resolveKey] at h
  split at h
  case isTrue he =>
    obtain ⟨_, rfl⟩ := Prod.mk.inj (Except.ok.inj h)
    simp [scannedKey, he]
  case isFalse he =>
    obtain ⟨_, _, hp⟩ := Except.map_eq_ok.mp h
    obtain ⟨_, rfl⟩ := Prod.mk.inj hp
    simp [scannedKey, he]

section Prepare

-- An entry that has been settled, with a public key.
structure Prepared (env : Env) (key : Key) (pub : ByteString) (e : ZipConf) : Prop where
  resolved : resolveKey env.table key e.body =
    .ok (preparedBody env.table key e.body, scannedKey env.table key e.body)
  derived  : ∃ k, parseKey (scannedKey env.table key e.body) = some k ∧ (env.publicKey k).string = pub

def prepare (env : Env) (cfg : RunConfig) (key : Key) (e : ZipConf) : PreparedConf where
  name := applyPrefix cfg.namePrefix e.name
  body := preparedBody env.table key e.body

theorem prepareEntry_elim {prepared prepared' : List PreparedConf} {pub pub' : ByteString}
    (h : prepareEntry env cfg key (prepared, pub) e = .ok (prepared', pub')) :
    Prepared env key pub' e ∧ prepared' = prepared ++ [prepare env cfg key e] ∧ (pub = [] ∨ pub = pub') := by
  simp only [prepareEntry, Except.bind_eq_ok, Except.mapError_eq_ok] at h
  have ⟨_, _, ⟨body, privStr⟩, hr, h⟩ := h
  obtain ⟨rfl, rfl⟩ := resolveKey_elim hr
  split at h
  case h_1 => contradiction
  case h_2 k hk =>
    split at h
    case isTrue => contradiction
    case isFalse hp =>
      obtain ⟨rfl, rfl⟩ := Prod.mk.inj (Except.pure_eq_ok.mp h)
      refine ⟨⟨hr, k, hk, rfl⟩, rfl, ?_⟩
      by_cases hn : pub = []
      case pos => exact .inl hn
      case neg => exact .inr (Eq.symm (by simpa [hn] using hp))

theorem Prepared.pub_ne_nil {pub : ByteString} (h : Prepared env key pub e) : pub ≠ [] := by
  have ⟨_, _, hp⟩ := h.derived
  exact hp ▸ Key.string_ne_nil

theorem foldlM_prepareEntry {prepared prepared' : List PreparedConf} {pub pub' : ByteString}
    (h : entries.foldlM (prepareEntry env cfg key) (prepared, pub) = .ok (prepared', pub')) :
    (∀ e ∈ entries, Prepared env key pub' e) ∧ prepared' = prepared ++ entries.map (prepare env cfg key) ∧
      (pub = [] ∨ pub = pub') := by
  induction entries generalizing prepared pub
  case nil =>
    obtain ⟨rfl, rfl⟩ := Prod.mk.inj (Except.pure_eq_ok.mp h)
    simp
  case cons e entries hi =>
    rw [List.foldlM_cons, Except.bind_eq_ok] at h
    have ⟨⟨prepared₁, pub₁⟩, he, h⟩ := h
    have ⟨hp, hl, hs⟩ := prepareEntry_elim he
    have ⟨hps, hl', hs'⟩ := hi h
    have hs' := hs'.resolve_left hp.pub_ne_nil
    subst hs'
    exact ⟨List.forall_mem_cons.mpr ⟨hp, hps⟩, by simp [hl', hl], hs⟩

end Prepare

section Write

-- What is on disk after the files have been written.
def written (cfg : RunConfig) (files : Files) (ps : List PreparedConf) : Files :=
  ps.foldl (fun files p => Function.update files (confPath cfg p.name) (some p.body)) files

theorem resolveOutputPath_elim {name outPath : String}
    (h : resolveOutputPath env cfg files name = .ok outPath) : outPath = confPath cfg name := by
  simp only [resolveOutputPath, Except.bind_eq_ok] at h
  have ⟨_, _, h⟩ := h
  split at h
  case isTrue => simp only [reduceCtorEq] at h
  case isFalse =>
    split at h
    case isTrue  => simp only [reduceCtorEq] at h
    case isFalse => exact (Except.pure_eq_ok.mp h).symm

theorem writeConf_elim {p : PreparedConf} {parsed : Wgconf.ParsedConfig}
    (h : writeConf env cfg files p = (.ok parsed, files')) :
    files' = Function.update files (confPath cfg p.name) (some p.body) ∧
      env.openFile (confPath cfg p.name) = .ok () ∧ Wgconf.parse env.table p.body = .ok parsed := by
  rw [writeConf] at h
  split at h
  case h_1 => simp at h
  case h_2 hp =>
    cases resolveOutputPath_elim hp
    split at h
    case h_1 => simp at h
    case h_2 =>
      have ⟨hr, hf⟩ := Prod.mk.inj h
      simp only [Except.mapError_eq_ok, Wgconf.parseFile, Except.bind_eq_ok, readFile] at hr
      have ⟨body, hb, hr⟩ := hr
      cases ho : env.openFile (confPath cfg p.name)
      case error => simp [ho, Except.bind] at hb
      case ok =>
        simp only [ho, Except.bind, Function.update_self, Option.elim_some, Except.ok.injEq] at hb
        exact ⟨hf.symm, rfl, hb ▸ hr⟩

theorem writeConfs_elim {ps : List PreparedConf} {parsed : List Wgconf.ParsedConfig}
    (h : writeConfs env cfg files ps = (.ok parsed, files')) :
    files' = written cfg files ps ∧ ∀ p ∈ ps, env.openFile (confPath cfg p.name) = .ok () ∧
      ∃ c, Wgconf.parse env.table p.body = .ok c := by
  induction ps generalizing files parsed
  case nil =>
    obtain ⟨_, rfl⟩ := Prod.mk.inj h
    simp [written]
  case cons p ps hi =>
    rw [writeConfs] at h
    split at h
    case h_1 => simp at h
    case h_2 c files₁ hw =>
      have ⟨hf, ho, hp⟩ := writeConf_elim hw
      have ⟨hr, hf'⟩ := Prod.mk.inj h
      have ⟨cs, hc, _⟩ := Except.map_eq_ok.mp hr
      have hw : writeConfs env cfg files₁ ps = (.ok cs, files') := Prod.ext hc hf'
      have ⟨hfs, hps⟩ := hi hw
      exact ⟨by rw [hfs, hf]; rfl, List.forall_mem_cons.mpr ⟨⟨ho, c, hp⟩, hps⟩⟩

end Write

def entryPath (cfg : RunConfig) (e : ZipConf) : String :=
  confPath cfg (applyPrefix cfg.namePrefix e.name)

-- An entry whose file is not overwritten by the file of a later entry.
def Kept (cfg : RunConfig) (entries : List ZipConf) (e : ZipConf) : Prop :=
  ∃ l₁ l₂, entries = l₁ ++ e :: l₂ ∧ ∀ e' ∈ l₂, entryPath cfg e' ≠ entryPath cfg e

-- The private key that is read from a file derives to a public key.
def DerivesTo (env : Env) (files : Files) (path : String) (pub : ByteString) : Prop :=
  ∃ parsed k, Wgconf.parseFile env.table (readFile env files) path = .ok parsed ∧
    parseKey parsed.interface.privateKey = some k ∧ (env.publicKey k).string = pub

-- There is no assignment to `PrivateKey` behind the line that the tool takes the key from or puts it in,
-- or the last one is of a key with the same public key.
def NotReassigned (env : Env) (key : Key) (e : ZipConf) : Prop :=
  ∀ val ∈ (laterKeys env.table e.body).getLast?, ∃ k k',
    parseKey (scannedKey env.table key e.body) = some k ∧ parseKey val = some k' ∧
      env.publicKey k' = env.publicKey k

-- What is known if `ingestZip` has succeeded.
structure Ingested (env : Env) (cfg : RunConfig) (key : Key) (entries : List ZipConf) (report : Report)
    (files : Files) : Prop where
  prepared : ∀ e ∈ entries, Prepared env key report.resultPub e
  names    : report.names = entries.map fun e => applyPrefix cfg.namePrefix e.name
  kept     : ∀ e, Kept cfg entries e → ∃ parsed,
    Wgconf.parseFile env.table (readFile env files) (entryPath cfg e) = .ok parsed ∧
      parsed.interface.privateKey = usedKey env.table key e.body

theorem Kept.mem (h : Kept cfg entries e) : e ∈ entries := by
  have ⟨_, _, h, _⟩ := h
  simp [h]

theorem exists_kept (cfg : RunConfig) (h : e ∈ entries) :
    ∃ e', Kept cfg entries e' ∧ entryPath cfg e' = entryPath cfg e := by
  have ⟨l₁, e', l₂, hl, he, hn⟩ := List.exists_last (entryPath cfg) h
  exact ⟨e', ⟨l₁, l₂, hl, hn⟩, he⟩

theorem Kept.written (h : Kept cfg entries e) :
    written cfg files (entries.map (prepare env cfg key)) (entryPath cfg e) =
      some (preparedBody env.table key e.body) := by
  have ⟨_, _, hl, hn⟩ := h
  rw [Generatevpnconfig.written, List.foldl_map, hl]
  exact List.foldl_update (f := entryPath cfg) files hn

theorem ingestZip_elim (h : ingestZip env cfg key zip files = (.ok report, files')) :
    ∃ entries parsed, readZipEntries zip = .ok entries ∧
      prepareEntries env cfg key entries = .ok (entries.map (prepare env cfg key), report.resultPub) ∧
      writeConfs env cfg files (entries.map (prepare env cfg key)) = (.ok parsed, files') ∧
      report.names = entries.map fun e => applyPrefix cfg.namePrefix e.name := by
  rw [ingestZip] at h
  split at h
  case h_1 => simp at h
  case h_2 entries hz =>
    split at h
    case h_1 => simp at h
    case h_2 ps pub hp =>
      have ⟨_, hl, _⟩ := foldlM_prepareEntry hp
      rw [List.nil_append] at hl
      subst hl
      have ⟨hr, hf⟩ := Prod.mk.inj h
      obtain ⟨parsed, hc, rfl⟩ := Except.map_eq_ok.mp hr
      exact ⟨entries, parsed, hz, hp, Prod.ext hc hf, by simp [Generatevpnconfig.report, prepare]⟩

theorem ingested (hz : readZipEntries zip = .ok entries)
    (h : ingestZip env cfg key zip files = (.ok report, files')) :
    Ingested env cfg key entries report files' := by
  have ⟨_, _, hz', hp, hw, hn⟩ := ingestZip_elim h
  cases hz.symm.trans hz'
  have ⟨hps, _, _⟩ := foldlM_prepareEntry hp
  have ⟨hw, ho⟩ := writeConfs_elim hw
  constructor
  case prepared => exact hps
  case names    => exact hn
  case kept =>
    intro e hk
    have ⟨hop, c, hc⟩ := ho _ (List.mem_map_of_mem hk.mem)
    refine ⟨c, ?_, privateKey_of_resolveKey (hps e hk.mem).resolved hc⟩
    have hop : env.openFile (entryPath cfg e) = .ok () := hop
    simp only [Wgconf.parseFile, readFile, hw, hk.written, hop, Except.bind, Option.elim_some]
    exact hc

namespace Ingested

variable (i : Ingested env cfg key entries report files)

include i

-- Each file that has been written is the file of an entry that is kept.
theorem forall_names_iff {P : String → Prop} :
    (∀ name ∈ report.names, P (confPath cfg name)) ↔ ∀ e, Kept cfg entries e → P (entryPath cfg e) := by
  rw [i.names, List.forall_mem_map]
  constructor
  · exact fun h e hk => h e hk.mem
  · intro h e he
    have ⟨e', hk, hp⟩ := exists_kept cfg he
    exact (show P (entryPath cfg e) from hp ▸ h e' hk)

theorem derivesTo_iff (hk : Kept cfg entries e) :
    DerivesTo env files (entryPath cfg e) report.resultPub ↔ NotReassigned env key e := by
  have ⟨parsed, hp, hu⟩ := i.kept e hk
  have ⟨k, hs, hd⟩ := (i.prepared e hk.mem).derived
  have hl : DerivesTo env files (entryPath cfg e) report.resultPub ↔
      ∃ k', parseKey (usedKey env.table key e.body) = some k' ∧ env.publicKey k' = env.publicKey k := by
    simp [DerivesTo, hp, hu, ← hd, Key.string_injective.eq_iff]
  rw [hl, usedKey, NotReassigned]
  cases (laterKeys env.table e.body).getLast? <;> simp [hs]

theorem fingerprint?_eq (hk : Kept cfg entries e) :
    fingerprint? env.table sha256 (readFile env files) (entryPath cfg e) =
      some (privateKeyFingerprint sha256 (usedKey env.table key e.body)) := by
  have ⟨parsed, hp, hu⟩ := i.kept e hk
  rw [fingerprint?, hp, ← hu]
  rfl

theorem verifySingleKey_iff
    (hp : configPaths.map (resolvePath configDir) = report.names.map (confPath cfg)) :
    verifySingleKey env.table sha256 (readFile env files) configPaths configDir = .ok () ↔
      ∀ e₁ e₂, Kept cfg entries e₁ → Kept cfg entries e₂ →
        privateKeyFingerprint sha256 (usedKey env.table key e₁.body) =
          privateKeyFingerprint sha256 (usedKey env.table key e₂.body) := by
  have hf (P : String → Prop) : (∀ p ∈ configPaths, P (resolvePath configDir p)) ↔
      ∀ e, Kept cfg entries e → P (entryPath cfg e) := by
    rw [← i.forall_names_iff, ← List.forall_mem_map, hp, List.forall_mem_map]
  have he (e) (hk : Kept cfg entries e) :
      fingerprint? env.table sha256 (readFile env files) (entryPath cfg e) = _ :=
    i.fingerprint?_eq hk
  have hv (hs : ∀ p ∈ configPaths,
      (fingerprint? env.table sha256 (readFile env files) (resolvePath configDir p)).isSome) :=
    Tunnelpool.verifySingleKey_eq_ok_iff hs
  generalize fingerprint? env.table sha256 (readFile env files) = fp at he hv
  rw [hv ((hf (fun path => (fp path).isSome)).mpr fun e hk => by simp [he e hk]),
    hf (fun path => ∀ p ∈ configPaths, fp path = fp (resolvePath configDir p))]
  constructor
  · intro h e₁ e₂ h₁ h₂
    have h := (hf (fun path => fp (entryPath cfg e₁) = fp path)).mp (h e₁ h₁) e₂ h₂
    simpa [he e₁ h₁, he e₂ h₂] using h
  · intro h e₁ h₁
    refine (hf (fun path => fp (entryPath cfg e₁) = fp path)).mpr fun e₂ h₂ => ?_
    rw [he e₁ h₁, he e₂ h₂, h e₁ e₂ h₁ h₂]

end Ingested

-- The files agree with the report exactly if no body assigns another key behind the line that the scanner
-- stops at, and the keys are the same and not just keys with the same public key.
theorem ingestZip_agrees_iff (hz : readZipEntries zip = .ok entries)
    (h : ingestZip env cfg key zip files = (.ok report, files'))
    (hp : configPaths.map (resolvePath configDir) = report.names.map (confPath cfg)) :
    (∀ name ∈ report.names, DerivesTo env files' (confPath cfg name) report.resultPub) ∧
      verifySingleKey env.table sha256 (readFile env files') configPaths configDir = .ok () ↔
    (∀ e, Kept cfg entries e → NotReassigned env key e) ∧
      ∀ e₁ e₂, Kept cfg entries e₁ → Kept cfg entries e₂ →
        privateKeyFingerprint sha256 (usedKey env.table key e₁.body) =
          privateKeyFingerprint sha256 (usedKey env.table key e₂.body) := by
  have i := ingested hz h
  rw [i.verifySingleKey_iff hp, i.forall_names_iff (P := (DerivesTo env files' · report.resultPub))]
  exact and_congr_left' <| forall₂_congr fun e hk => i.derivesTo_iff hk

-- A machine on which all calls succeed. The keys stand for their own public keys.
def someEnv : Env where
  table     := { lower := fun c => if c = [] then [0] else c, lower_ne_nil := by intro c; split <;> simp_all }
  publicKey := id
  mkdirAll  := fun _ => .ok ()
  write     := fun _ => .ok ()
  openFile  := fun _ => .ok ()

def someConfig : RunConfig where
  dir        := "d"
  force      := false
  namePrefix := ""

def someKey (b : UInt8) : Key where
  bytes        := .replicate 32 b
  length_bytes := by simp [Wgtypes.keyLen]

def confBody (keys : List ByteString) : ByteString :=
  unlines <| [ofString "[Interface]"] ++ keys ++
    ["Address=1.1.1.1/32", "[Peer]", "PublicKey=x", "Endpoint=y"].map ofString

def confFile (name : String) (keys : List ByteString) : ZipFile where
  name    := name
  isDir   := false
  openErr := none
  data    := confBody keys
  readErr := none

-- One of the files has the key that is put into the other one.
def sameKeyZip : List ZipFile :=
  [confFile "a.conf" [privateKeyLine (someKey 1).string], confFile "b.conf" []]

def sameKeyEntries : List ZipConf :=
  [⟨"a", confBody [privateKeyLine (someKey 1).string]⟩, ⟨"b", confBody []⟩]

theorem exists_report {α : Type} {f : Report → α} {a : α}
    (h : (ingestZip env cfg key zip files).1.toOption.map f = some a) :
    ∃ report, ingestZip env cfg key zip files = (.ok report, (ingestZip env cfg key zip files).2) ∧
      f report = a := by
  have ⟨report, hr, hf⟩ := Option.map_eq_some_iff.mp h
  exact ⟨report, Prod.ext (Except.toOption_eq_some.mp hr) rfl, hf⟩

theorem readZipEntries_sameKeyZip : readZipEntries (.ok sameKeyZip) = .ok sameKeyEntries :=
  Except.toOption_eq_some.mp (by decide +kernel)

theorem ingestZip_sameKeyZip : ∃ report files',
    ingestZip someEnv someConfig (someKey 1) (.ok sameKeyZip) (fun _ => none) = (.ok report, files') ∧
    report.names = ["a", "b"] := by
  have hn : (ingestZip someEnv someConfig (someKey 1) (.ok sameKeyZip) fun _ => none).1.toOption.map
      (·.names) = some ["a", "b"] := by
    decide +kernel
  have ⟨report, h⟩ := exists_report hn
  exact ⟨report, _, h⟩

theorem ingestZip_agrees_sameKeyZip : ∃ report files',
    ingestZip someEnv someConfig (someKey 1) (.ok sameKeyZip) (fun _ => none) = (.ok report, files') ∧
    report.names = ["a", "b"] ∧
    (∀ name ∈ report.names, DerivesTo someEnv files' (confPath someConfig name) report.resultPub) ∧
    verifySingleKey someEnv.table id (readFile someEnv files') ["a.conf", "b.conf"] "d" = .ok () := by
  have ⟨report, files', hr, hn⟩ := ingestZip_sameKeyZip
  have hl : ∀ e ∈ sameKeyEntries, laterKeys someEnv.table e.body = [] := by decide +kernel
  have hf : ∀ e₁ ∈ sameKeyEntries, ∀ e₂ ∈ sameKeyEntries,
      privateKeyFingerprint id (usedKey someEnv.table (someKey 1) e₁.body) =
        privateKeyFingerprint id (usedKey someEnv.table (someKey 1) e₂.body) := by
    decide +kernel
  refine ⟨report, files', hr, hn, (ingestZip_agrees_iff readZipEntries_sameKeyZip hr ?_).mpr
    ⟨fun e hk => ?_, fun e₁ e₂ h₁ h₂ => ?_⟩⟩
  · rw [hn]
    decide +kernel
  · simp [NotReassigned, hl e hk.mem]
  · exact hf e₁ h₁.mem e₂ h₂.mem

-- The scanner takes the first key, and the parser the last one.
def twoKeysZip : List ZipFile :=
  [confFile "a.conf" [privateKeyLine (someKey 1).string, privateKeyLine (someKey 2).string]]

theorem not_derivesTo_twoKeysZip : ∃ report files',
    ingestZip someEnv someConfig (someKey 3) (.ok twoKeysZip) (fun _ => none) = (.ok report, files') ∧
    report.names = ["a"] ∧ report.resultPub = (someKey 1).string ∧
    DerivesTo someEnv files' (confPath someConfig "a") (someKey 2).string ∧
    ¬DerivesTo someEnv files' (confPath someConfig "a") report.resultPub := by
  have hn : (ingestZip someEnv someConfig (someKey 3) (.ok twoKeysZip) fun _ => none).1.toOption.map
      (fun r => (r.names, r.resultPub)) = some (["a"], (someKey 1).string) := by
    decide +kernel
  have ⟨report, hr, hn⟩ := exists_report hn
  generalize hf : (ingestZip someEnv someConfig (someKey 3) (.ok twoKeysZip) fun _ => none).2 = files' at hr
  have hp : (Wgconf.parseFile someEnv.table (readFile someEnv files')
      (confPath someConfig "a")).toOption.map (·.interface.privateKey) = some (someKey 2).string := by
    subst hf
    decide +kernel
  have ⟨hn, hp'⟩ := Prod.mk.inj hn
  have ⟨parsed, hp, hk⟩ := Option.map_eq_some_iff.mp hp
  have hk := hk ▸ Key.parseKey_string (someKey 2)
  refine ⟨report, files', hr, hn, hp', ⟨parsed, _, Except.toOption_eq_some.mp hp, hk, rfl⟩, ?_⟩
  rintro ⟨_, k, h, hk', hd⟩
  cases Except.toOption_eq_some.mp hp |>.symm.trans h
  cases hk.symm.trans hk'
  exact absurd (Key.string_injective (hd.trans hp')) (by decide)

end Generatevpnconfig
