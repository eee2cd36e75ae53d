import VpnTunnel.Generatevpnconfig.Lens
import VpnTunnel.Generatevpnconfig.Theorems

namespace Generatevpnconfig

open ByteString
open Infrastructure (Wgconf.ParsedConfig Wgconf.parse)
open Tunnelpool.Supervisor (base)
open Wgtypes (Key parseKey)

variable {env : Env} {cfg : RunConfig} {key : Key} {zip : Except String (List ZipFile)}
  {files files' : Files} {entries entries' : List ZipConf} {report : Report} {table : CaseTable}
  {body privStr pub : ByteString} {prepared : List PreparedConf}

section Embedded

-- The parser accepts the body, and reads a valid key from it.
def Usable (table : CaseTable) (body : ByteString) : Prop :=
  ∃ parsed k, Wgconf.parse table body = .ok parsed ∧ parseKey parsed.interface.privateKey = some k

-- The first assignment to `PrivateKey` below a header line that is nothing but `[Interface]` has a valid key
-- as its whole value.
def Visible (table : CaseTable) (body : ByteString) : Prop :=
  ∃ pre raw post val, body.lines = pre ++ raw :: post ∧ afterKey table false pre = none ∧
    inInterface false pre ∧ ¬isHeader raw ∧ privateKey? table raw = some val ∧ (parseKey val).isSome

theorem visible_iff :
    Visible table body ↔ (parseKey (extractInterfacePrivateKey table body)).isSome := by
  rw [extractInterfacePrivateKey]
  constructor
  · rintro ⟨pre, raw, post, val, hl, hn, hi, hh, hv, hk⟩
    rwa [hl, extractFrom_append hn hi hh hv]
  · intro hk
    cases ha : afterKey table false body.lines
    case none =>
      rw [extractFrom_of_afterKey ha] at hk
      contradiction
    case some post =>
      obtain ⟨pre, raw, val, hl, hn, hi, hh, hv, he⟩ := afterKey_elim ha
      exact ⟨pre, raw, post, val, hl, hn, hi, hh, hv, he ▸ hk⟩

-- A body into which the key was written is another one than before.
theorem preparedBody_eq_iff
    (h : resolveKey table key body = .ok (preparedBody table key body, privStr)) :
    preparedBody table key body = body ↔ Visible table body := by
  rw [visible_iff]
  rw [resolveKey] at h
  split at h
  case isTrue hk => exact iff_of_true (Prod.mk.inj (Except.ok.inj h)).left.symm hk
  case isFalse hk =>
    refine iff_of_false (fun he => hk ?_) hk
    obtain ⟨_, hj, hb⟩ := Except.map_eq_ok.mp h
    have hb := (Prod.mk.inj hb).left.trans he
    rw [hb, injectPrivateKey_eq] at hj
    cases hs : slot table body.lines <;> rw [hs] at hj
    case none => contradiction
    case some x =>
      have hn : newline ∉ privateKeyLine key.string :=
        newline_not_mem_privateKeyLine (not_mem_string (by decide))
      rw [extractInterfacePrivateKey, ← Except.ok.inj hj, lines_injected hs hn,
        (slot_refill hs trimSpace_string).right, Key.parseKey_string]
      rfl

theorem prepareEntries_keeps_iff (h : prepareEntries env cfg key entries = .ok (prepared, pub)) :
    List.Forall₂ (fun e p => Usable env.table e.body → p.body = e.body) entries prepared ↔
      ∀ e ∈ entries, Usable env.table e.body → Visible env.table e.body := by
  have ⟨hp, hl, _⟩ := foldlM_prepareEntry h
  rw [hl, List.nil_append, List.forall₂_map_right_iff, List.forall₂_same]
  exact forall₂_congr fun e he => imp_congr_right fun _ => preparedBody_eq_iff (hp e he).resolved

def keyEntry (line : ByteString) : ZipConf where
  name := "a"
  body := confBody [line]

theorem prepareEntries_keeps_plainKey : ∃ prepared pub,
    prepareEntries someEnv someConfig (someKey 2) [keyEntry (privateKeyLine (someKey 1).string)] =
      .ok (prepared, pub) ∧
    List.Forall₂ (fun e p => Usable someEnv.table e.body → p.body = e.body)
      [keyEntry (privateKeyLine (someKey 1).string)] prepared := by
  have hs : (prepareEntries someEnv someConfig (someKey 2)
      [keyEntry (privateKeyLine (someKey 1).string)]).toOption.isSome := by
    decide +kernel
  have ⟨⟨prepared, pub⟩, h⟩ := Option.isSome_iff_exists.mp hs
  have h := Except.toOption_eq_some.mp h
  refine ⟨prepared, pub, h, (prepareEntries_keeps_iff h).mpr fun e he _ => visible_iff.mpr ?_⟩
  rw [List.mem_singleton.mp he]
  decide +kernel

-- The comment is part of the key for the scanner, but not for the parser.
def commentedLine : ByteString :=
  privateKeyLine (someKey 1).string ++ ofString " # laptop"

theorem not_kept_commentedLine :
    Usable someEnv.table (keyEntry commentedLine).body ∧ ∃ prepared pub,
    prepareEntries someEnv someConfig (someKey 2) [keyEntry commentedLine] = .ok (prepared, pub) ∧
    prepared.map (·.body) = [(keyEntry (privateKeyLine (someKey 2).string)).body] ∧
    (keyEntry (privateKeyLine (someKey 2).string)).body ≠ (keyEntry commentedLine).body := by
  have hu : (Wgconf.parse someEnv.table (keyEntry commentedLine).body).toOption.map
      (fun c => parseKey c.interface.privateKey) = some (some (someKey 1)) := by
    decide +kernel
  have hs : (prepareEntries someEnv someConfig (someKey 2) [keyEntry commentedLine]).toOption.map
      (fun x => x.1.map (·.body)) = some [(keyEntry (privateKeyLine (someKey 2).string)).body] := by
    decide +kernel
  have ⟨parsed, hp, hk⟩ := Option.map_eq_some_iff.mp hu
  have ⟨⟨prepared, pub⟩, h, hb⟩ := Option.map_eq_some_iff.mp hs
  refine ⟨⟨parsed, someKey 1, Except.toOption_eq_some.mp hp, hk⟩, prepared, pub,
    Except.toOption_eq_some.mp h, hb, by decide +kernel⟩

end Embedded

section Files

-- The members of the archive that are configurations.
def ZipFile.isConf (f : ZipFile) : Bool :=
  ¬f.isDir ∧ (Filepath.ext (.ofList (base f.name.toList))).toLower = ".conf"

-- Each configuration has a file of its own.
structure OwnFiles (env : Env) (cfg : RunConfig) (key : Key) (archive : List ZipFile)
    (entries : List ZipConf) (report : Report) (files : Files) : Prop where
  nodup  : report.names.Nodup
  count  : report.names.length = archive.countP ZipFile.isConf
  bodies : List.Forall₂ (fun e name =>
    files (confPath cfg name) = some (preparedBody env.table key e.body)) entries report.names

theorem addZipEntry_length {f : ZipFile} (h : addZipEntry entries f = .ok entries') :
    entries'.length = entries.length + if f.isConf then 1 else 0 := by
  simp only [addZipEntry] at h
  split at h
  case isTrue hc =>
    cases h
    have hn : f.isConf = false := by
      simp only [ZipFile.isConf, decide_eq_false_iff_not, not_and]
      tauto
    simp [hn]
  case isFalse hc =>
    have hn : f.isConf := by
      simp only [ZipFile.isConf, decide_eq_true_eq]
      tauto
    split at h
    case isTrue => contradiction
    case isFalse =>
      simp only [Except.bind_eq_ok, Except.mapError_eq_ok, Except.pure_eq_ok] at h
      have ⟨_, _, _, _, he⟩ := h
      simp [← he, hn]

theorem foldlM_addZipEntry_length {archive : List ZipFile}
    (h : archive.foldlM addZipEntry [] = .ok entries) :
    entries.length = archive.countP ZipFile.isConf := by
  refine List.foldlM_invariant
    (P := fun archive entries => entries.length = archive.countP ZipFile.isConf) rfl ?_ h
  intro archive entries f entries' hl h
  rw [addZipEntry_length h, hl, List.countP_append, List.countP_singleton]

theorem readZipEntries_elim (h : readZipEntries zip = .ok entries) :
    ∃ archive, zip = .ok archive ∧ entries.length = archive.countP ZipFile.isConf := by
  simp only [readZipEntries, Except.bind_eq_ok, Except.mapError_eq_ok] at h
  have ⟨archive, hz, _, hf, h⟩ := h
  split at h
  case isTrue => contradiction
  case isFalse =>
    cases Except.pure_eq_ok.mp h
    exact ⟨archive, hz, foldlM_addZipEntry_length hf⟩

theorem applyPrefix_injective (namePrefix : String) : Function.Injective (applyPrefix namePrefix) := by
  intro a b h
  simp only [applyPrefix] at h
  split at h
  case isTrue  => exact h
  case isFalse => exact (String.append_right_inj _).mp h

theorem plain_of_validateName {name : String} (h : validateName name = .ok ()) :
    Filepath.Plain (name ++ ".conf").toList := by
  have hs : '/' ∉ name.toList := by
    intro hm
    simp only [validateName, hm, true_or, if_true] at h
    split at h
    case isTrue => simp only [reduceCtorEq] at h
    case isFalse => split at h <;> simp only [reduceCtorEq] at h
  have hl : (name ++ ".conf").toList = name.toList ++ ['.', 'c', 'o', 'n', 'f'] := by simp
  rw [hl]
  refine ⟨by simp, fun he => ?_, fun he => ?_, by simpa using hs⟩
  · simpa using congrArg List.length he
  · simpa [Filepath.dotdot] using congrArg List.length he

theorem confPath_inj {a b : String} (ha : validateName a = .ok ()) (hb : validateName b = .ok ())
    (h : confPath cfg a = confPath cfg b) : a = b := by
  have ⟨pre, hp⟩ := Filepath.exists_join cfg.dir
  rw [confPath, confPath, hp _ (plain_of_validateName ha), hp _ (plain_of_validateName hb)] at h
  exact (String.append_left_inj _).mp ((String.append_right_inj _).mp h)

theorem validateName_of_prepareEntry {st st' : List PreparedConf × ByteString} {e : ZipConf}
    (h : prepareEntry env cfg key st e = .ok st') :
    validateName (applyPrefix cfg.namePrefix e.name) = .ok () := by
  simp only [prepareEntry, Except.bind_eq_ok, Except.mapError_eq_ok] at h
  obtain ⟨_, hv, _⟩ := h
  exact hv

theorem validateName_of_foldlM {st st' : List PreparedConf × ByteString}
    (h : entries.foldlM (prepareEntry env cfg key) st = .ok st') :
    ∀ e ∈ entries, validateName (applyPrefix cfg.namePrefix e.name) = .ok () := by
  refine List.foldlM_invariant (P := fun entries _ => ∀ e ∈ entries,
    validateName (applyPrefix cfg.namePrefix e.name) = .ok ()) (by simp) ?_ h
  intro entries st e st' hv h
  exact List.forall_mem_append.mpr ⟨hv, by simpa using validateName_of_prepareEntry h⟩

-- Without the flag, a file is only written where there was none.
theorem absent_of_writeConf {p : PreparedConf} {parsed : Wgconf.ParsedConfig} (hf : cfg.force = false)
    (h : writeConf env cfg files p = (.ok parsed, files')) : files (confPath cfg p.name) = none := by
  rw [writeConf] at h
  split at h
  case h_1 => simp at h
  case h_2 hp =>
    simp only [resolveOutputPath, Except.bind_eq_ok] at hp
    obtain ⟨_, _, hp⟩ := hp
    split at hp
    case isTrue => simp only [reduceCtorEq] at hp
    case isFalse =>
      split at hp
      case isTrue => simp only [reduceCtorEq] at hp
      case isFalse hn => simpa [hf] using hn

theorem nodup_of_writeConfs {ps : List PreparedConf} {parsed : List Wgconf.ParsedConfig}
    (hf : cfg.force = false) (h : writeConfs env cfg files ps = (.ok parsed, files')) :
    (ps.map fun p => confPath cfg p.name).Nodup ∧ ∀ p ∈ ps, files (confPath cfg p.name) = none := by
  induction ps generalizing files parsed
  case nil => simp
  case cons p ps hi =>
    rw [writeConfs] at h
    split at h
    case h_1 => simp at h
    case h_2 c files₁ hw =>
      obtain ⟨hu, _, _⟩ := writeConf_elim hw
      obtain ⟨hr, hf'⟩ := Prod.mk.inj h
      obtain ⟨cs, hc, _⟩ := Except.map_eq_ok.mp hr
      obtain ⟨hn, ha⟩ := hi (Prod.ext hc hf' : writeConfs env cfg files₁ ps = (.ok cs, files'))
      have hne (q) (hq : q ∈ ps) : confPath cfg q.name ≠ confPath cfg p.name := by
        intro he
        have := ha q hq
        rw [hu, he, Function.update_self] at this
        contradiction
      constructor
      · refine List.nodup_cons.mpr ⟨fun hm => ?_, hn⟩
        obtain ⟨q, hq, he⟩ := List.mem_map.mp hm
        exact hne q hq he
      · refine List.forall_mem_cons.mpr ⟨absent_of_writeConf hf hw, fun q hq => ?_⟩
        have := ha q hq
        rwa [hu, Function.update_of_ne (hne q hq)] at this

-- If the paths are different, no file is overwritten.
theorem kept_of_nodup {e : ZipConf} (h : (entries.map (entryPath cfg)).Nodup) (he : e ∈ entries) :
    Kept cfg entries e := by
  have ⟨l₁, l₂, hl⟩ := List.append_of_mem he
  refine ⟨l₁, l₂, hl, fun e' he' hp => ?_⟩
  rw [hl, List.map_append, List.map_cons] at h
  have ⟨hn, _⟩ := List.nodup_cons.mp (List.nodup_append.mp h).right.left
  exact hn (List.mem_map.mpr ⟨e', he', hp⟩)

-- The directory and the suffix are the same for all of them.
theorem nodup_entryPath
    (hv : ∀ e ∈ entries, validateName (applyPrefix cfg.namePrefix e.name) = .ok ())
    (h : (entries.map (·.name)).Nodup) : (entries.map (entryPath cfg)).Nodup := by
  refine (List.nodup_map_iff_inj_on h.of_map).mpr fun e₁ h₁ e₂ h₂ he => ?_
  have hn := applyPrefix_injective _ (confPath_inj (hv e₁ h₁) (hv e₂ h₂) he)
  exact List.inj_on_of_nodup_map h h₁ h₂ hn

theorem ownFiles_iff (h : ingestZip env cfg key zip files = (.ok report, files')) :
    ∃ archive entries, zip = .ok archive ∧ readZipEntries zip = .ok entries ∧
      (OwnFiles env cfg key archive entries report files' ↔
        cfg.force = false ∨ (entries.map (·.name)).Nodup) := by
  have ⟨entries, parsed, hz, hp, hw, hn⟩ := ingestZip_elim h
  have ⟨archive, ha, hc⟩ := readZipEntries_elim hz
  refine ⟨archive, entries, ha, hz, ?_⟩
  constructor
  · intro o
    have hd := o.nodup
    have hi : report.names = (entries.map (·.name)).map (applyPrefix cfg.namePrefix) := by
      simp [hn]
    exact .inr ((hi ▸ hd).of_map)
  · intro hd
    have hq : (entries.map (entryPath cfg)).Nodup := by
      rcases hd with hf | hd
      · have hq := (nodup_of_writeConfs hf hw).left
        rwa [List.map_map] at hq
      · exact nodup_entryPath (validateName_of_foldlM hp) hd
    constructor
    case nodup =>
      refine List.Nodup.of_map (confPath cfg) ?_
      rw [hn, List.map_map]
      exact hq
    case count => rw [hn, List.length_map, hc]
    case bodies =>
      rw [hn, List.forall₂_map_right_iff, List.forall₂_same]
      intro e he
      rw [(writeConfs_elim hw).left]
      exact (kept_of_nodup hq he).written

theorem ownFiles_sameKeyZip : ∃ report files',
    ingestZip someEnv someConfig (someKey 1) (.ok sameKeyZip) (fun _ => none) = (.ok report, files') ∧
    OwnFiles someEnv someConfig (someKey 1) sameKeyZip sameKeyEntries report files' := by
  have ⟨report, files', hr, _⟩ := ingestZip_sameKeyZip
  obtain ⟨archive, entries, ha, he, ho⟩ := ownFiles_iff hr
  cases ha
  cases readZipEntries_sameKeyZip.symm.trans he
  exact ⟨report, files', hr, ho.mpr (.inl rfl)⟩

-- Two servers that only differ in the directory and the resolver.
def sameNameZip : List ZipFile :=
  [confFile "x/a.conf" [ofString "DNS=9.9.9.9"], confFile "y/a.conf" []]

theorem not_own_sameNameZip : ∃ report files',
    ingestZip someEnv { someConfig with force := true } (someKey 1) (.ok sameNameZip) (fun _ => none) =
      (.ok report, files') ∧
    report.names = ["a", "a"] ∧ ¬report.names.Nodup ∧
    files' (confPath someConfig "a") = some (preparedBody someEnv.table (someKey 1) (confBody [])) ∧
    preparedBody someEnv.table (someKey 1) (confBody [ofString "DNS=9.9.9.9"]) ≠
      preparedBody someEnv.table (someKey 1) (confBody []) := by
  have hn : (ingestZip someEnv { someConfig with force := true } (someKey 1) (.ok sameNameZip)
      fun _ => none).1.toOption.map (·.names) = some ["a", "a"] := by
    decide +kernel
  have ⟨report, hr, hn⟩ := exists_report hn
  exact ⟨report, _, hr, hn, by simp [hn], by decide +kernel, by decide +kernel⟩

end Files

end Generatevpnconfig
