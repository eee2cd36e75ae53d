import VpnTunnel.Generatevpnconfig.Disk.Theorems
import VpnTunnel.Lib.Os.Sequential

-- A run of the tool that is alone and whose calls do not fail does what the model of the files says.

namespace Generatevpnconfig.Disk

open Infrastructure (Wgconf.parseFile)
open Os Os.Files Os.Sequential Prog
open Tunnelpool.Supervisor (base)

def view (s : Os.Files) : Files :=
  fun path => (s.inode? path).map (·.data)

-- The calls of the model do not fail either.
structure Faultless (env : Env) : Prop where
  mkdirAll : ∀ path, env.mkdirAll path = .ok ()
  write    : ∀ path, env.write path = .ok ()
  openFile : ∀ path, env.openFile path = .ok ()

-- No directory is in the way of what is to be written. Temporary files of other runs may be left.
structure Ready (cfg : RunConfig) (names : List String) (s : Os.Files) : Prop where
  tidy  : s.Tidy
  dir   : ∀ ino, s.names cfg.dir ≠ some (.file ino)
  noDir : ∀ name ∈ names, s.NoDir (confPath cfg name)

structure Valid (cfg : RunConfig) (names : List String) : Prop where
  dir   : cfg.dir ≠ ""
  names : ∀ name ∈ names, validateName name = .ok ()

def tempPath (dir path : String) (n : Nat) : String :=
  joinPath dir (.ofList (base path.toList) ++ ".") ++ toString n ++ ".tmp"

-- The numbers that were drawn for a temporary file all belong to files that have been there before.
def GaveUp (cfg : RunConfig) (s : Os.Files) (err : Error) : Prop :=
  ∃ name n, err = .write name ("create temp: " ++ Errno.exist.text) ∧
    s.names (tempPath cfg.dir (confPath cfg name) n) ≠ none

-- The temporary names are taken and free as before.
def SameTemps (cfg : RunConfig) (s s' : Os.Files) : Prop :=
  ∀ path, IsTemp path → path ≠ cfg.dir → s'.names path = s.names path

variable {env : Env} {cfg : RunConfig} {names : List String} {name tmp path : String} {body : ByteString}
variable {s s' : Os.Files} {umask : Mode} {pid fd ino : Nat}

def noFail (c : Choice) : Bool :=
  c ≠ .fail

theorem ne_fail_of_noFail (c : Choice) (h : noFail c) : c ≠ .fail :=
  of_decide_eq_true h

theorem noFail_choice (op : Op) : noFail (choice 0 op) := by
  cases op <;> rfl

theorem isTemp_tempPath {dir : String} {n : Nat} : IsTemp (tempPath dir path n) :=
  ⟨_, rfl⟩

theorem tempPath_ne {dir : String} {n : Nat} : tempPath dir path n ≠ dir := by
  intro he
  have hl := congrArg String.length he
  have htmp : ".tmp".length = 4 := rfl
  unfold tempPath joinPath at hl
  split at hl <;> simp only [String.length_append] at hl <;> omega

theorem SameTemps.gaveUp {err : Error} (h : SameTemps cfg s s') (hg : GaveUp cfg s' err) : GaveUp cfg s err := by
  have ⟨name, n, he, hn⟩ := hg
  exact ⟨name, n, he, h _ isTemp_tempPath tempPath_ne ▸ hn⟩

-- A name that is taken is left alone, and another one is tried.
theorem ensures_createTempLoop {first last : String} {tries : Nat} (ht : s.Tidy)
    (hn : tries = 0 → ∃ n : Nat, s.names (first ++ toString n ++ last) ≠ none) :
    (createTempLoop first last tries).Ensures ((kernel umask).only noFail) pid (fun r s' =>
      (∃ fd ino, ∃ n : Nat, r = .ok (fd, first ++ toString n ++ last) ∧ s.names (first ++ toString n ++ last) = none ∧
        Writing s (first ++ toString n ++ last) pid fd ino [] s') ∨
      (r = .error .exist ∧ ∃ n : Nat, s.names (first ++ toString n ++ last) ≠ none)) s := by
  induction tries
  case zero => exact .inr ⟨rfl, hn rfl⟩
  case succ tries hi =>
    intro c (n : Nat) s' he
    cases eq_of_isRead rfl (Kernel.only_elim he).right
    refine ensures_plain ne_fail_of_noFail rfl fun r s' he => ?_
    have he : s.openFile pid _ .excl (0o600 &&& ~~~umask) = (r, s') := Option.some.inj he
    unfold Files.openFile at he
    cases hn : s.names (first ++ toString n ++ last)
    case none =>
      rw [hn] at he
      cases he
      exact .inl ⟨_, _, n, rfl, hn, .create ht⟩
    case some node =>
      rw [hn] at he
      cases he
      exact hi fun _ => ⟨n, hn ▸ Option.some_ne_none node⟩

theorem ensures_writeAtomicConf {dir : String} (hdir : dir ≠ "") (ht : s.Tidy) (hp : ¬IsTemp path)
    (hd : s.NoDir path) :
    (writeAtomicConf dir path body).Ensures ((kernel umask).only noFail) pid (fun r s' =>
      (r = .ok () ∧ s'.Tidy ∧ s'.Holds path body ∧ ∀ path' ≠ path, s.Unchanged s' path') ∨
      (r = .error ("create temp: " ++ Errno.exist.text) ∧ ∃ n, s.names (tempPath dir path n) ≠ none)) s := by
  unfold writeAtomicConf createTemp
  rw [if_neg hdir]
  refine .bind (ensures_createTempLoop ht (by simp)) ?_
  rintro _ s₁ (⟨fd, ino, n, rfl, hn, hw⟩ | ⟨rfl, n, hn⟩)
  case inr => exact .inr ⟨rfl, n, hn⟩
  have hne : path ≠ tempPath dir path n := fun he => hp (he ▸ isTemp_tempPath)
  change s.names (tempPath dir path n) = none at hn
  change Writing s (tempPath dir path n) pid fd ino [] s₁ at hw
  refine ensures_plain ne_fail_of_noFail rfl fun r s₂ he => ?_
  obtain ⟨rfl, hw⟩ := hw.change he fun _ => rfl
  refine .bind (ensures_writeLoop ne_fail_of_noFail hw le_rfl) fun r s₃ ⟨hr, hw⟩ => ?_
  subst hr
  refine ensures_plain ne_fail_of_noFail rfl fun r s₄ he => ?_
  obtain ⟨rfl, hw⟩ := hw.change he fun _ => rfl
  refine ensures_plain ne_fail_of_noFail rfl fun r s₅ he => ?_
  cases he
  refine ensures_plain ne_fail_of_noFail rfl fun r s₆ he => ?_
  cases (rename_of_name hw.name ((hw.frame path hne).noDir hd)).symm.trans (Option.some.inj he)
  have ⟨f, hf, hd⟩ := hw.holds
  rw [inode?_of_name hw.name] at hf
  refine .inl ⟨rfl, hw.tidy.move hw.name hne.symm, ⟨f, inode?_move hf, hd⟩, fun path' hp' => ?_⟩
  by_cases he : path' = tempPath dir path n
  case pos =>
    rw [he]
    exact .vanished hn hne.symm
  case neg => exact (hw.frame path' he).trans (.move he hp')

theorem stat_isOk_iff (ht : s.Tidy) (hd : s.NoDir path) : (∃ mode, s.stat path = .ok mode) ↔ (view s path).isSome := by
  simp only [Files.stat, view, Files.inode?]
  cases hn : s.names path
  case none => simp
  case some node =>
    cases node
    case dir mode => exact absurd hn (hd mode)
    case file ino => simp [List.getElem?_eq_getElem (ht.lt _ _ hn)]

theorem ready_mkdirAll {mode : Mode} (hv : Valid cfg names) (h : Ready cfg names s) :
    Ready cfg names (s.mkdirAll cfg.dir mode).2 where
  tidy  := h.tidy.mkdirAll
  dir   := (mkdirAll_spec hv.dir h.dir).right
  noDir name hm mode := by
    have hne : confPath cfg name ≠ cfg.dir := Filepath.join_ne hv.dir (plain_of_validateName (hv.names name hm))
    rw [names_mkdirAll hne]
    exact h.noDir name hm mode

theorem ensures_resolveOutputPath (he : Faultless env) (hv : Valid cfg names) (h : Ready cfg names s)
    (hm : name ∈ names) :
    (resolveOutputPath cfg name).Ensures ((kernel umask).only noFail) pid (fun r s' =>
      r = Generatevpnconfig.resolveOutputPath env cfg (view s) name ∧ view s' = view s ∧ Ready cfg names s' ∧
        SameTemps cfg s s') s := by
  have habs : Generatevpnconfig.resolveOutputPath env cfg (view s) name =
      if Filepath.dir (confPath cfg name) ≠ Filepath.clean cfg.dir then
        .error ("resolved path " ++ confPath cfg name ++ " escapes target dir " ++ cfg.dir)
      else if (view s (confPath cfg name)).isSome ∧ ¬cfg.force then
        .error (confPath cfg name ++ " already exists — pick another name or re-run with -force to overwrite")
      else
        .ok (confPath cfg name) := by
    simp only [Generatevpnconfig.resolveOutputPath, he.mkdirAll, Except.mapError, Bind.bind, Except.bind, Pure.pure,
      Except.pure]
  refine ensures_plain ne_fail_of_noFail rfl fun r s₁ he => ?_
  have hr : r = (s.mkdirAll cfg.dir (0o700 &&& ~~~umask)).1 := (congrArg Prod.fst (Option.some.inj he)).symm
  have hs : s₁ = (s.mkdirAll cfg.dir (0o700 &&& ~~~umask)).2 := (congrArg Prod.snd (Option.some.inj he)).symm
  rw [(mkdirAll_spec hv.dir h.dir).left] at hr
  subst hr hs
  have htemps : SameTemps cfg s (s.mkdirAll cfg.dir (0o700 &&& ~~~umask)).2 := fun _ _ hp => names_mkdirAll hp
  have hview : view (s.mkdirAll cfg.dir (0o700 &&& ~~~umask)).2 = view s := by
    funext path
    simp [view, inode?_mkdirAll]
  replace h : Ready cfg names (s.mkdirAll cfg.dir (0o700 &&& ~~~umask)).2 := ready_mkdirAll hv h
  rw [habs, ← hview]
  generalize (s.mkdirAll cfg.dir (0o700 &&& ~~~umask)).2 = s at h htemps
  dsimp only
  generalize Filepath.dir (confPath cfg name) = dir
  split
  case isTrue => exact ⟨rfl, rfl, h, htemps⟩
  case isFalse =>
    refine ensures_plain ne_fail_of_noFail rfl fun r s₁ he => ?_
    obtain ⟨rfl, rfl⟩ := Prod.mk.inj (Option.some.inj he)
    have hstat := stat_isOk_iff h.tidy (h.noDir name hm)
    cases hs : s.stat (confPath cfg name)
    case error err =>
      rw [hs] at hstat
      have hnone : ¬(view s (confPath cfg name)).isSome := hstat.not.mp (by simp)
      exact ⟨by simp [hnone], rfl, h, htemps⟩
    case ok mode =>
      rw [hs] at hstat
      have hsome : (view s (confPath cfg name)).isSome := hstat.mp ⟨mode, rfl⟩
      exact ⟨by simp [hsome], rfl, h, htemps⟩

theorem ready_update {p : String} (h : Ready cfg names s) (ht : s'.Tidy) (hh : s'.Holds (confPath cfg p) body)
    (hu : ∀ path ≠ confPath cfg p, s.Unchanged s' path) (hv : Valid cfg names) (hm : p ∈ names) :
    Ready cfg names s' ∧ SameTemps cfg s s' ∧
      view s' = Function.update (view s) (confPath cfg p) (some body) := by
  have hne : cfg.dir ≠ confPath cfg p := (Filepath.join_ne hv.dir (plain_of_validateName (hv.names p hm))).symm
  refine ⟨⟨ht, ?_, ?_⟩, ?_, ?_⟩
  · rw [(hu cfg.dir hne).names]
    exact h.dir
  · intro name hm
    by_cases he : confPath cfg name = confPath cfg p
    case pos => exact he ▸ hh.noDir
    case neg => exact (hu _ he).noDir (h.noDir name hm)
  · intro path hp _
    have hne : path ≠ confPath cfg p := fun he => not_isTemp_confPath (hv.names p hm) (he ▸ hp)
    exact (hu path hne).names
  · funext path
    have ⟨f, hf, hd⟩ := hh
    by_cases he : path = confPath cfg p
    case pos => simp [view, he, hf, hd]
    case neg => simp [view, Function.update_of_ne he, (hu path he).inode?]

theorem ensures_writeConf {p : PreparedConf} (he : Faultless env) (hv : Valid cfg names) (h : Ready cfg names s)
    (hm : p.name ∈ names) :
    (writeConf env.table cfg p).Ensures ((kernel umask).only noFail) pid (fun r s' =>
      ((r, view s') = Generatevpnconfig.writeConf env cfg (view s) p ∧ Ready cfg names s' ∧ SameTemps cfg s s') ∨
      ∃ err, r = .error err ∧ GaveUp cfg s err) s := by
  refine .bind (ensures_resolveOutputPath he hv h hm) ?_
  rintro r s₁ ⟨hr, hs, h₁, ht₁⟩
  rw [← hs] at hr ⊢
  cases r
  case error err => exact .inl ⟨by rw [Generatevpnconfig.writeConf, ← hr], h₁, ht₁⟩
  case ok outPath =>
    cases resolveOutputPath_elim hr.symm
    have hp : ¬IsTemp (confPath cfg p.name) := not_isTemp_confPath (hv.names p.name hm)
    refine .bind (ensures_writeAtomicConf hv.dir h₁.tidy hp (h₁.noDir _ hm)) ?_
    rintro r s₂ (⟨rfl, ht, hh, hu⟩ | ⟨rfl, n, hn⟩)
    case inr => exact .inr ⟨_, rfl, ht₁.gaveUp ⟨p.name, n, rfl, hn⟩⟩
    obtain ⟨h₂, ht₂, hs₂⟩ := ready_update h₁ ht hh hu hv hm
    refine ensures_plain ne_fail_of_noFail rfl fun r s₃ hr' => ?_
    obtain ⟨rfl, rfl⟩ := Prod.mk.inj (Option.some.inj hr')
    refine .inl ⟨?_, h₂, fun path ht hne => (ht₂ path ht hne).trans (ht₁ path ht hne)⟩
    have hread : Generatevpnconfig.readFile env (view s₂) (confPath cfg p.name) = .ok p.body := by
      simp [Generatevpnconfig.readFile, he.openFile, hs₂, Except.bind]
    have hparse : Wgconf.parseFile env.table (Generatevpnconfig.readFile env (view s₂)) (confPath cfg p.name) =
        Wgconf.parseFile env.table (fun _ => (Except.ok p.body).mapError Errno.text) (confPath cfg p.name) := by
      rw [Wgconf.parseFile, hread]
      rfl
    rw [Generatevpnconfig.writeConf, ← hr, hh.readFile]
    simp only [he.write, ← hs₂, hparse]

theorem ensures_writeConfs {ps : List PreparedConf} (he : Faultless env) (hv : Valid cfg names)
    (h : Ready cfg names s) (hm : ∀ p ∈ ps, p.name ∈ names) :
    (writeConfs env.table cfg ps).Ensures ((kernel umask).only noFail) pid (fun r s' =>
      (r, view s') = Generatevpnconfig.writeConfs env cfg (view s) ps ∨ ∃ err, r = .error err ∧ GaveUp cfg s err) s := by
  induction ps generalizing s
  case nil => exact .inl rfl
  case cons p ps hi =>
    have ⟨hp, hm⟩ := List.forall_mem_cons.mp hm
    refine .bind (ensures_writeConf he hv h hp) ?_
    rintro r s₁ (⟨hr, h₁, ht⟩ | ⟨err, rfl, hg⟩)
    case inr => exact .inr ⟨err, rfl, hg⟩
    rw [Generatevpnconfig.writeConfs, ← hr]
    cases r
    case error => exact .inl rfl
    case ok parsed =>
      refine .bind (hi h₁ hm) ?_
      rintro r s₂ (hr | ⟨err, rfl, hg⟩)
      case inl =>
        simp only [← hr]
        exact .inl rfl
      case inr => exact .inr ⟨err, rfl, ht.gaveUp hg⟩

-- The file system refines the model of the files: alone and without faults, a run of the tool ends, and it ends
-- with the result and the files of the model, unless no free name is found for a temporary file.
theorem ingestZip_refines {job : Job} (he : Faultless env) (hd : job.cfg.dir ≠ "")
    (h : ∀ prepared pub, job.prepare env = .ok (prepared, pub) → Ready job.cfg (prepared.map (·.name)) s) :
    (∃ r s', (ingestZip env job).Returns ((kernel umask).only noFail) pid s r s') ∧
    ∀ r s', (ingestZip env job).Returns ((kernel umask).only noFail) pid s r s' →
      Generatevpnconfig.ingestZip env job.cfg job.key job.zip (view s) = (r, view s') ∨
      ∃ err, r = .error err ∧ GaveUp job.cfg s err := by
  refine ⟨exists_returns (exists_exec noFail_choice umask pid), fun r s' hr => ?_⟩
  refine Ensures.returns (Q := fun r s' =>
    Generatevpnconfig.ingestZip env job.cfg job.key job.zip (view s) = (r, view s') ∨
      ∃ err, r = .error err ∧ GaveUp job.cfg s err) ?_ hr
  have hprep : job.prepare env = readZipEntries job.zip >>= prepareEntries env job.cfg job.key := rfl
  rw [Generatevpnconfig.ingestZip, ingestZip]
  cases hz : readZipEntries job.zip <;> rw [hz] at hprep
  case error err =>
    rw [hprep]
    exact .inl rfl
  case ok entries =>
    have hprep : job.prepare env = prepareEntries env job.cfg job.key entries := hprep
    cases hp : prepareEntries env job.cfg job.key entries <;> rw [hp] at hprep
    case error err =>
      rw [hprep]
      simp only [hp]
      exact .inl rfl
    case ok x =>
      obtain ⟨prepared, pub⟩ := x
      have hv : Valid job.cfg (prepared.map (·.name)) := by
        refine ⟨hd, fun name hm => ?_⟩
        obtain ⟨p, hp, rfl⟩ := List.mem_map.mp hm
        exact validateName_of_prepare hprep p hp
      simp only [hprep, hp]
      refine .bind (ensures_writeConfs he hv (h prepared pub hprep) fun p hm => List.mem_map_of_mem hm) ?_
      rintro r s' (hr | ⟨err, rfl, hg⟩)
      case inl =>
        simp only [← hr]
        exact .inl rfl
      case inr => exact .inr ⟨err, rfl, hg⟩

-- A run that was killed has left a temporary file.
def leftover : Os.Files where
  names   := Function.update (fun _ => none) (tempPath someConfig.dir (confPath someConfig "a") 7) (some (.file 0))
  inodes  := [⟨0o600, [1, 2, 3], false⟩]
  handles := []

theorem ingestZip_refines_leftover :
    (∃ r s', (ingestZip someEnv ⟨someConfig, someKey 1, .ok sameKeyZip⟩).Returns ((kernel 0).only noFail) 0 leftover r
      s') ∧
    ∀ r s', (ingestZip someEnv ⟨someConfig, someKey 1, .ok sameKeyZip⟩).Returns ((kernel 0).only noFail) 0 leftover r
        s' →
      Generatevpnconfig.ingestZip someEnv someConfig (someKey 1) (.ok sameKeyZip) (view leftover) = (r, view s') ∨
      ∃ err, r = .error err ∧ GaveUp someConfig leftover err := by
  have hname : ∀ path node, leftover.names path = some node →
      path = tempPath someConfig.dir (confPath someConfig "a") 7 ∧ node = .file 0 := by
    intro path node h
    by_cases hp : path = tempPath someConfig.dir (confPath someConfig "a") 7
    case pos => exact ⟨hp, by simpa [leftover, hp] using h.symm⟩
    case neg => simp [leftover, Function.update_of_ne hp] at h
  refine ingestZip_refines ⟨fun _ => rfl, fun _ => rfl, fun _ => rfl⟩ (by decide) fun _ _ _ => ⟨⟨?_, ?_⟩, ?_, ?_⟩
  · intro path ino h
    cases (hname path _ h).right
    decide
  · intro path path' ino h h'
    rw [(hname path _ h).left, (hname path' _ h').left]
  · exact fun ino h => tempPath_ne (hname _ _ h).left.symm
  · intro name _ mode h
    cases (hname _ _ h).right

end Generatevpnconfig.Disk
