import VpnTunnel.Generatevpnconfig.Disk.Basic
import VpnTunnel.Generatevpnconfig.Ingest

namespace Generatevpnconfig.Disk

open Os Os.Atomic Os.Files Prog

def IsTemp (path : String) : Prop :=
  ∃ pre, path = pre ++ ".tmp"

theorem not_isTemp_confPath {cfg : RunConfig} {name : String} (h : validateName name = .ok ()) :
    ¬IsTemp (confPath cfg name) := by
  rintro ⟨pre', he⟩
  have ⟨pre, hp⟩ := Filepath.exists_join cfg.dir
  rw [confPath, hp _ (plain_of_validateName h)] at he
  have hl := congrArg (·.toList.getLast?) he
  simp at hl

variable {W : String → Inode → Prop} {s₀ s s' : Os.Files} {umask : Mode} {pid fd ino : Nat} {f : Inode}
variable {tmp dir path err : String} {body : ByteString} {cfg : RunConfig} {table : ByteString.CaseTable}

section Meets

theorem meets_discard (h : Temp IsTemp W s₀ tmp pid fd ino f s) :
    (discard tmp err).Meets (kernel umask) (Rely IsTemp W s₀) pid (fun _ => Whole IsTemp W s₀) s := by
  refine .perform_bind Temp.stable h fun s c r s' h he => ?_
  obtain rfl | rfl := exec_remove he
  · exact ⟨fun _ _ => .refl, .done Whole.stable h.whole fun _ h => h⟩
  · refine ⟨fun _ hn => h.rely_remove hn, .done Whole.stable ?_ fun _ h => h⟩
    exact (h.rely_remove (Nat.succ_ne_self pid)).whole h.whole

theorem meets_closeAndDiscard (h : Temp IsTemp W s₀ tmp pid fd ino f s) :
    (closeAndDiscard fd tmp err).Meets (kernel umask) (Rely IsTemp W s₀) pid (fun _ => Whole IsTemp W s₀) s := by
  refine .perform_bind Temp.stable h fun s c r s' h he => ⟨Rely.of_isRead rfl he, ?_⟩
  cases eq_of_isRead rfl he
  exact meets_discard h

theorem writable : Writable (Rely IsTemp W s₀) (fun w s => ∃ b, Temp IsTemp W s₀ tmp pid fd ino ⟨0o600, w, b⟩ s)
    pid fd ino body where
  refl _ _ := .refl
  stable _ := by
    rintro s s' ⟨b, h⟩ hr
    exact ⟨b, h.stable hr⟩
  handle := by
    rintro _ _ ⟨b, h⟩
    exact h.handle
  relies := by
    rintro _ _ _ _ ⟨b, h⟩ _ hn
    exact h.rely_put hn
  append := by
    rintro _ _ _ ⟨b, h⟩
    exact ⟨false, h.put⟩

theorem meets_writeAtomicConf (h : Whole IsTemp W s₀ s) (hp : ¬IsTemp path) (hW : W path ⟨0o600, body, true⟩) :
    (writeAtomicConf dir path body).Meets (kernel umask) (Rely IsTemp W s₀) pid (fun _ => Whole IsTemp W s₀) s := by
  refine .bind (fun _ => .refl) (meets_createTempLoop (fun _ => ⟨_, rfl⟩) h) fun r s hr => ?_
  cases r
  case error => exact .done Whole.stable hr fun _ h => h
  case ok tmp =>
    obtain ⟨ino, mode, h⟩ := hr
    refine .perform_bind Temp.stable h fun s c r s' h he => ?_
    obtain ⟨rfl, err, rfl⟩ | ⟨ino', hi, rfl, rfl⟩ := exec_fchmod he
    · exact ⟨fun _ _ => .refl, meets_closeAndDiscard h⟩
    · cases Option.some.inj <| (ino?_of_mem h.handle).symm.trans hi
      refine ⟨fun _ hn => h.rely_modify (fun _ => rfl) hn, ?_⟩
      replace h := h.modify (g := fun f => { f with mode := 0o600 }) fun _ => rfl
      refine .bind (fun _ => .refl) (writable.meets_writeAll ⟨false, h⟩) fun r s hr => ?_
      cases r
      case error =>
        obtain ⟨w, _, b, h⟩ := hr
        exact meets_closeAndDiscard h
      case ok =>
        obtain ⟨b, h⟩ := hr
        refine .perform_bind Temp.stable h fun s c r s' h he => ?_
        obtain ⟨rfl, err, rfl⟩ | ⟨ino', hi, rfl, rfl⟩ := exec_sync he
        · exact ⟨fun _ _ => .refl, meets_closeAndDiscard h⟩
        · cases Option.some.inj <| (ino?_of_mem h.handle).symm.trans hi
          refine ⟨fun _ hn => h.rely_modify (fun _ => rfl) hn, ?_⟩
          refine .perform_bind Temp.stable (h.modify fun _ => rfl) fun s c r s' h he => ⟨Rely.of_isRead rfl he, ?_⟩
          cases eq_of_isRead rfl he
          cases r
          case error => exact meets_discard h
          case ok =>
            refine .perform_bind Temp.stable h fun s c r s' h he => ?_
            obtain ⟨rfl, err, rfl⟩ | ⟨ino', hn, rfl, rfl⟩ := exec_rename he
            · exact ⟨fun _ _ => .refl, meets_discard h⟩
            · cases Option.some.inj (h.name.symm.trans hn)
              refine ⟨fun _ hn => h.rely_move hp hW hn, .done Whole.stable ?_ fun _ h => h⟩
              exact (h.rely_move hp hW (Nat.succ_ne_self pid)).whole h.whole

theorem meets_resolveOutputPath {name : String} (h : Whole IsTemp W s₀ s) :
    (resolveOutputPath cfg name).Meets (kernel umask) (Rely IsTemp W s₀) pid
      (fun r s => Whole IsTemp W s₀ s ∧ ∀ outPath, r = .ok outPath → outPath = confPath cfg name) s := by
  have hdone : ∀ r : Except String String, (∀ outPath, r = .ok outPath → outPath = confPath cfg name) → ∀ s,
      Whole IsTemp W s₀ s → (Prog.done r : Program _).Meets (kernel umask) (Rely IsTemp W s₀) pid
        (fun r s => Whole IsTemp W s₀ s ∧ ∀ outPath, r = .ok outPath → outPath = confPath cfg name) s :=
    fun r hr s h => .done Whole.stable h fun _ h => ⟨h, hr⟩
  refine .perform_bind Whole.stable h fun s c r s' h he => ?_
  have hr : ∀ pid, Rely IsTemp W s₀ pid s s' := by
    obtain rfl | rfl := exec_mkdirAll he
    · exact fun _ => .refl
    · exact fun _ => rely_mkdirAll
  refine ⟨fun pid' _ => hr pid', ?_⟩
  replace h := (hr pid).whole h
  cases r
  case error => exact hdone _ (by simp) _ h
  case ok =>
    dsimp only
    -- the cases are not to be found by evaluating the paths
    generalize Filepath.dir (confPath cfg name) = dir
    split
    case isTrue => exact hdone _ (by simp) _ h
    refine .perform_bind Whole.stable h fun s c r s' h he => ⟨Rely.of_isRead rfl he, ?_⟩
    cases eq_of_isRead rfl he
    cases r
    case error => exact hdone _ (by simp) _ h
    case ok =>
      refine hdone _ ?_ _ h
      split
      case isTrue  => simp
      case isFalse => simp

theorem meets_writeConf {p : PreparedConf} (h : Whole IsTemp W s₀ s) (hp : ¬IsTemp (confPath cfg p.name))
    (hW : W (confPath cfg p.name) ⟨0o600, p.body, true⟩) :
    (writeConf table cfg p).Meets (kernel umask) (Rely IsTemp W s₀) pid (fun _ => Whole IsTemp W s₀) s := by
  refine .bind (fun _ => .refl) (meets_resolveOutputPath h) fun r s ⟨h, hr⟩ => ?_
  cases r
  case error => exact .done Whole.stable h fun _ h => h
  case ok =>
    cases hr _ rfl
    refine .bind (fun _ => .refl) (meets_writeAtomicConf h hp hW) fun r s h => ?_
    cases r
    case error => exact .done Whole.stable h fun _ h => h
    case ok =>
      refine .perform_bind Whole.stable h fun s c r s' h he => ⟨Rely.of_isRead rfl he, ?_⟩
      cases eq_of_isRead rfl he
      exact .done Whole.stable h fun _ h => h

theorem meets_writeConfs {ps : List PreparedConf} (h : Whole IsTemp W s₀ s)
    (hp : ∀ p ∈ ps, ¬IsTemp (confPath cfg p.name))
    (hW : ∀ p ∈ ps, W (confPath cfg p.name) ⟨0o600, p.body, true⟩) :
    (writeConfs table cfg ps).Meets (kernel umask) (Rely IsTemp W s₀) pid (fun _ => Whole IsTemp W s₀) s := by
  induction ps generalizing s
  case nil => exact .done Whole.stable h fun _ h => h
  case cons p ps hi =>
    have ⟨hp, hps⟩ := List.forall_mem_cons.mp hp
    have ⟨hW, hWs⟩ := List.forall_mem_cons.mp hW
    refine .bind (fun _ => .refl) (meets_writeConf h hp hW) fun r s h => ?_
    cases r
    case error => exact .done Whole.stable h fun _ h => h
    case ok => exact .bind (fun _ => .refl) (hi h hps hWs) fun _ s h => .done Whole.stable h fun _ h => h

end Meets

section Atomic

variable {ι : Type} {jobs : ι → Job} {env : Env}

theorem validateName_of_prepare {job : Job} {prepared : List PreparedConf} {pub : ByteString}
    (h : job.prepare env = .ok (prepared, pub)) : ∀ p ∈ prepared, validateName p.name = .ok () := by
  simp only [Job.prepare, Except.bind_eq_ok] at h
  obtain ⟨entries, _, h⟩ := h
  have hv := validateName_of_foldlM h
  obtain ⟨_, rfl, _⟩ := foldlM_prepareEntry h
  simpa [prepare] using hv

-- One of the jobs has this file in store for the name, all of which is on the disk.
def Requested (env : Env) (jobs : ι → Job) (path : String) (f : Inode) : Prop :=
  ∃ i prepared pub, (jobs i).prepare env = .ok (prepared, pub) ∧
    ∃ p ∈ prepared, confPath (jobs i).cfg p.name = path ∧ f = ⟨0o600, p.body, true⟩

theorem meets_ingestZip {i : ι} (h : Whole IsTemp (Requested env jobs) s₀ s) :
    (ingestZip env (jobs i)).Meets (kernel umask) (Rely IsTemp (Requested env jobs) s₀) pid
      (fun _ => Whole IsTemp (Requested env jobs) s₀) s := by
  unfold ingestZip
  split
  case h_1 => exact .done Whole.stable h fun _ h => h
  case h_2 prepared pub hp =>
    refine .bind (fun _ => .refl) (meets_writeConfs h ?_ ?_) fun _ s h => .done Whole.stable h fun _ h => h
    · exact fun p hm => not_isTemp_confPath (validateName_of_prepare hp p hm)
    · exact fun p hm => ⟨i, prepared, pub, hp, p, hm, rfl, rfl⟩

theorem concurrent (hs : ∀ path f, ¬IsTemp path → s₀.inode? path = some f → f.synced) :
    (kernel umask).Concurrent (fun i => ingestZip env (jobs i)) (Whole IsTemp (Requested env jobs) s₀)
      (Rely IsTemp (Requested env jobs) s₀) (fun _ => Whole IsTemp (Requested env jobs) s₀) where
  refl _ _             := .refl
  trans _ _ _ _ h₁ h₂  := h₁.trans h₂
  invariant _ _ _ h hr := hr.whole h
  crash _ _            := by
    refine whole_crash hs ?_
    rintro _ _ ⟨_, _, _, _, _, _, _, rfl⟩
    rfl
  meets _ _ _ h        := meets_ingestZip h

-- Whatever is cut off and when, a name that is not temporary has its old file or a complete one of some job.
theorem ingestZip_atomic {m : Kernel.Machine Op Res Os.Files (Except Error Report)} (ht : s.Tidy)
    (hh : s.handles = []) (hs : ∀ path f, ¬IsTemp path → s.inode? path = some f → f.synced)
    (r : ((kernel umask).system (fun i => ingestZip env (jobs i)) s).Reachable m) (hp : ¬IsTemp path) :
    m.shared.inode? path = s.inode? path ∨
      ∃ f, m.shared.inode? path = some f ∧ Requested env jobs path f :=
  ((concurrent hs).sound (.init ht hh) r).invariant.settled path hp

-- The first file is complete when the machine goes down, of the second one a part is written.
def powerLoss : List (Kernel.Event Choice (Nat → ByteString) Unit) :=
  .start () :: [.ok, .ok, .number 7, .ok, .ok, .bytes (confBody [privateKeyLine (someKey 1).string]).length, .ok,
    .ok, .ok, .ok, .ok, .ok, .number 8, .ok, .ok, .bytes 5].map (.call 0) ++ [.crash fun _ => []]

theorem ingestZip_atomic_powerLoss :
    ∃ m, ((kernel 0).system (fun _ : Unit => ingestZip someEnv ⟨someConfig, someKey 1, .ok sameKeyZip⟩) .empty).Run
        powerLoss m ∧
      (m.shared.inode? (confPath someConfig "a") = none ∨ ∃ f, m.shared.inode? (confPath someConfig "a") = some f ∧
        Requested someEnv (fun _ : Unit => ⟨someConfig, someKey 1, .ok sameKeyZip⟩) (confPath someConfig "a") f) := by
  have h : (((kernel 0).system (fun _ : Unit => ingestZip someEnv ⟨someConfig, someKey 1, .ok sameKeyZip⟩) .empty).exec
      powerLoss).isSome := by
    decide +kernel
  have ⟨m, h⟩ := Option.isSome_iff_exists.mp h
  have r := System.Run.of_exec h
  refine ⟨m, r, ingestZip_atomic ⟨?_, ?_⟩ rfl ?_ r.reachable (not_isTemp_confPath (by decide +kernel))⟩
  · rintro _ _ ⟨⟩
  · rintro _ _ _ ⟨⟩
  · rintro _ _ _ ⟨⟩

end Atomic

end Generatevpnconfig.Disk
