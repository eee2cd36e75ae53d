import VpnTunnel.Hmackey.Basic
import VpnTunnel.Lib.Os.Exclusive

namespace Hmackey

open Os Files Prog

variable {umask : Mode} {path : String} {pid pid' fd ino : Nat} {s s' : Files} {k w data : ByteString}

-- A file of the full length is left alone by all processes, also by the one that has created it.
structure Rely (path : String) (pid : Nat) (s s' : Files) : Prop extends Keeps (· = path) pid s s' where
  full : ∀ f, s.inode? path = some f → f.data.length = keyLen → s'.inode? path = some f

def Returns (path : String) (r : Except Error ByteString) (s : Files) : Prop :=
  ∀ k, r = .ok k → k.length = keyLen ∧ ∃ f, s.inode? path = some f ∧ f.data = k

-- The process has created the file and has written `w` so far.
structure Creating (path : String) (pid fd ino : Nat) (w : ByteString) (s : Files) : Prop where
  exclusive : s.Exclusive
  handle    : s.handles[fd]? = some ⟨pid, ino, w.length⟩
  name      : s.names path = some (.file ino)
  written   : ∃ f, s.inodes[ino]? = some f ∧ f.data = w

namespace Rely

theorem refl : Rely path pid s s :=
  ⟨.refl, fun _ h _ => h⟩

theorem trans {s₁ s₂ s₃ : Files} (h₁ : Rely path pid s₁ s₂) (h₂ : Rely path pid s₂ s₃) : Rely path pid s₁ s₃ :=
  ⟨h₁.toKeeps.trans h₂.toKeeps, fun f hf hl => h₂.full f (h₁.full f hf hl) hl⟩

end Rely

theorem stable_exclusive : Stable (Rely path pid) Files.Exclusive :=
  fun _ _ he hr => hr.exclusive he

theorem stable_returns {r : Except Error ByteString} : Stable (Rely path pid) (Returns path r) := by
  intro s s' h hr k hk
  have ⟨hl, f, hf, hd⟩ := h k hk
  exact ⟨hl, f, hr.full f hf (hd ▸ hl), hd⟩

namespace Creating

theorem stable : Stable (Rely path pid) (Creating path pid fd ino w) := by
  intro s s' h hr
  have ho := h.exclusive.own (List.mem_of_getElem? h.handle)
  have ⟨f, hf, hw⟩ := h.written
  exact {
    exclusive := hr.exclusive h.exclusive
    handle    := hr.handles fd _ rfl h.handle
    name      := hr.names path ino f rfl ho hf h.name
    written   := ⟨f, hr.inodes ino f ho hf, hw⟩
  }

theorem length_ne {f : Inode} (h : Creating path pid fd ino w s) (hl : w.length < keyLen)
    (hf : s.inode? path = some f) : f.data.length ≠ keyLen := by
  have ⟨f', hf', hw⟩ := h.written
  rw [inode?_of_name h.name, hf'] at hf
  rw [← Option.some.inj hf, hw]
  exact Nat.ne_of_lt hl

-- As long as the file is short, no other process depends on it.
theorem rely_put (h : Creating path pid fd ino w s) (hl : w.length < keyLen) (hn : pid' ≠ pid) :
    Rely path pid' s (s.put fd ⟨pid, ino, w.length⟩ data) :=
  ⟨.put h.handle hn, fun _ hf hk => absurd hk (h.length_ne hl hf)⟩

theorem rely_remove (h : Creating path pid fd ino w s) (hl : w.length < keyLen) (hn : pid' ≠ pid) :
    Rely path pid' s (s.setName path none) :=
  ⟨.removeName h.handle h.name hn, fun _ hf hk => absurd hk (h.length_ne hl hf)⟩

theorem create {mode : Mode} (he : s.Exclusive) (hn : s.names path = none) :
    Creating path pid s.handles.length s.inodes.length [] (s.create pid path mode) where
  exclusive := (@Keeps.create s pid pid (· = path) path mode hn).exclusive he
  handle    := by simp [Files.create]
  name      := by simp [Files.create]
  written   := by simp [Files.create]

theorem append (h : Creating path pid fd ino w s) :
    Creating path pid fd ino (w ++ data) (s.put fd ⟨pid, ino, w.length⟩ data) where
  exclusive := h.exclusive.put h.handle
  handle    := by simpa using handle_put h.handle
  name      := h.name
  written   := by
    obtain ⟨f, hf, rfl⟩ := h.written
    exact ⟨_, List.getElem?_modify_eq_some.mpr (.inl ⟨rfl, f, hf, writeAt_length⟩), rfl⟩

theorem returns (h : Creating path pid fd ino k s) (hl : k.length = keyLen) : Returns path (.ok k) s := by
  intro k' hk
  cases Except.ok.inj hk
  have ⟨f, hf, hw⟩ := h.written
  exact ⟨hl, f, inode?_of_name h.name ▸ hf, hw⟩

end Creating

section Meets

variable {err : Error}

theorem returns_error : Returns path (.error err) s := by
  intro k hk
  cases hk

theorem meets_error : (Prog.done (.error err) : Program _).Meets (kernel umask) (Rely path) pid (Returns path) s :=
  .done stable_returns returns_error fun _ h => h

-- A call that changes nothing disturbs nobody.
theorem rely_of_isRead {op : Op} {c : Choice} {r : Res op} (hr : op.isRead)
    (h : (kernel umask).exec pid s op c = some (r, s')) : ∀ pid' ≠ pid, Rely path pid' s s' :=
  fun _ _ => eq_of_isRead hr h ▸ .refl

theorem meets_discard (h : Creating path pid fd ino w s) (hl : w.length < keyLen) :
    (discard path fd err).Meets (kernel umask) (Rely path) pid (Returns path) s := by
  refine .perform_bind Creating.stable h fun s c r s' h he => ⟨rely_of_isRead rfl he, ?_⟩
  cases eq_of_isRead rfl he
  refine .perform_bind Creating.stable h fun s c r s' h he => ⟨fun pid' hn => ?_, meets_error⟩
  cases exec_remove he
  case inl he => exact he ▸ .refl
  case inr he => exact he ▸ h.rely_remove hl hn

theorem writable (hl : k.length = keyLen) : Writable (Rely path) (Creating path pid fd ino) pid fd ino k where
  refl _ _                := .refl
  stable _                := Creating.stable
  handle _ _ h            := h.handle
  relies _ _ _ _ h hw hn  := h.rely_put (hl ▸ hw) hn
  append _ _ _ h          := h.append

theorem meets_generate (h : Creating path pid fd ino [] s) :
    (generate path fd).Meets (kernel umask) (Rely path) pid (Returns path) s := by
  refine .perform_bind Creating.stable h fun s c r s' h he => ⟨rely_of_isRead rfl he, ?_⟩
  cases eq_of_isRead rfl he
  cases r
  case error err => exact meets_discard h (by decide)
  case ok k      =>
    have hl := (exec_random he).right
    refine .bind (fun _ => .refl) ((writable hl).meets_writeAll h) fun r s hw => ?_
    cases r
    case error err =>
      have ⟨w, hw, h⟩ := hw
      exact meets_discard h (hl ▸ hw)
    case ok =>
      refine .perform_bind Creating.stable hw fun s c r s' h he => ⟨rely_of_isRead rfl he, ?_⟩
      cases eq_of_isRead rfl he
      cases r
      case error => exact meets_error
      case ok    => exact .done stable_returns (h.returns hl) fun _ h => h

theorem meets_loadExistingKey (h : s.Exclusive) :
    (loadExistingKey path).Meets (kernel umask) (Rely path) pid (Returns path) s := by
  refine .perform_bind stable_exclusive h fun s c r s' h he => ⟨rely_of_isRead rfl he, ?_⟩
  cases eq_of_isRead rfl he
  cases r
  case error => exact meets_error
  case ok    =>
    dsimp only
    split
    case isTrue  => exact meets_error
    case isFalse =>
      refine .perform_bind stable_exclusive h fun s c r s' h he => ⟨rely_of_isRead rfl he, ?_⟩
      obtain ⟨rfl, hr⟩ := exec_readFile he
      cases r
      case error  => exact meets_error
      case ok raw =>
        refine .done stable_returns ?_ fun _ h => h
        have ⟨ino, f, hn, hf, hd⟩ := hr raw rfl
        split
        case isTrue     => exact returns_error
        case isFalse hl =>
          intro k hk
          cases Except.ok.inj hk
          exact ⟨not_not.mp hl, f, inode?_of_name hn ▸ hf, hd⟩

end Meets

theorem meets_loadOrGenerate {configDir : String} (h : s.Exclusive) :
    (loadOrGenerate path configDir).Meets (kernel umask) (Rely (resolve path configDir)) pid
      (Returns (resolve path configDir)) s := by
  refine .perform_bind stable_exclusive h fun s c r s' h he => ?_
  obtain ⟨rfl, err, rfl⟩ | ⟨hn, rfl, rfl⟩ := exec_openFile_excl he
  · refine ⟨fun _ _ => .refl, ?_⟩
    cases err
    case exist => exact meets_loadExistingKey h
    all_goals exact meets_error
  · refine ⟨fun pid' _ => ⟨.create hn, fun f hf => ?_⟩, meets_generate (.create h hn)⟩
    simp [inode?, hn] at hf

theorem concurrent {configDir : String} :
    (kernel umask).Concurrent (fun _ : Unit => loadOrGenerate path configDir) Files.Exclusive
      (Rely (resolve path configDir)) (Returns (resolve path configDir)) where
  refl _ _                   := .refl
  trans _ _ _ _ h₁ h₂        := h₁.trans h₂
  invariant _ _ _ h hr       := hr.exclusive h
  crash _ _ _                := ⟨by simp [kernel], by simp [kernel]⟩
  meets _ _ _ h              := meets_loadOrGenerate h

theorem loadOrGenerate_agree {configDir : String} {k₁ k₂ : ByteString} {pid₁ pid₂ : Nat}
    {m : Kernel.Machine Op Res Files (Except Error ByteString)} (hs : s.handles = [])
    (r : ((kernel umask).system (fun _ : Unit => loadOrGenerate path configDir) s).Reachable m)
    (h₁ : m.Returned pid₁ (.ok k₁)) (h₂ : m.Returned pid₂ (.ok k₂)) :
    k₁ = k₂ ∧ k₁.length = keyLen ∧ ∃ f, m.shared.inode? (resolve path configDir) = some f ∧ f.data = k₁ := by
  have hs : s.Exclusive := ⟨by simp [hs], by simp [hs]⟩
  have ⟨hl, f, hf, hd⟩ := concurrent.returned hs r h₁ k₁ rfl
  have ⟨_, f', hf', hd'⟩ := concurrent.returned hs r h₂ k₂ rfl
  cases Option.some.inj (hf.symm.trans hf')
  exact ⟨hd.symm.trans hd', hl, f, hf, hd⟩

-- Two processes, of which the first one creates the file.
def createAndLoad : List (Kernel.Event Choice (Nat → ByteString) Unit) := [
  .start (), .start (), .call 0 .ok, .call 0 (.random (.replicate keyLen 7)), .call 0 (.bytes 40),
  .call 0 (.bytes 24), .call 1 .ok, .call 0 .ok, .call 1 .ok, .call 1 .ok
]

theorem loadOrGenerate_agree_createAndLoad :
    ∃ m, ((kernel 0).system (fun _ : Unit => loadOrGenerate "/key" "/") .empty).Run createAndLoad m ∧
      m.Returned 0 (.ok (.replicate keyLen 7)) ∧ m.Returned 1 (.ok (.replicate keyLen 7)) ∧
      ∃ f, m.shared.inode? (resolve "/key" "/") = some f ∧ f.data = .replicate keyLen 7 := by
  have h : ((kernel 0).system (fun _ : Unit => loadOrGenerate "/key" "/") .empty).exec createAndLoad = some _ := rfl
  have r := System.Run.of_exec h
  exact ⟨_, r, rfl, rfl, (@loadOrGenerate_agree _ _ _ _ _ _ 0 1 _ rfl r.reachable rfl rfl).right.right⟩

section Abandoned

variable {configDir : String} {m m' : Kernel.Machine Op Res Files (Except Error ByteString)} {f : Inode}
variable {e : Kernel.Event Choice (Nat → ByteString) Unit}

-- The file that has the name is one that no running process has opened.
structure Abandoned (path : String) (ino : Nat) (f : Inode)
    (m : Kernel.Machine Op Res Files (Except Error ByteString)) : Prop where
  name     : m.shared.names path = some (.file ino)
  inode    : m.shared.inodes[ino]? = some f
  finished : ∀ h ∈ m.shared.handles, h.ino = ino → m.Finished h.pid

theorem abandoned_step (ha : Abandoned (resolve path configDir) ino f m)
    (hs : Kernel.Concurrent.Sound (kernel umask) Files.Exclusive (Rely (resolve path configDir))
      (Returns (resolve path configDir)) m)
    (hc : ∀ d, e ≠ .crash d)
    (h : (kernel umask).step (fun _ : Unit => loadOrGenerate path configDir) m e = some m') :
    Abandoned (resolve path configDir) ino f m' := by
  have hf := fun h' hm hi => Kernel.finished_step (ha.finished h' hm hi) h
  cases e
  case start | kill =>
    cases Option.some.inj h
    exact ⟨ha.name, ha.inode, hf⟩
  case call pid c =>
    have ⟨pid', hn, ho⟩ := Keeps.exists_own hs.invariant fun h' hm hi => Kernel.ne_of_finished (ha.finished h' hm hi) h
    have hr := Kernel.Concurrent.relies hs concurrent hn h
    refine ⟨hr.names _ ino f rfl ho ha.inode ha.name, hr.inodes ino f ho ha.inode, fun h' hm hi => ?_⟩
    obtain ⟨h'', hm, hp, hi'⟩ | hl := hr.fresh h' hm
    · exact hp ▸ hf h'' hm (hi'.trans hi)
    · exact absurd (hi ▸ hl) (Nat.not_le_of_lt (List.getElem?_eq_some_iff.mp ha.inode).fst)
  case crash d => exact absurd rfl (hc d)

-- A file of another length that is left behind stays, and no process returns a key.
theorem loadOrGenerate_stuck {es es' : List (Kernel.Event Choice (Nat → ByteString) Unit)} (hs : s.handles = [])
    (r : ((kernel umask).system (fun _ : Unit => loadOrGenerate path configDir) s).Run es m)
    (ha : Abandoned (resolve path configDir) ino f m) (hl : f.data.length ≠ keyLen)
    (hc : ∀ d, .crash d ∉ es')
    (r' : ((kernel umask).system (fun _ : Unit => loadOrGenerate path configDir) s).Run (es ++ es') m') :
    m'.shared.inode? (resolve path configDir) = some f ∧ ∀ pid k, ¬m'.Returned pid (.ok k) := by
  have hs : s.Exclusive := ⟨by simp [hs], by simp [hs]⟩
  have ha' : Abandoned (resolve path configDir) ino f m' := by
    refine r.invariant_while (P := Abandoned (resolve path configDir) ino f) (K := fun _ e => ∀ d, e ≠ .crash d)
      ha ?_ ?_ r'
    · exact fun m e m' r hc ha h => abandoned_step ha (concurrent.sound hs r) hc h
    · rintro l₁ e l₂ _ rfl _ d rfl
      exact hc d (by simp)
  have hf : m'.shared.inode? (resolve path configDir) = some f := by rw [inode?_of_name ha'.name, ha'.inode]
  refine ⟨hf, fun pid k hk => ?_⟩
  have ⟨hl', f', hf', hd⟩ := concurrent.returned hs r'.reachable hk k rfl
  cases Option.some.inj (hf.symm.trans hf')
  exact hl (hd ▸ hl')

-- The process that has created the file is killed before it has written the whole key.
def killedCreator : List (Kernel.Event Choice (Nat → ByteString) Unit) :=
  [.start (), .call 0 .ok, .call 0 (.random (.replicate keyLen 7)), .call 0 (.bytes 40), .kill 0]

theorem loadOrGenerate_stuck_killedCreator :
    ∃ m, ((kernel 0).system (fun _ : Unit => loadOrGenerate "/key" "/") .empty).Run
        (killedCreator ++ [.start (), .call 1 .ok, .call 1 .ok, .call 1 .ok]) m ∧
      ∀ pid k, ¬m.Returned pid (.ok k) := by
  have h : ((kernel 0).system (fun _ : Unit => loadOrGenerate "/key" "/") .empty).exec killedCreator = some _ := rfl
  have h' : ((kernel 0).system (fun _ : Unit => loadOrGenerate "/key" "/") .empty).exec
      (killedCreator ++ [.start (), .call 1 .ok, .call 1 .ok, .call 1 .ok]) = some _ := rfl
  have r' := System.Run.of_exec h'
  refine ⟨_, r', (@loadOrGenerate_stuck _ _ 0 _ _ _ _ _ _ _ rfl (System.Run.of_exec h) ⟨rfl, rfl, ?_⟩ ?_ ?_ r').right⟩
  · intro h' hm _
    cases List.mem_singleton.mp hm
    exact ⟨none, rfl, by simp⟩
  · decide
  · simp

end Abandoned

end Hmackey
