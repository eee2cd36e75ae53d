import VpnTunnel.Lib.Os.Exclusive
import VpnTunnel.Lib.Os.Tidy

-- Files that come under their names as a whole: until then they have a temporary name.

namespace Os

def joinPath (dir name : String) : String :=
  if dir.toList.getLast? = some '/' then dir ++ name else dir ++ "/" ++ name

def createTempLoop (first last : String) : Nat → Program (Except Errno (Nat × String))
  | 0         => return .error .exist
  | tries + 1 => do
    let n ← uint32
    let path := first ++ toString n ++ last
    match ← openFile path .excl 0o600 with
    | .ok fd        => return .ok (fd, path)
    | .error .exist => createTempLoop first last tries
    | .error err    => return .error err

-- The pattern for the name has its last star between `first` and `last`.
def createTemp (dir first last : String) : Program (Except Errno (Nat × String)) :=
  let dir := if dir = "" then "/tmp" else dir
  createTempLoop (joinPath dir first) last 10000

namespace Atomic

open Files Prog

-- Under the names that are not in `T` there are the files of `s₀`, or others that `W` permits.
structure Whole (T : String → Prop) (W : String → Inode → Prop) (s₀ s : Files) : Prop where
  exclusive : s.Exclusive
  tidy      : s.Tidy
  settled   : ∀ path, ¬T path → s.inode? path = s₀.inode? path ∨ ∃ f, s.inode? path = some f ∧ W path f

structure Rely (T : String → Prop) (W : String → Inode → Prop) (s₀ : Files) (pid : Nat) (s s' : Files) : Prop
    extends Keeps T pid s s' where
  whole : Whole T W s₀ s → Whole T W s₀ s'

-- A process has a file with a temporary name, which it writes from the start on.
structure Temp (T : String → Prop) (W : String → Inode → Prop) (s₀ : Files) (tmp : String) (pid fd ino : Nat)
    (f : Inode) (s : Files) : Prop where
  whole  : Whole T W s₀ s
  temp   : T tmp
  handle : s.handles[fd]? = some ⟨pid, ino, f.data.length⟩
  name   : s.names tmp = some (.file ino)
  inode  : s.inodes[ino]? = some f

variable {T : String → Prop} {W : String → Inode → Prop} {s₀ s s' : Files} {path tmp : String} {f : Inode}
variable {pid pid' fd ino : Nat} {mode umask : Mode}

namespace Rely

theorem refl : Rely T W s₀ pid s s :=
  ⟨.refl, fun h => h⟩

theorem trans {s₁ s₂ s₃ : Files} (h₁ : Rely T W s₀ pid s₁ s₂) (h₂ : Rely T W s₀ pid s₂ s₃) :
    Rely T W s₀ pid s₁ s₃ :=
  ⟨h₁.toKeeps.trans h₂.toKeeps, fun h => h₂.whole (h₁.whole h)⟩

theorem of_isRead {op : Op} {c : Choice} {r : Res op} (hr : op.isRead)
    (h : (kernel umask).exec pid s op c = some (r, s')) : ∀ pid' ≠ pid, Rely T W s₀ pid' s s' :=
  fun _ _ => eq_of_isRead hr h ▸ .refl

end Rely

theorem Whole.stable : Stable (Rely T W s₀ pid) (Whole T W s₀) :=
  fun _ _ h hr => hr.whole h

theorem Whole.init (ht : s₀.Tidy) (hh : s₀.handles = []) : Whole T W s₀ s₀ :=
  ⟨⟨by simp [hh], by simp [hh]⟩, ht, fun _ _ => .inl rfl⟩

-- A change that leaves alone all names that are not temporary.
theorem Whole.frame (h : Whole T W s₀ s) (he : s'.Exclusive) (ht : s'.Tidy)
    (hf : ∀ path, ¬T path → s'.inode? path = s.inode? path) : Whole T W s₀ s' := by
  refine ⟨he, ht, fun path hp => ?_⟩
  rw [hf path hp]
  exact h.settled path hp

theorem keeps_mkdirAll {N : String → Prop} : Keeps N pid s (s.mkdirAll path mode).2 := by
  unfold Files.mkdirAll
  split
  case isTrue => exact .refl
  case isFalse =>
    split
    case h_1 hn => exact .setName (by simp [hn])
    case h_2 | h_3 => exact .refl

-- A directory takes the place of no file.
theorem rely_mkdirAll : Rely T W s₀ pid s (s.mkdirAll path mode).2 :=
  have hk : Keeps T pid s (s.mkdirAll path mode).2 := keeps_mkdirAll
  ⟨hk, fun h => h.frame (hk.exclusive h.exclusive) h.tidy.mkdirAll fun _ _ => inode?_mkdirAll⟩

namespace Temp

theorem stable : Stable (Rely T W s₀ pid) (Temp T W s₀ tmp pid fd ino f) := by
  intro s s' h hr
  have ho := h.whole.exclusive.own (List.mem_of_getElem? h.handle)
  exact {
    whole  := hr.whole h.whole
    temp   := h.temp
    handle := hr.handles fd _ rfl h.handle
    name   := hr.names tmp ino f h.temp ho h.inode h.name
    inode  := hr.inodes ino f ho h.inode
  }

theorem ne (h : Temp T W s₀ tmp pid fd ino f s) (hp : ¬T path) : path ≠ tmp :=
  fun he => hp (he ▸ h.temp)

theorem create (h : Whole T W s₀ s) (ht : T tmp) (hn : s.names tmp = none) :
    Temp T W s₀ tmp pid s.handles.length s.inodes.length ⟨mode, [], false⟩ (s.create pid tmp mode) where
  whole  := by
    have hk : Keeps T pid s (s.create pid tmp mode) := .create hn
    refine h.frame (hk.exclusive h.exclusive) h.tidy.create fun path hp => ?_
    have hne : path ≠ tmp := fun he => hp (he ▸ ht)
    exact (Unchanged.create h.tidy hne).inode?
  temp   := ht
  handle := by simp [Files.create]
  name   := by simp [Files.create]
  inode  := by simp [Files.create]

-- The bytes of the file stay the same.
theorem modify {g : Inode → Inode} (h : Temp T W s₀ tmp pid fd ino f s) (hg : ∀ f, (g f).data = f.data) :
    Temp T W s₀ tmp pid fd ino (g f) (s.modify ino g) where
  whole  := by
    refine h.whole.frame h.whole.exclusive.modify h.whole.tidy.modify fun path hp => ?_
    exact (Unchanged.modify h.whole.tidy h.name (h.ne hp)).inode?
  temp   := h.temp
  handle := hg f ▸ h.handle
  name   := h.name
  inode  := List.getElem?_modify_eq_some.mpr (.inl ⟨rfl, f, h.inode, rfl⟩)

theorem put {data : ByteString} (h : Temp T W s₀ tmp pid fd ino f s) :
    Temp T W s₀ tmp pid fd ino { f with data := f.data ++ data, synced := false }
      (s.put fd ⟨pid, ino, f.data.length⟩ data) where
  whole  := by
    refine h.whole.frame (h.whole.exclusive.put h.handle) h.whole.tidy.put fun path hp => ?_
    exact (Unchanged.put h.whole.tidy h.name (h.ne hp)).inode?
  temp   := h.temp
  handle := by simpa using handle_put h.handle
  name   := h.name
  inode  := List.getElem?_modify_eq_some.mpr (.inl ⟨rfl, f, h.inode, writeAt_length⟩)

theorem rely_modify {g : Inode → Inode} (h : Temp T W s₀ tmp pid fd ino f s) (hg : ∀ f, (g f).data = f.data)
    (hn : pid' ≠ pid) : Rely T W s₀ pid' s (s.modify ino g) :=
  ⟨.modify h.handle hn, fun _ => (h.modify hg).whole⟩

theorem rely_put {data : ByteString} (h : Temp T W s₀ tmp pid fd ino f s) (hn : pid' ≠ pid) :
    Rely T W s₀ pid' s (s.put fd ⟨pid, ino, f.data.length⟩ data) :=
  ⟨.put h.handle hn, fun _ => h.put.whole⟩

theorem rely_remove (h : Temp T W s₀ tmp pid fd ino f s) (hn : pid' ≠ pid) :
    Rely T W s₀ pid' s (s.setName tmp none) := by
  refine ⟨.removeName h.handle h.name hn, fun hw => ?_⟩
  refine hw.frame ⟨hw.exclusive.lt, hw.exclusive.nodup⟩ (hw.tidy.setName (by simp)) fun path hp => ?_
  exact (Unchanged.setName (h.ne hp)).inode?

-- The file comes under its name when `W` permits it there.
theorem rely_move (h : Temp T W s₀ tmp pid fd ino f s) (hp : ¬T path) (hf : W path f) (hn : pid' ≠ pid) :
    Rely T W s₀ pid' s ((s.setName tmp none).setName path (some (.file ino))) := by
  have hk : Keeps T pid' s (s.setName tmp none) := .removeName h.handle h.name hn
  refine ⟨hk.trans (.setName fun ht => absurd ht hp), fun hw => ?_⟩
  refine ⟨⟨hw.exclusive.lt, hw.exclusive.nodup⟩, hw.tidy.move h.name (h.ne hp).symm, fun path' hp' => ?_⟩
  by_cases he : path' = path
  case pos => exact .inr ⟨f, he ▸ inode?_move h.inode, he ▸ hf⟩
  case neg =>
    rw [(Unchanged.move (h.ne hp') he).inode?]
    exact hw.settled path' hp'

end Temp

theorem inode?_crash {lost : Nat → ByteString} (h : ∀ f, s.inode? path = some f → f.synced) :
    ((kernel umask).crash lost s).inode? path = s.inode? path := by
  simp only [Files.inode?, kernel] at h ⊢
  split
  case h_1 ino hn =>
    rw [hn] at h
    cases hf : s.inodes[ino]?
    case none   => simp [hf]
    case some f => simp [hf, h f hf]
  case h_2 => rfl

-- Only the bytes of files that are not on the disk get lost.
theorem whole_crash {lost : Nat → ByteString} (hs : ∀ path f, ¬T path → s₀.inode? path = some f → f.synced)
    (hW : ∀ path f, W path f → f.synced) (h : Whole T W s₀ s) : Whole T W s₀ ((kernel umask).crash lost s) := by
  have he : ((kernel umask).crash lost s).Exclusive := ⟨by simp [kernel], by simp [kernel]⟩
  refine h.frame he ⟨by simpa [kernel] using h.tidy.lt, h.tidy.injective⟩ fun path hp => inode?_crash fun f hf => ?_
  cases h.settled path hp
  case inl he => exact hs path f hp (he ▸ hf)
  case inr hw =>
    obtain ⟨f', hf', hw⟩ := hw
    cases Option.some.inj (hf.symm.trans hf')
    exact hW path f hw

-- What `createTemp` returns is a new file with a temporary name.
def Created (T : String → Prop) (W : String → Inode → Prop) (s₀ : Files) (pid : Nat) :
    Except Errno (Nat × String) → Files → Prop
  | .error _      => Whole T W s₀
  | .ok (fd, tmp) => fun s => ∃ ino mode, Temp T W s₀ tmp pid fd ino ⟨mode, [], false⟩ s

theorem meets_createTempLoop {first last : String} {tries : Nat} (hT : ∀ n : Nat, T (first ++ toString n ++ last))
    (h : Whole T W s₀ s) :
    (createTempLoop first last tries).Meets (kernel umask) (Rely T W s₀) pid (Created T W s₀ pid) s := by
  induction tries generalizing s
  case zero => exact .done Whole.stable h fun _ h => h
  case succ tries hi =>
    refine .perform_bind Whole.stable h fun s c n s' h he => ⟨Rely.of_isRead rfl he, ?_⟩
    cases eq_of_isRead rfl he
    refine .perform_bind Whole.stable h fun s c r s' h he => ?_
    obtain ⟨rfl, err, rfl⟩ | ⟨hn, rfl, rfl⟩ := exec_openFile_excl he
    · refine ⟨fun _ _ => .refl, ?_⟩
      cases err
      case exist => exact hi h
      all_goals exact .done Whole.stable h fun _ h => h
    · have ht : Temp T W s₀ _ pid _ _ _ (s.create pid _ (0o600 &&& ~~~umask)) := .create h (hT n) hn
      exact ⟨fun _ _ => ⟨.create hn, fun _ => ht.whole⟩, .done Temp.stable ht fun _ h => ⟨_, _, h⟩⟩

end Atomic

end Os
