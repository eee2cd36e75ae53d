import Mathlib.Data.List.Nodup
import VpnTunnel.Lib.Os.Basic

namespace Os.Files

-- No file is open twice. This is the case if all files are opened with `excl`.
structure Exclusive (s : Files) : Prop where
  lt    : ∀ h ∈ s.handles, h.ino < s.inodes.length
  nodup : (s.handles.map (·.ino)).Nodup

-- No other process has opened the file.
def Own (s : Files) (pid ino : Nat) : Prop :=
  ∀ h ∈ s.handles, h.ino = ino → h.pid = pid

-- What a process may rely on: the others leave its files alone, and they do not give other files to the names
-- in `N` that its files have.
structure Keeps (N : String → Prop) (pid : Nat) (s s' : Files) : Prop where
  exclusive : s.Exclusive → s'.Exclusive
  handles   : ∀ (fd : Nat) (h : Handle), h.pid = pid → s.handles[fd]? = some h → s'.handles[fd]? = some h
  fresh     : ∀ h ∈ s'.handles, (∃ h' ∈ s.handles, h'.pid = h.pid ∧ h'.ino = h.ino) ∨ s.inodes.length ≤ h.ino
  length    : s.inodes.length ≤ s'.inodes.length
  inodes    : ∀ ino f, s.Own pid ino → s.inodes[ino]? = some f → s'.inodes[ino]? = some f
  names     : ∀ path ino f, N path → s.Own pid ino → s.inodes[ino]? = some f →
    s.names path = some (.file ino) → s'.names path = some (.file ino)

variable {s s' s₁ s₂ s₃ : Files} {pid pid' fd ino : Nat} {N : String → Prop} {path : String} {f : Inode}

theorem Exclusive.own {h : Handle} (he : s.Exclusive) (hm : h ∈ s.handles) : s.Own h.pid h.ino := by
  intro h' hm' hi
  exact congrArg Handle.pid <| List.inj_on_of_nodup_map he.nodup hm' hm hi

theorem Own.not_other {h : Handle} (hh : s.handles[fd]? = some h) (hn : pid' ≠ h.pid) : ¬s.Own pid' h.ino :=
  fun ho => hn (ho _ (List.mem_of_getElem? hh) rfl).symm

theorem Exclusive.modify {g : Inode → Inode} (he : s.Exclusive) : (s.modify ino g).Exclusive :=
  ⟨by simpa [Files.modify] using he.lt, he.nodup⟩

-- A write moves the offset of a handle and nothing else of it.
theorem exists_of_mem_put {h h' : Handle} {data : ByteString} (hh : s.handles[fd]? = some h)
    (hm : h' ∈ (s.put fd h data).handles) : ∃ h'' ∈ s.handles, h''.pid = h'.pid ∧ h''.ino = h'.ino := by
  obtain hm | rfl := List.mem_or_eq_of_mem_set hm
  · exact ⟨h', hm, rfl, rfl⟩
  · exact ⟨h, List.mem_of_getElem? hh, rfl, rfl⟩

theorem Exclusive.put {h : Handle} {data : ByteString} (he : s.Exclusive) (hh : s.handles[fd]? = some h) :
    (s.put fd h data).Exclusive := by
  refine ⟨fun h' hm => ?_, ?_⟩
  · have ⟨h'', hm, _, hi⟩ := exists_of_mem_put hh hm
    simpa [Files.put, Files.modify, ← hi] using he.lt h'' hm
  · rw [map_ino_put hh]
    exact he.nodup

namespace Keeps

theorem refl : Keeps N pid s s where
  exclusive h     := h
  handles _ _ _ h := h
  fresh h hm      := .inl ⟨h, hm, rfl, rfl⟩
  length          := le_rfl
  inodes _ _ _ h      := h
  names _ _ _ _ _ _ h := h

theorem own (k : Keeps N pid s s') (ho : s.Own pid ino) (hi : ino < s.inodes.length) : s'.Own pid ino := by
  intro h hm he
  obtain ⟨h', hm, hp, hi⟩ | hl := k.fresh h hm
  · exact hp ▸ ho h' hm (hi.trans he)
  · exact absurd (he ▸ hl) (Nat.not_le_of_lt hi)

theorem trans (k₁ : Keeps N pid s₁ s₂) (k₂ : Keeps N pid s₂ s₃) : Keeps N pid s₁ s₃ where
  exclusive h := k₂.exclusive (k₁.exclusive h)
  handles fd h hp hh := k₂.handles fd h hp (k₁.handles fd h hp hh)
  fresh h hm  := by
    obtain ⟨h', hm, hp, hi⟩ | hl := k₂.fresh h hm
    · exact hp ▸ hi ▸ k₁.fresh h' hm
    · exact .inr (k₁.length.trans hl)
  length      := k₁.length.trans k₂.length
  inodes ino f ho hf := by
    have hl := (List.getElem?_eq_some_iff.mp hf).fst
    exact k₂.inodes ino f (k₁.own ho hl) (k₁.inodes ino f ho hf)
  names path ino f hN ho hf hp := by
    have hl := (List.getElem?_eq_some_iff.mp hf).fst
    exact k₂.names path ino f hN (k₁.own ho hl) (k₁.inodes ino f ho hf) (k₁.names path ino f hN ho hf hp)

theorem exists_own (he : s.Exclusive) (hf : ∀ h ∈ s.handles, h.ino = ino → h.pid ≠ pid) :
    ∃ pid' ≠ pid, s.Own pid' ino := by
  by_cases h : ∃ h ∈ s.handles, h.ino = ino
  case pos =>
    obtain ⟨h, hm, rfl⟩ := h
    exact ⟨h.pid, hf h hm rfl, he.own hm⟩
  case neg =>
    push Not at h
    exact ⟨pid + 1, Nat.succ_ne_self pid, fun h' hm hi => absurd hi (h h' hm)⟩

-- Nobody has opened a file yet that is created, and nothing has had its name.
theorem create {mode : Mode} (hn : s.names path = none) :
    Keeps N pid' s (s.create pid path mode) where
  exclusive he := by
    refine ⟨fun h hm => ?_, ?_⟩
    · obtain hm | hm := List.mem_append.mp hm
      · exact Nat.lt_of_lt_of_le (he.lt h hm) (by simp [Files.create])
      · simp [Files.create, List.mem_singleton.mp hm]
    · simp only [Files.create, List.map_append, List.map_cons, List.map_nil]
      refine List.nodup_append.mpr ⟨he.nodup, List.nodup_singleton _, ?_⟩
      simp only [List.mem_map, List.mem_singleton]
      rintro _ ⟨h, hm, rfl⟩ _ rfl
      exact Nat.ne_of_lt (he.lt h hm)
  handles fd h _ hh := List.getElem?_snoc_eq_some.mpr (.inl hh)
  fresh h hm   := by
    obtain hm | hm := List.mem_append.mp hm
    · exact .inl ⟨h, hm, rfl, rfl⟩
    · simp [List.mem_singleton.mp hm]
  length       := by simp [Files.create]
  inodes ino f _ hf := List.getElem?_snoc_eq_some.mpr (.inl hf)
  names path' ino f _ _ _ hp := by
    have hne : path' ≠ path := by
      rintro rfl
      simp [hn] at hp
    simpa [Files.create, Function.update_of_ne hne] using hp

-- A process may change a file that it has opened.
theorem modify {h : Handle} {g : Inode → Inode} (hh : s.handles[fd]? = some h) (hn : pid' ≠ h.pid) :
    Keeps N pid' s (s.modify h.ino g) where
  exclusive he    := he.modify
  handles _ _ _ h := h
  fresh h hm      := .inl ⟨h, hm, rfl, rfl⟩
  length          := by simp [Files.modify]
  inodes ino' f ho hf := by
    refine List.getElem?_modify_eq_some.mpr (.inr ⟨?_, hf⟩)
    rintro rfl
    exact Own.not_other hh hn ho
  names _ _ _ _ _ _ hp := hp

theorem put {h : Handle} {data : ByteString} (hh : s.handles[fd]? = some h) (hn : pid' ≠ h.pid) :
    Keeps N pid' s (s.put fd h data) := by
  have hk : Keeps N pid' s (s.modify h.ino (·.writeAt h.offset data)) := .modify hh hn
  exact {
    hk with
    exclusive := fun he => he.put hh
    handles   := fun fd' h' hp hh' => handle_put_of_ne hh (hp ▸ hn) hh'
    fresh     := fun h' hm => .inl (exists_of_mem_put hh hm)
  }

-- Others may give a name in `N` to something else if it is not the name of a file of the process.
theorem setName {node : Option Node} (h : N path → ∀ ino, s.names path = some (.file ino) → ¬s.Own pid ino) :
    Keeps N pid s (s.setName path node) where
  exclusive he    := ⟨he.lt, he.nodup⟩
  handles _ _ _ h := h
  fresh h hm      := .inl ⟨h, hm, rfl, rfl⟩
  length          := le_rfl
  inodes _ _ _ hf := hf
  names path' ino f hN ho _ hp := by
    have hne : path' ≠ path := by
      rintro rfl
      exact h hN ino hp ho
    simpa [Files.setName, Function.update_of_ne hne] using hp

-- A process may take a name away from a file that it has opened.
theorem removeName {h : Handle} (hh : s.handles[fd]? = some h) (hp : s.names path = some (.file h.ino))
    (hn : pid' ≠ h.pid) : Keeps N pid' s (s.setName path none) := by
  refine .setName fun _ ino' hp' => ?_
  cases Option.some.inj (hp.symm.trans hp')
  exact Own.not_other hh hn

end Keeps

end Os.Files

namespace Os

open Files Prog

variable {umask : Mode} {R : Nat → Files → Files → Prop} {P : ByteString → Files → Prop} {pid fd ino : Nat}

-- What is left of a file after a write: all of the data, or less.
def Written (P : ByteString → Files → Prop) (data : ByteString) : Except Errno Unit → Files → Prop
  | .ok _    => P data
  | .error _ => fun s => ∃ w, w.length < data.length ∧ P w s

-- A file that the process has opened, of which `P w` says that `w` has been written. The others put up with the
-- writes as long as something is missing.
structure Writable (R : Nat → Files → Files → Prop) (P : ByteString → Files → Prop) (pid fd ino : Nat)
    (data : ByteString) : Prop where
  refl   : ∀ pid s, R pid s s
  stable : ∀ w, Stable (R pid) (P w)
  handle : ∀ w s, P w s → s.handles[fd]? = some ⟨pid, ino, w.length⟩
  relies : ∀ w w' s pid', P w s → w.length < data.length → pid' ≠ pid → R pid' s (s.put fd ⟨pid, ino, w.length⟩ w')
  append : ∀ w w' s, P w s → P (w ++ w') (s.put fd ⟨pid, ino, w.length⟩ w')

namespace Writable

variable {data w rest : ByteString} {s : Files} {turns : Nat}

theorem stable_written (h : Writable R P pid fd ino data) (r : Except Errno Unit) :
    Stable (R pid) (Written P data r) := by
  cases r
  case ok    => exact h.stable data
  case error =>
    rintro s s' ⟨w, hl, hw⟩ hr
    exact ⟨w, hl, h.stable w hw hr⟩

theorem meets_writeLoop (h : Writable R P pid fd ino data) (hw : P w s) (hd : w ++ rest = data)
    (ht : rest.length ≤ turns) : (writeLoop fd turns rest).Meets (kernel umask) R pid (Written P data) s := by
  induction turns generalizing w rest s
  case zero =>
    cases List.length_eq_zero_iff.mp (Nat.le_zero.mp ht)
    rw [List.append_nil] at hd
    exact .done (h.stable w) hw fun _ h => hd ▸ h
  case succ turns hi =>
    unfold writeLoop
    split
    case isTrue hr =>
      rw [hr, List.append_nil] at hd
      exact .done (h.stable w) hw fun _ h => hd ▸ h
    case isFalse hr =>
      have hl : w.length < data.length := by
        have := List.length_pos_iff.mpr hr
        rw [← hd, List.length_append]
        omega
      refine .perform_bind (h.stable w) hw fun s c r s' hw he => ?_
      obtain ⟨rfl, err, rfl⟩ | ⟨_, n, hf, hle, hn, rfl, rfl⟩ := exec_write he
      · have hw : Written P data (.error err) s' := ⟨w, hl, hw⟩
        exact ⟨fun _ _ => h.refl _ _, .done (h.stable_written _) hw fun _ h => h⟩
      · cases Option.some.inj <| (handle?_of_mem (h.handle w s hw)).symm.trans hf
        refine ⟨fun pid' hn => h.relies w _ s pid' hw hl hn, hi (h.append w _ s hw) ?_ ?_⟩
        · rw [List.append_assoc, List.take_append_drop, hd]
        · have := hn hr
          rw [List.length_drop]
          omega

theorem meets_writeAll (h : Writable R P pid fd ino data) (hw : P [] s) :
    (writeAll fd data).Meets (kernel umask) R pid (Written P data) s :=
  h.meets_writeLoop hw rfl le_rfl

end Writable

end Os
