import VpnTunnel.Lib.Os.Basic

namespace Os.Files

variable {s s' s₁ s₂ s₃ : Files} {path path' old new : String} {pid ino : Nat} {f : Inode} {mode : Mode}

-- There is a file for each name, and no file has two names.
structure Tidy (s : Files) : Prop where
  lt        : ∀ path ino, s.names path = some (.file ino) → ino < s.inodes.length
  injective : ∀ path path' ino, s.names path = some (.file ino) → s.names path' = some (.file ino) → path = path'

-- There is nothing else at a name than a file.
def NoDir (s : Files) (path : String) : Prop :=
  ∀ mode, s.names path ≠ some (.dir mode)

def Holds (s : Files) (path : String) (data : ByteString) : Prop :=
  ∃ f, s.inode? path = some f ∧ f.data = data

-- The same name for the same file.
structure Unchanged (s s' : Files) (path : String) : Prop where
  names  : s'.names path = s.names path
  inode? : s'.inode? path = s.inode? path

theorem exists_name (h : s.inode? path = some f) :
    ∃ ino, s.names path = some (.file ino) ∧ s.inodes[ino]? = some f := by
  unfold Files.inode? at h
  split at h
  case h_1 ino hn => exact ⟨ino, hn, h⟩
  case h_2 => contradiction

namespace Holds

variable {data : ByteString}

theorem readFile (h : s.Holds path data) : s.readFile path = .ok data := by
  have ⟨f, hf, hd⟩ := h
  have ⟨ino, hn, hi⟩ := exists_name hf
  simp [Files.readFile, hn, hi, hd]

theorem of_readFile (h : s.readFile path = .ok data) : s.Holds path data := by
  unfold Files.readFile at h
  split at h
  case h_1 | h_2 => cases h
  case h_3 ino hn =>
    cases hf : s.inodes[ino]? <;> rw [hf] at h <;> cases h
    case some => exact ⟨_, inode?_of_name hn ▸ hf, rfl⟩

theorem exists_stat (h : s.Holds path data) : ∃ mode, s.stat path = .ok mode := by
  have ⟨f, hf, _⟩ := h
  have ⟨ino, hn, hi⟩ := exists_name hf
  exact ⟨f.mode, by simp [Files.stat, hn, hi]⟩

theorem noDir (h : s.Holds path data) : s.NoDir path := by
  have ⟨f, hf, _⟩ := h
  have ⟨ino, hn, _⟩ := exists_name hf
  intro mode hd
  cases hn.symm.trans hd

end Holds

namespace Unchanged

theorem trans (h₁ : s₁.Unchanged s₂ path) (h₂ : s₂.Unchanged s₃ path) : s₁.Unchanged s₃ path :=
  ⟨h₂.names.trans h₁.names, h₂.inode?.trans h₁.inode?⟩

theorem holds {data : ByteString} (h : s₁.Unchanged s₂ path) (hh : s₁.Holds path data) : s₂.Holds path data := by
  rwa [Holds, h.inode?]

theorem noDir (h : s₁.Unchanged s₂ path) (hd : s₁.NoDir path) : s₂.NoDir path := by
  rwa [NoDir, h.names]

theorem setName {node : Option Node} (hp : path' ≠ path) : s.Unchanged (s.setName path node) path' := by
  have hn : (s.setName path node).names path' = s.names path' := by simp [Files.setName, Function.update_of_ne hp]
  refine ⟨hn, ?_⟩
  simp only [Files.inode?, hn]
  rfl

theorem move (h₁ : path' ≠ old) (h₂ : path' ≠ new) :
    s.Unchanged ((s.setName old none).setName new (some (.file ino))) path' :=
  (setName h₁).trans (setName h₂)

-- The old name is free again.
theorem vanished {s₁ : Files} (h : s.names old = none) (hn : old ≠ new) :
    s.Unchanged ((s₁.setName old none).setName new (some (.file ino))) old := by
  have hn : ((s₁.setName old none).setName new (some (.file ino))).names old = none := by
    simp [Files.setName, Function.update_of_ne hn]
  exact ⟨hn.trans h.symm, by simp [Files.inode?, hn, h]⟩

-- A file has no other name than the one by which it is changed.
theorem modify {g : Inode → Inode} (ht : s.Tidy) (hn : s.names path = some (.file ino)) (hp : path' ≠ path) :
    s.Unchanged (s.modify ino g) path' := by
  refine ⟨rfl, ?_⟩
  simp only [Files.inode?, Files.modify]
  split
  case h_1 ino' hn' =>
    have hne : ino ≠ ino' := by
      rintro rfl
      exact hp (ht.injective _ _ _ hn' hn)
    simp [hne]
  case h_2 => rfl

theorem put {fd : Nat} {h : Handle} {data : ByteString} (ht : s.Tidy) (hn : s.names path = some (.file h.ino))
    (hp : path' ≠ path) : s.Unchanged (s.put fd h data) path' :=
  have hm : s.Unchanged (s.modify h.ino (·.writeAt h.offset data)) path' := .modify ht hn hp
  ⟨hm.names, hm.inode?⟩

theorem create (ht : s.Tidy) (hp : path' ≠ path) : s.Unchanged (s.create pid path mode) path' := by
  have hn : (s.create pid path mode).names path' = s.names path' := by
    simp [Files.create, Function.update_of_ne hp]
  refine ⟨hn, ?_⟩
  simp only [Files.inode?, hn]
  split
  case h_1 ino hn => simp [Files.create, List.getElem?_append_left (ht.lt _ _ hn)]
  case h_2 => rfl

end Unchanged

theorem inode?_modify {g : Inode → Inode} (hn : s.names path = some (.file ino)) (hf : s.inodes[ino]? = some f) :
    (s.modify ino g).inode? path = some (g f) := by
  simp [Files.inode?, Files.modify, hn, hf]

theorem inode?_move (hf : s.inodes[ino]? = some f) :
    ((s.setName old none).setName new (some (.file ino))).inode? new = some f := by
  simpa [Files.inode?, setName] using hf

theorem rename_of_name (ho : s.names old = some (.file ino)) (hd : s.NoDir new) :
    s.rename old new = (.ok (), (s.setName old none).setName new (some (.file ino))) := by
  unfold Files.rename
  rw [ho]
  cases hn : s.names new
  case none => rfl
  case some node =>
    cases node
    case dir mode => exact absurd hn (hd mode)
    case file => rfl

theorem names_mkdirAll (hp : path' ≠ path) : (s.mkdirAll path mode).2.names path' = s.names path' := by
  unfold Files.mkdirAll
  split
  case isTrue => rfl
  case isFalse =>
    split
    case h_1 => exact (Unchanged.setName hp).names
    case h_2 | h_3 => rfl

theorem mkdirAll_spec (hp : path ≠ "") (hf : ∀ ino, s.names path ≠ some (.file ino)) :
    (s.mkdirAll path mode).1 = .ok () ∧ ∀ ino, (s.mkdirAll path mode).2.names path ≠ some (.file ino) := by
  unfold Files.mkdirAll
  rw [if_neg hp]
  cases hn : s.names path
  case none => simp [Files.setName]
  case some node =>
    cases node
    case file ino => exact absurd hn (hf ino)
    case dir      => simp [hn]

-- A directory that is created takes the place of nothing.
theorem inode?_mkdirAll : (s.mkdirAll path mode).2.inode? path' = s.inode? path' := by
  unfold Files.mkdirAll
  split
  case isTrue => rfl
  case isFalse =>
    split
    case h_1 hn =>
      by_cases hp : path' = path
      case pos => simp [Files.inode?, setName, hp, hn]
      case neg => exact (Unchanged.setName hp).inode?
    case h_2 | h_3 => rfl

namespace Tidy

theorem modify {g : Inode → Inode} (ht : s.Tidy) : (s.modify ino g).Tidy :=
  ⟨by simpa [Files.modify] using ht.lt, ht.injective⟩

theorem put {fd : Nat} {h : Handle} {data : ByteString} (ht : s.Tidy) : (s.put fd h data).Tidy :=
  ⟨by simpa [Files.put, Files.modify] using ht.lt, ht.injective⟩

theorem setName {node : Option Node} (ht : s.Tidy) (hn : ∀ ino, node ≠ some (.file ino)) :
    (s.setName path node).Tidy := by
  have h : ∀ path' ino, (s.setName path node).names path' = some (.file ino) → s.names path' = some (.file ino) := by
    intro path' ino h
    by_cases hp : path' = path
    case pos =>
      simp only [Files.setName, hp, Function.update_self] at h
      exact absurd h (hn ino)
    case neg => exact (Unchanged.setName hp).names ▸ h
  exact ⟨fun _ _ h₁ => ht.lt _ _ (h _ _ h₁), fun _ _ _ h₁ h₂ => ht.injective _ _ _ (h _ _ h₁) (h _ _ h₂)⟩

theorem mkdirAll (ht : s.Tidy) : (s.mkdirAll path mode).2.Tidy := by
  unfold Files.mkdirAll
  split
  case isTrue => exact ht
  case isFalse =>
    split
    case h_1 => exact ht.setName (by simp)
    case h_2 | h_3 => exact ht

theorem create (ht : s.Tidy) : (s.create pid path mode).Tidy := by
  have hlt : ∀ path' ino, (s.create pid path mode).names path' = some (.file ino) →
      (path' = path ∧ ino = s.inodes.length) ∨ (s.names path' = some (.file ino) ∧ ino < s.inodes.length) := by
    intro path' ino h
    by_cases hp : path' = path
    case pos =>
      subst hp
      simp only [Files.create, Function.update_self, Option.some.injEq, Node.file.injEq] at h
      exact .inl ⟨rfl, h.symm⟩
    case neg =>
      rw [(Unchanged.create ht hp).names] at h
      exact .inr ⟨h, ht.lt _ _ h⟩
  constructor
  case lt =>
    intro path' ino h
    simp only [Files.create, List.length_append, List.length_singleton]
    obtain ⟨_, h⟩ | ⟨_, h⟩ := hlt path' ino h <;> omega
  case injective =>
    intro path₁ path₂ ino h₁ h₂
    obtain ⟨h₁, hi₁⟩ | ⟨h₁, hi₁⟩ := hlt path₁ ino h₁ <;> obtain ⟨h₂, hi₂⟩ | ⟨h₂, hi₂⟩ := hlt path₂ ino h₂
    · rw [h₁, h₂]
    · omega
    · omega
    · exact ht.injective _ _ _ h₁ h₂

-- A file keeps having one name if the new name takes the place of the old one.
theorem move (ht : s.Tidy) (ho : s.names old = some (.file ino)) (hn : old ≠ new) :
    ((s.setName old none).setName new (some (.file ino))).Tidy := by
  have hcases : ∀ path' i, ((s.setName old none).setName new (some (.file ino))).names path' = some (.file i) →
      (path' = new ∧ i = ino) ∨ (path' ≠ old ∧ s.names path' = some (.file i)) := by
    intro path' i hp
    by_cases h₂ : path' = new
    case pos =>
      simp only [Files.setName, h₂, Function.update_self, Option.some.injEq, Node.file.injEq] at hp
      exact .inl ⟨h₂, hp.symm⟩
    case neg =>
      by_cases h₁ : path' = old
      case pos => simp [Files.setName, h₁, Function.update_of_ne hn] at hp
      case neg => exact .inr ⟨h₁, (Unchanged.move h₁ h₂).names ▸ hp⟩
  constructor
  case lt =>
    intro path' i hp
    obtain ⟨_, rfl⟩ | ⟨_, hp⟩ := hcases path' i hp
    · exact ht.lt _ _ ho
    · exact ht.lt _ _ hp
  case injective =>
    intro path₁ path₂ i h₁ h₂
    obtain ⟨e₁, rfl⟩ | ⟨o₁, h₁⟩ := hcases path₁ i h₁ <;> obtain ⟨e₂, hi₂⟩ | ⟨o₂, h₂⟩ := hcases path₂ i h₂
    · rw [e₁, e₂]
    · exact absurd (ht.injective _ _ _ h₂ ho) o₂
    · exact absurd (ht.injective _ _ _ (hi₂ ▸ h₁) ho) o₁
    · exact ht.injective _ _ _ h₁ h₂

end Tidy

end Os.Files
