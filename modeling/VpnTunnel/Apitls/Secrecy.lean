import VpnTunnel.Apitls.Theorems

namespace Apitls

open Os Files Prog

-- Only the owner may read or write.
def Private (mode : Mode) : Prop :=
  mode &&& 0o077 = 0

-- Each byte is the one that some of the texts has at its place, or it belongs to a hole.
def Public (texts : ByteString → Prop) (data : ByteString) : Prop :=
  ∀ (i : Nat) b, data[i]? = some b → b = 0 ∨ ∃ text, texts text ∧ text[i]? = some b

-- The text of a certificate that a process makes of what it has drawn itself.
def Issued (x : Crypto) (hostname : String) (ipSANs : List ByteString) (drawn : Nat → Choice → Prop)
    (text : ByteString) : Prop :=
  ∃ pid seed entropy t der, drawn pid (.random seed) ∧ drawn pid (.random entropy) ∧ drawn pid (.time t) ∧
    seed.length = 32 ∧ entropy.length = 16 ∧
    x.createCertificate (template x hostname ipSANs (serial entropy) t) (x.generateKey seed).1 (x.generateKey seed).2 =
      .ok der ∧
    text = x.encodePEM "CERTIFICATE" der

def Safe (texts : ByteString → Prop) (f : Inode) : Prop :=
  Private f.mode ∨ Public texts f.data

def IsKey (certDir path : String) : Prop :=
  path = keyPath certDir ∨ path = keyTmp certDir

variable (texts : ByteString → Prop) (certDir : String) (s₀ : Files)

-- All files are safe, except those that are as they were at first, and the files of the key are private, except a
-- `key.pem` that has not been replaced yet.
structure Secret (s : Files) : Prop where
  lt   : ∀ path ino, s.names path = some (.file ino) → ino < s.inodes.length
  safe : ∀ (ino : Nat) f, s.inodes[ino]? = some f → Safe texts f ∨ s₀.inodes[ino]? = some f
  keys : ∀ path ino f, IsKey certDir path → s.names path = some (.file ino) → s.inodes[ino]? = some f →
    Private f.mode ∨ (path = keyPath certDir ∧ s₀.names path = some (.file ino))

structure Preserves (pid : Nat) (s s' : Files) : Prop where
  secret  : Secret texts certDir s₀ s → Secret texts certDir s₀ s'
  handles : ∀ (fd : Nat) (h : Handle), h.pid = pid → s.handles[fd]? = some h → s'.handles[fd]? = some h
  inodes  : ∀ (ino : Nat) f, s.inodes[ino]? = some f → ∃ f', s'.inodes[ino]? = some f' ∧
    (Private f.mode → Private f'.mode) ∧ (Safe texts f → Safe texts f')

variable {texts certDir s₀} {s s' : Files} {pid pid' ino fd : Nat} {path : String} {f : Inode}

theorem Public.nil : Public texts [] := by
  simp [Public]

-- A part of a text goes to its place.
theorem Public.writeAt {text : ByteString} {n offset : Nat} (h : Public texts f.data) (ht : texts text) :
    Public texts (f.writeAt offset ((text.drop offset).take n)).data := by
  intro i b hb
  simp only [Inode.writeAt, List.append_assoc, List.getElem?_append, List.length_take, List.length_drop,
    List.length_replicate] at hb
  split at hb
  case isTrue hi =>
    rw [List.getElem?_take_of_lt (by omega)] at hb
    exact h i b hb
  case isFalse hi =>
    split at hb
    case isTrue => exact .inl (List.eq_of_mem_replicate (List.mem_of_getElem? hb))
    case isFalse hz =>
      -- What comes now begins at the offset.
      have hj : i - min offset f.data.length - (offset - f.data.length) = i - offset := by omega
      rw [hj] at hb
      split at hb
      case isTrue hc =>
        rw [List.getElem?_take_of_lt (by omega), List.getElem?_drop] at hb
        exact .inr ⟨text, ht, by rwa [Nat.add_sub_cancel' (by omega)] at hb⟩
      case isFalse hc =>
        rw [List.getElem?_drop] at hb
        exact h i b (by rwa [show offset + _ + (i - offset - _) = i by omega] at hb)

theorem keyTmp_ne : keyTmp certDir ≠ keyPath certDir := by
  intro he
  have hl := congrArg String.length he
  have htmp : ".tmp".length = 4 := rfl
  rw [keyTmp, String.length_append] at hl
  omega

theorem Secret.temp (h : Secret texts certDir s₀ s) (hn : s.names (keyTmp certDir) = some (.file ino))
    (hf : s.inodes[ino]? = some f) : Private f.mode :=
  (h.keys _ ino f (.inr rfl) hn hf).resolve_right fun h => keyTmp_ne h.left

namespace Preserves

theorem refl : Preserves texts certDir s₀ pid s s where
  secret h        := h
  handles _ _ _ h := h
  inodes _ f hf   := ⟨f, hf, fun h => h, fun h => h⟩

theorem trans {s₁ s₂ s₃ : Files} (h₁ : Preserves texts certDir s₀ pid s₁ s₂)
    (h₂ : Preserves texts certDir s₀ pid s₂ s₃) : Preserves texts certDir s₀ pid s₁ s₃ where
  secret h           := h₂.secret (h₁.secret h)
  handles fd h hp hh := h₂.handles fd h hp (h₁.handles fd h hp hh)
  inodes ino f hf    := by
    have ⟨f', hf', hp, hs⟩ := h₁.inodes ino f hf
    have ⟨f'', hf'', hp', hs'⟩ := h₂.inodes ino f' hf'
    exact ⟨f'', hf'', fun h => hp' (hp h), fun h => hs' (hs h)⟩

-- A file gets a name of the key only from the temporary one.
theorem names {names : String → Option Node}
    (h : ∀ path ino, names path = some (.file ino) → s.names path = some (.file ino) ∨
      ∃ path', s.names path' = some (.file ino) ∧ (IsKey certDir path → path' = keyTmp certDir)) :
    Preserves texts certDir s₀ pid s { s with names } where
  secret hs       := by
    refine ⟨fun path ino hn => ?_, hs.safe, fun path ino f hk hn hf => ?_⟩
    · obtain hn | ⟨path', hn, _⟩ := h path ino hn <;> exact hs.lt _ ino hn
    · obtain hn | ⟨path', hn, hp⟩ := h path ino hn
      · exact hs.keys path ino f hk hn hf
      · exact .inl (hs.temp (hp hk ▸ hn) hf)
  handles _ _ _ h := h
  inodes _ f hf   := ⟨f, hf, fun h => h, fun h => h⟩

theorem modify {g : Inode → Inode}
    (h : ∀ f, s.inodes[ino]? = some f → Safe texts (g f) ∧ (Private f.mode → Private (g f).mode)) :
    Preserves texts certDir s₀ pid s (s.modify ino g) where
  secret hs        := by
    refine ⟨by simpa [Files.modify] using hs.lt, fun ino' f hf => ?_, fun path ino' f hk hn hf => ?_⟩
    · obtain ⟨rfl, f', hf', rfl⟩ | ⟨_, hf⟩ := List.getElem?_modify_eq_some.mp hf
      · exact .inl (h f' hf').left
      · exact hs.safe ino' f hf
    · obtain ⟨rfl, f', hf', rfl⟩ | ⟨_, hf⟩ := List.getElem?_modify_eq_some.mp hf
      · exact (hs.keys path ino f' hk hn hf').imp_left (h f' hf').right
      · exact hs.keys path ino' f hk hn hf
  handles _ _ _ h  := h
  inodes ino' f hf := by
    by_cases hi : ino = ino'
    case neg => exact ⟨f, List.getElem?_modify_eq_some.mpr (.inr ⟨hi, hf⟩), fun h => h, fun h => h⟩
    case pos =>
      subst hi
      obtain ⟨hs, hp⟩ := h f hf
      exact ⟨g f, List.getElem?_modify_eq_some.mpr (.inl ⟨rfl, f, hf, rfl⟩), hp, fun _ => hs⟩

-- A process relies on its own handles only.
theorem put {h : Handle} {data : ByteString} (hh : s.handles[fd]? = some h) (hn : pid ≠ h.pid)
    (hs : ∀ f, s.inodes[h.ino]? = some f → Safe texts (f.writeAt h.offset data)) :
    Preserves texts certDir s₀ pid s (s.put fd h data) := by
  have hm : Preserves texts certDir s₀ pid s (s.modify h.ino (·.writeAt h.offset data)) :=
    modify fun f hf => ⟨hs f hf, fun h => h⟩
  exact {
    secret  := fun hs => ⟨(hm.secret hs).lt, (hm.secret hs).safe, (hm.secret hs).keys⟩
    handles := fun fd' h' hp hh' => handle_put_of_ne hh (hp ▸ hn) hh'
    inodes  := hm.inodes
  }

theorem create {mode : Mode} (h : IsKey certDir path → Private mode) :
    Preserves texts certDir s₀ pid s (s.create pid' path mode) where
  secret hs         := by
    have hnew : ∀ path' ino, (s.create pid' path mode).names path' = some (.file ino) →
        (path' = path ∧ ino = s.inodes.length) ∨ (s.names path' = some (.file ino) ∧ ino < s.inodes.length) := by
      intro path' ino hn
      by_cases hp : path' = path
      case pos =>
        simp only [Files.create, hp, Function.update_self, Option.some.injEq, Node.file.injEq] at hn
        exact .inl ⟨hp, hn.symm⟩
      case neg =>
        simp only [Files.create, Function.update_of_ne hp] at hn
        exact .inr ⟨hn, hs.lt path' ino hn⟩
    refine ⟨fun path' ino hn => ?_, fun ino f hf => ?_, fun path' ino f hk hn hf => ?_⟩
    · simp only [Files.create, List.length_append, List.length_singleton]
      obtain ⟨_, h⟩ | ⟨_, h⟩ := hnew path' ino hn <;> omega
    · obtain hf | ⟨_, rfl⟩ := List.getElem?_snoc_eq_some.mp hf
      · exact hs.safe ino f hf
      · exact .inl (.inr .nil)
    · obtain hf | ⟨hi, rfl⟩ := List.getElem?_snoc_eq_some.mp hf <;> obtain ⟨hp, hl⟩ | ⟨hn, hl⟩ := hnew path' ino hn
      · exact absurd (List.getElem?_eq_some_iff.mp hf).fst (by omega)
      · exact hs.keys path' ino f hk hn hf
      · exact .inl (h (hp ▸ hk))
      · omega
  handles _ _ _ hh' := List.getElem?_snoc_eq_some.mpr (.inl hh')
  inodes _ f hf     := ⟨f, List.getElem?_snoc_eq_some.mpr (.inl hf), fun h => h, fun h => h⟩

theorem addHandle {h : Handle} : Preserves texts certDir s₀ pid s { s with handles := s.handles ++ [h] } where
  secret hs       := ⟨hs.lt, hs.safe, hs.keys⟩
  handles _ _ _ h := List.getElem?_snoc_eq_some.mpr (.inl h)
  inodes _ f hf   := ⟨f, hf, fun h => h, fun h => h⟩

theorem truncate : Preserves texts certDir s₀ pid s (s.truncate pid' ino) := by
  have h : Preserves texts certDir s₀ pid s (s.modify ino fun f => { f with data := [], synced := false }) :=
    modify fun _ _ => ⟨.inr .nil, fun h => h⟩
  exact h.trans addHandle

theorem setName {node : Option Node} (h : ∀ ino, node ≠ some (.file ino)) :
    Preserves texts certDir s₀ pid s (s.setName path node) := by
  refine names fun path' ino hn => .inl ?_
  by_cases hp : path' = path
  case pos =>
    subst hp
    rw [Function.update_self] at hn
    exact absurd hn (h ino)
  case neg => rwa [Function.update_of_ne hp] at hn

end Preserves

-- The calls that are made, but for those that write to a file.
def Allowed (certDir : String) : Op → Prop
  | .openFile path flag perm => flag = .trunc ∧ (IsKey certDir path → Private perm)
  | .chmod _ mode            => Private mode
  | .rename old new          => IsKey certDir new → old = keyTmp certDir
  | .write .. | .sync _ | .fchmod .. => False
  | _                        => True

theorem private_and {mode mask : Mode} (h : Private mode) : Private (mode &&& mask) := by
  rw [Private] at *
  rw [BitVec.and_assoc, BitVec.and_comm mask, ← BitVec.and_assoc, h]
  exact BitVec.zero_and

theorem preserves_openFile {flag : Flag} {mode : Mode} (h : IsKey certDir path → Private mode) :
    Preserves texts certDir s₀ pid s (s.openFile pid' path flag mode).2 := by
  unfold Files.openFile
  split
  · exact .create h
  · exact .refl
  · exact .refl
  · exact .truncate

theorem preserves_chmod {mode : Mode} (h : Private mode) :
    Preserves texts certDir s₀ pid s (s.chmod path mode).2 := by
  unfold Files.chmod
  split
  · exact .refl
  · exact .setName nofun
  · exact .modify fun _ _ => ⟨.inl h, fun _ => h⟩

theorem preserves_rename {old new : String} (h : IsKey certDir new → old = keyTmp certDir) :
    Preserves texts certDir s₀ pid s (s.rename old new).2 := by
  unfold Files.rename
  split
  case h_4 ino ho _ =>
    refine .names fun path ino' hn => ?_
    by_cases hp : path = new
    case pos =>
      subst hp
      rw [Function.update_self] at hn
      exact .inr ⟨old, hn ▸ ho, h⟩
    case neg =>
      rw [Function.update_of_ne hp] at hn
      by_cases ho : path = old
      case pos => simp [ho, Files.setName] at hn
      case neg =>
        simp only [Files.setName, Function.update_of_ne ho] at hn
        exact .inl hn
  all_goals exact .refl

theorem preserves_remove : Preserves texts certDir s₀ pid s (s.remove path).2 := by
  unfold Files.remove
  split
  · exact .refl
  · exact .refl
  · exact .setName nofun

theorem preserves_mkdirAll {mode : Mode} : Preserves texts certDir s₀ pid s (s.mkdirAll path mode).2 := by
  unfold Files.mkdirAll
  split
  · exact .refl
  · split
    · exact .setName nofun
    · exact .refl
    · exact .refl

variable {umask : Mode} {op : Op} {c : Choice} {drawn : Nat → Choice → Prop}

theorem preserves_exec {r : Res op} (ho : Allowed certDir op)
    (h : (kernel umask).exec pid' s op c = some (r, s')) : Preserves texts certDir s₀ pid s s' := by
  cases exec_elim h
  case inl h => exact eq_of_failed h ▸ .refl
  case inr ha =>
    cases op
    case openFile path flag perm =>
      cases congrArg Prod.snd (Option.some.inj (answer_ok rfl ha))
      exact preserves_openFile fun hk => private_and (ho.right hk)
    case chmod path mode =>
      cases congrArg Prod.snd (Option.some.inj (answer_ok rfl ha))
      exact preserves_chmod ho
    case rename old new =>
      cases congrArg Prod.snd (Option.some.inj (answer_ok rfl ha))
      exact preserves_rename ho
    case remove path =>
      cases congrArg Prod.snd (Option.some.inj (answer_ok rfl ha))
      exact preserves_remove
    case mkdirAll path perm =>
      cases congrArg Prod.snd (Option.some.inj (answer_ok rfl ha))
      exact preserves_mkdirAll
    case write | sync | fchmod => exact ho.elim
    all_goals exact eq_of_isRead rfl h ▸ .refl

-- Any choice may be made, but the machine does not go down.
def upKernel (umask : Mode) : Kernel Op Res Files Choice Empty :=
  (kernel umask).only fun _ => true

-- The program may run at any time.
def Calm (texts : ByteString → Prop) (certDir : String) (s₀ : Files) (umask : Mode) (drawn : Nat → Choice → Prop)
    (pid : Nat) (p : Program α) : Prop :=
  ∀ s, Secret texts certDir s₀ s → p.Meets ((upKernel umask).granting drawn) (Preserves texts certDir s₀) pid
    (fun _ => Secret texts certDir s₀) s

theorem exec_of_upKernel {y : Res op × Files} (h : ((upKernel umask).granting drawn).exec pid s op c = some y) :
    drawn pid c ∧ (kernel umask).exec pid s op c = some y :=
  have ⟨hd, h⟩ := Kernel.granting_elim h
  ⟨hd, (Kernel.only_elim h).right⟩

theorem stable_secret : Stable (Preserves texts certDir s₀ pid) (Secret texts certDir s₀) :=
  fun _ _ h hp => hp.secret h

namespace Calm

variable {α β : Type}

theorem done {a : α} : Calm texts certDir s₀ umask drawn pid (Prog.done a) :=
  fun _ hs => .done stable_secret hs fun _ h => h

theorem bind {p : Program α} {f : α → Program β} (h : Calm texts certDir s₀ umask drawn pid p)
    (hf : ∀ a, Calm texts certDir s₀ umask drawn pid (f a)) : Calm texts certDir s₀ umask drawn pid (p >>= f) :=
  fun s hs => Meets.bind (fun _ => .refl) (h s hs) hf

theorem perform_exec {f : Res op → Program α} (ho : Allowed certDir op)
    (h : ∀ s c r s', drawn pid c → (kernel umask).exec pid s op c = some (r, s') →
      Calm texts certDir s₀ umask drawn pid (f r)) :
    Calm texts certDir s₀ umask drawn pid (Prog.perform op >>= f) := by
  refine fun s hs => .perform_bind stable_secret hs fun s c r s' hs he => ?_
  have ⟨hd, he⟩ := exec_of_upKernel he
  have hp : ∀ pid', Preserves texts certDir s₀ pid' s s' := fun _ => preserves_exec ho he
  exact ⟨fun pid' _ => hp pid', h s c r s' hd he s' ((hp pid).secret hs)⟩

theorem perform {f : Res op → Program α} (ho : Allowed certDir op)
    (h : ∀ r, Calm texts certDir s₀ umask drawn pid (f r)) :
    Calm texts certDir s₀ umask drawn pid (Prog.perform op >>= f) :=
  perform_exec ho fun _ _ r _ _ _ => h r

end Calm

-- A process has opened a file with a property, and has come to a place in it.
def Opened (pid fd offset : Nat) (T : Inode → Prop) (s : Files) : Prop :=
  ∃ ino f, s.handles[fd]? = some ⟨pid, ino, offset⟩ ∧ s.inodes[ino]? = some f ∧ T f

-- The parts of some bytes may be written at their places to files with the property.
structure Target (texts : ByteString → Prop) (T : Inode → Prop) (data : ByteString) : Prop where
  step  : ∀ f f', (Private f.mode → Private f'.mode) → (Safe texts f → Safe texts f') → T f → T f'
  write : ∀ f offset n, T f → Safe texts (f.writeAt offset ((data.drop offset).take n))

variable {T : Inode → Prop} {data : ByteString} {offset : Nat}

theorem Target.key : Target texts (fun f => Private f.mode) data where
  step _ _ hp _ ht  := hp ht
  write _ _ _ ht    := .inl ht

theorem Target.cert (h : texts data) : Target texts (Safe texts) data where
  step _ _ _ hs ht  := hs ht
  write _ _ _ ht    := ht.imp (fun h => h) fun ht => ht.writeAt h

theorem Target.stable (ht : Target texts T data) : Stable (Preserves texts certDir s₀ pid) (Opened pid fd offset T) := by
  rintro s s' ⟨ino, f, hh, hf, hT⟩ hp
  have ⟨f', hf', hm, hs⟩ := hp.inodes ino f hf
  exact ⟨ino, f', hp.handles fd _ rfl hh, hf', ht.step f f' hm hs hT⟩

theorem Target.opened_put {n : Nat} (ht : Target texts T data) (hh : s.handles[fd]? = some ⟨pid, ino, offset⟩)
    (hf : s.inodes[ino]? = some f) (hT : T f) (hn : n ≤ (data.drop offset).length) :
    Opened pid fd (offset + n) T (s.put fd ⟨pid, ino, offset⟩ ((data.drop offset).take n)) := by
  refine ⟨ino, _, ?_, List.getElem?_modify_eq_some.mpr (.inl ⟨rfl, f, hf, rfl⟩), ?_⟩
  · rw [handle_put hh, List.length_take, Nat.min_eq_left hn]
  · exact ht.step f _ (fun h => h) (fun _ => ht.write f offset n hT) hT

theorem meets_writeLoop {turns : Nat} (ht : Target texts T data) (h : Opened pid fd offset T s)
    (hs : Secret texts certDir s₀ s) :
    (writeLoop fd turns (data.drop offset)).Meets ((upKernel umask).granting drawn) (Preserves texts certDir s₀) pid
      (fun _ => Secret texts certDir s₀) s := by
  induction turns generalizing offset s
  case zero => exact Calm.done s hs
  case succ turns hi =>
    unfold writeLoop
    split
    case isTrue  => exact Calm.done s hs
    case isFalse =>
      have hst : Stable (Preserves texts certDir s₀ pid)
          (fun s => Opened pid fd offset T s ∧ Secret texts certDir s₀ s) :=
        fun s s' h hp => ⟨ht.stable h.left hp, hp.secret h.right⟩
      refine Meets.perform_bind hst ⟨h, hs⟩ fun s c r s' h he => ?_
      obtain ⟨⟨ino, f, hh, hf, hT⟩, hs⟩ := h
      obtain ⟨rfl, err, rfl⟩ | ⟨_, n, hf', hn, _, rfl, rfl⟩ := exec_write (exec_of_upKernel he).right
      · exact ⟨fun _ _ => .refl, Calm.done s' hs⟩
      · cases Option.some.inj <| (handle?_of_mem hh).symm.trans hf'
        have hp : ∀ pid' ≠ pid, Preserves texts certDir s₀ pid' s
            (s.put fd ⟨pid, ino, offset⟩ ((data.drop offset).take n)) := by
          refine fun pid' hne => .put hh hne fun f' hf' => ht.write f' offset n ?_
          exact Option.some.inj (hf.symm.trans hf') ▸ hT
        have hi := hi (ht.opened_put hh hf hT hn) ((hp (pid + 1) (Nat.succ_ne_self pid)).secret hs)
        rw [← List.drop_drop] at hi
        exact ⟨hp, hi⟩

-- A file that has just been opened is empty.
theorem opened_openFile {perm : Mode} {r : Except Errno Nat} (hs : Secret texts certDir s₀ s)
    (hk : IsKey certDir path → Private perm)
    (hT : ∀ f, f.data = [] → (path = keyTmp certDir → Private f.mode) → T f)
    (he : (kernel umask).exec pid s (.openFile path .trunc perm) c = some (r, s')) :
    ∀ fd, r = .ok fd → Opened pid fd 0 T s' := by
  rintro fd rfl
  cases exec_elim he
  case inl h => cases congrArg Prod.fst (Option.some.inj h)
  case inr h =>
    have h : s.openFile pid path .trunc (perm &&& ~~~umask) = (.ok fd, s') := Option.some.inj (answer_ok rfl h)
    unfold Files.openFile at h
    split at h
    case h_1 =>
      cases h
      refine ⟨s.inodes.length, _, by simp [Files.create], by simp [Files.create]; rfl, hT _ rfl fun h => ?_⟩
      exact private_and (hk (.inr h))
    case h_2 | h_3 => cases h
    case h_4 ino hn _ =>
      cases h
      obtain ⟨f, hf⟩ : ∃ f, s.inodes[ino]? = some f := ⟨_, List.getElem?_eq_getElem (hs.lt _ _ hn)⟩
      refine ⟨ino, { f with data := [], synced := false }, by simp [Files.truncate, Files.modify],
        by simp [Files.truncate, Files.modify, hf], hT _ rfl ?_⟩
      rintro rfl
      have hp : Private f.mode := hs.temp hn hf
      exact hp

theorem calm_writeFile {perm : Mode} (ht : Target texts T data) (hk : IsKey certDir path → Private perm)
    (hT : ∀ f, f.data = [] → (path = keyTmp certDir → Private f.mode) → T f) :
    Calm texts certDir s₀ umask drawn pid (writeFile path data perm) := by
  refine fun s hs => .perform_bind stable_secret hs fun s c r s' hs he => ?_
  replace he := (exec_of_upKernel he).right
  have ha : Allowed certDir (.openFile path .trunc perm) := ⟨rfl, hk⟩
  have hp : ∀ pid', Preserves texts certDir s₀ pid' s s' := fun _ => preserves_exec ha he
  have ho := opened_openFile hs hk hT he
  refine ⟨fun pid' _ => hp pid', ?_⟩
  cases r
  case error => exact Calm.done s' ((hp pid).secret hs)
  case ok fd =>
    refine .bind (fun _ => .refl) (meets_writeLoop ht (ho fd rfl) ((hp pid).secret hs)) fun r s hs => ?_
    exact Calm.perform (show Allowed certDir (.close fd) from trivial) (fun _ => Calm.done) s hs

section Program

variable {x : Crypto} {hostname : String} {ipSANs : List ByteString}

theorem private_keyPerm : Private 0o600 := by
  rw [Private]
  decide

theorem calm_ensureCertDir : Calm texts certDir s₀ umask drawn pid (ensureCertDir certDir) := by
  refine .perform trivial fun r => ?_
  cases r
  case ok perm => exact .done
  case error err =>
    cases err
    case notExist => exact .perform trivial fun r => .done
    all_goals exact .done

theorem calm_loadX509KeyPair : Calm texts certDir s₀ umask drawn pid (loadX509KeyPair x certDir) := by
  refine .perform trivial fun r => ?_
  cases r
  case error => exact .done
  case ok =>
    refine .perform trivial fun r => ?_
    cases r <;> exact .done

theorem calm_loadAndVerify : Calm texts certDir s₀ umask drawn pid (loadAndVerify x certDir hostname) := by
  refine .bind calm_loadX509KeyPair fun r => ?_
  cases r
  case error => exact .done
  case ok pair =>
    obtain ⟨der, chain, priv⟩ := pair
    dsimp only
    cases x.parseCertificate der
    case error => exact .done
    case ok leaf =>
      refine .perform trivial fun now => ?_
      cases shouldRegenerate leaf hostname now <;> exact .done

theorem calm_cleanup : Calm texts certDir s₀ umask drawn pid (cleanup certDir) :=
  .perform trivial fun _ => .perform trivial fun _ => .done

-- The names of the certificate are none of the key.
theorem not_isKey (ha : Filepath.isAbs certDir) :
    ¬IsKey certDir (certPath certDir) ∧ ¬IsKey certDir (certTmp certDir) := by
  have hn := nodup_paths ha
  simp only [List.nodup_cons, List.mem_cons, not_or, List.not_mem_nil, not_false_eq_true, and_true] at hn
  obtain ⟨-, ⟨ck, -, ckt⟩, ⟨kct, -⟩, ctkt, -⟩ := hn
  exact ⟨not_or.mpr ⟨ck, ckt⟩, not_or.mpr ⟨Ne.symm kct, ctkt⟩⟩

theorem calm_writePEMFiles {der priv : ByteString} (ha : Filepath.isAbs certDir)
    (hd : texts (x.encodePEM "CERTIFICATE" der)) :
    Calm texts certDir s₀ umask drawn pid (writePEMFiles x certDir der priv) := by
  have ⟨hc, hct⟩ := not_isKey ha
  refine .bind (calm_writeFile (.cert hd) (fun hk => absurd hk hct) fun f hd _ => .inr (hd ▸ .nil)) fun r => ?_
  cases r
  case error => exact calm_cleanup.bind fun _ => .done
  case ok =>
    dsimp only
    cases x.marshalPKCS8PrivateKey priv
    case error => exact calm_cleanup.bind fun _ => .done
    case ok pkcs8 =>
      refine .bind (calm_writeFile .key (fun _ => private_keyPerm) fun f _ hp => hp rfl) fun r => ?_
      cases r
      case error => exact calm_cleanup.bind fun _ => .done
      case ok =>
        refine .perform (fun hk => absurd hk hc) fun r => ?_
        cases r
        case error => exact calm_cleanup.bind fun _ => .done
        case ok =>
          refine .perform (fun _ => rfl) fun r => ?_
          cases r
          case error => exact .perform trivial fun _ => .done
          case ok => exact .perform private_keyPerm fun _ => .done

theorem calm_generate (ha : Filepath.isAbs certDir) :
    Calm (Issued x hostname ipSANs drawn) certDir s₀ umask drawn pid (generate x certDir hostname ipSANs) := by
  refine .perform_exec trivial fun s₁ c₁ r s₁' hd₁ he₁ => ?_
  cases r
  case error => exact .done
  case ok seed =>
    obtain ⟨rfl, hl₁⟩ := exec_random he₁
    refine .perform_exec trivial fun s₂ c₂ r s₂' hd₂ he₂ => ?_
    cases r
    case error => exact .done
    case ok entropy =>
      obtain ⟨rfl, hl₂⟩ := exec_random he₂
      refine .perform_exec trivial fun s₃ c₃ now s₃' hd₃ he₃ => ?_
      cases exec_now he₃
      dsimp only
      split
      case h_1 => exact .done
      case h_2 der hc =>
        split
        case h_1 => exact .done
        case h_2 =>
          refine .bind (calm_writePEMFiles ha ?_) fun r => ?_
          · exact ⟨pid, seed, entropy, now, der, hd₁, hd₂, hd₃, hl₁, hl₂, hc, rfl⟩
          · cases r <;> exact .done

theorem calm_loadOrGenerate (ha : Filepath.isAbs certDir) :
    Calm (Issued x hostname ipSANs drawn) certDir s₀ umask drawn pid (loadOrGenerate x certDir hostname ipSANs) := by
  refine .bind calm_ensureCertDir fun r => ?_
  cases r
  case error => exact .done
  case ok =>
    refine .perform trivial fun r => .perform trivial fun r' => ?_
    dsimp only
    split
    case isTrue =>
      refine .bind calm_loadAndVerify fun r => ?_
      cases r
      case ok    => exact .done
      case error => exact calm_generate ha
    case isFalse => exact calm_generate ha

theorem concurrent_secret (ha : Filepath.isAbs certDir) :
    ((upKernel umask).granting drawn).Concurrent (fun _ : Unit => loadOrGenerate x certDir hostname ipSANs)
      (Secret (Issued x hostname ipSANs drawn) certDir s₀) (Preserves (Issued x hostname ipSANs drawn) certDir s₀)
      (fun _ => Secret (Issued x hostname ipSANs drawn) certDir s₀) where
  refl _ _              := .refl
  trans _ _ _ _ h₁ h₂   := h₁.trans h₂
  invariant _ _ _ h hp  := hp.secret h
  crash d               := d.elim
  meets _ _ s hs        := calm_loadOrGenerate ha s hs

-- Whatever the order of the calls of any number of starts, and wherever they fail or are cut off, a file that
-- others may read has nothing in it but bytes of certificates that the starts have made, unless it is one that was
-- there and has not changed. It has a name of the key only if it is a `key.pem` from before.
theorem loadOrGenerate_secret {m : Kernel.Machine Op Res Files (Except Error (Certificate × ByteString))}
    {es : List (Kernel.Event Choice Empty Unit)} (ha : Filepath.isAbs certDir)
    (hn : ∀ path ino, s₀.names path = some (.file ino) → ino < s₀.inodes.length)
    (hk : ∀ f, s₀.inode? (keyTmp certDir) = some f → Private f.mode)
    (r : ((upKernel umask).system (fun _ : Unit => loadOrGenerate x certDir hostname ipSANs) s₀).Run es m)
    (hf : m.shared.inodes[ino]? = some f) (hm : ¬Private f.mode) :
    (Public (Issued x hostname ipSANs fun pid c => .call pid c ∈ es) f.data ∨ s₀.inodes[ino]? = some f) ∧
      ∀ path, IsKey certDir path → m.shared.names path = some (.file ino) →
        path = keyPath certDir ∧ s₀.names path = some (.file ino) := by
  have hi : Secret (Issued x hostname ipSANs fun pid c => .call pid c ∈ es) certDir s₀ s₀ := by
    refine ⟨hn, fun _ _ hf => .inr hf, fun path ino f hp hn hf => ?_⟩
    obtain rfl | rfl := hp
    · exact .inr ⟨rfl, hn⟩
    · exact .inl (hk f (inode?_of_name hn ▸ hf))
  have h := ((concurrent_secret ha).sound hi (Kernel.run_granting r (List.Subset.refl es)).reachable).invariant
  refine ⟨(h.safe ino f hf).imp_left fun h => h.resolve_left hm, fun path hp hn => ?_⟩
  exact (h.keys path ino f hp hn hf).resolve_left hm

-- A start that is cut off while it writes the certificate.
def killedWriter : List (Kernel.Event Choice Empty Unit) := [
  .start (), .call 0 .ok, .call 0 .ok, .call 0 .ok, .call 0 .ok, .call 0 (.random (.replicate 32 7)),
  .call 0 (.random (.replicate 16 1)), .call 0 (.time 0), .call 0 .ok, .call 0 (.bytes 10), .kill 0
]

theorem loadOrGenerate_secret_killedWriter :
    ∃ m f, ((upKernel 0o022).system (fun _ : Unit => loadOrGenerate plainCrypto "/tls" "vpn" []) .empty).Run
        killedWriter m ∧ m.shared.inodes[0]? = some f ∧ ¬Private f.mode ∧
      (Public (Issued plainCrypto "vpn" [] fun pid c => .call pid c ∈ killedWriter) f.data ∨
        Files.empty.inodes[0]? = some f) := by
  have h : ((upKernel 0o022).system (fun _ : Unit => loadOrGenerate plainCrypto "/tls" "vpn" []) .empty).exec
      killedWriter = some _ := rfl
  have r := System.Run.of_exec h
  have hm : ¬Private 0o644 := by
    rw [Private]
    decide
  exact ⟨_, _, r, rfl, hm,
    (loadOrGenerate_secret (by decide +kernel) (by rintro _ _ ⟨⟩) (by rintro _ ⟨⟩) r rfl hm).left⟩

-- A `key.pem.tmp` that others may read is filled with the key as it is.
example : ∃ m f, ((upKernel 0o022).system (fun _ : Unit => loadOrGenerate plainCrypto "/tls" "vpn" [])
      { Files.empty with
        names  := Function.update (fun _ => none) (keyTmp "/tls") (some (.file 0))
        inodes := [⟨0o644, [], true⟩] }).Run
    [.start (), .call 0 .ok, .call 0 .ok, .call 0 .ok, .call 0 .ok, .call 0 (.random (.replicate 32 7)),
      .call 0 (.random (.replicate 16 1)), .call 0 (.time 0), .call 0 .ok, .call 0 (.bytes 33), .call 0 .ok,
      .call 0 .ok, .call 0 (.bytes 32)] m ∧
    m.shared.inode? (keyTmp "/tls") = some f ∧ f.mode = 0o644 ∧ f.data = .replicate 32 7 :=
  ⟨_, _, System.Run.of_exec rfl, rfl, rfl, rfl⟩

end Program

end Apitls
