import VpnTunnel.Lib.Os.Tidy

-- One process alone, with calls that do not fail for reasons of their own.

namespace Os

namespace Sequential

open Files

variable {α : Type} {umask : Mode} {C : Choice → Bool} {pid fd : Nat} {s s' : Files} {Q : α → Files → Prop}

-- If a call has one outcome, the program goes on with it.
theorem ensures_plain {op : Op} {f : Res op → Program α} (hC : ∀ c, C c → c ≠ .fail) (hp : op.isPlain)
    (h : ∀ r s', answer umask pid s op .ok = some (r, s') → (f r).Ensures ((kernel umask).only C) pid Q s') :
    (Prog.perform op >>= f).Ensures ((kernel umask).only C) pid Q s := by
  intro c r s' he
  have ⟨hc, he⟩ := Kernel.only_elim he
  exact h r s' (exec_ok (hC c hc) hp he)

theorem eq_ok_of_only {op : Op} {c : Choice} {x : Res op × Files} (hC : ∀ c, C c → c ≠ .fail)
    (h : ((kernel umask).only C).exec pid s op c = some x) : answer umask pid s op c = some x := by
  have ⟨hc, h⟩ := Kernel.only_elim h
  simpa only [kernel, if_neg (hC c hc)] using h

-- A choice for each call, by which it does not fail. The clock stands still.
def choice (time : Nat) : Op → Choice
  | .write _ data => .bytes data.length
  | .random n     => .random (.replicate n 1)
  | .uint32       => .number 0
  | .now          => .time time
  | _             => .ok

theorem exists_exec {time : Nat} (hC : ∀ op, C (choice time op)) (umask : Mode) (pid : Nat) (s : Files) (op : Op) :
    ∃ c r s', ((kernel umask).only C).exec pid s op c = some (r, s') := by
  have h : ∃ r s', (kernel umask).exec pid s op (choice time op) = some (r, s') := by
    cases op
    case write fd data =>
      cases hi : s.handle? pid fd
      case none   => exact ⟨.error .other, s, by simp [kernel, choice, answer, hi]⟩
      case some h => exact ⟨.ok data.length, s.put fd h data, by simp [kernel, choice, answer, hi]⟩
    case random n => exact ⟨.ok (.replicate n 1), s, by simp [kernel, choice, answer]⟩
    case uint32   => exact ⟨(0 : Nat), s, rfl⟩
    case now      => exact ⟨time, s, rfl⟩
    all_goals exact ⟨_, _, rfl⟩
  obtain ⟨r, s', h⟩ := h
  exact ⟨choice time op, r, s', by simpa [Kernel.only, hC op] using h⟩

-- A file is being written under the name, and all other names are as in `s₀`.
structure Writing (s₀ : Files) (path : String) (pid fd ino : Nat) (w : ByteString) (s : Files) : Prop where
  handle : s.handles[fd]? = some ⟨pid, ino, w.length⟩
  name   : s.names path = some (.file ino)
  holds  : s.Holds path w
  tidy   : s.Tidy
  frame  : ∀ path' ≠ path, s₀.Unchanged s path'

variable {s₀ : Files} {path : String} {ino : Nat} {w data : ByteString}

namespace Writing

theorem append (h : Writing s₀ path pid fd ino w s) :
    Writing s₀ path pid fd ino (w ++ data) (s.put fd ⟨pid, ino, w.length⟩ data) where
  handle := by simpa using handle_put h.handle
  name   := h.name
  holds  := by
    have ⟨f, hf, hw⟩ := h.holds
    rw [inode?_of_name h.name] at hf
    subst hw
    exact ⟨_, inode?_modify h.name hf, by simp [writeAt_length]⟩
  tidy   := h.tidy.put
  frame path' hp := (h.frame path' hp).trans (.put h.tidy h.name hp)

-- The bytes of the file stay the same.
theorem keep {g : Inode → Inode} (h : Writing s₀ path pid fd ino w s) (hg : ∀ f, (g f).data = f.data) :
    Writing s₀ path pid fd ino w (s.modify ino g) where
  handle := h.handle
  name   := h.name
  holds  := by
    have ⟨f, hf, hw⟩ := h.holds
    rw [inode?_of_name h.name] at hf
    exact ⟨_, inode?_modify h.name hf, (hg f).trans hw⟩
  tidy   := h.tidy.modify
  frame path' hp := (h.frame path' hp).trans (.modify h.tidy h.name hp)

theorem create {mode : Mode} (ht : s.Tidy) :
    Writing s path pid s.handles.length s.inodes.length [] (s.create pid path mode) where
  handle := by simp [Files.create]
  name   := by simp [Files.create]
  holds  := by simp [Files.Holds, Files.inode?, Files.create]
  tidy   := ht.create
  frame path' hp := .create ht hp

theorem truncate (ht : s.Tidy) (hn : s.names path = some (.file ino)) :
    Writing s path pid s.handles.length ino [] (s.truncate pid ino) where
  handle := by simp [Files.truncate, Files.modify]
  name   := hn
  holds  := by
    obtain ⟨f, hf⟩ : ∃ f, s.inodes[ino]? = some f := ⟨_, List.getElem?_eq_getElem (ht.lt _ _ hn)⟩
    exact ⟨_, inode?_modify hn hf, rfl⟩
  tidy   := ⟨by simpa [Files.truncate, Files.modify] using ht.lt, ht.injective⟩
  frame path' hp :=
    have h : s.Unchanged _ path' := .modify ht hn hp
    ⟨h.names, h.inode?⟩

-- A call on the open file.
theorem change {g : Inode → Inode} {r : Except Errno Unit} (h : Writing s₀ path pid fd ino w s)
    (he : some (s.change pid fd g) = some (r, s')) (hg : ∀ f, (g f).data = f.data) :
    r = .ok () ∧ Writing s₀ path pid fd ino w s' := by
  have hc : s.change pid fd g = (.ok (), s.modify ino g) := by
    simp [Files.change, ino?_of_mem h.handle]
  cases hc.symm.trans (Option.some.inj he)
  exact ⟨rfl, h.keep hg⟩

end Writing

theorem ensures_writeLoop {turns : Nat} (hC : ∀ c, C c → c ≠ .fail) (h : Writing s₀ path pid fd ino w s)
    (hl : data.length ≤ turns) :
    (writeLoop fd turns data).Ensures ((kernel umask).only C) pid
      (fun r s => r = .ok () ∧ Writing s₀ path pid fd ino (w ++ data) s) s := by
  induction turns generalizing w data s
  case zero =>
    cases List.length_eq_zero_iff.mp (Nat.le_zero.mp hl)
    exact ⟨rfl, by simpa using h⟩
  case succ turns hi =>
    unfold writeLoop
    split
    case isTrue hd => exact ⟨rfl, by simpa [hd] using h⟩
    case isFalse hd =>
      intro c r s' he
      replace he := eq_ok_of_only hC he
      cases c <;> simp only [answer, handle?_of_mem h.handle, reduceCtorEq] at he
      case bytes n =>
        split at he
        case isTrue => contradiction
        case isFalse hn =>
          push Not at hn
          have hp : n ≠ 0 := fun hz => hd (hn.right hz)
          cases he
          have hw : Writing s₀ path pid fd ino (w ++ data.take n) _ := h.append
          have hl : (data.drop n).length ≤ turns := by
            rw [List.length_drop]
            omega
          have hi := hi hw hl
          rw [List.append_assoc, List.take_append_drop] at hi
          exact hi

theorem rename_spec {old new : String} {r : Except Errno Unit} (ht : s.Tidy) (hh : s.Holds old data)
    (hd : s.NoDir new) (hn : old ≠ new) (h : s.rename old new = (r, s')) :
    r = .ok () ∧ s'.Tidy ∧ s'.Holds new data ∧
      ∀ path', path' ≠ old → path' ≠ new → s.Unchanged s' path' := by
  have ⟨f, hf, hw⟩ := hh
  have ⟨ino, ho, hi⟩ := exists_name hf
  cases (rename_of_name ho hd).symm.trans h
  exact ⟨rfl, ht.move ho hn, ⟨f, inode?_move hi, hw⟩, fun _ h₁ h₂ => .move h₁ h₂⟩

theorem chmod_spec {mode : Mode} {r : Except Errno Unit} (ht : s.Tidy) (hh : s.Holds path data)
    (h : s.chmod path mode = (r, s')) :
    r = .ok () ∧ s'.Tidy ∧ s'.Holds path data ∧ ∀ path' ≠ path, s.Unchanged s' path' := by
  have ⟨f, hf, hw⟩ := hh
  have ⟨ino, hn, hi⟩ := exists_name hf
  have he : s.chmod path mode = (.ok (), s.modify ino fun f => { f with mode }) := by simp [Files.chmod, hn]
  cases he.symm.trans h
  exact ⟨rfl, ht.modify, ⟨_, inode?_modify hn hi, hw⟩, fun _ hp => .modify ht hn hp⟩

theorem ensures_writeFile {perm : Mode} (hC : ∀ c, C c → c ≠ .fail) (ht : s.Tidy) (hd : s.NoDir path) :
    (writeFile path data perm).Ensures ((kernel umask).only C) pid
      (fun r s' => r = .ok () ∧ s'.Tidy ∧ s'.Holds path data ∧ ∀ path' ≠ path, s.Unchanged s' path') s := by
  refine ensures_plain hC rfl fun r s' he => ?_
  have ⟨fd, ino, hr, hw⟩ : ∃ fd ino, r = .ok fd ∧ Writing s path pid fd ino [] s' := by
    have he : s.openFile pid path .trunc (perm &&& ~~~umask) = (r, s') := Option.some.inj he
    unfold Files.openFile at he
    cases hn : s.names path
    case none =>
      rw [hn] at he
      cases he
      exact ⟨_, _, rfl, .create ht⟩
    case some node =>
      cases node
      case dir mode => exact absurd hn (hd mode)
      case file ino =>
        rw [hn] at he
        cases he
        exact ⟨_, _, rfl, .truncate ht hn⟩
  subst hr
  refine .bind (ensures_writeLoop hC hw le_rfl) fun r s' ⟨hr, hw⟩ => ?_
  subst hr
  refine ensures_plain hC rfl fun r s'' he => ?_
  cases he
  exact ⟨rfl, hw.tidy, hw.holds, hw.frame⟩

end Sequential

end Os
