import Mathlib.Logic.Function.Basic
import VpnTunnel.Lib.Bytes
import VpnTunnel.Lib.Prog

namespace Os

inductive Errno
  | notExist
  | exist
  | other
  deriving DecidableEq, Repr

def Errno.text : Errno → String
  | .notExist => "no such file or directory"
  | .exist    => "file exists"
  | .other    => "input/output error"

abbrev Mode :=
  BitVec 9

-- A file, apart from its name. Its bytes are on the disk if they are `synced`.
structure Inode where
  mode   : Mode
  data   : ByteString
  synced : Bool
  deriving DecidableEq

inductive Node
  | file (ino : Nat)
  | dir (mode : Mode)
  deriving DecidableEq

-- An open file, with the place in it where the next bytes are written. A process only writes to files that it
-- has opened itself, from their start on.
structure Handle where
  pid    : Nat
  ino    : Nat
  offset : Nat
  deriving DecidableEq

structure Files where
  names   : String → Option Node
  inodes  : List Inode
  handles : List Handle

inductive Flag
  | excl
  | trunc
  deriving DecidableEq

inductive Op
  | openFile (path : String) (flag : Flag) (perm : Mode)
  | write (fd : Nat) (data : ByteString)
  | sync (fd : Nat)
  | fchmod (fd : Nat) (mode : Mode)
  | close (fd : Nat)
  | stat (path : String)
  | readFile (path : String)
  | chmod (path : String) (mode : Mode)
  | rename (old new : String)
  | remove (path : String)
  | mkdirAll (path : String) (perm : Mode)
  | random (n : Nat)
  | uint32
  | now
  deriving DecidableEq

def Res : Op → Type
  | .openFile ..  => Except Errno Nat
  | .write ..     => Except Errno Nat
  | .stat _       => Except Errno Mode
  | .readFile _   => Except Errno ByteString
  | .random _     => Except Errno ByteString
  | .uint32       => Nat
  | .now          => Nat
  | .sync _ | .fchmod .. | .close _ | .chmod .. | .rename .. | .remove _ | .mkdirAll .. => Except Errno Unit

-- The calls may fail for reasons of their own, apart from `uint32` and `now`. A write may come to an end before
-- all bytes are written.
inductive Choice
  | ok
  | fail
  | bytes (n : Nat)
  | random (data : ByteString)
  | number (n : Nat)
  | time (t : Nat)
  deriving DecidableEq

-- The bytes of a hole are zero.
def Inode.writeAt (f : Inode) (offset : Nat) (data : ByteString) : Inode where
  mode   := f.mode
  data   := f.data.take offset ++ .replicate (offset - f.data.length) 0 ++ data ++ f.data.drop (offset + data.length)
  synced := false

namespace Files

variable (s : Files)

def inode? (path : String) : Option Inode :=
  match s.names path with
  | some (.file ino) => s.inodes[ino]?
  | _                => none

def setName (path : String) (node : Option Node) : Files :=
  { s with names := Function.update s.names path node }

def modify (ino : Nat) (f : Inode → Inode) : Files :=
  { s with inodes := s.inodes.modify ino f }

def empty : Files where
  names _ := none
  inodes  := []
  handles := []

def handle? (pid fd : Nat) : Option Handle :=
  s.handles[fd]?.filter (·.pid = pid)

-- The file that a process has opened.
def ino? (pid fd : Nat) : Option Nat :=
  (s.handle? pid fd).map (·.ino)

-- The bytes go to where the writes through the handle have come to.
def put (fd : Nat) (h : Handle) (data : ByteString) : Files :=
  { s.modify h.ino (·.writeAt h.offset data) with
    handles := s.handles.set fd { h with offset := h.offset + data.length } }

def create (pid : Nat) (path : String) (mode : Mode) : Files where
  names   := Function.update s.names path (some (.file s.inodes.length))
  inodes  := s.inodes ++ [{ mode, data := [], synced := false }]
  handles := s.handles ++ [{ pid, ino := s.inodes.length, offset := 0 }]

def truncate (pid ino : Nat) : Files :=
  { s.modify ino fun f => { f with data := [], synced := false } with
    handles := s.handles ++ [{ pid, ino, offset := 0 }] }

def openFile (pid : Nat) (path : String) (flag : Flag) (mode : Mode) : Except Errno Nat × Files :=
  match s.names path, flag with
  | none, _                  => (.ok s.handles.length, s.create pid path mode)
  | some _, .excl            => (.error .exist, s)
  | some (.dir _), .trunc    => (.error .other, s)
  | some (.file ino), .trunc => (.ok s.handles.length, s.truncate pid ino)

-- A call on a file that the process has opened.
def change (pid fd : Nat) (g : Inode → Inode) : Except Errno Unit × Files :=
  match s.ino? pid fd with
  | none     => (.error .other, s)
  | some ino => (.ok (), s.modify ino g)

def stat (path : String) : Except Errno Mode :=
  match s.names path with
  | none             => .error .notExist
  | some (.dir mode) => .ok mode
  | some (.file ino) => s.inodes[ino]?.elim (.error .other) (.ok ·.mode)

def readFile (path : String) : Except Errno ByteString :=
  match s.names path with
  | none             => .error .notExist
  | some (.dir _)    => .error .other
  | some (.file ino) => s.inodes[ino]?.elim (.error .other) (.ok ·.data)

def chmod (path : String) (mode : Mode) : Except Errno Unit × Files :=
  match s.names path with
  | none             => (.error .notExist, s)
  | some (.dir _)    => (.ok (), s.setName path (some (.dir mode)))
  | some (.file ino) => (.ok (), s.modify ino fun f => { f with mode })

def rename (old new : String) : Except Errno Unit × Files :=
  match s.names old, s.names new with
  | none, _                       => (.error .notExist, s)
  | some (.dir _), _              => (.error .other, s)
  | some (.file _), some (.dir _) => (.error .other, s)
  | some (.file ino), _           => (.ok (), (s.setName old none).setName new (some (.file ino)))

def remove (path : String) : Except Errno Unit × Files :=
  match s.names path with
  | none           => (.error .notExist, s)
  | some (.dir _)  => (.error .other, s)
  | some (.file _) => (.ok (), s.setName path none)

def mkdirAll (path : String) (mode : Mode) : Except Errno Unit × Files :=
  if path = "" then
    (.error .notExist, s)
  else
    match s.names path with
    | none           => (.ok (), s.setName path (some (.dir mode)))
    | some (.dir _)  => (.ok (), s)
    | some (.file _) => (.error .other, s)

end Files

-- What a call does if it does not fail for reasons of its own.
def answer (umask : Mode) (pid : Nat) (s : Files) : (op : Op) → Choice → Option (Res op × Files)
  | .openFile path flag perm, .ok => some (s.openFile pid path flag (perm &&& ~~~umask))
  | .write fd data, .bytes n =>
    match s.handle? pid fd with
    | none   => some (.error .other, s)
    | some h =>
      if data.length < n ∨ (n = 0 ∧ data ≠ []) then none else some (.ok n, s.put fd h (data.take n))
  | .sync fd, .ok            => some (s.change pid fd fun f => { f with synced := true })
  | .fchmod fd mode, .ok     => some (s.change pid fd fun f => { f with mode })
  | .close _, .ok            => some (.ok (), s)
  | .stat path, .ok          => some (s.stat path, s)
  | .readFile path, .ok      => some (s.readFile path, s)
  | .chmod path mode, .ok    => some (s.chmod path mode)
  | .rename old new, .ok     => some (s.rename old new)
  | .remove path, .ok        => some (s.remove path)
  | .mkdirAll path perm, .ok => some (s.mkdirAll path (perm &&& ~~~umask))
  | .random n, .random data  => if data.length = n then some (.ok data, s) else none
  | .uint32, .number n       => if n < 2 ^ 32 then some (n, s) else none
  | .now, .time t            => some (t, s)
  | _, _                     => none

def failed (s : Files) : (op : Op) → Option (Res op × Files)
  | .uint32 | .now => none
  | .openFile .. | .write .. | .sync _ | .fchmod .. | .close _ | .stat _ | .readFile _ | .chmod ..
  | .rename .. | .remove _ | .mkdirAll .. | .random _ => some (.error .other, s)

-- When the machine goes down, the bytes of files that were not synced are lost. The names are taken to survive:
-- no name that was given or taken away is undone, although no program syncs a directory.
def kernel (umask : Mode) : Kernel Op Res Files Choice (Nat → ByteString) where
  exec pid s op c := if c = .fail then failed s op else answer umask pid s op c
  crash lost s    := { s with
    inodes  := s.inodes.mapIdx fun ino f => if f.synced then f else { f with data := lost ino, synced := true }
    handles := [] }

abbrev Program :=
  Prog Op Res

def openFile (path : String) (flag : Flag) (perm : Mode) : Program (Except Errno Nat) :=
  Prog.perform (Op.openFile path flag perm)

def write (fd : Nat) (data : ByteString) : Program (Except Errno Nat) :=
  Prog.perform (Op.write fd data)

def sync (fd : Nat) : Program (Except Errno Unit) :=
  Prog.perform (Op.sync fd)

def fchmod (fd : Nat) (mode : Mode) : Program (Except Errno Unit) :=
  Prog.perform (Op.fchmod fd mode)

def close (fd : Nat) : Program (Except Errno Unit) :=
  Prog.perform (Op.close fd)

def stat (path : String) : Program (Except Errno Mode) :=
  Prog.perform (Op.stat path)

def readFile (path : String) : Program (Except Errno ByteString) :=
  Prog.perform (Op.readFile path)

def chmod (path : String) (mode : Mode) : Program (Except Errno Unit) :=
  Prog.perform (Op.chmod path mode)

def rename (old new : String) : Program (Except Errno Unit) :=
  Prog.perform (Op.rename old new)

def remove (path : String) : Program (Except Errno Unit) :=
  Prog.perform (Op.remove path)

def mkdirAll (path : String) (perm : Mode) : Program (Except Errno Unit) :=
  Prog.perform (Op.mkdirAll path perm)

def random (n : Nat) : Program (Except Errno ByteString) :=
  Prog.perform (Op.random n)

def uint32 : Program Nat :=
  Prog.perform Op.uint32

def now : Program Nat :=
  Prog.perform Op.now

-- Each turn writes at least one byte, so that there are at most as many turns as bytes.
def writeLoop (fd : Nat) : Nat → ByteString → Program (Except Errno Unit)
  | 0, _            => return .ok ()
  | turns + 1, data => do
    if data = [] then
      return .ok ()
    else
      match ← write fd data with
      | .error err => return .error err
      | .ok n      => writeLoop fd turns (data.drop n)

def writeAll (fd : Nat) (data : ByteString) : Program (Except Errno Unit) :=
  writeLoop fd data.length data

def writeFile (path : String) (data : ByteString) (perm : Mode) : Program (Except Errno Unit) := do
  match ← openFile path .trunc perm with
  | .error err => return .error err
  | .ok fd     =>
    let written ← writeAll fd data
    let closed ← close fd
    return match written with
      | .error err => .error err
      | .ok _      => closed

-- The calls that have one outcome if they do not fail for reasons of their own.
def Op.isPlain : Op → Bool
  | .write .. | .random _ | .uint32 | .now => false
  | _                                      => true

-- The calls that change no file.
def Op.isRead : Op → Bool
  | .close _ | .stat _ | .readFile _ | .random _ | .uint32 | .now => true
  | _                                                             => false

namespace Files

variable {s : Files} {path : String} {pid fd ino : Nat}

theorem inode?_of_name (h : s.names path = some (.file ino)) : s.inode? path = s.inodes[ino]? := by
  simp [inode?, h]

theorem handle?_eq_some_iff {h : Handle} : s.handle? pid fd = some h ↔ s.handles[fd]? = some h ∧ h.pid = pid := by
  simp [handle?, Option.filter_eq_some_iff]

theorem handle?_of_mem {offset : Nat} (h : s.handles[fd]? = some ⟨pid, ino, offset⟩) :
    s.handle? pid fd = some ⟨pid, ino, offset⟩ :=
  handle?_eq_some_iff.mpr ⟨h, rfl⟩

theorem ino?_of_mem {offset : Nat} (h : s.handles[fd]? = some ⟨pid, ino, offset⟩) : s.ino? pid fd = some ino := by
  simp [ino?, handle?_of_mem h]

-- A file that is written from its start on is as long as the offset says.
theorem writeAt_length {f : Inode} {data : ByteString} :
    f.writeAt f.data.length data = { f with data := f.data ++ data, synced := false } := by
  simp [Inode.writeAt]

theorem handle_put {h : Handle} {data : ByteString} (hh : s.handles[fd]? = some h) :
    (s.put fd h data).handles[fd]? = some { h with offset := h.offset + data.length } :=
  List.getElem?_set_self (List.getElem?_eq_some_iff.mp hh).fst

theorem handle_put_of_ne {fd' : Nat} {h h' : Handle} {data : ByteString} (hh : s.handles[fd]? = some h)
    (hn : h'.pid ≠ h.pid) (hh' : s.handles[fd']? = some h') : (s.put fd h data).handles[fd']? = some h' := by
  have hne : fd ≠ fd' := by
    rintro rfl
    cases hh.symm.trans hh'
    exact hn rfl
  exact (List.getElem?_set_ne hne).trans hh'

theorem map_ino_put {h : Handle} {data : ByteString} (hh : s.handles[fd]? = some h) :
    (s.put fd h data).handles.map (·.ino) = s.handles.map (·.ino) := by
  have ⟨hl, he⟩ := List.getElem?_eq_some_iff.mp hh
  simp only [put, List.map_set]
  refine List.ext_getElem (by simp) fun i h₁ h₂ => ?_
  by_cases hi : fd = i
  case pos => simp [← hi, he]
  case neg => simp [hi]

end Files

section Exec

variable {umask perm : Mode} {pid fd : Nat} {s s' : Files} {op : Op} {c : Choice} {path : String}

theorem exec_elim {r : Res op} (h : (kernel umask).exec pid s op c = some (r, s')) :
    failed s op = some (r, s') ∨ answer umask pid s op c = some (r, s') := by
  simp only [kernel] at h
  split at h
  · exact .inl h
  · exact .inr h

theorem eq_of_failed {r : Res op} (h : failed s op = some (r, s')) : s' = s := by
  cases op
  case uint32 | now => contradiction
  all_goals exact (congrArg Prod.snd (Option.some.inj h)).symm

theorem answer_ok {x : Res op × Files} (hp : op.isPlain) (h : answer umask pid s op c = some x) :
    answer umask pid s op .ok = some x := by
  cases op <;> simp only [Op.isPlain, Bool.false_eq_true] at hp <;> cases c <;>
    simp only [answer, reduceCtorEq] at h <;> exact h

theorem exec_ok {x : Res op × Files} (hc : c ≠ .fail) (hp : op.isPlain)
    (h : (kernel umask).exec pid s op c = some x) : answer umask pid s op .ok = some x := by
  simp only [kernel, if_neg hc] at h
  exact answer_ok hp h

theorem eq_of_isRead {r : Res op} (hr : op.isRead) (h : (kernel umask).exec pid s op c = some (r, s')) :
    s' = s := by
  cases exec_elim h
  case inl h => exact eq_of_failed h
  case inr h =>
    cases op <;> simp only [Op.isRead, Bool.false_eq_true] at hr <;> cases c <;>
      simp only [answer, reduceCtorEq] at h <;> (try split at h) <;> grind

theorem exec_openFile_excl {r : Except Errno Nat}
    (h : (kernel umask).exec pid s (.openFile path .excl perm) c = some (r, s')) :
    (s' = s ∧ ∃ err, r = .error err) ∨
      (s.names path = none ∧ r = .ok s.handles.length ∧ s' = s.create pid path (perm &&& ~~~umask)) := by
  cases exec_elim h
  case inl h => exact .inl ⟨eq_of_failed h, _, (congrArg Prod.fst (Option.some.inj h)).symm⟩
  case inr h =>
    have h := Option.some.inj (answer_ok rfl h)
    unfold Files.openFile at h
    cases hn : s.names path <;> simp only [hn] at h
    case none =>
      cases h
      exact .inr ⟨rfl, rfl, rfl⟩
    case some =>
      cases h
      exact .inl ⟨rfl, _, rfl⟩

theorem exec_write {data : ByteString} {r : Except Errno Nat}
    (h : (kernel umask).exec pid s (.write fd data) c = some (r, s')) :
    (s' = s ∧ ∃ err, r = .error err) ∨ ∃ h n, s.handle? pid fd = some h ∧ n ≤ data.length ∧ (data ≠ [] → 0 < n) ∧
      r = .ok n ∧ s' = s.put fd h (data.take n) := by
  cases exec_elim h
  case inl h => exact .inl ⟨eq_of_failed h, _, (congrArg Prod.fst (Option.some.inj h)).symm⟩
  case inr h =>
    cases c <;> simp only [answer, reduceCtorEq] at h
    case bytes n =>
      cases hi : s.handle? pid fd <;> simp only [hi] at h
      case none =>
        cases h
        exact .inl ⟨rfl, _, rfl⟩
      case some =>
        split at h
        case isTrue => contradiction
        case isFalse hn =>
          push Not at hn
          cases h
          exact .inr ⟨_, _, rfl, hn.left, fun hd => Nat.pos_of_ne_zero fun hz => hd (hn.right hz), rfl, rfl⟩

theorem change_elim {g : Inode → Inode} {r : Except Errno Unit} (h : s.change pid fd g = (r, s')) :
    (s' = s ∧ ∃ err, r = .error err) ∨ ∃ ino, s.ino? pid fd = some ino ∧ r = .ok () ∧ s' = s.modify ino g := by
  unfold Files.change at h
  cases hi : s.ino? pid fd <;> simp only [hi] at h <;> cases h
  case none     => exact .inl ⟨rfl, _, rfl⟩
  case some ino => exact .inr ⟨ino, rfl, rfl, rfl⟩

theorem exec_sync {r : Except Errno Unit} (h : (kernel umask).exec pid s (.sync fd) c = some (r, s')) :
    (s' = s ∧ ∃ err, r = .error err) ∨
      ∃ ino, s.ino? pid fd = some ino ∧ r = .ok () ∧ s' = s.modify ino fun f => { f with synced := true } := by
  cases exec_elim h
  case inl h => exact .inl ⟨eq_of_failed h, _, (congrArg Prod.fst (Option.some.inj h)).symm⟩
  case inr h => exact change_elim <| Option.some.inj (answer_ok rfl h)

theorem exec_fchmod {mode : Mode} {r : Except Errno Unit}
    (h : (kernel umask).exec pid s (.fchmod fd mode) c = some (r, s')) :
    (s' = s ∧ ∃ err, r = .error err) ∨
      ∃ ino, s.ino? pid fd = some ino ∧ r = .ok () ∧ s' = s.modify ino fun f => { f with mode } := by
  cases exec_elim h
  case inl h => exact .inl ⟨eq_of_failed h, _, (congrArg Prod.fst (Option.some.inj h)).symm⟩
  case inr h => exact change_elim <| Option.some.inj (answer_ok rfl h)

theorem exec_rename {old new : String} {r : Except Errno Unit}
    (h : (kernel umask).exec pid s (.rename old new) c = some (r, s')) :
    (s' = s ∧ ∃ err, r = .error err) ∨ ∃ ino, s.names old = some (.file ino) ∧ r = .ok () ∧
      s' = (s.setName old none).setName new (some (.file ino)) := by
  cases exec_elim h
  case inl h => exact .inl ⟨eq_of_failed h, _, (congrArg Prod.fst (Option.some.inj h)).symm⟩
  case inr h =>
    have h := Option.some.inj (answer_ok rfl h)
    unfold Files.rename at h
    split at h
    case h_1 | h_2 | h_3 =>
      cases h
      exact .inl ⟨rfl, _, rfl⟩
    case h_4 ino ho _ =>
      cases h
      exact .inr ⟨ino, ho, rfl, rfl⟩

theorem exec_mkdirAll {r : Except Errno Unit}
    (h : (kernel umask).exec pid s (.mkdirAll path perm) c = some (r, s')) :
    s' = s ∨ s' = (s.mkdirAll path (perm &&& ~~~umask)).2 := by
  cases exec_elim h
  case inl h => exact .inl <| eq_of_failed h
  case inr h => exact .inr (congrArg Prod.snd <| Option.some.inj (answer_ok rfl h)).symm

theorem exec_remove {r : Except Errno Unit} (h : (kernel umask).exec pid s (.remove path) c = some (r, s')) :
    s' = s ∨ s' = s.setName path none := by
  cases exec_elim h
  case inl h => exact .inl <| eq_of_failed h
  case inr h =>
    have h := congrArg Prod.snd <| Option.some.inj (answer_ok rfl h)
    simp only [Files.remove] at h
    split at h
    · exact .inl h.symm
    · exact .inl h.symm
    · exact .inr h.symm

theorem exec_readFile {r : Except Errno ByteString}
    (h : (kernel umask).exec pid s (.readFile path) c = some (r, s')) :
    s' = s ∧ ∀ data, r = .ok data → ∃ ino f, s.names path = some (.file ino) ∧ s.inodes[ino]? = some f ∧
      f.data = data := by
  refine ⟨eq_of_isRead rfl h, ?_⟩
  rintro data rfl
  cases exec_elim h
  case inl h => cases congrArg Prod.fst (Option.some.inj h)
  case inr h =>
    have h : s.readFile path = .ok data := congrArg Prod.fst <| Option.some.inj (answer_ok rfl h)
    unfold Files.readFile at h
    split at h
    case h_1 | h_2 => cases h
    case h_3 ino hn =>
      cases hf : s.inodes[ino]? <;> simp only [hf, Option.elim] at h <;> cases h
      case some => exact ⟨ino, _, hn, hf, rfl⟩

theorem exec_random {n : Nat} {data : ByteString}
    (h : (kernel umask).exec pid s (.random n) c = some (.ok data, s')) : c = .random data ∧ data.length = n := by
  cases exec_elim h
  case inl h => cases congrArg Prod.fst (Option.some.inj h)
  case inr h =>
    cases c <;> simp only [answer, reduceCtorEq] at h
    split at h
    case isTrue hl =>
      cases h
      exact ⟨rfl, hl⟩
    case isFalse => contradiction

theorem exec_now {t : Nat} (h : (kernel umask).exec pid s .now c = some (t, s')) : c = .time t := by
  cases c <;> simp only [kernel, answer, failed, reduceCtorEq, if_true, if_false] at h
  case time =>
    cases h
    rfl

end Exec

end Os
