import VpnTunnel.Lib.Filepath
import VpnTunnel.Lib.Os.Basic

namespace Hmackey

open Os

def keyLen : Nat :=
  64

inductive Error
  | openFile (err : Errno)
  | generate (err : Errno)
  | write (err : Errno)
  | close (err : Errno)
  | stat (err : Errno)
  | mode (perm : Mode)
  | read (err : Errno)
  | length (n : Nat)
  deriving DecidableEq, Repr

def loadExistingKey (path : String) : Program (Except Error ByteString) := do
  match ← stat path with
  | .error err => return .error (.stat err)
  | .ok perm   =>
    if perm ≠ 0o600 then
      return .error (.mode perm)
    else
      match ← readFile path with
      | .error err => return .error (.read err)
      | .ok raw    => return if raw.length ≠ keyLen then .error (.length raw.length) else .ok raw

-- The file was created, but there is no key for it.
def discard (path : String) (fd : Nat) (err : Error) : Program (Except Error ByteString) := do
  let _ ← close fd
  let _ ← remove path
  return .error err

def generate (path : String) (fd : Nat) : Program (Except Error ByteString) := do
  match ← random keyLen with
  | .error err => discard path fd (.generate err)
  | .ok k      =>
    match ← writeAll fd k with
    | .error err => discard path fd (.write err)
    | .ok _      =>
      match ← close fd with
      | .error err => return .error (.close err)
      | .ok _      => return .ok k

def resolve (path configDir : String) : String :=
  if ¬Filepath.isAbs path then Filepath.join configDir path else path

def loadOrGenerate (path configDir : String) : Program (Except Error ByteString) := do
  let path := resolve path configDir
  match ← openFile path .excl 0o600 with
  | .ok fd        => generate path fd
  | .error .exist => loadExistingKey path
  | .error err    => return .error (.openFile err)

end Hmackey
