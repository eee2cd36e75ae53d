import VpnTunnel.Asyncjob.Record

namespace Asyncjob

-- The contents of the bucket `jobs`.
abbrev Store :=
  AList fun _ : Tag => Json

def maxTagEchoLen : Nat := 128

def tagForError (k : Tag) : ByteString :=
  truncate maxTagEchoLen k

namespace Store

open Record (unmarshal)

-- What is stored under a tag, as far as it can be read.
def record (s : Store) (tag : Tag) : Option Record :=
  s.lookup tag >>= fun v => (unmarshal v).toOption

def get (s : Store) (tag : Tag) : Except Error (Option Record) :=
  match s.lookup tag with
  | none   => .ok none
  | some v => some <$> (unmarshal v).mapError (.tag tag "")

def maxKeySize : Nat := 32768

-- `Put` of a bucket.
def write (s : Store) (tag : Tag) (data : Json) : Except Error Store :=
  if tag = [] then .error .keyRequired
  else if maxKeySize < tag.length then .error .keyTooLarge
  else .ok (s.insert tag data)

-- The operations below run in one transaction each: an error rolls back what they have written.
def put (s : Store) (tag : Tag) (r : Record) : Except Error Store := do
  let data ← r.marshal.mapError (.tag tag "put")
  s.write tag data

def compareAndSwapStatus (s : Store) (tag : Tag) (expected : Status) (mutate : Record → Record) :
    Except Error (Record × Store) :=
  match s.lookup tag with
  | none => .error .notFound
  | some v => do
    let r ← (unmarshal v).mapError (.tag tag "")
    if r.status ≠ expected then .error (.statusMismatch r.status expected)
    else
      let updated := mutate r
      let data ← updated.marshal.mapError (.tag tag "put after CAS")
      let s ← s.write tag data
      return (updated, s)

-- The first pass of a batch collects the keys of the records that match.
def collect (filter : Record → Bool) (matched : List Tag) (e : (_ : Tag) × Json) :
    Except Error (List Tag) := do
  let r ← (unmarshal e.2).mapError (.tag (tagForError e.1) "")
  return if filter r then matched ++ [e.1] else matched

def scan (s : Store) (filter : Record → Bool) : Except Error (List Tag) :=
  s.entries.foldlM (collect filter) []

def transition (mutate : Record → Record) (acc : Nat × Store) (k : Tag) :
    Except Error (Nat × Store) :=
  match acc.2.lookup k with
  | none => .ok acc
  | some v => do
    let r ← (unmarshal v).mapError (.tag (tagForError k) "")
    let data ← (mutate r).marshal.mapError (.tag (tagForError k) "put in batch")
    let s ← acc.2.write k data
    return (acc.1 + 1, s)

def batchTransition (s : Store) (filter : Record → Bool) (mutate : Record → Record) :
    Except Error (Nat × Store) := do
  let matched ← s.scan filter
  matched.foldlM (transition mutate) (0, s)

def delete (acc : Nat × Store) (k : Tag) : Nat × Store :=
  (acc.1 + 1, acc.2.erase k)

def batchDelete (s : Store) (filter : Record → Bool) : Except Error (Nat × Store) := do
  let toDelete ← s.scan filter
  return toDelete.foldl delete (0, s)

-- What a batch operation returns, and what is in the bucket then: `Update` commits if its function
-- succeeds, and rolls back otherwise.
structure Batched where
  count : Nat
  err   : Option Error
  store : Store

def update (s : Store) : Except Error (Nat × Store) → Batched
  | .ok (count, s') => ⟨count, none, s'⟩
  | .error err      => ⟨0, some err, s⟩

end Store

def runRecovery (s : Store) : Except Error (Nat × Store) :=
  s.batchDelete (·.status = .pending)

end Asyncjob
