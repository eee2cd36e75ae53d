import Mathlib.Algebra.Order.Ring.Int
import VpnTunnel.Lib.Json

namespace Asyncjob

abbrev Tag :=
  ByteString

-- Instants and durations in nanoseconds; instants are relative to the Unix epoch.
abbrev Time :=
  Int

abbrev Duration :=
  Int

namespace Time

-- The zero value of `time.Time` is January 1 of year 1.
def zero : Time :=
  -62135596800 * 10 ^ 9

def unix (t : Time) : Int :=
  t / 10 ^ 9

def ofUnix (secs : Int) : Time :=
  secs * 10 ^ 9

-- `Sub` saturates at the bounds of a 64 bit duration.
def sub (t u : Time) : Duration :=
  max (-2 ^ 63) (min (2 ^ 63 - 1) (t - u))

end Time

inductive Status.Known
  | pending
  | completed
  | failed
  | failedTimeout
  | tombstone
  deriving DecidableEq, Repr

namespace Status.Known

def name : Known → ByteString
  | pending       => .ofString "pending"
  | completed     => .ofString "completed"
  | failed        => .ofString "failed"
  | failedTimeout => .ofString "failed_timeout"
  | tombstone     => .ofString "tombstone"

def all : List Known :=
  [pending, completed, failed, failedTimeout, tombstone]

end Status.Known

-- A status is any string, and `unknown` are those that `validateStatus` rejects.
inductive Status
  | known (s : Status.Known)
  | unknown (s : ByteString) (h : ∀ k : Status.Known, k.name ≠ s)
  deriving DecidableEq

namespace Status

@[match_pattern, reducible] def pending : Status := known .pending
@[match_pattern, reducible] def completed : Status := known .completed
@[match_pattern, reducible] def failed : Status := known .failed
@[match_pattern, reducible] def failedTimeout : Status := known .failedTimeout
@[match_pattern, reducible] def tombstone : Status := known .tombstone

def string : Status → ByteString
  | known s     => s.name
  | unknown s _ => s

theorem Known.mem_all (k : Known) : k ∈ Known.all := by
  cases k <;> decide

def ofString (s : ByteString) : Status :=
  match h : Known.all.find? (·.name = s) with
  | some k => known k
  | none   => unknown s fun k hk => by simpa [hk] using List.find?_eq_none.mp h k k.mem_all

end Status

structure UpstreamResponse where
  statusCode : Int
  header     : Option (AList fun _ : ByteString => Option (List ByteString))
  body       : Option (List UInt8)
  deriving DecidableEq

-- The response without any field set.
def UpstreamResponse.zero : UpstreamResponse where
  statusCode := 0
  header     := none
  body       := none

structure Record where
  tag              : Tag
  status           : Status
  createdAt        : Time
  updatedAt        : Time
  evictedAt        : Time
  upstreamResponse : Option UpstreamResponse
  deriving DecidableEq

def newPendingRecord (tag : Tag) (now : Time) : Record where
  tag              := tag
  status           := .pending
  createdAt        := now
  updatedAt        := now
  evictedAt        := .zero
  upstreamResponse := none

inductive Error
  | unknownStatus (echo : ByteString)
  | json (what : String)
  | tag (tag : ByteString) (what : String) (err : Error)
  | notFound
  | statusMismatch (got expected : Status)
  | keyRequired
  | keyTooLarge
  | io
  deriving DecidableEq

-- The source writes this character after a text that it has cut off.
def ellipsis : ByteString :=
  .ofString "…"

def maxStatusEchoLen : Nat := 32

def truncate (limit : Nat) (s : ByteString) : ByteString :=
  if s.length > limit then s.take limit ++ ellipsis else s

def validateStatus : Status → Except Error Unit
  | .known _     => .ok ()
  | .unknown s _ => .error (.unknownStatus (truncate maxStatusEchoLen s))

namespace UpstreamResponse

def encode (r : UpstreamResponse) : Json :=
  .obj [
    (.ofString "status_code", .num r.statusCode),
    (.ofString "header", .ofOption (.ofMap <| .ofOption <| .ofList .ofString) r.header),
    (.ofString "body", .ofOption .bytes r.body)
  ]

def decode (j : Json) : Option UpstreamResponse := do
  let statusCode ← (← j.field (.ofString "status_code")).toInt
  let header ← (← j.field (.ofString "header")).toOption <|
    Json.toMap <| Json.toOption <| Json.toList Json.toString
  let body ← (← j.field (.ofString "body")).toOption Json.toBytes
  return { statusCode, header, body }

end UpstreamResponse

structure WireRecord where
  tag              : ByteString
  status           : Status
  createdAt        : Int
  updatedAt        : Int
  evictedAt        : Option Int
  upstreamResponse : Option UpstreamResponse

namespace WireRecord

-- The last two fields are left out when there is nothing to write.
def encode (w : WireRecord) : Json :=
  .obj <| [
    (.ofString "tag", .ofString w.tag),
    (.ofString "status", .ofString w.status.string),
    (.ofString "created_at", .num w.createdAt),
    (.ofString "updated_at", .num w.updatedAt)
  ] ++ w.evictedAt.toList.map (.ofString "evicted_at", .num ·)
    ++ w.upstreamResponse.toList.map (.ofString "upstream_response", ·.encode)

def decode (j : Json) : Option WireRecord := do
  let tag ← (← j.field (.ofString "tag")).toString
  let status ← (← j.field (.ofString "status")).toString
  let createdAt ← (← j.field (.ofString "created_at")).toInt
  let updatedAt ← (← j.field (.ofString "updated_at")).toInt
  let evictedAt ← (← j.field (.ofString "evicted_at")).toOption Json.toInt
  let upstreamResponse ←
    (← j.field (.ofString "upstream_response")).toOption UpstreamResponse.decode
  return { tag, status := .ofString status, createdAt, updatedAt, evictedAt, upstreamResponse }

end WireRecord

namespace Record

def marshal (r : Record) : Except Error Json := do
  validateStatus r.status
  let w : WireRecord := {
    tag              := r.tag
    status           := r.status
    createdAt        := r.createdAt.unix
    updatedAt        := r.updatedAt.unix
    evictedAt        := if r.evictedAt = .zero then none else some r.evictedAt.unix
    upstreamResponse := r.upstreamResponse
  }
  return w.encode

def unmarshal (data : Json) : Except Error Record := do
  let some w := WireRecord.decode data | .error (.json "unmarshal record")
  validateStatus w.status
  return {
    tag              := w.tag
    status           := w.status
    createdAt        := .ofUnix w.createdAt
    updatedAt        := .ofUnix w.updatedAt
    evictedAt        := w.evictedAt.elim .zero .ofUnix
    upstreamResponse := w.upstreamResponse
  }

end Record

end Asyncjob
