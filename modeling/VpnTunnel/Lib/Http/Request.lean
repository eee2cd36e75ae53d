import VpnTunnel.Lib.Http.Header
import VpnTunnel.Lib.Http.Url
import VpnTunnel.Lib.Netip.Prefix

namespace Http

open ByteString

-- What can be read from a body, and whether reading then ends with an error.
structure Body where
  data  : List UInt8
  fails : Bool
  deriving DecidableEq

-- Reading fails once more than `n` bytes have been read.
def maxBytesReader (n : Nat) (b : Body) : Body :=
  if b.data.length > n then { data := b.data.take n, fails := true } else b

-- A request that is sent by a client.
structure Request where
  method        : ByteString
  url           : Url
  host          : ByteString
  header        : Header
  body          : Option Body
  contentLength : Int
  deriving DecidableEq

structure Response where
  statusCode : Int
  header     : Header
  body       : Body
  deriving DecidableEq

def contentLengthKey : ByteString :=
  ofString "Content-Length"

-- The length that a header declares, in decimal digits.
def parseContentLength (v : ByteString) : Option Nat :=
  if v = [] then none
  else (Strconv.parseUint 0 v).toOption.filter (· < 2 ^ 63)

theorem ascii_of_parseUint {v : ByteString} {m n : Nat} (h : Strconv.parseUint m v = .ok n) :
    Utf8.Ascii v := by
  induction v generalizing m
  case nil => simp [Utf8.Ascii]
  case cons c v hi =>
    simp only [Strconv.parseUint] at h
    split at h
    case isTrue => simp at h
    case isFalse hc =>
      split at h
      case isTrue => simp at h
      case isFalse =>
        simp only [Netip.isDigit, Bool.decide_and, Bool.and_eq_true, decide_eq_true_eq, not_not] at hc
        exact List.forall_mem_cons.mpr ⟨UInt8.lt_of_le_of_lt hc.2 (by decide), hi h⟩

theorem ascii_of_parseContentLength {v : ByteString} {n : Nat} (h : parseContentLength v = some n) :
    Utf8.Ascii v := by
  simp only [parseContentLength] at h
  split at h <;> try contradiction
  case isFalse =>
    have ⟨hp, _⟩ := Option.filter_eq_some_iff.mp h
    cases hu : Strconv.parseUint 0 v <;> rw [hu] at hp
    case error => simp [Except.toOption] at hp
    case ok => exact ascii_of_parseUint hu

def validMethod (method : ByteString) : Bool :=
  method ≠ [] ∧ method.all validHeaderFieldByte

-- Whether there is a colon after the last closing bracket.
def hasPort (host : ByteString) : Bool :=
  (host.reverse.find? fun c => c = Netip.colon ∨ c = Netip.rbracket) = some Netip.colon

def removeEmptyPort (host : ByteString) : ByteString :=
  if hasPort host ∧ host.getLast? = some Netip.colon then host.dropLast else host

inductive RequestError (ε : Type)
  | invalidMethod (method : ByteString)
  | url (err : ε)
  deriving DecidableEq

-- `parse` stands for `url.Parse`. The length of a body that is a mere reader is not known.
def newRequest {ε : Type} (parse : ByteString → Except ε Url) (method text : ByteString)
    (body : Option Body) : Except (RequestError ε) Request :=
  let method := if method = [] then ofString "GET" else method
  if validMethod method then
    match parse text with
    | .error err => .error (.url err)
    | .ok u =>
      let host := removeEmptyPort u.host
      .ok { method, url := { u with host }, host, header := ∅, body, contentLength := 0 }
  else .error (.invalidMethod method)

theorem newRequest_eq {ε : Type} {parse : ByteString → Except ε Url} {method text : ByteString}
    {body : Option Body} (hm : validMethod method) : newRequest parse method text body =
      ((parse text).mapError .url).map fun u =>
        ⟨method, { u with host := removeEmptyPort u.host }, removeEmptyPort u.host, ∅, body, 0⟩ := by
  have hn : method ≠ [] := by
    rintro rfl
    contradiction
  simp only [newRequest, hn, if_false, hm, if_true]
  cases parse text <;> rfl

theorem newRequest_ok {ε : Type} {parse : ByteString → Except ε Url} {method text : ByteString}
    {body : Option Body} {req : Request} (h : newRequest parse method text body = .ok req) :
    req.method = (if method = [] then ofString "GET" else method) ∧ req.header = ∅ := by
  rw [newRequest] at h
  generalize (if method = [] then ofString "GET" else method) = method at h
  cases hm : validMethod method <;> simp only [hm] at h
  case false => contradiction
  case true =>
    cases hp : parse text <;> simp only [hp] at h
    case error => contradiction
    case ok =>
      cases h
      exact ⟨rfl, rfl⟩

end Http
