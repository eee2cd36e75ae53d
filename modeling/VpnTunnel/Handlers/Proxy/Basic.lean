import VpnTunnel.Asyncjob.Lifecycle
import VpnTunnel.Asyncjob.Pool

namespace Handlers.Proxy

open ByteString Http

-- The names of the headers that the handler reads and writes.
namespace Name

def token : ByteString := ofString "X-Vpntunnel-Token"
def timeout : ByteString := ofString "X-Proxy-Timeout"
def forwardHeaders : ByteString := ofString "X-Proxy-Forward-Headers"
def retryTag : ByteString := ofString "Proxy-Retry-Tag"
def contentType : ByteString := ofString "Content-Type"
def accept : ByteString := ofString "Accept"
def authorization : ByteString := ofString "Authorization"
def userAgent : ByteString := ofString "User-Agent"
def proxyError : ByteString := ofString "X-Proxy-Error"
def requestID : ByteString := ofString "X-Request-Id"
def asyncStatus : ByteString := ofString "Proxy-Async-Status"

end Name

def internalTunnelIDHeader : ByteString :=
  ofString "X-Vpntunnel-Tunnel-Id"

def alwaysForward : List ByteString :=
  [Name.contentType, Name.accept, Name.authorization, Name.userAgent]

def serviceHeaders : List ByteString :=
  [Name.token, internalTunnelIDHeader, Name.timeout, Name.forwardHeaders, Name.retryTag]

-- An inbound request, with the wildcards of the path that it was matched against.
structure Request where
  method        : ByteString
  scheme        : ByteString
  id            : ByteString
  rest          : ByteString
  rawQuery      : ByteString
  header        : Header
  body          : Option Body
  contentLength : Int
  deriving DecidableEq

-- `parse` and `parseDuration` stand for `url.Parse` and `time.ParseDuration`.
structure Handler where
  isEligible         : ByteString → Bool
  maxBodyBytes       : Nat
  upstreamTimeout    : Asyncjob.Duration
  maxUpstreamTimeout : Asyncjob.Duration
  asyncPool          : Bool
  parse              : ByteString → Except ByteString Url
  parseDuration      : ByteString → Option Asyncjob.Duration

structure Rejection where
  code   : ByteString
  status : Int
  deriving DecidableEq

def reject (code : String) (status : Int) : Except Rejection α :=
  .error { code := ofString code, status }

-- What a request that passes the validation is turned into.
inductive Dispatch
  | sync (out : Http.Request) (timeout : Asyncjob.Duration)
  | async (tag : ByteString) (req : Http.Request)
  deriving DecidableEq

-- `^[a-zA-Z0-9_-]{8,128}$`
def retryTagRegexp (tag : ByteString) : Bool :=
  8 ≤ tag.length ∧ tag.length ≤ 128 ∧ tag.all fun b => isAlnum b || (ofString "_-").contains b

def comma : UInt8 := 0x2C

def extraHeaders (header : Header) : List ByteString :=
  (((header.get Name.forwardHeaders).splitOn comma).map trimSpace).filter (· ≠ [])
    |>.map canonicalHeaderKey

def allowed (extra : List ByteString) (key : ByteString) : Bool :=
  key ∉ serviceHeaders ∧ (key ∈ alwaysForward ∨ key ∈ extra)

-- An empty agent keeps the transport from inventing one.
def copyProxyHeaders (dst : Http.Request) (src : Header) (extra : List ByteString) : Http.Request :=
  let name key := if allowed extra (canonicalHeaderKey key) then some (canonicalHeaderKey key) else none
  let header := dst.header.copy name src.fields
  if src.get Name.userAgent = [] then
    { dst with header := header.insert Name.userAgent [[]] }
  else
    { dst with header }

namespace Handler

variable (h : Handler) (r : Request)

def target : Except Rejection Url :=
  let query := if r.rawQuery ≠ [] then ofString "?" ++ r.rawQuery else []
  match h.parse (r.scheme ++ ofString "://" ++ r.rest ++ query) with
  | .error _ => reject "bad_request" 400
  | .ok u    => if u.host = [] then reject "bad_request" 400 else .ok u

def timeout : Except Rejection Asyncjob.Duration :=
  let raw := r.header.get Name.timeout
  if raw = [] then .ok h.upstreamTimeout
  else
    match h.parseDuration raw with
    | none   => reject "bad_request" 400
    | some d => if d ≤ 0 ∨ d > h.maxUpstreamTimeout then reject "timeout_too_large" 400 else .ok d

-- The clone of the inbound request that is submitted to the pool.
def asyncRequest (u : Url) : Http.Request where
  method        := r.method
  url           := u
  host          := u.host
  header        := r.header.set internalTunnelIDHeader r.id
  body          := r.body
  contentLength := r.contentLength

def dispatchAsync : Except Rejection Dispatch :=
  let tag := r.header.get Name.retryTag
  if r.method = ofString "CONNECT" then reject "method_not_allowed" 405
  else if !retryTagRegexp tag then reject "tag_invalid" 400
  else if !h.asyncPool then reject "async_disabled" 503
  else (h.target r).map fun u => .async tag (asyncRequest r u)

def dispatchSync : Except Rejection Dispatch := do
  let timeout ← h.timeout r
  let target ← h.target r
  let body := maxBytesReader h.maxBodyBytes (r.body.getD { data := [], fails := false })
  match newRequest h.parse r.method target.string (some body) with
  | .error _ => reject "bad_request" 400
  | .ok out  => return .sync (copyProxyHeaders out r.header (extraHeaders r.header)) timeout

-- `ServeHTTP` up to where the request leaves the handler.
def dispatch : Except Rejection Dispatch :=
  if r.scheme ≠ ofString "http" ∧ r.scheme ≠ ofString "https" then reject "invalid_scheme" 400
  else if r.id = [] then reject "tunnel_required" 400
  else if !h.isEligible r.id then reject "unknown_tunnel" 400
  else if r.header.get Name.retryTag ≠ [] then h.dispatchAsync r
  else h.dispatchSync r

end Handler

end Handlers.Proxy
