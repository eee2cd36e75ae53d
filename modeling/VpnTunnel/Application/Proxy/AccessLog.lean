import VpnTunnel.Lib.Http.Parse
import VpnTunnel.Lib.Http.Request

namespace Application.Proxy.AccessLog

open ByteString Http

-- The fields of a record but the duration.
structure RequestSummary where
  method        : ByteString
  target        : ByteString
  clientAddr    : ByteString
  statusCode    : Int
  bytesIn       : Int
  bytesOut      : Int
  upstreamError : ByteString
  deriving DecidableEq

-- A request that the server has read from a client and hands to `HandleHTTP`.
structure Request (urls : UrlParser) where
  method      : ByteString
  url         : Url
  host        : ByteString
  requestURI  : ByteString
  header      : Header
  remoteAddr  : ByteString
  body        : Option Body
  validMethod : validMethod method
  notConnect  : method ≠ ofString "CONNECT"
  -- The URL is parsed from the target in the first line.
  parsed      : parseRequestURI urls requestURI = .ok url

-- `publicError` stands for the text of a public error.
structure Service where
  verifier    : Option (ByteString → Bool)
  urls        : UrlParser
  publicError : ByteString → ByteString

def logTarget (u : Url) : ByteString :=
  { u with user := none, rawQuery := [], fragment := [] }.string

def authLogTarget {urls : UrlParser} (r : Request urls) : ByteString :=
  if r.method = ofString "CONNECT" then r.host
  else if r.url.isAbs then logTarget r.url
  else r.requestURI

def isLoopbackRemote (addr : ByteString) : Bool :=
  match Net.splitHostPort addr with
  | .error _      => false
  | .ok (host, _) =>
    match Netip.parseAddr host with
    | .error _ => false
    | .ok ip   =>
      ip.zone = [] ∧ ((⟨.v4 (Netip.ofBytes 32 [127, 0, 0, 0]), 8⟩ : Netip.Prefix).contains ip.unmap ∨
        ip.unmap = .v6 1 [])

def checkAuth (s : Service) (r : Request s.urls) : Bool :=
  match s.verifier with
  | none        => true
  | some verify =>
    let header := r.header.get (ofString "Proxy-Authorization")
    isLoopbackRemote r.remoteAddr || (header ≠ [] && verify header)

def hopByHopHeaders : List ByteString :=
  ["Connection", "Keep-Alive", "Proxy-Authenticate", "Proxy-Authorization", "TE", "Trailers",
   "Transfer-Encoding", "Upgrade"].map ofString

def copyHeaders (dst src : Header) : Header :=
  dst.copy some src.fields

def stripHopByHop (h incoming : Header) : Header :=
  let connFields := (incoming.values (ofString "Connection")).flatMap fun v =>
    ((v.splitOn 0x2C).map trimSpace).filter (· ≠ [])
  (hopByHopHeaders ++ connFields).foldl .del h

def urlError (s : Service) (op url cause : ByteString) : ByteString :=
  op ++ ofString " " ++ s.urls.quote url ++ ofString ": " ++ cause

-- The operation of an error is the method with only its first letter in upper case.
def urlErrorOp : ByteString → ByteString
  | []     => ofString "Get"
  | b :: m =>
    if (b :: m).all fun c => 0x20 ≤ c && c ≤ 0x7E then
      b :: m.map fun c => if isUpper c then c + 0x20 else c
    else b :: m

def requestErrorText (s : Service) : RequestError ParseError → ByteString
  | .invalidMethod method => ofString "net/http: invalid method " ++ s.urls.quote method
  | .url err              => urlError s (ofString "parse") err.url err.cause

-- What the upstream has answered, with the number of bytes that could be passed on.
structure Answer where
  statusCode : Int
  bytes      : Int
  deriving DecidableEq

-- The record that `HandleHTTP` writes. The client sends the outbound request, or fails with a cause.
def handleHTTP (s : Service) (send : Http.Request → Except ByteString Answer) (r : Request s.urls) :
    RequestSummary :=
  let summary : RequestSummary := {
    method        := r.method
    target        := logTarget r.url
    clientAddr    := r.remoteAddr
    statusCode    := 0
    bytesIn       := 0
    bytesOut      := 0
    upstreamError := []
  }
  if !checkAuth s r then { summary with target := authLogTarget r, statusCode := 407 }
  else if !r.url.isAbs then
    let err := s.publicError (ofString "Proxy expects absolute-URI request form.")
    { summary with statusCode := 400, upstreamError := err }
  else
    match newRequest (parseURL s.urls) r.method r.url.string r.body with
    | .error err => { summary with statusCode := 500, upstreamError := requestErrorText s err }
    | .ok out    =>
      let header := stripHopByHop (copyHeaders out.header r.header) r.header
      match send { out with header, host := r.url.host } with
      | .error cause =>
        let err := urlError s (urlErrorOp out.method) out.url.stripPassword cause
        { summary with statusCode := 502, upstreamError := err }
      | .ok answer =>
        { summary with statusCode := answer.statusCode, bytesOut := answer.bytes }

end Application.Proxy.AccessLog
