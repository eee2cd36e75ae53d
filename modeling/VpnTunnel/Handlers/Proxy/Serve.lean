import VpnTunnel.Handlers.Proxy.Zone

namespace Handlers.Proxy

open ByteString Http
open Asyncjob (UpstreamResponse Outcome SubmitError ValidCode)

-- Which part of the source has written a response.
inductive Writer
  | writeError
  | copyUpstreamResponse
  | pending
  | replay
  deriving DecidableEq

inductive Content
  | json (fields : List (ByteString × ByteString))
  | bytes (data : List UInt8)
  deriving DecidableEq

-- A response to the client.
structure Response where
  writer     : Writer
  statusCode : Int
  header     : Header
  body       : Content
  deriving DecidableEq

def setRequestID (w : Header) (reqID : ByteString) : Header :=
  if reqID ≠ [] then w.set Name.requestID reqID else w

def writeError (w : Header) (code : ByteString) (status : Int) (reqID : ByteString) : Response where
  writer     := .writeError
  statusCode := status
  header     := setRequestID
    ((w.set Name.contentType (ofString "application/json")).set Name.proxyError code) reqID
  body       := .json [(ofString "error", code), (ofString "request_id", reqID)]

-- An error of `client.Do`, by what is found in its chain.
structure DoError where
  maxBytes         : Bool
  denyList         : Bool
  deadlineExceeded : Bool
  canceled         : Bool
  dns              : Bool
  deriving DecidableEq

-- Nothing is written to a client that has disconnected.
def mapDoError (w : Header) (err : DoError) : Option Response :=
  let envelope code status := some (writeError w (ofString code) status (w.get Name.requestID))
  if err.maxBytes then envelope "body_too_large" 413
  else if err.denyList then envelope "private_address_denied" 403
  else if err.deadlineExceeded then envelope "upstream_timeout" 504
  else if err.canceled then none
  else if err.dns then envelope "upstream_dns_failed" 502
  else envelope "upstream_connect_failed" 502

-- The headers that `copyUpstreamResponse` has set when it writes the status code.
def upstreamHeader (w : Header) (resp : Http.Response) (reqID : ByteString) : Header :=
  (setRequestID (w.copy endToEnd resp.header.fields) reqID).del Name.proxyError

inductive DoResult
  | panic
  | error (err : DoError)
  | ok (resp : Http.Response)
  deriving DecidableEq

-- `Forward` recovers from panics, also from the one that `WriteHeader` raises on an invalid code. The
-- headers that were set before stay.
def relay (w : Header) : DoResult → Option Response
  | .panic     => some (writeError w (ofString "internal") 500 (w.get Name.requestID))
  | .error err => mapDoError w err
  | .ok resp   =>
    let header := upstreamHeader w resp (w.get Name.requestID)
    if ValidCode resp.statusCode then
      some { writer := .copyUpstreamResponse, statusCode := resp.statusCode, header,
             body := .bytes resp.body.data }
    else some (writeError header (ofString "internal") 500 (header.get Name.requestID))

def storedFields (resp : UpstreamResponse) : List (ByteString × List ByteString) :=
  resp.header.elim [] fun m => m.entries.map fun e => (e.1, e.2.getD [])

-- The panic of `WriteHeader` is not recovered here, so that the connection is closed.
def replay (w : Header) (resp : UpstreamResponse) (reqID : ByteString) : Option Response :=
  if ValidCode resp.statusCode then
    some {
      writer     := .replay
      statusCode := resp.statusCode
      header     := (setRequestID (w.copy endToEnd (storedFields resp)) reqID).del Name.asyncStatus
      body       := .bytes (resp.body.getD [])
    }
  else none

-- `serveAsync`, given what `SubmitOrFetch` has returned.
def serveAsync (w : Header) (tag reqID : ByteString) :
    Except SubmitError Outcome → Option Response
  | .error (.bodyTooLarge _) => some (writeError w (ofString "body_too_large") 413 reqID)
  | .error .poolClosed       => some (writeError w (ofString "shutting_down") 503 reqID)
  | .error _                 => some (writeError w (ofString "internal") 500 reqID)
  | .ok .pending             => some {
      writer     := .pending
      statusCode := 202
      header     := setRequestID ((w.set Name.asyncStatus (ofString "pending")).set Name.contentType
        (ofString "application/json")) reqID
      body       := .json [(ofString "retry_tag", tag), (ofString "status", ofString "pending")]
    }
  | .ok (.completed resp)    => replay w resp reqID
  | .ok .tombstoned          => some (writeError w (ofString "tag_evicted") 410 reqID)
  | .ok .queueFull           => some (writeError w (ofString "queue_full") 503 reqID)

-- What the parts around the handler return: the pool, the router and the client.
structure Env where
  submit : ByteString → Http.Request → Except SubmitError Outcome
  routed : Bool
  send   : Http.Request → DoResult

def serveHTTP (h : Handler) (env : Env) (w : Header) (r : Request) : Option Response :=
  let reqID := w.get Name.requestID
  match h.dispatch r with
  | .error e               => some (writeError w e.code e.status reqID)
  | .ok (.async tag req)   => serveAsync w tag reqID (env.submit tag req)
  | .ok (.sync out _)      =>
    if env.routed then relay w (env.send out)
    else some (writeError w (ofString "tunnel_unavailable") 503 reqID)

-- The route with its middleware. Both roles may use it.
def serve (h : Handler) (authorized : ByteString → Bool) (env : Env) (reqID : ByteString)
    (r : Request) : Option Response :=
  let w := Header.set ∅ Name.requestID reqID
  if authorized (r.header.get Name.token) then serveHTTP h env w r
  else some (writeError w (ofString "unauthorized") 401 reqID)

end Handlers.Proxy
