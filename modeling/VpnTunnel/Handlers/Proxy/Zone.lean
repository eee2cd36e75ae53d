import VpnTunnel.Handlers.Proxy.Basic

namespace Handlers.Proxy

open ByteString Http
open Asyncjob (UpstreamResponse)

def hopByHopHeaders : List ByteString := [
  ofString "Connection", ofString "Proxy-Connection", ofString "Keep-Alive", ofString "Te",
  ofString "Trailer", ofString "Transfer-Encoding", ofString "Upgrade", ofString "Proxy-Authenticate"
]

def isHopByHop (key : ByteString) : Bool :=
  canonicalHeaderKey key ∈ hopByHopHeaders

def endToEnd (key : ByteString) : Option ByteString :=
  if isHopByHop key then none else some key

def forwardRawMaxBody : Nat :=
  10 * 1024 * 1024

-- The response as it is stored, or nothing if its body cannot be read. Reading stops at the cap,
-- before an error that comes later.
def materialise (resp : Http.Response) : Option UpstreamResponse :=
  if resp.body.fails ∧ resp.body.data.length < forwardRawMaxBody then none
  else some {
    statusCode := resp.statusCode
    header     := some <| resp.header.fields.foldl
      (fun m x => (endToEnd x.1).elim m fun key => m.insert key (some x.2)) ∅
    body       := some (resp.body.data.take forwardRawMaxBody)
  }

def stripServiceHeaders (req : Http.Request) : Http.Request :=
  { req with header := serviceHeaders.foldl .del req.header }

-- The codes that are used here need no escaping.
def zoneErrorResponse (status : Int) (code : String) : UpstreamResponse where
  statusCode := status
  header     := some <| (AList.insert Name.proxyError (some [ofString code]) ∅).insert Name.contentType
    (some [ofString "application/json"])
  body       := some <| ofString "\x7b\"error\":\"" ++ ofString code ++ ofString "\"\x7d"

-- An error of `Route`, with its details if it is a public one.
inductive RouteError
  | publicDetails (msg : ByteString)
  | other
  deriving DecidableEq

def prefixUnknownZone : ByteString :=
  ofString "unknown_zone:"

def classifyRouteError : RouteError → UpstreamResponse
  | .other => zoneErrorResponse 502 "zone_error"
  | .publicDetails msg =>
    if prefixUnknownZone.isPrefixOf msg then zoneErrorResponse 400 "unknown_zone"
    else zoneErrorResponse 502 "zone_bring_up_failure"

-- What `Forward` of the zone forwarder comes to, by what has decided it.
inductive Fate
  | tunnelRequired
  | routeError (err : RouteError)
  | doError
  | response (resp : Http.Response)
  deriving DecidableEq

-- What `Forward` returns, where `none` is an error.
def Fate.result : Fate → Option UpstreamResponse
  | tunnelRequired => some (zoneErrorResponse 400 "tunnel_required")
  | routeError err => some (classifyRouteError err)
  | doError        => none
  | response resp  => materialise resp

-- The zone forwarder, given the results of `Route` and of sending the request.
def forward (route : ByteString → Option RouteError) (send : Http.Request → Option Http.Response)
    (req : Http.Request) : Fate :=
  let zoneID := req.header.get internalTunnelIDHeader
  if zoneID = [] then .tunnelRequired
  else
    match route zoneID with
    | some err => .routeError err
    | none     => (send (stripServiceHeaders req)).elim .doError .response

end Handlers.Proxy
