import VpnTunnel.Handlers.Proxy.Basic
import VpnTunnel.Lib.Groups
import VpnTunnel.Tunnelpool.Eligible.Basic

namespace Handlers.Tunnels

open ByteString Http
open Tunnelpool (CatalogEntry)

-- A map from countries to the ids of tunnels.
abbrev Grouped :=
  AList fun _ : String => List String

-- The body is the map that is marshalled, which can not fail.
structure Response where
  statusCode : Int
  header     : Header
  body       : Option Grouped

def bucket (country : String) : String :=
  if country = "" then "zz" else country

def groupByCountry (entries : List CatalogEntry) : Grouped :=
  (AList.groupBy (fun ent => bucket ent.country) (·.id) entries).mapVal (·.insertionSort (· ≤ ·))

-- The buckets that are listed in the value of the parameter.
def listed (table : CaseTable) (raw : ByteString) : List String :=
  (raw.splitOn 0x2C).filterMap fun tok =>
    let tok := toLower table (trimSpace tok)
    if tok ≠ [] then some tok.text else none

def applyFilter (table : CaseTable) (raw : ByteString) (grouped : Grouped) : Grouped :=
  if raw ≠ [] then
    let allowed := listed table raw
    if 0 < allowed.length then grouped.filterKeys (allowed.contains ·) else grouped
  else
    grouped

def serveHTTP (table : CaseTable) (catalog : List CatalogEntry) (w : Header) (r : Http.Request) :
    Response :=
  if r.method ≠ ofString "GET" then
    { statusCode := 405, header := w.set (ofString "Allow") (ofString "GET"), body := none }
  else
    let grouped := groupByCountry catalog
    {
      statusCode := 200
      header     := w.set Proxy.Name.contentType (ofString "application/json")
      body       := some <| applyFilter table (r.url.queryGet (ofString "country")) grouped
    }

end Handlers.Tunnels
