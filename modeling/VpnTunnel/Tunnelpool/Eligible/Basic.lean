import Mathlib.Data.List.AList
import Mathlib.Data.List.Sort
import VpnTunnel.Lib.Bytes
import VpnTunnel.Lib.Filepath
import VpnTunnel.Tunnelpool.Supervisor.State

namespace Tunnelpool

open Supervisor (ConfigPath TunnelID Country tunnelIDFromPath countryFromBasename)

inductive Error
  | publicDetails (details : String)
  | plain (message : String)
  deriving DecidableEq, Repr

structure DirEntry where
  name    : String
  regular : Bool
  deriving DecidableEq, Repr

inductive ReadDirError
  | notExist
  | other (err : String)
  deriving DecidableEq, Repr

-- What the functions below call on: the file system, the table behind `strings.ToLower`, and the
-- printing of a quoted text.
structure Env where
  getwd   : Filepath.Getwd
  readDir : String → Except ReadDirError (List DirEntry)
  table   : ByteString.CaseTable
  quote   : String → String

def resolve (env : Env) (cfgPath path : String) : Except Error ConfigPath :=
  (Filepath.abs env.getwd path).mapError fun err =>
    .plain ("tunnelpool: resolve config path " ++ env.quote cfgPath ++ ": " ++ err)

def DirEntry.isConfig (entry : DirEntry) : Bool :=
  entry.name.toList.head? ≠ some '.' && entry.regular && ".conf".toList <:+ entry.name.toList

def discoverConfigs (env : Env) (tunnelsDir : String) : Except Error (List ConfigPath) :=
  match env.readDir tunnelsDir with
  | .error .notExist => .error <| .publicDetails <| "config.upstream: tunnels directory " ++
    tunnelsDir ++ " not found; create it and drop your wg-quick .conf files there"
  | .error (.other err) => .error <| .plain ("tunnelpool: read tunnels dir " ++ tunnelsDir ++ ": " ++ err)
  | .ok entries => do
    let paths ← (entries.filter (·.isConfig)).mapM fun entry =>
      resolve env entry.name (Filepath.join tunnelsDir entry.name)
    return paths.insertionSort (· ≤ ·)

structure Entry where
  basename    : TunnelID
  country     : Country
  path        : ConfigPath
  basename_eq : basename = tunnelIDFromPath path
  country_eq  : country = countryFromBasename basename
  deriving DecidableEq

def Entry.ofPath (path : ConfigPath) : Entry where
  basename    := tunnelIDFromPath path
  country     := countryFromBasename (tunnelIDFromPath path)
  path        := path
  basename_eq := rfl
  country_eq  := rfl

structure CatalogEntry where
  id       : String
  basename : TunnelID
  country  : Country
  deriving DecidableEq, Repr

-- The two fields that `newSet` fills. The key of an entry is computed from its basename.
structure View (keyFn : TunnelID → String) where
  byKey     : AList fun _ : String => Entry
  order     : List String
  nodup     : order.Nodup
  mem_order : ∀ {key}, key ∈ order ↔ key ∈ byKey
  key_eq    : ∀ {key ent}, byKey.lookup key = some ent → key = keyFn ent.basename

namespace View

variable {keyFn : TunnelID → String} (v : View keyFn)

def empty : View keyFn where
  byKey     := ∅
  order     := []
  nodup     := .nil
  mem_order := by simp
  key_eq    := by simp

def add (ent : Entry) : View keyFn :=
  if h : keyFn ent.basename ∈ v.byKey then
    v
  else {
    byKey     := v.byKey.insert (keyFn ent.basename) ent
    order     := v.order ++ [keyFn ent.basename]
    nodup     := List.nodup_append.mpr ⟨v.nodup, by simp, by
      rintro key hk _ (hm : _ ∈ [_]) rfl
      exact h (List.mem_singleton.mp hm ▸ v.mem_order.mp hk)⟩
    mem_order := by simp [v.mem_order, or_comm]
    key_eq    := by
      intro key ent' hl
      by_cases hk : key = keyFn ent.basename
      case pos =>
        rw [hk, AList.lookup_insert, Option.some.injEq] at hl
        exact hl ▸ hk
      case neg =>
        rw [AList.lookup_insert_ne hk] at hl
        exact v.key_eq hl
  }

def lookup (id : String) : Option ConfigPath :=
  (v.byKey.lookup id).map (·.path)

def isEligible (id : String) : Bool :=
  (v.byKey.lookup id).isSome

def len : Nat :=
  v.order.length

-- A missing entry would be read as the zero value.
def entries : List CatalogEntry :=
  v.order.map fun key => {
    id       := key
    basename := ((v.byKey.lookup key).map (·.basename)).getD ""
    country  := ((v.byKey.lookup key).map (·.country)).getD ""
  }

-- `IntN` panics for a bound of zero.
def intN (n rand : Nat) : Option Nat :=
  if n = 0 then none else some (rand % n)

-- The path for a number that the generator has drawn, unless there is a panic.
def randomPath (rand : Nat) : Option ConfigPath := do
  let idx ← intN v.len rand
  let key ← v.order[idx]?
  return (v.lookup key).getD ""

end View

structure EligibleSet (keyFn : TunnelID → String) extends View keyFn where
  ne_nil : order ≠ []

section NewSet

variable (env : Env) (rawConfigs : List String) (configDir : String) (allowed : List ByteString)

def resolveConfig (cfgPath : String) : Except Error ConfigPath :=
  resolve env cfgPath <| if Filepath.isAbs cfgPath then cfgPath else Filepath.join configDir cfgPath

def allows (country : Country) : Bool :=
  allowed = [] || (allowed.map fun cc => (cc.toLower env.table).text).contains country

def addConfig {keyFn : TunnelID → String} (v : View keyFn) (cfgPath : String) :
    Except Error (View keyFn) := do
  let path ← resolveConfig env configDir cfgPath
  let ent := Entry.ofPath path
  return if allows env allowed ent.country then v.add ent else v

def noEligible : Error :=
  if allowed = [] then
    .publicDetails <| "config.vpnstream: no eligible tunnel configs discovered in tunnels/; " ++
      "ensure at least one wg-quick .conf file is present"
  else
    .publicDetails <| "config.upstream: no eligible tunnel configs after country filter " ++
      ", ".intercalate (allowed.map (·.text)) ++ "; check that allowed_countries matches at least " ++
      "one of the discovered configs in tunnels/"

def newSet (keyFn : TunnelID → String) : Except Error (EligibleSet keyFn) := do
  let view ← rawConfigs.foldlM (addConfig env configDir allowed) View.empty
  if h : view.byKey.keys = [] then
    .error (noEligible allowed)
  else
    return { view with
      ne_nil := by
        have ⟨key, hk⟩ := List.exists_mem_of_ne_nil _ h
        exact List.ne_nil_of_mem (view.mem_order.mpr (AList.mem_keys.mpr hk)) }

def newEligibleSet : Except Error (EligibleSet id) :=
  newSet env rawConfigs configDir allowed id

-- The keys are the digests of the basenames.
def newFullSet (deriveID : TunnelID → String) : Except Error (EligibleSet deriveID) :=
  if rawConfigs = [] then
    .error <| .publicDetails <| "config.vpnstream: no tunnel configs discovered in tunnels/; " ++
      "drop at least one wg-quick .conf file there"
  else
    newSet env rawConfigs configDir [] deriveID

end NewSet

end Tunnelpool
