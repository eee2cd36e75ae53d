import Mathlib.Data.List.Sort
import VpnTunnel.Infrastructure.Wgconf.Basic
import VpnTunnel.Lib.Filepath
import VpnTunnel.Lib.Wgtypes
import VpnTunnel.Tunnelpool.Supervisor.State

namespace Generatevpnconfig

open ByteString
open Infrastructure (Wgconf.ParsedConfig Wgconf.Error Wgconf.parseFile Wgconf.Section.interface)
open Tunnelpool.Supervisor (base)
open Wgtypes (Key parseKey)

def zipMaxEntries : Nat :=
  2048

def zipMaxEntryBytes : Nat :=
  8 * 1024

-- A member of the archive, with the bytes that can be read from it before reading fails or it ends.
structure ZipFile where
  name    : String
  isDir   : Bool
  openErr : Option String
  data    : ByteString
  readErr : Option String

structure RunConfig where
  dir        : String
  force      : Bool
  namePrefix : String

structure ZipConf where
  name : String
  body : ByteString
  deriving DecidableEq

structure PreparedConf where
  name : String
  body : ByteString
  deriving DecidableEq

inductive Error
  | openZip (err : String)
  | tooManyEntries
  | invalidName (entry name err : String)
  | readEntry (entry err : String)
  | noEntries
  | invalidPrefixedName (entry outName err : String)
  | inject (entry err : String)
  | invalidKey (entry : String)
  | mixedKeys (entry : String) (pub resultPub : ByteString)
  | outputPath (entry err : String)
  | write (entry err : String)
  | parse (entry : String) (err : Wgconf.Error)
  deriving DecidableEq, Repr

def isSafe (c : Char) : Bool :=
  c.isAlphanum || c = '.' || c = '_' || c = '-'

def validateName (name : String) : Except String Unit :=
  if name = "" then .error "name is required"
  else if name = "." ∨ name = ".." then .error "name must not be '.' or '..'"
  else if '/' ∈ name.toList ∨ '\\' ∈ name.toList then .error "name must not contain path separators"
  else if name.toList.head? = some '.' then .error "name must not start with '.'"
  else if ¬name.toList.all isSafe then
    .error "name must contain only letters, digits, '.', '-', '_'"
  else .ok ()

def applyPrefix (namePrefix name : String) : String :=
  if namePrefix = "" then
    name
  else
    let trimmed := (namePrefix.toList.reverse.dropWhile fun c => c = '-' ∨ c = '_' ∨ c = '.').reverse
    .ofList trimmed ++ "-" ++ name

-- One byte more than the limit is asked for.
def readZipEntry (f : ZipFile) : Except String ByteString :=
  match f.openErr with
  | some err => .error ("open entry: " ++ err)
  | none     =>
    if f.data.length > zipMaxEntryBytes then
      .error ("decompressed size exceeds " ++ toString zipMaxEntryBytes ++ " byte limit")
    else
      match f.readErr with
      | some err => .error ("read entry: " ++ err)
      | none     => .ok f.data

def addZipEntry (entries : List ZipConf) (f : ZipFile) : Except Error (List ZipConf) :=
  let name := String.ofList (base f.name.toList)
  let ext  := Filepath.ext name
  if f.isDir ∨ ext.toLower ≠ ".conf" then
    .ok entries
  else if entries.length ≥ zipMaxEntries then
    .error .tooManyEntries
  else do
    let candidateName := String.ofList (name.toList.take (name.length - ext.length))
    (validateName candidateName).mapError (.invalidName f.name candidateName)
    let body ← (readZipEntry f).mapError (.readEntry f.name)
    return entries ++ [⟨candidateName, body⟩]

def readZipEntries (zip : Except String (List ZipFile)) : Except Error (List ZipConf) := do
  let files ← zip.mapError .openZip
  let entries ← files.foldlM addZipEntry []
  if entries = [] then .error .noEntries else return entries

-- The value of a line that assigns to `PrivateKey`.
def privateKey? (table : CaseTable) (raw : ByteString) : Option ByteString :=
  valueOf table (.ofString "privatekey") raw

def isHeader (raw : ByteString) : Bool :=
  (trimSpace raw).head? = some 0x5B

def isInterface (raw : ByteString) : Bool :=
  equalFold (trimSpace raw) (.ofString "[Interface]")

-- The loop of `extractInterfacePrivateKey`.
def extractFrom (table : CaseTable) (inInterface : Bool) : List ByteString → ByteString
  | []        => []
  | raw :: ls =>
    if isHeader raw then extractFrom table (isInterface raw) ls
    else if !inInterface then extractFrom table inInterface ls
    else (privateKey? table raw).getD (extractFrom table inInterface ls)

def extractInterfacePrivateKey (table : CaseTable) (confBody : ByteString) : ByteString :=
  extractFrom table false confBody.lines

-- The variables of `injectPrivateKey`, with the lines that its loop has gone through.
structure Injection where
  lines          : List ByteString
  inInterface    : Bool
  seenInterface  : Bool
  injected       : Bool
  ifaceHeaderIdx : Int

def Injection.init : Injection where
  lines          := []
  inInterface    := false
  seenInterface  := false
  injected       := false
  ifaceHeaderIdx := -1

def privateKeyLine (privateKey : ByteString) : ByteString :=
  .ofString "PrivateKey = " ++ privateKey

def Injection.next (table : CaseTable) (privateKey : ByteString) (st : Injection) (raw : ByteString) :
    Injection :=
  if isHeader raw then
    { st with
      lines          := st.lines ++ [raw]
      inInterface    := isInterface raw
      seenInterface  := st.seenInterface || isInterface raw
      ifaceHeaderIdx := if isInterface raw then st.lines.length else st.ifaceHeaderIdx }
  else if st.inInterface ∧ ¬st.injected ∧ (privateKey? table raw).isSome then
    { st with lines := st.lines ++ [privateKeyLine privateKey], injected := true }
  else
    { st with lines := st.lines ++ [raw] }

def injectPrivateKey (table : CaseTable) (confBody privateKey : ByteString) :
    Except String ByteString :=
  let st := confBody.lines.foldl (Injection.next table privateKey) .init
  if ¬st.seenInterface then .error "conf has no [Interface] section"
  else if st.injected then .ok (unlines st.lines)
  else
    let n := (st.ifaceHeaderIdx + 1).toNat
    .ok <| unlines (st.lines.take n ++ [privateKeyLine privateKey] ++ st.lines.drop n)

abbrev Files :=
  String → Option ByteString

-- The derivation of public keys, and the calls to the operating system that can fail.
structure Env where
  table     : CaseTable
  publicKey : Key → Key
  mkdirAll  : String → Except String Unit
  write     : String → Except String Unit
  openFile  : String → Except String Unit

-- The body of a configuration and its private key.
def resolveKey (table : CaseTable) (key : Key) (body : ByteString) :
    Except String (ByteString × ByteString) :=
  let privStr := extractInterfacePrivateKey table body
  if (parseKey privStr).isSome then
    .ok (body, privStr)
  else
    (injectPrivateKey table body key.string).map (·, key.string)

section

variable (env : Env) (cfg : RunConfig) (key : Key)

def prepareEntry (st : List PreparedConf × ByteString) (entry : ZipConf) :
    Except Error (List PreparedConf × ByteString) := do
  let (prepared, resultPub) := st
  let outName := applyPrefix cfg.namePrefix entry.name
  (validateName outName).mapError (.invalidPrefixedName entry.name outName)
  let (body, privStr) ← (resolveKey env.table key entry.body).mapError (.inject entry.name)
  match parseKey privStr with
  | none      => .error (.invalidKey entry.name)
  | some priv =>
    let pub := (env.publicKey priv).string
    if resultPub ≠ [] ∧ pub ≠ resultPub then
      .error (.mixedKeys entry.name pub resultPub)
    else
      return (prepared ++ [⟨outName, body⟩], pub)

def prepareEntries (entries : List ZipConf) : Except Error (List PreparedConf × ByteString) :=
  entries.foldlM (prepareEntry env cfg key) ([], [])

def confPath (name : String) : String :=
  Filepath.join cfg.dir (name ++ ".conf")

def resolveOutputPath (files : Files) (name : String) : Except String String := do
  (env.mkdirAll cfg.dir).mapError ("create dir " ++ cfg.dir ++ ": " ++ ·)
  let outPath := confPath cfg name
  if Filepath.dir outPath ≠ Filepath.clean cfg.dir then
    .error ("resolved path " ++ outPath ++ " escapes target dir " ++ cfg.dir)
  else if (files outPath).isSome ∧ ¬cfg.force then
    .error (outPath ++ " already exists — pick another name or re-run with -force to overwrite")
  else
    return outPath

def readFile (files : Files) (path : String) : Except String ByteString :=
  (env.openFile path).bind fun _ => (files path).elim (.error "no such file or directory") .ok

-- One round of the loop that writes the files.
def writeConf (files : Files) (p : PreparedConf) : Except Error Wgconf.ParsedConfig × Files :=
  match resolveOutputPath env cfg files p.name with
  | .error err  => (.error (.outputPath p.name err), files)
  | .ok outPath =>
    match env.write outPath with
    | .error err => (.error (.write p.name err), files)
    | .ok ()     =>
      let files := Function.update files outPath (some p.body)
      ((Wgconf.parseFile env.table (readFile env files) outPath).mapError (.parse p.name), files)

def writeConfs (files : Files) : List PreparedConf → Except Error (List Wgconf.ParsedConfig) × Files
  | []      => (.ok [], files)
  | p :: ps =>
    match writeConf env cfg files p with
    | (.error err, files)   => (.error err, files)
    | (.ok parsed, files) =>
      let (res, files) := writeConfs files ps
      (res.map (parsed :: ·), files)

-- The addresses of a configuration in a canonical order.
def addrKey (c : Wgconf.ParsedConfig) : ByteString :=
  [0x2C].intercalate ((c.interface.addresses.map (·.string)).insertionSort (· ≤ ·))

-- The lines that warn of different addresses.
def checkAddressConsistency (cfgs : List Wgconf.ParsedConfig) : List ByteString :=
  match cfgs.map addrKey with
  | []         => []
  | first :: keys =>
    if keys.all (· = first) then
      []
    else
      ["", "WARNING: ingested configs have different Interface.Addresses.",
        "This may mean the zip was generated for a different key or account.",
        "Distinct address sets found:"].map .ofString ++
      (first :: keys).eraseDups.map (.ofString "  " ++ ·)

structure Report where
  names     : List String
  resultPub : ByteString
  out       : List ByteString

def report (names : List String) (resultPub : ByteString) (cfgs : List Wgconf.ParsedConfig) : Report where
  names     := names
  resultPub := resultPub
  out       :=
    [[], ByteString.ofString ("All " ++ toString names.length ++ " configs use public key: ") ++ resultPub,
      ByteString.ofString "Confirm this key is registered on your Mullvad account."] ++
    checkAddressConsistency cfgs

def ingestZip (zip : Except String (List ZipFile)) (files : Files) : Except Error Report × Files :=
  match readZipEntries zip with
  | .error err  => (.error err, files)
  | .ok entries =>
    match prepareEntries env cfg key entries with
    | .error err             => (.error err, files)
    | .ok (prepared, resultPub) =>
      let (res, files) := writeConfs env cfg files prepared
      (res.map (report (prepared.map (·.name)) resultPub), files)

end

end Generatevpnconfig
