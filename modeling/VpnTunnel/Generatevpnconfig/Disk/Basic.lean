import VpnTunnel.Generatevpnconfig.Basic
import VpnTunnel.Lib.Os.Atomic

-- The tool as a process that makes its calls one after the other, next to other processes.

namespace Generatevpnconfig.Disk

open ByteString (CaseTable)
open Infrastructure (Wgconf.ParsedConfig Wgconf.parseFile)
open Os
open Tunnelpool.Supervisor (base)
open Wgtypes (Key)

-- The file has been created, but it does not come under its name.
def discard (tmpName : String) (err : String) : Program (Except String Unit) := do
  let _ ← remove tmpName
  return .error err

def closeAndDiscard (fd : Nat) (tmpName : String) (err : String) : Program (Except String Unit) := do
  let _ ← close fd
  discard tmpName err

def writeAtomicConf (dir finalPath : String) (body : ByteString) : Program (Except String Unit) := do
  match ← createTemp dir (.ofList (base finalPath.toList) ++ ".") ".tmp" with
  | .error err         => return .error ("create temp: " ++ err.text)
  | .ok (tmp, tmpName) =>
    match ← fchmod tmp 0o600 with
    | .error err => closeAndDiscard tmp tmpName ("chmod temp: " ++ err.text)
    | .ok _      =>
      match ← writeAll tmp body with
      | .error err => closeAndDiscard tmp tmpName ("write temp: " ++ err.text)
      | .ok _      =>
        match ← sync tmp with
        | .error err => closeAndDiscard tmp tmpName ("sync temp: " ++ err.text)
        | .ok _      =>
          match ← close tmp with
          | .error err => discard tmpName ("close temp: " ++ err.text)
          | .ok _      =>
            match ← rename tmpName finalPath with
            | .error err => discard tmpName ("rename temp to final: " ++ err.text)
            | .ok _      => return .ok ()

def resolveOutputPath (cfg : RunConfig) (name : String) : Program (Except String String) := do
  match ← mkdirAll cfg.dir 0o700 with
  | .error err => return .error ("create dir " ++ cfg.dir ++ ": " ++ err.text)
  | .ok _      =>
    let outPath := confPath cfg name
    if Filepath.dir outPath ≠ Filepath.clean cfg.dir then
      return .error ("resolved path " ++ outPath ++ " escapes target dir " ++ cfg.dir)
    else
      match ← stat outPath with
      | .error _ => return .ok outPath
      | .ok _    =>
        return if ¬cfg.force then
            .error (outPath ++ " already exists — pick another name or re-run with -force to overwrite")
          else
            .ok outPath

def writeConf (table : CaseTable) (cfg : RunConfig) (p : PreparedConf) :
    Program (Except Error Wgconf.ParsedConfig) := do
  match ← resolveOutputPath cfg p.name with
  | .error err  => return .error (.outputPath p.name err)
  | .ok outPath =>
    match ← writeAtomicConf cfg.dir outPath p.body with
    | .error err => return .error (.write p.name err)
    | .ok _      =>
      let raw ← Os.readFile outPath
      return (Wgconf.parseFile table (fun _ => raw.mapError Errno.text) outPath).mapError (.parse p.name)

def writeConfs (table : CaseTable) (cfg : RunConfig) :
    List PreparedConf → Program (Except Error (List Wgconf.ParsedConfig))
  | []      => return .ok []
  | p :: ps => do
    match ← writeConf table cfg p with
    | .error err => return .error err
    | .ok parsed => return (← writeConfs table cfg ps).map (parsed :: ·)

-- One run of the tool, with what it has been given.
structure Job where
  cfg : RunConfig
  key : Key
  zip : Except String (List ZipFile)

def Job.prepare (env : Env) (job : Job) : Except Error (List PreparedConf × ByteString) := do
  prepareEntries env job.cfg job.key (← readZipEntries job.zip)

def ingestZip (env : Env) (job : Job) : Program (Except Error Report) := do
  match job.prepare env with
  | .error err                => return .error err
  | .ok (prepared, resultPub) =>
    return (← writeConfs env.table job.cfg prepared).map (report (prepared.map (·.name)) resultPub)

end Generatevpnconfig.Disk
