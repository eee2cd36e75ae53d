import VpnTunnel.Lib.Encoding
import VpnTunnel.Lib.Filepath
import VpnTunnel.Lib.Os.Basic

namespace Apitls

open Os

inductive Error
  | createDir (err : Errno)
  | statDir (err : Errno)
  | dirMode (perm : Mode)
  | generateKey (err : Errno)
  | serialNumber (err : Errno)
  | createCertificate (err : String)
  | parseCertificate (err : String)
  | writeCert (err : Errno)
  | marshalKey (err : String)
  | writeKey (err : Errno)
  | renameCert (err : Errno)
  | renameKey (err : Errno)
  | chmodKey (err : Errno)
  deriving DecidableEq, Repr

inductive Reason
  | expired
  | hostnameMissingFromSANs
  deriving DecidableEq, Repr

inductive LoadError
  | read (err : Errno)
  | keyPair (err : String)
  | leaf (err : String)
  | regenerate (reason : Reason)
  deriving DecidableEq, Repr

-- The moments are in nanoseconds.
structure Leaf where
  notAfter : Nat
  dnsNames : List String

structure Template where
  serialNumber : Nat
  commonName   : String
  notBefore    : Int
  notAfter     : Nat
  dnsNames     : List String
  ipAddresses  : List ByteString

structure Certificate where
  certificate : List ByteString
  privateKey  : ByteString
  leaf        : Leaf

-- The parts of the standard library that certificates are made and read with. `x509KeyPair` returns the leaf,
-- the rest of the chain and the private key, and fails if the key is not the one of the leaf.
structure Crypto where
  generateKey            : ByteString → ByteString × ByteString
  createCertificate      : Template → ByteString → ByteString → Except String ByteString
  parseCertificate       : ByteString → Except String Leaf
  marshalPKCS8PrivateKey : ByteString → Except String ByteString
  encodePEM              : String → ByteString → ByteString
  x509KeyPair            : ByteString → ByteString → Except String (ByteString × List ByteString × ByteString)
  sum256                 : ByteString → ByteString
  tenYearsAfter          : Nat → Nat

def hour : Nat :=
  3600 * 10 ^ 9

def certPath (certDir : String) : String :=
  Filepath.join certDir "cert.pem"

def keyPath (certDir : String) : String :=
  Filepath.join certDir "key.pem"

def certTmp (certDir : String) : String :=
  certPath certDir ++ ".tmp"

def keyTmp (certDir : String) : String :=
  keyPath certDir ++ ".tmp"

def shouldRegenerate (leaf : Leaf) (hostname : String) (now : Nat) : Option Reason :=
  if ¬now < leaf.notAfter then some .expired
  else if hostname ∈ leaf.dnsNames then none
  else some .hostnameMissingFromSANs

def ensureCertDir (certDir : String) : Program (Except Error Unit) := do
  match ← stat certDir with
  | .error .notExist => return (← mkdirAll certDir 0o700).mapError .createDir
  | .error err       => return .error (.statDir err)
  | .ok perm         => return if perm ≠ 0o700 then .error (.dirMode perm) else .ok ()

def fileExists (path : String) : Program Bool :=
  return (← stat path).isOk

variable (x : Crypto) (certDir hostname : String)

def fingerprintDER (der : ByteString) : ByteString :=
  Hex.encode (x.sum256 der)

def loadX509KeyPair : Program (Except LoadError (ByteString × List ByteString × ByteString)) := do
  match ← readFile (certPath certDir) with
  | .error err => return .error (.read err)
  | .ok cert   =>
    match ← readFile (keyPath certDir) with
    | .error err => return .error (.read err)
    | .ok key    => return (x.x509KeyPair cert key).mapError .keyPair

def loadAndVerify : Program (Except LoadError (Certificate × ByteString)) := do
  match ← loadX509KeyPair x certDir with
  | .error err              => return .error err
  | .ok (der, chain, priv) =>
    match x.parseCertificate der with
    | .error err => return .error (.leaf err)
    | .ok leaf   =>
      match shouldRegenerate leaf hostname (← now) with
      | some reason => return .error (.regenerate reason)
      | none        => return .ok (⟨der :: chain, priv, leaf⟩, fingerprintDER x der)

def cleanup : Program Unit := do
  let _ ← remove (certTmp certDir)
  let _ ← remove (keyTmp certDir)

def writePEMFiles (der priv : ByteString) : Program (Except Error Unit) := do
  match ← writeFile (certTmp certDir) (x.encodePEM "CERTIFICATE" der) 0o644 with
  | .error err =>
    cleanup certDir
    return .error (.writeCert err)
  | .ok _ =>
    match x.marshalPKCS8PrivateKey priv with
    | .error err =>
      cleanup certDir
      return .error (.marshalKey err)
    | .ok pkcs8 =>
      match ← writeFile (keyTmp certDir) (x.encodePEM "PRIVATE KEY" pkcs8) 0o600 with
      | .error err =>
        cleanup certDir
        return .error (.writeKey err)
      | .ok _ =>
        match ← rename (certTmp certDir) (certPath certDir) with
        | .error err =>
          cleanup certDir
          return .error (.renameCert err)
        | .ok _ =>
          match ← rename (keyTmp certDir) (keyPath certDir) with
          | .error err =>
            -- The certificate is in place already.
            let _ ← remove (keyTmp certDir)
            return .error (.renameKey err)
          | .ok _ => return (← chmod (keyPath certDir) 0o600).mapError .chmodKey

-- The bytes of a number, the most significant one first.
def serial (data : ByteString) : Nat :=
  data.foldl (fun n b => n * 256 + b.toNat) 0

def template (ipSANs : List ByteString) (serialNumber now : Nat) : Template where
  serialNumber := serialNumber
  commonName   := hostname
  notBefore    := now - hour
  notAfter     := x.tenYearsAfter now
  dnsNames     := [hostname]
  ipAddresses  := ipSANs

def generate (ipSANs : List ByteString) : Program (Except Error (Certificate × ByteString)) := do
  match ← random 32 with
  | .error err => return .error (.generateKey err)
  | .ok seed   =>
    let (pub, priv) := x.generateKey seed
    -- A number below 2 ^ 128.
    match ← random 16 with
    | .error err  => return .error (.serialNumber err)
    | .ok entropy =>
      let tmpl := template x hostname ipSANs (serial entropy) (← now)
      match x.createCertificate tmpl pub priv with
      | .error err => return .error (.createCertificate err)
      | .ok der    =>
        match x.parseCertificate der with
        | .error err => return .error (.parseCertificate err)
        | .ok leaf   =>
          match ← writePEMFiles x certDir der priv with
          | .error err => return .error err
          | .ok _      => return .ok (⟨[der], priv, leaf⟩, fingerprintDER x der)

def loadOrGenerate (ipSANs : List ByteString) : Program (Except Error (Certificate × ByteString)) := do
  match ← ensureCertDir certDir with
  | .error err => return .error err
  | .ok _      =>
    let certExists ← fileExists (certPath certDir)
    let keyExists ← fileExists (keyPath certDir)
    if certExists && keyExists then
      match ← loadAndVerify x certDir hostname with
      | .ok loaded => return .ok loaded
      | .error _   => generate x certDir hostname ipSANs
    else
      generate x certDir hostname ipSANs

end Apitls
