import VpnTunnel.Lib.Encoding

namespace Wgtypes

def keyLen : Nat :=
  32

structure Key where
  bytes        : ByteString
  length_bytes : bytes.length = keyLen
  deriving DecidableEq

def newKey (b : ByteString) : Option Key :=
  if h : b.length = keyLen then some ⟨b, h⟩ else none

def parseKey (s : ByteString) : Option Key :=
  (Base64.decode s).bind newKey

namespace Key

variable {k : Key} {c : UInt8}

def string (k : Key) : ByteString :=
  Base64.encode k.bytes

theorem parseKey_string (k : Key) : parseKey k.string = some k := by
  simp [parseKey, string, Base64.decode_encode, newKey, k.length_bytes]

theorem string_injective : Function.Injective string := by
  intro k₁ k₂ h
  exact Option.some.inj <| (parseKey_string k₁).symm.trans <| h ▸ parseKey_string k₂

theorem isChar_of_mem_string (h : c ∈ k.string) : Base64.isChar c :=
  Base64.isChar_of_mem_encode h

theorem string_ne_nil : k.string ≠ [] := by
  refine Base64.encode_ne_nil fun h => ?_
  simpa [h, keyLen] using k.length_bytes

end Key

theorem isChar_of_parseKey {s : ByteString} {k : Key} {c : UInt8} (h : parseKey s = some k) (hc : c ∈ s)
    (hn : ¬Base64.isNewline c) : Base64.isChar c := by
  have ⟨_, hd, _⟩ := Option.bind_eq_some_iff.mp h
  exact Base64.isChar_of_decode hd hc hn

end Wgtypes
