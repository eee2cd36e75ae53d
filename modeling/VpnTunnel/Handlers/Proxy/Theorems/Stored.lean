import VpnTunnel.Asyncjob.Theorems.Record
import VpnTunnel.Handlers.Proxy.Serve

namespace Handlers.Proxy

open ByteString Http
open Asyncjob (UpstreamResponse)

variable {resp : Response} {up : Http.Response} {stored : UpstreamResponse} {w : Header}
  {name key value reqID : ByteString}

-- The upstream has sent a value under a name in any casing, and it is stored so.
def Answers (up : Http.Response) (name value : ByteString) : Prop :=
  ∃ key, canonicalHeaderKey key = name ∧ value ∈ up.header.values key

def Stores (stored : UpstreamResponse) (name value : ByteString) : Prop :=
  ∃ x ∈ storedFields stored, canonicalHeaderKey x.1 = name ∧ value ∈ x.2

-- The names that neither concern a connection nor are set by the daemon.
structure Relayed (name : ByteString) : Prop where
  valid       : name.all validHeaderFieldByte
  endToEnd    : name ∉ hopByHopHeaders
  requestID   : canonicalHeaderKey Name.requestID ≠ name
  asyncStatus : canonicalHeaderKey Name.asyncStatus ≠ name

theorem setRequestID_values (hk : canonicalHeaderKey Name.requestID ≠ key) :
    (setRequestID w reqID).values key = w.values key := by
  simp only [setRequestID]
  split
  case isTrue => rw [Header.set, Header.values_insert, if_neg hk.symm]
  case isFalse => rfl

theorem endToEnd_eq (hn : name ∉ hopByHopHeaders) (hk : canonicalHeaderKey key = name) :
    endToEnd key = some key := by
  simp [endToEnd, isHopByHop, hk, hn]

theorem endToEnd_eq_iff (hn : name ∉ hopByHopHeaders) (hk : canonicalHeaderKey key = name)
    (k : ByteString) : endToEnd k = some key ↔ k = key := by
  constructor
  case mp =>
    simp only [endToEnd]
    split <;> simp
  case mpr =>
    intro he
    rw [he, endToEnd_eq hn hk]

theorem endToEnd_map_eq_iff (hn : name ∉ hopByHopHeaders) :
    (endToEnd key).map canonicalHeaderKey = some name ↔ canonicalHeaderKey key = name := by
  constructor
  case mp =>
    simp only [endToEnd]
    split <;> simp
  case mpr =>
    intro hk
    simp [endToEnd_eq hn hk, hk]

theorem mem_storedFields {vs : List ByteString} :
    (key, vs) ∈ storedFields stored ↔ ∃ m ∈ stored.header, ∃ v, m.lookup key = some v ∧ v.getD [] = vs := by
  cases hh : stored.header
  case none => simp [storedFields, hh]
  case some m =>
    simp only [storedFields, hh, Option.elim_some, List.mem_map, Option.mem_def, Option.some.injEq,
      exists_eq_left', Prod.mk.injEq]
    constructor
    case mp =>
      intro ⟨e, he, hk, hv⟩
      subst hk
      exact ⟨e.2, AList.mem_lookup_iff.mpr he, hv⟩
    case mpr =>
      intro ⟨v, hl, hv⟩
      exact ⟨⟨key, v⟩, AList.mem_lookup_iff.mp hl, rfl, hv⟩

theorem stores_iff {m : AList fun _ : ByteString => Option (List ByteString)}
    (hh : stored.header = some m) : Stores stored name value ↔
      ∃ key vs, m.lookup key = some (some vs) ∧ canonicalHeaderKey key = name ∧ value ∈ vs := by
  simp only [Stores, Prod.exists, mem_storedFields, hh, Option.mem_def, Option.some.injEq,
    exists_eq_left']
  constructor
  case mp =>
    rintro ⟨key, vs, ⟨v, hl, rfl⟩, hk, hm⟩
    cases v
    case none    => simp at hm
    case some vs => exact ⟨key, vs, hl, hk, hm⟩
  case mpr =>
    intro ⟨key, vs, hl, hk, hm⟩
    exact ⟨key, vs, ⟨some vs, hl, rfl⟩, hk, hm⟩

namespace Relayed

-- A response only has the identifier of the request to begin with.
theorem values_requestID (hn : Relayed name) : (Header.set ∅ Name.requestID reqID).values name = [] := by
  rw [Header.set, Header.values_insert, if_neg hn.requestID.symm, Header.values_empty]

theorem ascii (hn : Relayed name) (hk : canonicalHeaderKey key = name) : Utf8.Ascii key :=
  ascii_of_canonicalHeaderKey (hk ▸ hn.valid)

-- `ForwardRaw` stores what the upstream has sent.
theorem stores_materialise (hn : Relayed name) (hm : materialise up = some stored) :
    Stores stored name value ↔ Answers up name value := by
  simp only [materialise] at hm
  split at hm <;> try contradiction
  cases hm
  have hl (key) (hk : canonicalHeaderKey key = name) (v : Option (List ByteString)) :=
    AList.lookup_foldl_insert (b := v) Proxy.endToEnd some up.header.nodup_fields
      (endToEnd_eq_iff hn.endToEnd hk) ∅
  rw [stores_iff rfl, Answers]
  constructor
  case mp =>
    intro ⟨key, vs, hv, hk, hm⟩
    have ⟨a, ha, hf⟩ := (hl key hk _).mp hv |>.resolve_right (by simp)
    cases hf
    exact ⟨key, hk, by rwa [Header.values_of_lookup (Header.mem_fields.mp ha)]⟩
  case mpr =>
    intro ⟨key, hk, hm⟩
    have ⟨vs, ha⟩ := Option.isSome_iff_exists.mp <| AList.lookup_isSome.mpr <| Header.mem_of_values hm
    rw [Header.values_of_lookup ha] at hm
    exact ⟨key, vs, (hl key hk _).mpr (.inl ⟨vs, Header.mem_fields.mpr ha, rfl⟩), hk, hm⟩

-- Storing a response and reading it again at most changes bytes that are not part of a character.
theorem stores_reread (hn : Relayed name) :
    Stores stored.reread name value ↔ ∃ v, Stores stored name v ∧ Utf8.toValid v = value := by
  cases hh : stored.header
  case none => simp [Stores, storedFields, UpstreamResponse.reread, hh]
  case some m =>
    rw [stores_iff (m := Json.reread (Option.map <| List.map Utf8.toValid) m)
      (by simp [UpstreamResponse.reread, hh])]
    simp only [stores_iff hh]
    constructor
    case mp =>
      rintro ⟨key, vs, hl, hk, hm⟩
      obtain ⟨a, ha, hv⟩ := (Json.lookup_reread (hn.ascii hk)).mp hl
      obtain ⟨vs', rfl, rfl⟩ := Option.map_eq_some_iff.mp hv
      obtain ⟨v, hv, he⟩ := List.mem_map.mp hm
      exact ⟨v, ⟨key, vs', ha, hk, hv⟩, he⟩
    case mpr =>
      rintro ⟨v, ⟨key, vs, hl, hk, hm⟩, he⟩
      exact ⟨key, vs.map Utf8.toValid, (Json.lookup_reread (hn.ascii hk)).mpr ⟨some vs, hl, rfl⟩, hk,
        List.mem_map.mpr ⟨v, hm, he⟩⟩

-- A replay has the values that are stored.
theorem mem_values_replay (hn : Relayed name) (hw : w.values name = [])
    (hr : replay w stored reqID = some resp) :
    value ∈ resp.header.values name ↔ Stores stored name value := by
  simp only [replay] at hr
  split at hr <;> try contradiction
  cases hr
  simp only [Stores, Header.del, Header.values_erase, if_neg hn.asyncStatus.symm,
    setRequestID_values hn.requestID, Header.values_copy, hw, List.nil_append,
    endToEnd_map_eq_iff hn.endToEnd, List.mem_flatMap, List.mem_ite_nil_right]

end Relayed
end Handlers.Proxy
