import VpnTunnel.Application.Proxy.AccessLog

namespace Application.Proxy.AccessLog

open ByteString Http

-- A header is passed by reference.
abbrev Ref :=
  Nat

abbrev Maps :=
  Ref → Header

def Maps.del (m : Maps) (h : Ref) (name : ByteString) : Maps :=
  Function.update m h ((m h).del name)

-- The names that the `Connection` header lists.
def connFields (incoming : Header) : List ByteString :=
  (incoming.values (ofString "Connection")).flatMap fun v =>
    ((v.splitOn 0x2C).map trimSpace).filter (· ≠ [])

-- `stripHopByHop` on the maps themselves, which may be the same one.
def Maps.stripHopByHop (m : Maps) (h incoming : Ref) : Maps :=
  let fields := connFields (m incoming)
  let m := hopByHopHeaders.foldl (·.del h ·) m
  fields.foldl (·.del h ·) m

-- The headers that RFC 7230 defines as hop-by-hop in section 6.1.
def rfc7230 : List ByteString :=
  ["Connection", "Keep-Alive", "Proxy-Authenticate", "Proxy-Authorization", "TE", "Trailer",
   "Transfer-Encoding", "Upgrade"].map ofString

-- The name stands for the key, in any casing.
def Names (key name : ByteString) : Prop :=
  name.map lowerByte = key.map lowerByte

instance (key name : ByteString) : Decidable (Names key name) :=
  inferInstanceAs (Decidable (_ = _))

def HopByHop (incoming : Header) (key : ByteString) : Prop :=
  ∃ name ∈ rfc7230 ++ connFields incoming, Names key name

-- What is to become of the map at `h`.
structure Stripped (m : Maps) (h incoming : Ref) : Prop where
  removed : ∀ key ∈ m.stripHopByHop h incoming h, ¬HopByHop (m incoming) key
  kept    : ∀ key, ¬HopByHop (m incoming) key →
    (m.stripHopByHop h incoming h).lookup key = (m h).lookup key
  twice   : (m.stripHopByHop h incoming).stripHopByHop h incoming = m.stripHopByHop h incoming

-- Where the list of the program and the one of the RFC come to the same. A key that is not the name of a
-- header has no canonical form, so that its casing matters.
structure Agree (h incoming : Header) : Prop where
  trailer  : ofString "Trailer" ∈ h → ∃ name ∈ connFields incoming, Names (ofString "Trailer") name
  trailers : ofString "Trailers" ∈ h → ∃ name ∈ connFields incoming, Names (ofString "Trailers") name
  invalid  : ∀ key ∈ h, ¬key.all validHeaderFieldByte →
    ∀ name ∈ connFields incoming, Names key name → key ∈ connFields incoming

variable {m : Maps} {h incoming : Ref} {key name : ByteString} {src : Header}

section Maps

theorem foldl_del (l : List ByteString) :
    l.foldl (Maps.del · h ·) m = Function.update m h (l.foldl .del (m h)) := by
  induction l generalizing m
  case nil => simp
  case cons name l hi =>
    rw [List.foldl_cons, hi, Maps.del, Function.update_self, Function.update_idem, List.foldl_cons]

-- It does not matter whether the maps are the same.
theorem stripHopByHop_eq :
    m.stripHopByHop h incoming = Function.update m h (stripHopByHop (m h) (m incoming)) := by
  rw [Maps.stripHopByHop, foldl_del, foldl_del, Function.update_self, Function.update_idem,
    ← List.foldl_append]
  rfl

theorem stripHopByHop_self :
    m.stripHopByHop h incoming h = stripHopByHop (m h) (m incoming) := by
  rw [stripHopByHop_eq, Function.update_self]

end Maps

section Names

theorem names_canonicalHeaderKey (h : canonicalHeaderKey name = key) : Names key name := by
  rw [Names, ← h, map_lowerByte_canonicalHeaderKey]

theorem Names.canonicalHeaderKey_eq (hn : Names key name) (hv : key.all validHeaderFieldByte)
    (hk : canonicalHeaderKey key = key) : canonicalHeaderKey name = key :=
  (canonicalHeaderKey_congr hv hn.symm).symm.trans hk

theorem all_valid_of_mem_rfc7230 (h : name ∈ rfc7230) : name.all validHeaderFieldByte := by
  revert name
  decide

theorem all_valid_of_mem_hopByHopHeaders (h : name ∈ hopByHopHeaders) : name.all validHeaderFieldByte := by
  revert name
  decide

theorem canonicalHeaderKey_ne_trailer (h : name ∈ hopByHopHeaders) :
    canonicalHeaderKey name ≠ ofString "Trailer" := by
  revert name
  decide

theorem not_names_trailers (h : name ∈ rfc7230) : ¬Names (ofString "Trailers") name := by
  revert name
  decide

theorem canonical_trailer : canonicalHeaderKey (ofString "Trailer") = ofString "Trailer" := by
  decide

theorem canonical_trailers : canonicalHeaderKey (ofString "Trailers") = ofString "Trailers" := by
  decide

theorem mem_hopByHopHeaders_or (h : name ∈ rfc7230) : name ∈ hopByHopHeaders ∨ name = ofString "Trailer" := by
  revert name
  decide

theorem mem_rfc7230_or (h : name ∈ hopByHopHeaders) : name ∈ rfc7230 ∨ name = ofString "Trailers" := by
  revert name
  decide

end Names

-- The keys that are deleted.
def Deleted (incoming : Header) (key : ByteString) : Prop :=
  ∃ name ∈ hopByHopHeaders ++ connFields incoming, canonicalHeaderKey name = key

instance : Decidable (Deleted src key) :=
  inferInstanceAs (Decidable (∃ _ ∈ _, _))

section Strip

variable {dst : Header}

theorem lookup_stripHopByHop :
    (stripHopByHop dst src).lookup key = if Deleted src key then none else dst.lookup key := by
  have hd : key ∈ (hopByHopHeaders ++ connFields src).map canonicalHeaderKey ↔ Deleted src key := by
    rw [List.mem_map, Deleted]
  rw [stripHopByHop, ← connFields, Header.lookup_foldl_del, if_congr hd rfl rfl]

theorem mem_stripHopByHop : key ∈ stripHopByHop dst src ↔ key ∈ dst ∧ ¬Deleted src key := by
  rw [← AList.lookup_isSome, lookup_stripHopByHop, ← AList.lookup_isSome]
  split <;> simp_all

-- The `Connection` header of the map is deleted as well.
theorem connFields_stripHopByHop : connFields (stripHopByHop dst src) = [] := by
  have hd : Deleted src (ofString "Connection") := ⟨ofString "Connection", by simp [hopByHopHeaders], by decide⟩
  rw [connFields, Header.values, lookup_stripHopByHop, if_pos hd]
  rfl

theorem stripHopByHop_stripHopByHop {src' : Header} (h : ∀ name ∈ connFields src', name ∈ connFields src) :
    stripHopByHop (stripHopByHop dst src) src' = stripHopByHop dst src := by
  rw [stripHopByHop, ← connFields]
  refine Header.foldl_del_of_not_mem fun name hn hm => ?_
  refine (mem_stripHopByHop.mp hm).right ⟨name, ?_, rfl⟩
  rw [List.mem_append] at hn ⊢
  exact hn.imp_right (h name)

theorem twice_stripHopByHop :
    (m.stripHopByHop h incoming).stripHopByHop h incoming = m.stripHopByHop h incoming := by
  have hf (name) (hn : name ∈ connFields (m.stripHopByHop h incoming incoming)) :
      name ∈ connFields (m incoming) := by
    by_cases hi : incoming = h
    case pos =>
      rw [hi, stripHopByHop_self, connFields_stripHopByHop] at hn
      contradiction
    case neg => rwa [stripHopByHop_eq, Function.update_of_ne hi] at hn
  rw [stripHopByHop_eq, stripHopByHop_self, stripHopByHop_stripHopByHop hf, stripHopByHop_eq,
    Function.update_idem]

theorem stripped_iff_forall :
    Stripped m h incoming ↔ ∀ key ∈ m h, (Deleted (m incoming) key ↔ HopByHop (m incoming) key) := by
  constructor
  · intro s key hk
    constructor
    · intro hd
      by_contra hn
      have hl := s.kept key hn
      rw [stripHopByHop_self, lookup_stripHopByHop, if_pos hd] at hl
      exact AList.lookup_eq_none.mp hl.symm hk
    · intro hn
      by_contra hd
      refine s.removed key ?_ hn
      rw [stripHopByHop_self]
      exact mem_stripHopByHop.mpr ⟨hk, hd⟩
  · intro hd
    constructor
    case removed =>
      intro key hk hn
      rw [stripHopByHop_self] at hk
      have ⟨hk, hr⟩ := mem_stripHopByHop.mp hk
      exact hr ((hd key hk).mpr hn)
    case kept =>
      intro key hn
      rw [stripHopByHop_self, lookup_stripHopByHop]
      split
      case isFalse => rfl
      case isTrue hr =>
        have hk : key ∉ m h := fun hk => hn ((hd key hk).mp hr)
        exact (AList.lookup_eq_none.mpr hk).symm
    case twice => exact twice_stripHopByHop

end Strip

namespace Agree

variable {dst : Header}

theorem of_forall (h : ∀ key ∈ dst, (Deleted src key ↔ HopByHop src key)) : Agree dst src := by
  constructor
  case trailer =>
    intro hk
    have ⟨name, hm, hn⟩ := (h _ hk).mpr ⟨ofString "Trailer", by simp [rfc7230], rfl⟩
    rcases List.mem_append.mp hm with hm | hm
    · exact absurd hn (canonicalHeaderKey_ne_trailer hm)
    · exact ⟨name, hm, names_canonicalHeaderKey hn⟩
  case trailers =>
    intro hk
    have ⟨name, hm, hn⟩ := (h _ hk).mp ⟨ofString "Trailers", by simp [hopByHopHeaders], canonical_trailers⟩
    rcases List.mem_append.mp hm with hm | hm
    · exact absurd hn (not_names_trailers hm)
    · exact ⟨name, hm, hn⟩
  case invalid =>
    intro key hk hv name hm hn
    have ⟨name', hm', hn'⟩ := (h _ hk).mpr ⟨name, List.mem_append_right _ hm, hn⟩
    rcases List.mem_append.mp hm' with hm' | hm'
    · have hs := all_validHeaderFieldByte_congr (names_canonicalHeaderKey hn')
      exact absurd (hs ▸ all_valid_of_mem_hopByHopHeaders hm') hv
    · rwa [← hn', canonicalHeaderKey_eq_of_invalid (hn' ▸ hv)]

theorem deleted_iff (a : Agree dst src) (hk : key ∈ dst) (hc : canonicalHeaderKey key = key) :
    Deleted src key ↔ HopByHop src key := by
  constructor
  · rintro ⟨name, hm, hn⟩
    have hs := names_canonicalHeaderKey hn
    rcases List.mem_append.mp hm with hm | hm
    · rcases mem_rfc7230_or hm with hm | rfl
      · exact ⟨name, List.mem_append_left _ hm, hs⟩
      · cases canonical_trailers.symm.trans hn
        have ⟨name, hm, hs⟩ := a.trailers hk
        exact ⟨name, List.mem_append_right _ hm, hs⟩
    · exact ⟨name, List.mem_append_right _ hm, hs⟩
  · rintro ⟨name, hm, hn⟩
    rcases List.mem_append.mp hm with hm | hm
    · have hv : key.all validHeaderFieldByte :=
        all_validHeaderFieldByte_congr hn ▸ all_valid_of_mem_rfc7230 hm
      have hn := hn.canonicalHeaderKey_eq hv hc
      rcases mem_hopByHopHeaders_or hm with hm | rfl
      · exact ⟨name, List.mem_append_left _ hm, hn⟩
      · cases canonical_trailer.symm.trans hn
        have ⟨name, hm, hs⟩ := a.trailer hk
        exact ⟨name, List.mem_append_right _ hm, hs.canonicalHeaderKey_eq hv hc⟩
    · by_cases hv : key.all validHeaderFieldByte
      case pos => exact ⟨name, List.mem_append_right _ hm, hn.canonicalHeaderKey_eq hv hc⟩
      case neg => exact ⟨key, List.mem_append_right _ (a.invalid key hk hv name hm hn), hc⟩

end Agree

theorem stripped_iff (hc : (m h).Canonical) : Stripped m h incoming ↔ Agree (m h) (m incoming) := by
  rw [stripped_iff_forall]
  constructor
  · exact .of_forall
  · exact fun a key hk => a.deleted_iff hk (hc key hk)

-- The request `Connection: close, X-Token`, of which the header is stripped in place.
def closingMap : Header :=
  ((AList.insert (ofString "Connection") [ofString "close, x-TOKEN"] ∅).insert (ofString "X-Token")
    [ofString "1"]).insert (ofString "Accept") [ofString "*/*"]

theorem stripped_closingMap : Stripped (fun _ => closingMap) 0 0 ∧
    (Maps.stripHopByHop (fun _ => closingMap) 0 0 0).keys = [ofString "Accept"] := by
  have hc : closingMap.Canonical := by decide
  have ha : Agree closingMap closingMap := by
    constructor
    case trailer  => decide
    case trailers => decide
    case invalid =>
      intro key hk hv
      refine absurd ?_ hv
      have hv : ∀ key ∈ closingMap.keys, key.all validHeaderFieldByte := by decide
      exact hv key hk
  exact ⟨(stripped_iff (m := fun _ => closingMap) hc).mpr ha, by decide⟩

-- A request that announces trailers.
def trailerMap : Header :=
  AList.insert (ofString "Trailer") [ofString "Expires"] ∅

theorem not_stripped_trailerMap :
    trailerMap.Canonical ∧ ofString "Trailer" ∈ Maps.stripHopByHop (fun _ => trailerMap) 0 0 0 ∧
    ¬Stripped (fun _ => trailerMap) 0 0 := by
  have hm : ofString "Trailer" ∈ Maps.stripHopByHop (fun _ => trailerMap) 0 0 0 := by decide
  refine ⟨by decide, hm, fun s => ?_⟩
  exact s.removed _ hm ⟨ofString "Trailer", by simp [rfc7230], rfl⟩

end Application.Proxy.AccessLog
