import VpnTunnel.Asyncjob.Theorems.Record

namespace Asyncjob

-- Maps have no order: they are the same if they have the same entries.
structure UpstreamResponse.Same (u u' : UpstreamResponse) : Prop where
  statusCode : u.statusCode = u'.statusCode
  header     : Option.Rel (fun m m' => ∀ k, m.lookup k = m'.lookup k) u.header u'.header
  body       : u.body = u'.body

structure Record.Same (r r' : Record) : Prop where
  tag              : r.tag = r'.tag
  status           : r.status = r'.status
  createdAt        : r.createdAt = r'.createdAt
  updatedAt        : r.updatedAt = r'.updatedAt
  evictedAt        : r.evictedAt = r'.evictedAt
  upstreamResponse : Option.Rel UpstreamResponse.Same r.upstreamResponse r'.upstreamResponse

-- The record with its timestamps cut off to whole seconds.
def Record.truncated (r : Record) : Record :=
  { r with
    createdAt := .ofUnix r.createdAt.unix
    updatedAt := .ofUnix r.updatedAt.unix
    evictedAt := .ofUnix r.evictedAt.unix }

-- The names and the values of all headers are well-formed.
structure UpstreamResponse.Textual (u : UpstreamResponse) : Prop where
  names  : ∀ m ∈ u.header, ∀ k ∈ m, Utf8.valid k
  values : ∀ m ∈ u.header, ∀ k vs, m.lookup k = some (some vs) → ∀ v ∈ vs, Utf8.valid v

structure Record.Textual (r : Record) : Prop where
  tag              : Utf8.valid r.tag
  upstreamResponse : ∀ u ∈ r.upstreamResponse, u.Textual

theorem map_toValid_eq_self_iff {vs : List ByteString} :
    vs.map Utf8.toValid = vs ↔ ∀ v ∈ vs, Utf8.valid v := by
  induction vs
  case nil => simp
  case cons v vs hi => simp [hi, Utf8.toValid_eq_self_iff]

-- A map of headers survives just in case all that is in it does.
theorem lookup_reread_eq_iff {m : AList fun _ : ByteString => Option (List ByteString)} :
    (∀ k, (Json.reread (Option.map <| List.map Utf8.toValid) m).lookup k = m.lookup k) ↔
      (∀ k ∈ m, Utf8.valid k) ∧
      ∀ k vs, m.lookup k = some (some vs) → ∀ v ∈ vs, Utf8.valid v := by
  constructor
  · intro h
    have hk (k) (hk : k ∈ m) : Utf8.valid k := by
      rw [← AList.lookup_isSome, ← h k, AList.lookup_isSome] at hk
      exact Json.valid_of_mem_reread hk
    refine ⟨hk, fun k vs hv => ?_⟩
    have hr := h k
    rw [Json.lookup_reread_of_valid hk, hv] at hr
    exact map_toValid_eq_self_iff.mp (by simpa using hr)
  · intro ⟨hk, hv⟩ k
    rw [Json.lookup_reread_of_valid hk]
    match hm : m.lookup k with
    | none           => rfl
    | some none      => rfl
    | some (some vs) => simp [map_toValid_eq_self_iff.mpr (hv k vs hm)]

theorem UpstreamResponse.reread_same_iff {u : UpstreamResponse} : u.reread.Same u ↔ u.Textual := by
  constructor
  · rintro ⟨_, hh, _⟩
    cases hu : u.header <;> simp only [reread, hu] at hh
    case none => exact ⟨by simp [hu], by simp [hu]⟩
    case some m =>
      cases hh
      case some hh =>
        obtain ⟨hk, hv⟩ := lookup_reread_eq_iff.mp hh
        exact ⟨by simpa [hu] using hk, by simpa [hu] using hv⟩
  · rintro ⟨hk, hv⟩
    refine ⟨rfl, ?_, rfl⟩
    cases hu : u.header <;> simp only [reread, hu, Option.map]
    case none => exact .none
    case some m => exact .some <| lookup_reread_eq_iff.mpr ⟨hk m hu, hv m hu⟩

namespace Record

theorem reread_same_iff {r : Record} : r.reread.Same r.truncated ↔ r.Textual := by
  constructor
  · intro h
    refine ⟨Utf8.toValid_eq_self_iff.mp h.tag, fun u hu => ?_⟩
    have hs := h.upstreamResponse
    simp only [reread, truncated, Option.mem_def.mp hu] at hs
    cases hs
    case some hs => exact UpstreamResponse.reread_same_iff.mp hs
  · rintro ⟨ht, hu⟩
    refine ⟨Utf8.toValid_eq_self_iff.mpr ht, rfl, rfl, rfl, reread_evictedAt, ?_⟩
    cases hr : r.upstreamResponse <;> simp only [reread, truncated, hr, Option.map]
    case none => exact .none
    case some u => exact .some <| UpstreamResponse.reread_same_iff.mpr (hu u hr)

-- What is read is what was written, up to the fractions of seconds, just in case it was text.
theorem roundTrip_iff {k : Status.Known} (r : Record) (h : r.status = .known k) :
    ∃ v r', r.marshal = .ok v ∧ unmarshal v = .ok r' ∧ (r'.Same r.truncated ↔ r.Textual) := by
  have ⟨v, hv⟩ := marshal_isOk h
  exact ⟨v, r.reread, hv, unmarshal_marshal hv, reread_same_iff⟩

-- A response that names a file, and a second and a half after the epoch.
def attachment (name : ByteString) : Record where
  tag              := .ofString "tag"
  status           := .completed
  createdAt        := 1500000000
  updatedAt        := 1500000000
  evictedAt        := .zero
  upstreamResponse := some {
    statusCode := 200
    header     := some <| AList.singleton (.ofString "Content-Disposition") (some [name])
    body       := some [] }

theorem textual_attachment {name : ByteString} : (attachment name).Textual ↔ Utf8.valid name := by
  constructor
  · intro h
    exact (h.upstreamResponse _ rfl).values _ rfl (.ofString "Content-Disposition") _ rfl name (by simp)
  · intro h
    refine ⟨show Utf8.valid (.ofString "tag") from by decide, fun u hu => ?_⟩
    cases hu
    constructor
    case names =>
      intro m hm k hk
      cases hm
      have hk : k = .ofString "Content-Disposition" := by simpa [AList.mem_keys] using hk
      exact hk ▸ by decide
    case values =>
      intro m hm k vs hv
      cases hm
      have hv := AList.mem_lookup_iff.mp hv
      simp only [AList.singleton_entries, List.mem_singleton] at hv
      cases hv
      simpa using h

-- "café" in UTF-8.
theorem roundTrip_attachment_utf8 :
    ∃ v r', (attachment [0x63, 0x61, 0x66, 0xC3, 0xA9]).marshal = .ok v ∧ unmarshal v = .ok r' ∧
      r'.Same (attachment [0x63, 0x61, 0x66, 0xC3, 0xA9]).truncated := by
  have ⟨v, r', hv, hr, h⟩ := roundTrip_iff (attachment [0x63, 0x61, 0x66, 0xC3, 0xA9]) rfl
  exact ⟨v, r', hv, hr, h.mpr <| textual_attachment.mpr (by decide)⟩

-- "café" in Latin-1.
theorem not_same_attachment_latin1 :
    ∃ v r', (attachment [0x63, 0x61, 0x66, 0xE9]).marshal = .ok v ∧ unmarshal v = .ok r' ∧
      ¬r'.Same (attachment [0x63, 0x61, 0x66, 0xE9]).truncated := by
  have ⟨v, hv⟩ := marshal_isOk (r := attachment [0x63, 0x61, 0x66, 0xE9]) rfl
  refine ⟨v, _, hv, unmarshal_marshal hv, fun h => ?_⟩
  have hn := textual_attachment.mp (reread_same_iff.mp h)
  exact absurd hn (by decide)

end Record
end Asyncjob
