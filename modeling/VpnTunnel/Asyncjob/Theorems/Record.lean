import VpnTunnel.Asyncjob.Record

namespace Asyncjob

-- What is left of a value once it was written to the store and read back.
def UpstreamResponse.reread (r : UpstreamResponse) : UpstreamResponse :=
  { r with header := r.header.map <| Json.reread <| Option.map <| List.map Utf8.toValid }

def Record.reread (r : Record) : Record where
  tag              := Utf8.toValid r.tag
  status           := r.status
  createdAt        := .ofUnix r.createdAt.unix
  updatedAt        := .ofUnix r.updatedAt.unix
  evictedAt        := if r.evictedAt = .zero then .zero else .ofUnix r.evictedAt.unix
  upstreamResponse := r.upstreamResponse.map .reread

theorem Status.ofString_toValid_name (k : Status.Known) :
    Status.ofString (Utf8.toValid k.name) = .known k := by
  cases k <;> rfl

theorem UpstreamResponse.decode_encode (r : UpstreamResponse) :
    UpstreamResponse.decode r.encode = some r.reread := by
  have hs (s : ByteString) : (Json.ofString s).toString = some (Utf8.toValid s) := rfl
  have hl := Json.toOption_ofOption (Json.toList_ofList hs) (by simp [Json.ofList])
  have hh := Json.toOption_ofOption (Json.toMap_ofMap hl) (by simp [Json.ofMap]) r.header
  have hb := @Json.toOption_ofOption _ _ Json.bytes Json.toBytes id (fun _ => rfl) (by simp) r.body
  simp +decide [decode, encode, Json.field, Json.toInt, hh, hb, reread]

theorem WireRecord.decode_encode {w : WireRecord} (h : w.status = .known k) :
    WireRecord.decode w.encode = some { w with
      tag              := Utf8.toValid w.tag
      upstreamResponse := w.upstreamResponse.map .reread } := by
  have hu := Json.toOption_ofOption UpstreamResponse.decode_encode
    (by simp [UpstreamResponse.encode]) w.upstreamResponse
  have he := @Json.toOption_ofOption _ _ Json.num Json.toInt id (fun _ => rfl) (by simp) w.evictedAt
  cases w
  case mk tag status createdAt updatedAt evictedAt upstreamResponse =>
    cases evictedAt <;> cases upstreamResponse <;> simp only [Json.ofOption] at hu he <;>
      simp_all +decide [decode, encode, Json.field, Json.toInt, Json.ofString, Json.toString,
        Status.string, Status.ofString_toValid_name, Json.toOption]

namespace Record

variable {r : Record} {v : Json}

theorem unmarshal_marshal (h : r.marshal = .ok v) : unmarshal v = .ok r.reread := by
  cases hs : r.status
  case unknown => simp [marshal, hs, validateStatus, bind, Except.bind] at h
  case known k =>
    simp only [marshal, hs, validateStatus, bind, Except.bind, pure, Except.pure, Except.ok.injEq] at h
    rw [← h, unmarshal, WireRecord.decode_encode (k := k) rfl]
    by_cases he : r.evictedAt = .zero <;>
      simp [validateStatus, bind, Except.bind, pure, Except.pure, reread, he, hs]

theorem marshal_isOk (h : r.status = .known k) : ∃ v, r.marshal = .ok v := by
  simp [marshal, h, validateStatus, bind, Except.bind, pure, Except.pure]

@[simp]
theorem reread_status : r.reread.status = r.status := rfl

-- The zero time is left out when a record is written, and it is a whole number of seconds.
theorem reread_evictedAt : r.reread.evictedAt = .ofUnix r.evictedAt.unix := by
  by_cases hz : r.evictedAt = .zero
  case pos =>
    rw [reread, if_pos hz, hz]
    rfl
  case neg => rw [reread, if_neg hz]

end Record
end Asyncjob
