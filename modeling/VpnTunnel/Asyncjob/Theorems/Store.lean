import VpnTunnel.Asyncjob.Store
import VpnTunnel.Asyncjob.Theorems.Record
import VpnTunnel.Lib.Batch

namespace Asyncjob.Store

open Record (unmarshal)

variable {s s' : Store} {tag t : Tag} {r : Record} {v : Json}

theorem record_insert : record (s.insert tag v) t =
    if t = tag then (unmarshal v).toOption else s.record t := by
  by_cases h : t = tag
  case pos =>
    subst h
    simp [record]
  case neg => simp [record, h, AList.lookup_insert_ne h]

theorem record_erase : record (s.erase tag) t = if t = tag then none else s.record t := by
  by_cases h : t = tag
  case pos =>
    subst h
    simp [record]
  case neg => simp [record, h, AList.lookup_erase_ne h]

theorem get_record (h : s.get tag = .ok (some r)) : s.record tag = some r := by
  simp only [get] at h
  split at h
  case h_1 => simp at h
  case h_2 hv =>
    simp only [Except.map_eq_ok, Except.mapError_eq_ok, Option.some.injEq] at h
    have ⟨_, hu, hr⟩ := h
    simp [record, hv, Except.toOption_eq_some, hu, hr]

theorem get_none (h : s.get tag = .ok none) : s.record tag = none := by
  simp only [get] at h
  split at h
  case h_1 hv => simp [record, hv]
  case h_2 => simp [Except.map_eq_ok] at h

theorem write_ok (h : s.write tag v = .ok s') : s' = s.insert tag v := by
  simp only [write] at h
  split at h
  case isTrue => simp at h
  split at h
  case isTrue => simp at h
  exact (Except.ok.inj h).symm

-- Each operation in terms of the records that can be read before and after it.
theorem put_record (h : s.put tag r = .ok s') :
    s'.record t = if t = tag then some r.reread else s.record t := by
  simp only [put, Except.bind_eq_ok, Except.mapError_eq_ok] at h
  have ⟨v, hm, hw⟩ := h
  rw [write_ok hw, record_insert, Record.unmarshal_marshal hm]
  rfl

theorem compareAndSwapStatus_record {u : Record}
    (h : s.compareAndSwapStatus tag expected mutate = .ok (u, s')) :
    ∃ r, s.record tag = some r ∧ r.status = expected ∧
      ∀ t, s'.record t = if t = tag then some (mutate r).reread else s.record t := by
  simp only [compareAndSwapStatus] at h
  split at h
  case h_1 => simp at h
  case h_2 v hv =>
    simp only [Except.bind_eq_ok, Except.mapError_eq_ok] at h
    have ⟨r, hr, h⟩ := h
    split at h
    case isTrue => simp at h
    case isFalse he =>
      simp only [Except.bind_eq_ok, Except.mapError_eq_ok, Except.pure_eq_ok, Prod.mk.injEq] at h
      have ⟨v', hm, s'', hw, _, hs⟩ := h
      subst hs
      refine ⟨r, by simp [record, hv, hr, Except.toOption_eq_some], by simpa using he, ?_⟩
      intro t
      rw [write_ok hw, record_insert, Record.unmarshal_marshal hm]
      rfl

theorem transition_record {acc acc' : Nat × Store} (h : transition mutate acc k = .ok acc') :
    acc'.2.record k = (acc.2.record k).map (fun r => (mutate r).reread) ∧
      ∀ t ≠ k, acc'.2.record t = acc.2.record t := by
  simp only [transition] at h
  split at h
  case h_1 hn =>
    cases h
    simp [record, hn]
  case h_2 v hv =>
    simp only [Except.bind_eq_ok, Except.mapError_eq_ok, Except.pure_eq_ok] at h
    have ⟨r, hr, v', hm, s', hw, he⟩ := h
    subst he
    simp only [write_ok hw, record_insert, Record.unmarshal_marshal hm]
    constructor
    · simp [record, hv, hr, Except.toOption]
    · intro t ht
      simp [ht]

theorem collect_ok {es : List ((_ : Tag) × Json)} (h : es.foldlM (collect filter) acc = .ok ks) :
    (∀ e ∈ es, ∃ r, unmarshal e.2 = .ok r) ∧
      ks = acc ++ (es.filter fun e => (unmarshal e.2).toOption.any filter).map (·.1) := by
  induction es generalizing acc
  case nil =>
    rw [List.foldlM_nil, Except.pure_eq_ok] at h
    simp [h]
  case cons e es hi =>
    simp only [List.foldlM_cons, collect, Except.bind_eq_ok, Except.mapError_eq_ok,
      Except.pure_eq_ok] at h
    have ⟨acc', ⟨r, hr, ha⟩, h⟩ := h
    have ⟨hd, hk⟩ := hi h
    refine ⟨by simpa [hr] using hd, ?_⟩
    rw [hk, ← ha]
    cases hf : filter r <;> simp [hr, hf, Except.toOption]

theorem scan_ok (h : s.scan filter = .ok ks) :
    ks.Nodup ∧ ∀ t, t ∈ ks ↔ (s.record t).any filter = true := by
  have ⟨_, hk⟩ := collect_ok h
  rw [List.nil_append] at hk
  subst hk
  constructor
  · exact List.NodupKeys.sublist List.filter_sublist s.nodupKeys
  · intro t
    simp only [List.mem_map, List.mem_filter, record]
    constructor
    · intro ⟨e, ⟨he, hf⟩, ht⟩
      subst ht
      rw [AList.mem_lookup_iff.mpr he]
      exact hf
    · intro hf
      cases hv : s.lookup t
      case none => simp [hv] at hf
      case some v => exact ⟨⟨t, v⟩, ⟨AList.mem_lookup_iff.mp hv, by simpa [hv] using hf⟩, rfl⟩

theorem batchTransition_record (h : s.batchTransition filter mutate = .ok (n, s')) :
    s'.record t = (s.record t).map fun r => if filter r then (mutate r).reread else r := by
  simp only [batchTransition, Except.bind_eq_ok] at h
  have ⟨ks, hk, h⟩ := h
  have ⟨hn, hm⟩ := scan_ok hk
  rw [List.foldlM_pointwise (fun acc t => acc.2.record t) _ (fun _ _ _ => transition_record) hn h t]
  cases hr : s.record t
  case none => simp
  case some r => cases hf : filter r <;> simp [hm, hr, hf]

theorem batchDelete_record (h : s.batchDelete filter = .ok (n, s')) :
    s'.record t = (s.record t).filter (fun r => !filter r) := by
  simp only [batchDelete, Except.bind_eq_ok, Except.pure_eq_ok] at h
  have ⟨ks, hk, h⟩ := h
  have ⟨hn, hm⟩ := scan_ok hk
  have hd : ks.foldlM (fun acc k => .ok (delete acc k)) (0, s) = (.ok (n, s') : Except Error _) :=
    h ▸ List.foldlM_pure
  have hs (acc k acc') (h : (.ok (delete acc k) : Except Error _) = .ok acc') :
      acc'.2.record k = none ∧ ∀ t ≠ k, acc'.2.record t = acc.2.record t := by
    cases h
    simp +contextual [delete, record_erase]
  rw [List.foldlM_pointwise (fun acc t => acc.2.record t) (fun _ => none) hs hn hd t]
  cases hr : s.record t
  case none => simp
  case some r => cases hf : filter r <;> simp [hm, hr, hf, Option.filter]

end Asyncjob.Store
