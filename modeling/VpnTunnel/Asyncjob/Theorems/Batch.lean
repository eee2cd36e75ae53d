import VpnTunnel.Asyncjob.Theorems.Store

namespace Asyncjob.Store

open Record (unmarshal)

variable {s s' : Store} {t k : Tag} {r : Record} {v : Json} {filter : Record → Bool}
  {mutate : Record → Record} {n : Nat} {ks : List Tag}

-- How many records match.
def count (s : Store) (filter : Record → Bool) : Nat :=
  s.keys.countP fun t => (s.record t).any filter

theorem mem_of_any_record (h : (s.record t).any filter) : t ∈ s := by
  cases hv : s.lookup t
  case none   => simp [record, hv] at h
  case some v => exact AList.lookup_isSome.mp (by simp [hv])

theorem count_eq_length (hn : ks.Nodup) (hk : ∀ t, t ∈ ks ↔ (s.record t).any filter) :
    ks.length = s.count filter := by
  rw [count, List.countP_eq_length_filter]
  refine ((List.perm_ext_iff_of_nodup hn (s.keys_nodup.filter _)).mpr fun t => ?_).length_eq
  rw [hk, List.mem_filter]
  exact ⟨fun h => ⟨AList.mem_keys.mpr (mem_of_any_record h), h⟩, And.right⟩

-- A batch in one pass: what is to become of a value.
def treat (filter : Record → Bool) (f : Record → Except Error (Option Json)) (v : Json) :
    Except Error (Option Json) := do
  let r ← unmarshal v
  if filter r then f r else return some v

-- The bucket only has keys that can be written to it.
def LegalKeys (s : Store) : Prop :=
  ∀ t ∈ s, t ≠ [] ∧ t.length ≤ maxKeySize

-- A batch does what the pass does at each key, or it does nothing if the pass fails at some key.
structure Refines (s : Store) (filter : Record → Bool) (f : Record → Except Error (Option Json))
    (b : Batched) : Prop where
  count  : b.err = none → b.count = s.count filter
  absent : b.err = none → ∀ t, s.lookup t = none → b.store.lookup t = none
  value  : b.err = none → ∀ t v, s.lookup t = some v → treat filter f v = .ok (b.store.lookup t)
  error  : (∃ t v e, s.lookup t = some v ∧ treat filter f v = .error e) → b.err ≠ none
  failed : b.err ≠ none → b.count = 0 ∧ b.store = s
  total  : s.LegalKeys → (∀ t v, s.lookup t = some v → ∃ o, treat filter f v = .ok o) → b.err = none

namespace Refines

variable {f : Record → Except Error (Option Json)} {e : Error}

theorem of_ok (hc : n = s.count filter) (ha : ∀ t, s.lookup t = none → s'.lookup t = none)
    (hv : ∀ t v, s.lookup t = some v → treat filter f v = .ok (s'.lookup t)) :
    Refines s filter f ⟨n, none, s'⟩ where
  count _   := hc
  absent _  := ha
  value _   := hv
  error h   := by
    have ⟨t, v, e, hl, he⟩ := h
    simp [hv t v hl] at he
  failed h  := absurd rfl h
  total _ _ := rfl

theorem of_error (h : s.LegalKeys → ¬∀ t v, s.lookup t = some v → ∃ o, treat filter f v = .ok o) :
    Refines s filter f ⟨0, some e, s⟩ where
  count h'  := by contradiction
  absent h' := by contradiction
  value h'  := by contradiction
  error _   := by simp
  failed _  := ⟨rfl, rfl⟩
  total hl hv := absurd hv (h hl)

end Refines

theorem treat_of_unmarshal {f : Record → Except Error (Option Json)} (hr : unmarshal v = .ok r) :
    treat filter f v = if filter r then f r else .ok (some v) := by
  rw [treat, hr]
  rfl

theorem unmarshal_of_treat {f : Record → Except Error (Option Json)} {x : Option Json}
    (h : treat filter f v = .ok x) : ∃ r, unmarshal v = .ok r := by
  have ⟨r, hr, _⟩ := Except.bind_eq_ok.mp h
  exact ⟨r, hr⟩

-- The first pass fails just in case there is a value that cannot be read.
theorem scan_eq_ok_iff (filter : Record → Bool) :
    (∃ ks, s.scan filter = .ok ks) ↔ ∀ t v, s.lookup t = some v → ∃ r, unmarshal v = .ok r := by
  constructor
  · intro ⟨ks, h⟩ t v hv
    exact (collect_ok h).left ⟨t, v⟩ (AList.mem_lookup_iff.mp hv)
  · intro h
    have hd : ∀ e ∈ s.entries, ∃ r, unmarshal e.2 = .ok r :=
      fun e he => h e.1 e.2 (AList.mem_lookup_iff.mpr he)
    unfold scan
    generalize s.entries = es at hd
    generalize [] = acc
    induction es generalizing acc
    case nil => exact ⟨acc, rfl⟩
    case cons e es hi =>
      have ⟨⟨r, hr⟩, hd⟩ := List.forall_mem_cons.mp hd
      have ⟨ks, hk⟩ := hi hd (if filter r then acc ++ [e.1] else acc)
      exact ⟨ks, by simpa [collect, hr, Except.mapError, bind, Except.bind, pure, Except.pure] using hk⟩

theorem transition_ok {acc acc' : Nat × Store} (h : transition mutate acc k = .ok acc')
    (hv : acc.2.lookup k = some v) :
    ∃ r v', unmarshal v = .ok r ∧ (mutate r).marshal = .ok v' ∧ acc' = (acc.1 + 1, acc.2.insert k v') := by
  simp only [transition, hv, Except.bind_eq_ok, Except.mapError_eq_ok, Except.pure_eq_ok] at h
  obtain ⟨r, hr, v', hm, s', hw, he⟩ := h
  exact ⟨r, v', hr, hm, by rw [← he, write_ok hw]⟩

theorem transition_frame (acc : Nat × Store) (k : Tag) (acc' : Nat × Store)
    (h : transition mutate acc k = .ok acc') : ∀ t ≠ k, acc'.2.lookup t = acc.2.lookup t := by
  intro t ht
  cases hv : acc.2.lookup k
  case none =>
    simp only [transition, hv, Except.ok.injEq] at h
    rw [h]
  case some v =>
    obtain ⟨_, v', _, _, he⟩ := transition_ok h hv
    rw [he]
    exact AList.lookup_insert_ne ht

-- Each key that has been collected is counted.
theorem transitions_count {acc acc' : Nat × Store} (hk : ∀ k ∈ ks, k ∈ acc.2)
    (h : ks.foldlM (transition mutate) acc = .ok acc') : acc'.1 = acc.1 + ks.length := by
  induction ks generalizing acc
  case nil =>
    rw [List.foldlM_nil, Except.pure_eq_ok] at h
    simp [h]
  case cons k ks hi =>
    rw [List.foldlM_cons, Except.bind_eq_ok] at h
    have ⟨acc₁, h₁, h⟩ := h
    have ⟨hk, hks⟩ := List.forall_mem_cons.mp hk
    have ⟨v, hv⟩ := Option.isSome_iff_exists.mp (AList.lookup_isSome.mpr hk)
    have ⟨_, v', _, _, he⟩ := transition_ok h₁ hv
    have hm (k') (hk' : k' ∈ ks) : k' ∈ acc₁.2 := he ▸ (AList.mem_insert _).mpr (.inr (hks k' hk'))
    rw [hi hm h, he, List.length_cons]
    omega

-- What the second pass of a transition does to a record that was collected.
theorem transition_eq_ok {acc : Nat × Store} {v' : Json} (hv : acc.2.lookup k = some v)
    (hr : unmarshal v = .ok r) (hm : (mutate r).marshal = .ok v') (hk : k ≠ [] ∧ k.length ≤ maxKeySize) :
    transition mutate acc k = .ok (acc.1 + 1, acc.2.insert k v') := by
  have hw : acc.2.write k v' = .ok (acc.2.insert k v') := by
    rw [write, if_neg hk.left, if_neg (Nat.not_lt.mpr hk.right)]
  simp [transition, hv, hr, hm, hw, Except.mapError, bind, Except.bind, pure, Except.pure]

theorem batchTransition_refines (s : Store) (filter : Record → Bool) (mutate : Record → Record) :
    Refines s filter (fun r => some <$> (mutate r).marshal)
      (s.update (s.batchTransition filter mutate)) := by
  cases h : s.batchTransition filter mutate
  case ok x =>
    simp only [batchTransition, Except.bind_eq_ok] at h
    obtain ⟨ks, hs, h⟩ := h
    obtain ⟨hn, hk⟩ := scan_ok hs
    have hd := (scan_eq_ok_iff filter).mp ⟨ks, hs⟩
    have hf (t) (ht : t ∉ ks) : x.2.lookup t = s.lookup t :=
      List.foldlM_of_not_mem (fun acc t => acc.2.lookup t) transition_frame h ht
    apply Refines.of_ok
    case hc =>
      rw [transitions_count (fun k hk' => mem_of_any_record ((hk k).mp hk')) h, Nat.zero_add]
      exact count_eq_length hn hk
    case ha =>
      intro t ht
      rw [hf t (by simp [hk, record, ht]), ht]
    case hv =>
      intro t v hv
      obtain ⟨r, hr⟩ := hd t v hv
      have hm : t ∈ ks ↔ filter r := by simp [hk, record, hv, hr, Except.toOption]
      rw [treat_of_unmarshal hr]
      split
      case isTrue hfr =>
        obtain ⟨a₁, a₂, h₁, hv₁, hv₂⟩ := List.foldlM_visit (fun acc t => acc.2.lookup t)
          transition_frame hn h (hm.mpr hfr)
        obtain ⟨r', v', hr', hm', ha⟩ := transition_ok h₁ (hv₁.trans hv)
        cases hr.symm.trans hr'
        rw [hv₂, ha, hm']
        simp [Functor.map, Except.map]
      case isFalse hfr => rw [hf t (mt hm.mp hfr), hv]
  case error e =>
    refine .of_error fun hl hv => ?_
    obtain ⟨ks, hs⟩ := (scan_eq_ok_iff filter).mpr fun t v h => by
      obtain ⟨_, h⟩ := hv t v h
      exact unmarshal_of_treat h
    obtain ⟨hn, hk⟩ := scan_ok hs
    obtain ⟨x, hx⟩ := List.foldlM_eq_ok (f := transition mutate) (s := (0, s))
      (fun acc t => acc.2.lookup t) transition_frame
      (P := fun k o => ∃ v r v', o = some v ∧ unmarshal v = .ok r ∧ (mutate r).marshal = .ok v' ∧
        k ≠ [] ∧ k.length ≤ maxKeySize)
      (by
        rintro acc k ⟨v, r, v', hv, hr, hm, hk⟩
        exact ⟨_, transition_eq_ok hv hr hm hk⟩) hn fun k hk' => by
        have hm := mem_of_any_record ((hk k).mp hk')
        obtain ⟨v, hkv⟩ := Option.isSome_iff_exists.mp (AList.lookup_isSome.mpr hm)
        obtain ⟨o, ho⟩ := hv k v hkv
        obtain ⟨r, hr⟩ := unmarshal_of_treat ho
        have hfr : filter r := by simpa [hk, record, hkv, hr, Except.toOption] using hk'
        rw [treat_of_unmarshal hr, if_pos hfr, Except.map_eq_ok] at ho
        obtain ⟨v', hm', _⟩ := ho
        exact ⟨v, r, v', hkv, hr, hm', hl k hm⟩
    simp [batchTransition, hs, hx, bind, Except.bind] at h

theorem deletes_eq (ks : List Tag) (n : Nat) (s : Store) :
    (ks.foldl delete (n, s)).1 = n + ks.length ∧
      ∀ t, (ks.foldl delete (n, s)).2.lookup t = if t ∈ ks then none else s.lookup t := by
  induction ks generalizing n s
  case nil => simp
  case cons k ks hi =>
    have ⟨hc, hl⟩ := hi (n + 1) (s.erase k)
    refine ⟨hc.trans (by rw [List.length_cons]; omega), fun t => (hl t).trans ?_⟩
    by_cases ht : t = k
    case pos =>
      subst ht
      simp
    case neg => simp [ht, AList.lookup_erase_ne ht]

theorem batchDelete_refines (s : Store) (filter : Record → Bool) :
    Refines s filter (fun _ => .ok none) (s.update (s.batchDelete filter)) := by
  cases h : s.batchDelete filter
  case ok x =>
    simp only [batchDelete, Except.bind_eq_ok, Except.pure_eq_ok] at h
    obtain ⟨ks, hs, hx⟩ := h
    obtain ⟨hn, hk⟩ := scan_ok hs
    obtain ⟨hc, hl⟩ := deletes_eq ks 0 s
    rw [hx] at hc hl
    apply Refines.of_ok
    case hc => rw [hc, Nat.zero_add, count_eq_length hn hk]
    case ha =>
      intro t ht
      rw [hl, ht, ite_self]
    case hv =>
      intro t v hv
      obtain ⟨r, hr⟩ := (scan_eq_ok_iff filter).mp ⟨ks, hs⟩ t v hv
      have hm : t ∈ ks ↔ filter r := by simp [hk, record, hv, hr, Except.toOption]
      rw [treat_of_unmarshal hr, hl]
      simp only [hm, hv]
      split <;> rfl
  case error e =>
    refine .of_error fun _ hv => ?_
    obtain ⟨ks, hs⟩ := (scan_eq_ok_iff filter).mpr fun t v h => by
      obtain ⟨_, h⟩ := hv t v h
      exact unmarshal_of_treat h
    simp [batchDelete, hs, bind, Except.bind, pure, Except.pure] at h

theorem batches_refine (s : Store) (filter : Record → Bool) (mutate : Record → Record) :
    Refines s filter (fun r => some <$> (mutate r).marshal)
      (s.update (s.batchTransition filter mutate)) ∧
    Refines s filter (fun _ => .ok none) (s.update (s.batchDelete filter)) :=
  ⟨batchTransition_refines s filter mutate, batchDelete_refines s filter⟩

end Asyncjob.Store
