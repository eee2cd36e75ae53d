import VpnTunnel.Asyncjob.Theorems.Batch
import VpnTunnel.Asyncjob.Theorems.Lifecycle

namespace Asyncjob

open Record (unmarshal)

variable {g : GCConfig} {now : Time} {s s' : Store} {t k : Tag} {r : Record} {v : Json}
  {filter : Record → Bool} {mutate : Record → Record} {n : Nat} {ks : List Tag}

namespace Store

-- What a batch writes back for a value that it has read.
def rewrite (mutate : Record → Record) (v : Json) : Json :=
  match unmarshal v with
  | .error _ => v
  | .ok r    =>
    match (mutate r).marshal with
    | .error _ => v
    | .ok v'   => v'

-- The number of matches depends on the records alone, and not on where they are in the bucket.
theorem count_congr {filter' : Record → Bool}
    (h : ∀ t, (s.record t).any filter = (s'.record t).any filter') :
    s.count filter = s'.count filter' := by
  rw [count, List.countP_eq_length_filter]
  refine count_eq_length (s.keys_nodup.filter _) fun t => ?_
  rw [List.mem_filter, ← h]
  exact ⟨And.right, fun h => ⟨AList.mem_keys.mpr (mem_of_any_record h), h⟩⟩

-- All keys are keys that the database accepts, and all values can be read.
structure Sound (s : Store) : Prop where
  nonempty : ∀ t ∈ s, t ≠ []
  size     : ∀ t ∈ s, t.length ≤ maxKeySize
  values   : ∀ t v, s.lookup t = some v → ∃ r, unmarshal v = .ok r

namespace Sound

theorem empty : Sound ∅ where
  nonempty := by simp
  size     := by simp
  values   := by simp

theorem insert (hs : s.Sound) (ht : t ≠ []) (hl : t.length ≤ maxKeySize) (hv : unmarshal v = .ok r) :
    Sound (s.insert t v) where
  nonempty k hk := by
    cases (AList.mem_insert _).mp hk
    case inl hk => exact hk ▸ ht
    case inr hk => exact hs.nonempty k hk
  size k hk := by
    cases (AList.mem_insert _).mp hk
    case inl hk => exact hk ▸ hl
    case inr hk => exact hs.size k hk
  values k v' hk := by
    by_cases he : k = t
    case pos =>
      subst he
      rw [AList.lookup_insert] at hk
      exact Option.some.inj hk ▸ ⟨r, hv⟩
    case neg => exact hs.values k v' (AList.lookup_insert_ne he ▸ hk)

theorem write (hs : s.Sound) (hw : s.write t v = .ok s') (hv : unmarshal v = .ok r) : s'.Sound := by
  have he := write_ok hw
  simp only [Store.write] at hw
  split at hw
  case isTrue => simp at hw
  case isFalse ht =>
    split at hw
    case isTrue => simp at hw
    case isFalse hl => exact he ▸ hs.insert ht (Nat.le_of_not_lt hl) hv

theorem write_eq (hs : s.Sound) (ht : t ∈ s) : s.write t v = .ok (s.insert t v) := by
  rw [Store.write, if_neg (hs.nonempty t ht), if_neg (Nat.not_lt.mpr (hs.size t ht))]

theorem record_eq (hs : s.Sound) (hv : s.lookup t = some v) :
    ∃ r, unmarshal v = .ok r ∧ s.record t = some r := by
  have ⟨r, hr⟩ := hs.values t v hv
  exact ⟨r, hr, by simp [record, hv, hr, Except.toOption]⟩

end Sound

-- What a batch does that finds nothing that it cannot read: each match is treated once, all other
-- values stay, and the matches are counted.
structure Batch (s : Store) (filter : Record → Bool) (f : Json → Option Json) (x : Nat × Store) :
    Prop where
  sound  : x.2.Sound
  count  : x.1 = s.count filter
  lookup : ∀ t, x.2.lookup t = if (s.record t).any filter then s.lookup t >>= f else s.lookup t

theorem Sound.legalKeys (hs : s.Sound) : s.LegalKeys :=
  fun t ht => ⟨hs.nonempty t ht, hs.size t ht⟩

-- In a sound store, a batch whose writes can be read does not fail.
theorem Refines.batch {f : Record → Except Error (Option Json)} {g : Json → Option Json} {b : Batched}
    (h : Refines s filter f b) (hs : s.Sound) (hg : ∀ v r, unmarshal v = .ok r → f r = .ok (g v))
    (hu : ∀ v r v', unmarshal v = .ok r → g v = some v' → ∃ r', unmarshal v' = .ok r') :
    b.err = none ∧ s.Batch filter g (b.count, b.store) := by
  have ht (v r) (hr : unmarshal v = .ok r) :
      treat filter f v = .ok (if filter r then g v else some v) := by
    rw [treat_of_unmarshal hr]
    split
    case isTrue  => exact hg v r hr
    case isFalse => rfl
  have he := h.total hs.legalKeys fun t v hv =>
    have ⟨r, hr⟩ := hs.values t v hv
    ⟨_, ht v r hr⟩
  have hl (t v r) (hv : s.lookup t = some v) (hr : unmarshal v = .ok r) :
      b.store.lookup t = if filter r then g v else some v :=
    Except.ok.inj <| (h.value he t v hv).symm.trans (ht v r hr)
  have hm (t) (h' : t ∈ b.store) : t ∈ s := by
    rw [← AList.lookup_isSome, Option.isSome_iff_ne_none] at h' ⊢
    exact mt (h.absent he t) h'
  refine ⟨he, ⟨fun t h' => hs.nonempty t (hm t h'), fun t h' => hs.size t (hm t h'), ?_⟩, h.count he, ?_⟩
  · intro t v' hv'
    have ⟨v, hv⟩ := Option.isSome_iff_exists.mp <| AList.lookup_isSome.mpr <| hm t <|
      AList.lookup_isSome.mp (by simp [hv'])
    have ⟨r, hr⟩ := hs.values t v hv
    have hx := (hl t v r hv hr).symm.trans hv'
    split at hx
    case isTrue  => exact hu v r v' hr hx
    case isFalse => exact Option.some.inj hx ▸ ⟨r, hr⟩
  · intro t
    cases hv : s.lookup t
    case none => simpa using h.absent he t hv
    case some v =>
      have ⟨r, hr, hr'⟩ := hs.record_eq hv
      rw [hl t v r hv hr, hr']
      simp

theorem unmarshal_rewrite (mutate : Record → Record) (hv : unmarshal v = .ok r)
    (hm : ∃ x, (mutate r).status = .known x) :
    unmarshal (rewrite mutate v) = .ok (mutate r).reread := by
  have ⟨x, hx⟩ := hm
  have ⟨v', hm⟩ := Record.marshal_isOk hx
  simp only [rewrite, hv, hm]
  exact Record.unmarshal_marshal hm

theorem Sound.batchTransition (hs : s.Sound) (filter : Record → Bool) (mutate : Record → Record)
    (hm : ∀ r, ∃ x, (mutate r).status = .known x) :
    ∃ x, s.batchTransition filter mutate = .ok x ∧ s.Batch filter (some <| rewrite mutate ·) x := by
  have ⟨he, hb⟩ := (batchTransition_refines s filter mutate).batch (g := (some <| rewrite mutate ·)) hs
    (fun v r hr => by
      have ⟨x, hx⟩ := hm r
      have ⟨v', hv'⟩ := Record.marshal_isOk hx
      simp [rewrite, hr, hv', Functor.map, Except.map])
    (fun v r v' hr hv' => Option.some.inj hv' ▸ ⟨_, unmarshal_rewrite mutate hr (hm r)⟩)
  cases h : s.batchTransition filter mutate <;> simp only [h, update] at he hb
  case error e => simp at he
  case ok x => exact ⟨x, rfl, hb⟩

theorem Sound.batchDelete (hs : s.Sound) (filter : Record → Bool) :
    ∃ x, s.batchDelete filter = .ok x ∧ s.Batch filter (fun _ => none) x := by
  have ⟨he, hb⟩ := (batchDelete_refines s filter).batch (g := fun _ => none) hs (by simp) (by simp)
  cases h : s.batchDelete filter <;> simp only [h, update] at he hb
  case error e => simp at he
  case ok x => exact ⟨x, rfl, hb⟩

theorem Batch.lookup_eq {f : Json → Option Json} {x : Nat × Store} (b : s.Batch filter f x)
    (hv : s.lookup t = some v) (hr : unmarshal v = .ok r) :
    x.2.lookup t = if filter r then f v else some v := by
  rw [b.lookup, record, hv]
  simp [hr, Except.toOption]

theorem Batch.lookup_none {f : Json → Option Json} {x : Nat × Store} (b : s.Batch filter f x)
    (hv : s.lookup t = none) : x.2.lookup t = none := by
  rw [b.lookup, hv]
  exact ite_self none

-- A batch does not change how many records match, if neither what it reads nor what it writes matches.
theorem Batch.count_eq {x : Nat × Store} {filter' : Record → Bool}
    (b : s.Batch filter (some <| rewrite mutate ·) x) (hs : s.Sound)
    (hm : ∀ r, ∃ x, (mutate r).status = .known x)
    (h : ∀ r, filter r → filter' r = false ∧ filter' (mutate r).reread = false) :
    x.2.count filter' = s.count filter' := by
  refine count_congr fun t => ?_
  cases hv : s.lookup t
  case none => simp [record, hv, b.lookup_none hv]
  case some v =>
    obtain ⟨r, hr⟩ := hs.values t v hv
    have hx := b.lookup_eq hv hr
    cases hf : filter r <;> simp only [hf] at hx
    case false => simp [record, hv, hx]
    case true =>
      obtain ⟨hr', hw⟩ := h r hf
      simp [record, hx, hv, hr, unmarshal_rewrite mutate hr (hm r), Except.toOption, hr', hw]

-- How many tags have gone from one kind of record to another one.
def moved (s s' : Store) (a b : Option Record → Bool) : Nat :=
  s.keys.countP fun t => a (s.record t) && b (s'.record t)

end Store

namespace Time

theorem sub_ofUnix_lt (now : Time) : now.sub (.ofUnix now.unix) < 10 ^ 9 := by
  have h (a : Int) : max (-2 ^ 63) (min (2 ^ 63 - 1) (a - a / 10 ^ 9 * 10 ^ 9)) < 10 ^ 9 := by omega
  exact h now

-- Cutting an instant off to seconds makes it look older by less than a second.
theorem lt_sub_of_lt_sub_ofUnix {now t₀ : Time} {d : Duration} (hd : 10 ^ 9 ≤ d)
    (h : d < now.sub (.ofUnix t₀.unix)) : d - 10 ^ 9 < now - t₀ := by
  have hi (a b c : Int) (hc : 10 ^ 9 ≤ c)
      (h : c < max (-2 ^ 63) (min (2 ^ 63 - 1) (a - b / 10 ^ 9 * 10 ^ 9))) : c - 10 ^ 9 < a - b := by
    omega
  exact hi now t₀ d hd h

end Time

namespace GC

theorem timeoutBatch_spec (g : GCConfig) (now : Time) (hs : s.Sound) :
    s.Batch (pendingTimeoutFilter g now) (some <| Store.rewrite (pendingTimeoutMutate now) ·)
      (timeoutBatch g now s) := by
  have ⟨x, hx, hb⟩ := hs.batchTransition (pendingTimeoutFilter g now)
    (pendingTimeoutMutate now) fun _ => ⟨_, rfl⟩
  rw [timeoutBatch, hx]
  exact hb

theorem tombstoneBatch_spec (g : GCConfig) (now : Time) (hs : s.Sound) :
    s.Batch (completeTTLFilter g now) (some <| Store.rewrite (completeTTLMutate now) ·)
      (tombstoneBatch g now s) := by
  have ⟨x, hx, hb⟩ := hs.batchTransition (completeTTLFilter g now)
    (completeTTLMutate now) fun _ => ⟨_, rfl⟩
  rw [tombstoneBatch, hx]
  exact hb

theorem deleteBatch_spec (g : GCConfig) (now : Time) (hs : s.Sound) :
    s.Batch (tombstoneTTLFilter g now) (fun _ => none) (deleteBatch g now s) := by
  have ⟨x, hx, hb⟩ := hs.batchDelete (tombstoneTTLFilter g now)
  rw [deleteBatch, hx]
  exact hb

-- What a batch has just written is too young for the batches that come after it.
theorem completeTTLFilter_timedOut (hc : 10 ^ 9 ≤ g.completeTTL) :
    completeTTLFilter g now (pendingTimeoutMutate now r).reread = false := by
  simp only [completeTTLFilter, pendingTimeoutMutate, Record.reread, decide_eq_false_iff_not]
  exact fun h => Int.lt_irrefl _ <| Int.lt_trans h.2 <| Int.lt_of_lt_of_le now.sub_ofUnix_lt hc

theorem tombstoneTTLFilter_timedOut :
    tombstoneTTLFilter g now (pendingTimeoutMutate now r).reread = false := by
  simp [tombstoneTTLFilter, pendingTimeoutMutate]

theorem tombstoneTTLFilter_evicted (ht : 10 ^ 9 ≤ g.tombstoneTTL) :
    tombstoneTTLFilter g now (completeTTLMutate now r).reread = false := by
  simp only [tombstoneTTLFilter, Record.reread_evictedAt, decide_eq_false_iff_not]
  exact fun h => Int.lt_irrefl _ <| Int.lt_trans h.2 <| Int.lt_of_lt_of_le now.sub_ofUnix_lt ht

-- What a pass does to what is stored under a tag.
inductive Passed (g : GCConfig) (now : Time) : Option Json → Option Json → Prop
  | absent : Passed g now none none
  | timedOut {v v' : Json} {r : Record} : (unmarshal v = .ok r) → r.status = .pending →
      now.sub r.updatedAt > g.pendingTimeout →
      (∀ t₀ : Time, r.updatedAt = .ofUnix t₀.unix → now - t₀ > g.pendingTimeout - 10 ^ 9) →
      unmarshal v' = .ok (pendingTimeoutMutate now r).reread → Passed g now (some v) (some v')
  | evicted {v v' : Json} {r : Record} : (unmarshal v = .ok r) → r.Terminal →
      now.sub r.updatedAt > g.completeTTL →
      (∀ t₀ : Time, r.updatedAt = .ofUnix t₀.unix → now - t₀ > g.completeTTL - 10 ^ 9) →
      unmarshal v' = .ok (completeTTLMutate now r).reread → Passed g now (some v) (some v')
  | deleted {v : Json} {r : Record} : (unmarshal v = .ok r) → r.status = .tombstone →
      now.sub r.evictedAt > g.tombstoneTTL →
      (∀ t₀ : Time, r.evictedAt = .ofUnix t₀.unix → now - t₀ > g.tombstoneTTL - 10 ^ 9) →
      Passed g now (some v) none
  | kept {v : Json} {r : Record} : (unmarshal v = .ok r) →
      (r.status = .pending → ¬now.sub r.updatedAt > g.pendingTimeout) →
      (r.Terminal → ¬now.sub r.updatedAt > g.completeTTL) →
      (r.status = .tombstone → ¬now.sub r.evictedAt > g.tombstoneTTL) →
      Passed g now (some v) (some v)

-- The edges that a pass takes, in terms of the records before and after it.
theorem Passed.edges {x y : Option Json} (h : Passed g now x y) {u u' : Option Record}
    (hx : u = x >>= fun v => (unmarshal v).toOption) (hy : u' = y >>= fun v => (unmarshal v).toOption) :
    (u.any (pendingTimeoutFilter g now) ↔
      u.any (·.status = .pending) ∧ u'.any (·.status = .failedTimeout)) ∧
    (u.any (completeTTLFilter g now) ↔ u.any (·.Terminal) ∧ u'.any (·.status = .tombstone)) ∧
    (u.any (tombstoneTTLFilter g now) ↔ u.any (·.status = .tombstone) ∧ u'.isNone) := by
  subst hx hy
  cases h
  case absent => simp
  case timedOut hr hp ha _ hr' =>
    simp [hr, hr', Except.toOption, pendingTimeoutFilter, completeTTLFilter, tombstoneTTLFilter,
      Record.Terminal, pendingTimeoutMutate, hp, ha]
  case evicted hr hp ha _ hr' =>
    rcases hp with hp | hp | hp <;>
      simp [hr, hr', Except.toOption, pendingTimeoutFilter, completeTTLFilter, tombstoneTTLFilter,
        Record.Terminal, completeTTLMutate, hp, ha]
  case deleted hr hp ha _ =>
    simp [hr, Except.toOption, pendingTimeoutFilter, completeTTLFilter, tombstoneTTLFilter,
      Record.Terminal, hp, ha]
  case kept r hr h₁ h₂ h₃ =>
    have hf₁ : pendingTimeoutFilter g now r = false := decide_eq_false fun h => h₁ h.1 h.2
    have hf₂ : completeTTLFilter g now r = false := decide_eq_false fun h => h₂ h.1 h.2
    have hf₃ : tombstoneTTLFilter g now r = false := decide_eq_false fun h => h₃ h.1 h.2
    have hn : r.Terminal → r.status ≠ .tombstone := by
      rintro (hs | hs | hs) <;> simp [hs]
    simp +contextual [hr, Except.toOption, hf₁, hf₂, hf₃, hn]

section Pass

variable (hs : s.Sound) (hp : 10 ^ 9 ≤ g.pendingTimeout) (hc : 10 ^ 9 ≤ g.completeTTL)
  (ht : 10 ^ 9 ≤ g.tombstoneTTL)

include hs hc ht

theorem passOnce_lookup (hv : s.lookup t = some v) (hr : unmarshal v = .ok r) :
    (passOnce g now s).2.lookup t =
      if pendingTimeoutFilter g now r then some (Store.rewrite (pendingTimeoutMutate now) v)
      else if completeTTLFilter g now r then some (Store.rewrite (completeTTLMutate now) v)
      else if tombstoneTTLFilter g now r then none
      else some v := by
  have b₁ := timeoutBatch_spec g now hs
  have b₂ := tombstoneBatch_spec g now b₁.sound
  have b₃ := deleteBatch_spec g now b₂.sound
  change (deleteBatch g now (tombstoneBatch g now (timeoutBatch g now s).2).2).2.lookup t = _
  have h₁ := b₁.lookup_eq hv hr
  cases hf₁ : pendingTimeoutFilter g now r <;> simp only [hf₁] at h₁ ⊢
  case true =>
    have hr₁ := Store.unmarshal_rewrite (pendingTimeoutMutate now) hr ⟨_, rfl⟩
    have h₂ := b₂.lookup_eq h₁ hr₁
    rw [completeTTLFilter_timedOut hc] at h₂
    have h₃ := b₃.lookup_eq h₂ hr₁
    rwa [tombstoneTTLFilter_timedOut] at h₃
  case false =>
    have h₂ := b₂.lookup_eq h₁ hr
    cases hf₂ : completeTTLFilter g now r <;> simp only [hf₂] at h₂ ⊢
    case true =>
      have hr₂ := Store.unmarshal_rewrite (completeTTLMutate now) hr ⟨_, rfl⟩
      have h₃ := b₃.lookup_eq h₂ hr₂
      rwa [tombstoneTTLFilter_evicted ht] at h₃
    case false => exact b₃.lookup_eq h₂ hr

-- A record that one batch has moved counts for no other batch of the pass.
theorem passOnce_counts : (passOnce g now s).1 = (s.count (pendingTimeoutFilter g now),
    s.count (completeTTLFilter g now), s.count (tombstoneTTLFilter g now)) := by
  have b₁ := timeoutBatch_spec g now hs
  have b₂ := tombstoneBatch_spec g now b₁.sound
  have b₃ := deleteBatch_spec g now b₂.sound
  have h₁ : (timeoutBatch g now s).2.count (completeTTLFilter g now) =
      s.count (completeTTLFilter g now) := by
    refine b₁.count_eq hs (fun _ => ⟨_, rfl⟩) fun r hf => ⟨?_, completeTTLFilter_timedOut hc⟩
    simp_all [pendingTimeoutFilter, completeTTLFilter]
  have h₂ : (timeoutBatch g now s).2.count (tombstoneTTLFilter g now) =
      s.count (tombstoneTTLFilter g now) := by
    refine b₁.count_eq hs (fun _ => ⟨_, rfl⟩) fun r hf => ⟨?_, tombstoneTTLFilter_timedOut⟩
    simp_all [pendingTimeoutFilter, tombstoneTTLFilter]
  have h₃ : (tombstoneBatch g now (timeoutBatch g now s).2).2.count (tombstoneTTLFilter g now) =
      (timeoutBatch g now s).2.count (tombstoneTTLFilter g now) := by
    refine b₂.count_eq b₁.sound (fun _ => ⟨_, rfl⟩) fun r hf => ⟨?_, tombstoneTTLFilter_evicted ht⟩
    obtain ⟨hs, _⟩ := of_decide_eq_true hf
    rcases hs with hs | hs | hs <;> simp [tombstoneTTLFilter, hs]
  refine congrArg₂ Prod.mk b₁.count <| congrArg₂ Prod.mk (b₂.count.trans h₁) ?_
  exact b₃.count.trans <| h₃.trans h₂

include hp

theorem passed_of_passOnce (now : Time) (t : Tag) :
    Passed g now (s.lookup t) ((passOnce g now s).2.lookup t) := by
  cases hv : s.lookup t
  case none =>
    have b₁ := timeoutBatch_spec g now hs
    have b₂ := tombstoneBatch_spec g now b₁.sound
    have b₃ := deleteBatch_spec g now b₂.sound
    have hn : (passOnce g now s).2.lookup t = none :=
      b₃.lookup_none <| b₂.lookup_none <| b₁.lookup_none hv
    rw [hn]
    exact .absent
  case some v =>
    have ⟨r, hr⟩ := hs.values t v hv
    rw [passOnce_lookup hs hc ht hv hr]
    split
    case isTrue hf =>
      have ⟨hp', ha⟩ := of_decide_eq_true hf
      refine .timedOut hr hp' ha ?_ (Store.unmarshal_rewrite _ hr ⟨_, rfl⟩)
      exact fun t₀ h₀ => Time.lt_sub_of_lt_sub_ofUnix hp (h₀ ▸ ha)
    case isFalse hn₁ =>
      split
      case isTrue hf =>
        have ⟨hp', ha⟩ := of_decide_eq_true hf
        refine .evicted hr hp' ha ?_ (Store.unmarshal_rewrite _ hr ⟨_, rfl⟩)
        exact fun t₀ h₀ => Time.lt_sub_of_lt_sub_ofUnix hc (h₀ ▸ ha)
      case isFalse hn₂ =>
        split
        case isTrue hf =>
          have ⟨hp', ha⟩ := of_decide_eq_true hf
          exact .deleted hr hp' ha fun t₀ h₀ => Time.lt_sub_of_lt_sub_ofUnix ht (h₀ ▸ ha)
        case isFalse hn₃ =>
          refine .kept hr ?_ ?_ ?_
          · exact fun hp' ha => hn₁ (decide_eq_true ⟨hp', ha⟩)
          · exact fun hp' ha => hn₂ (decide_eq_true ⟨hp', ha⟩)
          · exact fun hp' ha => hn₃ (decide_eq_true ⟨hp', ha⟩)

theorem passOnce_spec :
    (∀ t, Passed g now (s.lookup t) ((passOnce g now s).2.lookup t)) ∧
    (passOnce g now s).1 = (
      s.moved (passOnce g now s).2 (·.any (·.status = .pending)) (·.any (·.status = .failedTimeout)),
      s.moved (passOnce g now s).2 (·.any (·.Terminal)) (·.any (·.status = .tombstone)),
      s.moved (passOnce g now s).2 (·.any (·.status = .tombstone)) (·.isNone)) := by
  have hm := passed_of_passOnce hs hp hc ht now
  refine ⟨hm, ?_⟩
  rw [passOnce_counts hs hc ht]
  refine congrArg₂ Prod.mk ?_ <| congrArg₂ Prod.mk ?_ ?_ <;> refine List.countP_congr fun t _ => ?_
  · rw [Bool.and_eq_true]
    exact ((hm t).edges rfl rfl).1
  · rw [Bool.and_eq_true]
    exact ((hm t).edges rfl rfl).2.1
  · rw [Bool.and_eq_true]
    exact ((hm t).edges rfl rfl).2.2

end Pass

end GC

open Pool (step system)

variable {o : Options} {p p₁ p₂ : Pool} {e : Event} {es : List Event}

-- A pass that is not interrupted.
theorem passOnce_steps (h : p.gc = .idle) :
    [.gcStart now, .gcTimeout true, .gcTombstone true, .gcDelete true].foldlM (step o) p =
      some { p with store := (GC.passOnce o.gc now p.store).2 } := by
  simp [List.foldlM, step, Pool.stepGC, h, GC.passOnce]

namespace Store.Sound

theorem put (hs : s.Sound) (h : s.put t r = .ok s') : s'.Sound := by
  simp only [Store.put, Except.bind_eq_ok, Except.mapError_eq_ok] at h
  obtain ⟨v, hm, hw⟩ := h
  exact hs.write hw (Record.unmarshal_marshal hm)

theorem compareAndSwapStatus {u : Record} (hs : s.Sound)
    (h : s.compareAndSwapStatus t expected mutate = .ok (u, s')) : s'.Sound := by
  simp only [Store.compareAndSwapStatus] at h
  split at h
  case h_1 => simp at h
  case h_2 v hv =>
    simp only [Except.bind_eq_ok, Except.mapError_eq_ok] at h
    obtain ⟨r, hr, h⟩ := h
    split at h
    case isTrue => simp at h
    case isFalse he =>
      simp only [Except.bind_eq_ok, Except.mapError_eq_ok, Except.pure_eq_ok, Prod.mk.injEq] at h
      obtain ⟨v', hm, s'', hw, _, hs'⟩ := h
      exact hs' ▸ hs.write hw (Record.unmarshal_marshal hm)

theorem of_batchTransition (hs : s.Sound) (hm : ∀ r, ∃ x, (mutate r).status = .known x)
    (h : s.batchTransition filter mutate = .ok (n, s')) : s'.Sound := by
  have ⟨_, hx, b⟩ := hs.batchTransition filter mutate hm
  cases hx.symm.trans h
  exact b.sound

theorem of_batchDelete (hs : s.Sound) (h : s.batchDelete filter = .ok (n, s')) : s'.Sound := by
  have ⟨_, hx, b⟩ := hs.batchDelete filter
  cases hx.symm.trans h
  exact b.sound

end Store.Sound

-- What the program writes can be read again, so that no batch of it fails on a record.
theorem sound (r : (system o).Reachable p) : p.store.Sound := by
  refine r.invariant (P := (·.store.Sound)) .empty ?_
  intro p₁ e p₂ hs h
  cases Pool.step_elim h
  case submit | shutdown | drained | expired => exact hs
  case call h =>
    cases h
    case put hp _ => exact hs.put hp
    all_goals exact hs
  case worker h =>
    cases h
    case cas hc _ => exact hs.compareAndSwapStatus hc
    all_goals exact hs
  case gc h =>
    cases h
    case timeout hb   => exact hs.of_batchTransition (fun _ => ⟨_, rfl⟩) hb
    case tombstone hb => exact hs.of_batchTransition (fun _ => ⟨_, rfl⟩) hb
    case delete hb    => exact hs.of_batchDelete hb
    all_goals exact hs
  case restart h =>
    obtain ⟨hb⟩ := Pool.stepRestart_elim h
    exact hs.of_batchDelete hb

-- One job is under way, and one has been answered.
def mixedRun : List Event :=
  [.submit someTag someRequest, .check 0, .get 0 true, .claim 0, .drain 0, .put 0 0 true, .add 0,
   .spawn 0, .forward 0 none, .cas 0 0 true,
   .submit (.ofString "retry-tag-2") someRequest, .check 1, .get 1 true, .claim 1, .drain 1,
   .put 1 0 true, .add 1, .spawn 1]

theorem mixedRun_isSome : ((system .twoSlots).exec mixedRun).isSome := by
  decide

def mixedStore : Store :=
  (((system .twoSlots).exec mixedRun).get mixedRun_isSome).store

theorem passOnce_spec_mixedRun :
    (GC.passOnce .default (7200 * 10 ^ 9) mixedStore).1 = (1, 1, 0) ∧
      ∀ t, GC.Passed .default (7200 * 10 ^ 9) (mixedStore.lookup t)
        ((GC.passOnce .default (7200 * 10 ^ 9) mixedStore).2.lookup t) := by
  refine ⟨by decide, ?_⟩
  exact (GC.passOnce_spec (sound ⟨_, .of_isSome mixedRun_isSome⟩) (by decide) (by decide)
    (by decide)).1

end Asyncjob
