import VpnTunnel.Infrastructure.Observability.Theorems

namespace Infrastructure.Observability

open Regexp ByteString Netip

-- Some hosts with their ports are replaced by the marker, each at the start of the text or after a delimiter, and
-- all other bytes are kept.
inductive Masked : (l s out : ByteString) → Prop
  | nil {l} : Masked l [] []
  | keep {l c s out} : Masked (c :: l) s out → Masked l (c :: s) (c :: out)
  | mask {l w r out} :
      l.head?.all isDelimiter → hostPort.Matches l w r → Masked (w.reverse ++ l) r out →
      Masked l (w ++ r) (scrubReplacement ++ out)

-- The delimiters that are not given back: `\f` and `\r`.
def isDropped (c : UInt8) : Bool :=
  isDelimiter c && !isGivenBack c

-- No host with a port is directly after one of them.
def Undropped (l s : ByteString) : Prop :=
  ∀ x c w r, s = x ++ c :: w ++ r → isDropped c → ¬hostPort.Matches (c :: x.reverse ++ l) w r

variable {l r s w x out : ByteString} {c : UInt8}

theorem Undropped.tail (h : Undropped l (w ++ s)) : Undropped (w.reverse ++ l) s := by
  intro x c w' r hs
  simpa using h (w ++ x) c w' r (by simp [hs])

theorem Undropped.cons (hc : isDropped c → ∀ w r, s = w ++ r → ¬hostPort.Matches (c :: l) w r)
    (h : Undropped (c :: l) s) : Undropped l (c :: s) := by
  intro x d w r hs hd
  cases x
  case nil =>
    obtain ⟨rfl, ht⟩ := List.cons.inj hs
    exact hc hd w r ht
  case cons c' x =>
    obtain ⟨rfl, ht⟩ := List.cons.inj hs
    simpa using h x d w r ht hd

theorem Undropped.append (hw : ∀ c ∈ w, ¬isDropped c) (h : Undropped (w.reverse ++ l) s) :
    Undropped l (w ++ s) := by
  induction w generalizing l
  case nil => exact h
  case cons c w hi =>
    have ⟨hc, hw⟩ := List.forall_mem_cons.mp hw
    exact .cons (fun hd => absurd hd hc) (hi hw (by simpa using h))

theorem replaceHostname_of_letter (h : hostPort.Matches l w r) : replaceHostname w = scrubReplacement := by
  have hs : hostPort.StartsIn isLetter := .seq .cls
  have ⟨c, hc, hl⟩ := hs h
  cases w
  case nil => contradiction
  case cons c' w =>
    cases hc
    exact if_neg (not_isGivenBack_of_isLetter c hl)

theorem masked_of_undropped (h : Replaces reHostnamePort replaceHostname l s out) (hu : Undropped l s) :
    Masked l s out := by
  induction h
  case nil => exact .nil
  case keep c s out _ _ hi => exact .keep (hi (hu.tail (w := [c])))
  case replace l w r out hw _ hi =>
    have hr := hi hu.tail
    obtain ⟨rfl, hm⟩ | ⟨c, v, rfl, hc, hm⟩ := reHostnamePort_elim hw.matches
    · rw [replaceHostname_of_letter hm]
      exact .mask rfl hm hr
    · have hg : isGivenBack c := by
        have hn := mt (hu [] c v r rfl) (not_not.mpr hm)
        simpa [isDropped, hc] using hn
      rw [replaceHostname, if_pos hg]
      exact .keep (.mask hc hm (by simpa using hr))

section Count

theorem countP_replaceHostname : (replaceHostname w).countP isDropped = 0 := by
  have hm : scrubReplacement.countP isDropped = 0 := by decide
  obtain h | ⟨c, hc, h⟩ := replaceHostname_elim (w := w)
  · rw [h, hm]
  · rw [h, List.countP_cons, hm]
    simp [isDropped, hc]

theorem not_isDropped_of_mentions : ∀ c, hostPort.mentions c → ¬isDropped c :=
  forall_byte (by decide +kernel)

-- Whatever is masked, the number of these delimiters stays the same.
theorem Masked.countP_eq (h : Masked l s out) : out.countP isDropped = s.countP isDropped := by
  induction h
  case nil => rfl
  case keep hi => rw [List.countP_cons, List.countP_cons, hi]
  case mask w r out _ hm _ hi =>
    have hw : w.countP isDropped = 0 :=
      List.countP_eq_zero.mpr fun c hc => not_isDropped_of_mentions c (hm.mentions hc)
    have hs : scrubReplacement.countP isDropped = 0 := by decide
    rw [List.countP_append, List.countP_append, hw, hs, hi]

theorem countP_le_of_replaces (h : Replaces reHostnamePort replaceHostname l s out) :
    out.countP isDropped ≤ s.countP isDropped := by
  induction h
  case nil => rfl
  case keep hi =>
    rw [List.countP_cons, List.countP_cons]
    omega
  case replace hi =>
    rw [List.countP_append, List.countP_append, countP_replaceHostname]
    omega

-- A match only starts with such a delimiter if it is replaced, so none is lost.
theorem undropped_of_countP_eq (h : Replaces reHostnamePort replaceHostname l s out)
    (hc : out.countP isDropped = s.countP isDropped) : Undropped l s := by
  induction h
  case nil => simp [Undropped]
  case keep l c s out hn _ hi =>
    rw [List.countP_cons, List.countP_cons, Nat.add_right_cancel_iff] at hc
    refine .cons (fun hd w r hs hm => ?_) (hi hc)
    have hd : isDelimiter c := ((Bool.and_eq_true _ _).mp hd).1
    exact hn (c :: w) r (by rw [hs]; rfl) (.seq (u := [c]) (.right (.cls hd)) hm)
  case replace l w r out hw hr hi =>
    rw [List.countP_append, List.countP_append, countP_replaceHostname] at hc
    have hle := countP_le_of_replaces hr
    have hw : w.countP isDropped = 0 := by omega
    exact .append (List.countP_eq_zero.mp hw) (hi (by omega))

end Count

theorem masked_iff (s : ByteString) : Masked [] s (scrubHostnames s) ↔ Undropped [] s := by
  have h : Replaces reHostnamePort replaceHostname [] s (scrubHostnames s) := replaces_replaceAll
  exact ⟨fun hm => undropped_of_countP_eq h hm.countP_eq, masked_of_undropped h⟩

theorem not_masked_carriageReturn :
    scrubHostnames (ofString "\rexample.com:80") = scrubReplacement ∧
      ¬Masked [] (ofString "\rexample.com:80") (scrubHostnames (ofString "\rexample.com:80")) := by
  refine ⟨by decide +kernel, fun h => ?_⟩
  have hc : (scrubHostnames (ofString "\rexample.com:80")).countP isDropped ≠
      (ofString "\rexample.com:80").countP isDropped := by
    decide +kernel
  exact hc h.countP_eq

end Infrastructure.Observability
