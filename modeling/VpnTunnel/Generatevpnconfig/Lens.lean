import VpnTunnel.Generatevpnconfig.Scanner

namespace Generatevpnconfig

open ByteString

-- The tool finds an interface section.
def HasInterface (body : ByteString) : Prop :=
  ∃ raw ∈ body.lines, isHeader raw ∧ isInterface raw

-- The headers, and the lines of all sections that the tool does not take for `[Interface]`.
def outside (b : Bool) : List ByteString → List ByteString
  | []        => []
  | raw :: ls =>
    if isHeader raw then raw :: outside (isInterface raw) ls
    else if b then outside b ls
    else raw :: outside b ls

-- One line is replaced by another one, or a line is inserted.
inductive Differs (line : ByteString) : List ByteString → List ByteString → Prop
  | replaced {pre raw post} : Differs line (pre ++ raw :: post) (pre ++ line :: post)
  | inserted {pre post} : Differs line (pre ++ post) (pre ++ line :: post)

variable {table : CaseTable} {b : Bool} {raw body k : ByteString} {ls pre post : List ByteString}

theorem afterKey_append (hn : afterKey table b pre = none) (hi : inInterface b pre)
    (hh : ¬isHeader raw) (hv : (privateKey? table raw).isSome) :
    afterKey table b (pre ++ raw :: post) = some post := by
  induction pre generalizing b
  case nil =>
    rw [List.nil_append, afterKey, if_neg hh, if_pos ⟨hi, hv⟩]
  case cons r pre ih =>
    rw [afterKey] at hn
    rw [inInterface, List.foldl_cons, ← inInterface] at hi
    rw [List.cons_append, afterKey]
    split at hn
    case isTrue hr =>
      rw [if_pos hr] at hi ⊢
      exact ih hn hi
    case isFalse hr =>
      split at hn
      case isTrue => contradiction
      case isFalse hk =>
        rw [if_neg hr] at hi ⊢
        rw [if_neg hk]
        exact ih hn hi

theorem outside_append (hi : inInterface b pre) (hh : ¬isHeader raw) :
    outside b (pre ++ raw :: post) = outside b (pre ++ post) := by
  induction pre generalizing b
  case nil =>
    have hb : b := hi
    simp [outside, hh, hb]
  case cons r pre ih =>
    rw [inInterface, List.foldl_cons, ← inInterface] at hi
    simp only [List.cons_append, outside]
    split at hi
    case isTrue hr  => simp [hr, ih hi]
    case isFalse hr => simp [hr, ih hi]

theorem isSome_afterHeader_iff :
    (afterHeader ls).isSome ↔ ∃ raw ∈ ls, isHeader raw ∧ isInterface raw := by
  induction ls
  case nil => simp [afterHeader]
  case cons raw ls hi =>
    simp only [afterHeader, Option.isSome_or, Bool.or_eq_true, hi, List.mem_cons, exists_eq_or_imp]
    rw [or_comm]
    exact or_congr_left (by simp [Option.isSome_iff_exists])

theorem isSome_slot_iff (table : CaseTable) : (slot table ls).isSome ↔ (afterHeader ls).isSome := by
  rw [slot]
  cases hk : afterKey table false ls
  case none => simp
  case some post =>
    obtain ⟨pre, raw, _, hl, _, hi, _⟩ := afterKey_elim hk
    obtain ⟨r, hr, hh⟩ := isSome_afterHeader_iff.mp <| (isSome_afterHeader hi).resolve_left (by simp)
    refine iff_of_true rfl (isSome_afterHeader_iff.mpr ⟨r, ?_, hh⟩)
    exact hl ▸ List.mem_append_left _ hr

theorem injectPrivateKey_error_iff :
    (∃ err, injectPrivateKey table body k = .error err) ↔ ¬HasInterface body := by
  rw [HasInterface, ← isSome_afterHeader_iff, ← isSome_slot_iff table, injectPrivateKey_eq]
  cases slot table body.lines <;> simp

theorem extractFrom_append {val : ByteString} (hn : afterKey table b pre = none) (hi : inInterface b pre)
    (hh : ¬isHeader raw) (hv : privateKey? table raw = some val) :
    extractFrom table b (pre ++ raw :: post) = val := by
  have ha : afterKey table b (pre ++ raw :: post) = some post := afterKey_append hn hi hh (by rw [hv]; rfl)
  have ⟨pre', raw', val', hl, _, _, _, hv', he⟩ := afterKey_elim ha
  rw [List.append_cons pre, List.append_cons pre'] at hl
  have ⟨_, hr⟩ := List.append_inj' (List.append_cancel_right hl) rfl
  cases hr
  exact he.trans (Option.some.inj (hv'.symm.trans hv))

-- The line that was written is the one that is written next, and that is read.
theorem slot_refill (h : slot table ls = some (pre, post)) (hk : trimSpace k = k) :
    slot table (pre ++ privateKeyLine k :: post) = some (pre, post) ∧
      extractFrom table false (pre ++ privateKeyLine k :: post) = k := by
  have ⟨hn, hi, _, _⟩ := slot_elim h
  have hv : privateKey? table (privateKeyLine k) = some k := privateKey?_privateKeyLine hk
  have hh : ¬isHeader (privateKeyLine k) := not_isHeader_privateKeyLine
  exact ⟨slot_replace (afterKey_append hn hi hh (by rw [hv]; rfl)), extractFrom_append hn hi hh hv⟩

theorem differs_of_slot {line : ByteString} (h : slot table ls = some (pre, post)) :
    Differs line ls (pre ++ line :: post) := by
  have ⟨_, _, _, ho⟩ := slot_elim h
  rcases ho with rfl | ⟨_, _, rfl, _⟩
  · exact .inserted
  · exact .replaced

theorem outside_of_slot (h : slot table ls = some (pre, post)) (hh : ¬isHeader raw) :
    outside false (pre ++ raw :: post) = outside false ls := by
  have ⟨_, hi, _, ho⟩ := slot_elim h
  rw [outside_append hi hh]
  rcases ho with rfl | ⟨_, _, rfl, hr, _⟩
  · rfl
  · exact (outside_append hi hr).symm

-- Writing a key and reading it, and writing two keys.
theorem injectPrivateKey_lens (table : CaseTable) (body : ByteString) (hn : newline ∉ k)
    (hk : trimSpace k = k) :
    ((∃ err, injectPrivateKey table body k = .error err) ↔ ¬HasInterface body) ∧
    (HasInterface body → ∃ body', injectPrivateKey table body k = .ok body' ∧
      extractInterfacePrivateKey table body' = k ∧
      (∀ k₂, injectPrivateKey table body' k₂ = injectPrivateKey table body k₂) ∧
      Differs (privateKeyLine k) body.lines body'.lines ∧
      outside false body'.lines = outside false body.lines) := by
  refine ⟨injectPrivateKey_error_iff, fun hi => ?_⟩
  rw [HasInterface, ← isSome_afterHeader_iff, ← isSome_slot_iff table] at hi
  have ⟨⟨pre, post⟩, hs⟩ := Option.isSome_iff_exists.mp hi
  have hl := lines_injected hs (newline_not_mem_privateKeyLine hn)
  have ⟨hr, hx⟩ := slot_refill hs hk
  refine ⟨unlines (pre ++ privateKeyLine k :: post), ?_, ?_, fun k₂ => ?_, ?_, ?_⟩
  · rw [injectPrivateKey_eq, hs]
    rfl
  · rw [extractInterfacePrivateKey, hl, hx]
  · rw [injectPrivateKey_eq, injectPrivateKey_eq, hl, hr, hs]
  · rw [hl]
    exact differs_of_slot hs
  · rw [hl]
    exact outside_of_slot hs not_isHeader_privateKeyLine

-- A body with two interface sections and without a private key.
theorem injectPrivateKey_lens_twoSections :
    ∃ body', injectPrivateKey default (.ofString "[Interface]\n[interface]\n[Peer]") (.ofString "k") =
        .ok body' ∧
      extractInterfacePrivateKey default body' = .ofString "k" := by
  have ⟨_, h⟩ := injectPrivateKey_lens (k := .ofString "k") default
    (.ofString "[Interface]\n[interface]\n[Peer]") (by decide) (by decide)
  have ⟨body', hb, he, _⟩ := h ⟨.ofString "[Interface]", by decide, by decide, by decide⟩
  exact ⟨body', hb, he⟩

end Generatevpnconfig
