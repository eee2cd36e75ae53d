import VpnTunnel.Generatevpnconfig.Prompt
import VpnTunnel.Tunnelpool.Eligible.Basic

namespace Generatevpnconfig

open ByteString
open Tunnelpool (allows Env)
open Tunnelpool.Supervisor (Country countryFromBasename parseCountry)

-- The daemon takes the name with the prefix for one of the same country.
structure Recognised (namePrefix name : String) : Prop where
  valid   : validateName (applyPrefix namePrefix name) = .ok ()
  country : countryFromBasename (applyPrefix namePrefix name) = countryFromBasename name
  filter  : ∀ env allowed, allows env allowed (countryFromBasename (applyPrefix namePrefix name)) =
    allows env allowed (countryFromBasename name)

-- What is left of a prefix in front of the name.
def trimPrefix (namePrefix : String) : List Char :=
  (namePrefix.toList.reverse.dropWhile fun c => c = '-' ∨ c = '_' ∨ c = '.').reverse

-- The first code among the segments that are looked at.
def countryCode (segments : List (List Char)) : Option Country :=
  (segments.take 2).findSome? parseCountry

-- The prefix does not hide the country of the name: it has the same code itself, or it has no code and leaves
-- the second segment to the name.
def Neutral (namePrefix : String) (cc : Country) : Prop :=
  namePrefix = "" ∨
  countryCode ((trimPrefix namePrefix).splitOn '-') = some cc ∨
  countryCode ((trimPrefix namePrefix).splitOn '-') = none ∧ '-' ∉ trimPrefix namePrefix

variable {namePrefix name : String} {cc : Country} {input rest : Input}

theorem validateName_ok_iff :
    validateName name = .ok () ↔ name ≠ "" ∧ name.toList.head? ≠ some '.' ∧ ∀ c ∈ name.toList, isSafe c := by
  unfold validateName
  constructor
  case mp =>
    intro h
    split_ifs at h with h₁ h₂ h₃ h₄ h₅
    exact ⟨h₁, h₄, by simpa using h₅⟩
  case mpr =>
    intro ⟨h₁, h₂, h₃⟩
    have hd : ¬(name = "." ∨ name = "..") := by
      rintro (rfl | rfl)
      all_goals exact h₂ (by decide)
    have hs : ¬('/' ∈ name.toList ∨ '\\' ∈ name.toList) := by
      rintro (h | h)
      all_goals exact absurd (h₃ _ h) (by decide)
    rw [if_neg h₁, if_neg hd, if_neg hs, if_neg h₂, if_neg (by simpa using h₃)]

theorem countryFromBasename_eq :
    countryFromBasename name = (countryCode (name.toList.splitOn '-')).getD "" := by
  unfold countryFromBasename
  split
  case h_1 h => rw [h]; rfl
  case h_2 part h =>
    rw [h]
    cases hp : parseCountry part <;> simp [countryCode, hp]
  case h_3 p₁ p₂ ps h =>
    rw [h]
    cases h₁ : parseCountry p₁ <;> cases h₂ : parseCountry p₂ <;> simp [countryCode, h₁, h₂]

theorem toList_applyPrefix (h : namePrefix ≠ "") :
    (applyPrefix namePrefix name).toList = trimPrefix namePrefix ++ '-' :: name.toList := by
  simp [applyPrefix, h, trimPrefix]

theorem splitOn_applyPrefix (h : namePrefix ≠ "") :
    (applyPrefix namePrefix name).toList.splitOn '-' =
      (trimPrefix namePrefix).splitOn '-' ++ name.toList.splitOn '-' := by
  rw [toList_applyPrefix h, List.splitOn_append_cons]

-- Trimming keeps the start of a prefix, unless nothing is left of it.
theorem trimPrefix_spec : ∃ w, namePrefix.toList = trimPrefix namePrefix ++ w := by
  refine ⟨(namePrefix.toList.reverse.takeWhile fun c => c = '-' ∨ c = '_' ∨ c = '.').reverse, ?_⟩
  rw [trimPrefix, ← List.reverse_append, List.takeWhile_append_dropWhile, List.reverse_reverse]

theorem validateName_applyPrefix (hp : namePrefix = "" ∨ validateName namePrefix = .ok ())
    (hn : validateName name = .ok ()) : validateName (applyPrefix namePrefix name) = .ok () := by
  by_cases he : namePrefix = ""
  case pos => rwa [applyPrefix, if_pos he]
  case neg =>
    have ⟨_, hd, hs⟩ := validateName_ok_iff.mp (hp.resolve_left he)
    have ⟨_, _, hs'⟩ := validateName_ok_iff.mp hn
    have ⟨w, hw⟩ : ∃ w, namePrefix.toList = trimPrefix namePrefix ++ w := trimPrefix_spec
    rw [hw] at hd hs
    have hl : (applyPrefix namePrefix name).toList = trimPrefix namePrefix ++ '-' :: name.toList :=
      toList_applyPrefix he
    refine validateName_ok_iff.mpr ⟨?_, ?_, ?_⟩
    · rintro h
      simp [h] at hl
    · rw [hl]
      cases ht : trimPrefix namePrefix
      case nil => exact (by decide : '-' ≠ '.') ∘ Option.some.inj
      case cons c t => rwa [ht] at hd
    · rw [hl]
      intro c hc
      rw [List.mem_append, List.mem_cons] at hc
      rcases hc with hc | rfl | hc
      · exact hs c (List.mem_append_left _ hc)
      · decide
      · exact hs' c hc

theorem promptPrefix_elim (h : promptPrefix input = .ok (namePrefix, rest)) :
    namePrefix = "" ∨ validateName namePrefix = .ok () := by
  have ⟨val, _, hv, h⟩ := Prompt.bind_eq_ok (x := promptOptional [] readName) |>.mp h
  cases h
  cases (promptOptional_elim hv).right
  case inl h => exact .inl (h ▸ rfl)
  case inr h => exact .inr <| Except.mapError_eq_ok.mp h.right.right

theorem parseCountry_ne {segment : List Char} (h : parseCountry segment = some cc) : cc ≠ "" := by
  unfold parseCountry at h
  split at h
  case h_1 a b =>
    split at h <;> cases h
    simp
  case h_2 => cases h

-- The code that is seen in the segments of the prefix and those of the name.
theorem countryCode_append {segs : List (List Char)} {seg : List Char} {segs' : List (List Char)}
    (hn : segs ≠ []) (hc : parseCountry seg = some cc) :
    (countryCode (segs ++ seg :: segs')).getD "" = cc ↔
      countryCode segs = some cc ∨ countryCode segs = none ∧ segs.length = 1 := by
  have hne := parseCountry_ne hc
  match segs with
  | []            => contradiction
  | [q]           => cases hq : parseCountry q <;> simp [countryCode, hq, hc]
  | q₁ :: q₂ :: _ =>
    cases h₁ : parseCountry q₁ <;> cases h₂ : parseCountry q₂ <;> simp [countryCode, h₁, h₂, hne.symm]

theorem length_splitOn_eq_one_iff {l : List Char} : (l.splitOn '-').length = 1 ↔ '-' ∉ l := by
  constructor
  case mp =>
    intro h hm
    have ⟨x, y, hl⟩ := List.append_of_mem hm
    have hx := List.length_pos_iff.mpr <| List.splitOn_ne_nil '-' x
    have hy := List.length_pos_iff.mpr <| List.splitOn_ne_nil '-' y
    rw [hl, List.splitOn_append_cons, List.length_append] at h
    omega
  case mpr =>
    intro h
    rw [List.splitOn_of_not_mem h]
    rfl

theorem recognised_iff (hp : promptPrefix input = .ok (namePrefix, rest)) (hn : validateName name = .ok ())
    (hc : (name.toList.splitOn '-').head?.bind parseCountry = some cc) :
    Recognised namePrefix name ↔ Neutral namePrefix cc := by
  have hv := validateName_applyPrefix (promptPrefix_elim hp) hn
  have hr : Recognised namePrefix name ↔
      countryFromBasename (applyPrefix namePrefix name) = countryFromBasename name :=
    ⟨fun r => r.country, fun h => ⟨hv, h, fun _ _ => by rw [h]⟩⟩
  by_cases he : namePrefix = ""
  case pos => exact iff_of_true (hr.mpr <| by rw [applyPrefix, if_pos he]) (.inl he)
  case neg =>
    cases hs : name.toList.splitOn '-'
    case nil => simp [hs] at hc
    case cons seg segs =>
      have hc : parseCountry seg = some cc := by simpa [hs] using hc
      have hname : countryFromBasename name = cc := by
        simp [countryFromBasename_eq, hs, countryCode, hc]
      rw [hr, hname, countryFromBasename_eq, splitOn_applyPrefix he, hs,
        countryCode_append (List.splitOn_ne_nil _ _) hc, length_splitOn_eq_one_iff, Neutral]
      simp [he]

def typed (line : String) : Input :=
  ⟨[.ofString line], none⟩

theorem recognised_mullvad : Recognised "mullvad" "al-tia-wg-001" :=
  have hp : promptPrefix (typed "mullvad") = .ok ("mullvad", ⟨[], none⟩) := by decide
  have hc : ("al-tia-wg-001".toList.splitOn '-').head?.bind parseCountry = some "al" := by decide
  recognised_iff hp (by decide) hc |>.mpr <| .inr <| .inr (by decide)

theorem not_recognised_us :
    promptPrefix (typed "us") = .ok ("us", ⟨[], none⟩) ∧ validateName "al-tia-wg-001" = .ok () ∧
    countryFromBasename "al-tia-wg-001" = "al" ∧
    countryFromBasename (applyPrefix "us" "al-tia-wg-001") = "us" := by
  decide

end Generatevpnconfig
