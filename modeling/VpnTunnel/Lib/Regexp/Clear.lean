import VpnTunnel.Lib.Regexp.Replace

namespace Regexp

-- Assertions do not tell two texts apart if both are empty, or both start with a character of a word, or neither
-- does.
def Alike (word : α → Bool) (s s' : List α) : Prop :=
  s.isEmpty = s'.isEmpty ∧ wordAt word s = wordAt word s'

-- A match is replaced by a text that ends with `mark`. No character of it is in `D`, and it does not start like a
-- word, as a match inside of a word does not either.
structure Marks (word D : α → Bool) (mark : α) (e : Pattern α) (f : List α → List α) : Prop where
  last       : ∀ {l w r}, e.expr.First l w r → (f w).getLast? = some mark
  not_mem    : ∀ {l w r}, e.expr.First l w r → ∀ c ∈ f w, ¬D c
  not_wordAt : ∀ {l w r}, e.expr.First l w r → wordAt word (f w) = false
  starts     : ∀ {l w r}, e.expr.First l w r → wordAt word l → wordAt word w = false

-- A match ends with a character in `D` and does not contain `mark`.
structure Avoids (word D : α → Bool) (mark : α) (q : Regexp α) : Prop where
  endsIn       : q.EndsIn D
  word_of_last : ∀ c, D c → word c
  not_mentions : ¬q.mentions mark
  local_alike  : q.Local (Alike word)

-- What makes sure that the replacements of `e` neither leave nor make a match of `q`.
structure Clears (word D : α → Bool) (mark : α) (e : Pattern α) (f : List α → List α) (q : Regexp α) : Prop
    extends Marks word D mark e f, Avoids word D mark q where
  after : ∀ {l lo w y z}, e.expr.First l w (y ++ z) →
    q.Matches ((f w).reverse ++ lo) y z → q.Matches (w.reverse ++ l) y z

structure Pass (α : Type) where
  pattern     : Pattern α
  replacement : List α → List α

def Pass.run (p : Pass α) (s : List α) : List α :=
  replaceAll p.pattern p.replacement s

def runAll (ps : List (Pass α)) (s : List α) : List α :=
  ps.foldl (fun s p => p.run s) s

variable {word D : α → Bool} {mark : α} {e : Pattern α} {f : List α → List α} {q : Regexp α}
variable {l l' lo m out r r' s s' w y z : List α} {ps : List (Pass α)}

theorem Alike.refl : Alike word s s :=
  ⟨rfl, rfl⟩

theorem Alike.cons {c : α} : Alike word (c :: s) (c :: s') :=
  ⟨rfl, rfl⟩

theorem Alike.append (h : Alike word s s') : Alike word (w ++ s) (w ++ s') := by
  cases w
  case nil  => exact h
  case cons => exact .cons

theorem Matches.alike (hq : q.Local (Alike word)) (hl : Alike word l l') (hr : Alike word r r')
    (h : q.Matches l w r) : q.Matches l' w r' :=
  h.congr (fun _ _ _ => .append) hq hl hr

theorem local_start : start.Local (Alike word) :=
  fun _ _ _ _ h _ => h.1

theorem local_boundary : (boundary word).Local (Alike word) := by
  intro l l' r r' hl hr
  simp only [hl.2, hr.2]

-- A match does not reach into a text that it can neither end in nor go through.
theorem not_overlap (hy : ∃ c ∈ y.getLast?, D c) (hq : ∀ c ∈ y, q.mentions c)
    (hn : ¬q.mentions mark) (hm : m.getLast? = some mark) (hd : ∀ c ∈ m, ¬D c) : m ++ out ≠ y ++ z := by
  intro h
  have ⟨d, hyd, hD⟩ := hy
  rcases List.append_eq_append_iff.mp h with ⟨t, ht, _⟩ | ⟨t, ht, _⟩
  · exact hn (hq mark (ht ▸ List.mem_append_left _ (List.mem_of_getLast? hm)))
  · exact hd d (ht ▸ List.mem_append_left _ (List.mem_of_getLast? hyd)) hD

theorem wordAt_append (h : w ≠ []) : wordAt word (w ++ s) = wordAt word w := by
  cases w
  case nil  => contradiction
  case cons => rfl

section Boundary

-- With a boundary at the start, there is no match that starts inside of a word.
theorem Matches.not_wordAt_left (h : (Regexp.seq (boundary word) q).Matches l w r) (hw : w ≠ [])
    (hl : wordAt word l) : wordAt word w = false := by
  cases h
  case seq u v ha hb =>
    cases ha
    case assert ha =>
      rw [← wordAt_append (s := r) hw]
      simpa [hl] using ha

-- With a boundary at the end, no word goes on after a match.
theorem First.not_wordAt_right (h : q.First l w r) (hf : q.final = boundary word) (he : q.EndsIn word) :
    wordAt word r = false := by
  have ⟨c, hc, hword⟩ := he h.matches
  have ⟨u, v, hw, hv⟩ := h.final
  rw [hf] at hv
  have hm := hv.matches
  cases hm
  case assert ha =>
    have hl : wordAt word (u.reverse ++ l) := by simp_all [wordAt]
    simpa [hl] using ha

end Boundary

namespace Replaces

-- Inside of a word, the text goes on in the same way.
theorem alike (C : Clears word D mark e f q) (h : Replaces e f l s out) (hl : wordAt word l) : Alike word s out := by
  cases h
  case nil  => exact .refl
  case keep => exact .cons
  case replace w r out hw _ =>
    have hn := hw.matches.ne_nil e.consuming
    have hf := List.ne_nil_of_mem (List.mem_of_getLast? (C.last hw))
    refine ⟨by cases w <;> cases h : f _ <;> simp_all, ?_⟩
    rw [wordAt_append hn, wordAt_append hf, C.starts hw hl, C.not_wordAt hw]

-- A match of the result is found in the text.
theorem of_match (C : Clears word D mark e f q) (h : Replaces e f l s (y ++ z)) (hy : ∃ c ∈ y.getLast?, D c)
    (hq : ∀ c ∈ y, q.mentions c) : ∃ z', s = y ++ z' ∧ Alike word z z' := by
  induction y generalizing l s
  case nil => simp at hy
  case cons c y hi =>
    generalize ho : c :: y ++ z = out at h
    cases h
    case nil => cases ho
    case keep c' s' out _ h =>
      obtain ⟨rfl, rfl⟩ := List.cons.inj ho
      cases y
      case nil =>
        have hD : D c := by simpa using hy
        have ⟨he, hw⟩ := h.alike C (C.word_of_last c hD)
        exact ⟨s', rfl, he.symm, hw.symm⟩
      case cons c' y =>
        have ⟨z', hs, hz⟩ := hi h (by simpa using hy) fun b hb => hq b (List.mem_cons_of_mem c hb)
        exact ⟨z', by rw [hs]; rfl, hz⟩
    case replace w r out hw _ =>
      exact absurd ho.symm <| not_overlap hy hq C.not_mentions (C.last hw) (C.not_mem hw)

theorem free (C : Clears word D mark e f q) (hq : q = e.expr ∨ Free q l s) (h : Replaces e f l s out)
    (hl : ∀ y z, s = y ++ z → q.Matches lo y z → q.Matches l y z) : Free q lo out := by
  induction h generalizing lo
  case nil =>
    intro x w r hs hm
    have ⟨c, hc, _⟩ := C.endsIn hm
    simp_all
  case keep l c s out hn h hi =>
    intro x w r hs hm
    cases x
    case nil =>
      have hs : c :: out = w ++ r := hs
      have ⟨z, hz, ha⟩ := of_match C (hs ▸ keep hn h) (C.endsIn hm) fun _ => hm.mentions
      have hm := hl w z hz <| hm.alike C.local_alike .refl ha
      rcases hq with rfl | hq
      · exact hn w z hz hm
      · exact hq [] w z hz hm
    case cons c' x =>
      obtain ⟨rfl, rfl⟩ := List.cons.inj hs
      refine hi (hq.imp_right (Free.tail (w := [c]))) ?_ x w r rfl (by simpa using hm)
      exact fun y z _ h => h.alike C.local_alike .cons .refl
  case replace l w r out hw h hi =>
    have hr : Free q ((f w).reverse ++ lo) out :=
      hi (hq.imp_right Free.tail) fun y z hs hm => C.after (hs ▸ hw) hm
    intro x y z hs hm
    rw [List.append_assoc] at hs
    rcases List.append_eq_append_iff.mp hs with ⟨t, hx, ho⟩ | ⟨t, hf, ho⟩
    · subst hx
      exact hr t y z (by simp [ho]) (by simpa using hm)
    · by_cases ht : t = []
      case pos =>
        subst ht
        exact hr [] y z (by simpa using ho.symm) (by simpa [hf] using hm)
      case neg =>
        refine not_overlap (C.endsIn hm) (fun _ => hm.mentions) C.not_mentions ?_ ?_ ho.symm
        · simpa [hf, List.getLast?_append, ht] using C.last hw
        · exact fun c hc => C.not_mem hw c (hf ▸ List.mem_append_right x hc)

end Replaces

theorem Clears.free (C : Clears word D mark e f q) (hq : q = e.expr ∨ Free q [] s) :
    Free q [] (replaceAll e f s) :=
  replaces_replaceAll.free C hq fun _ _ _ => id

theorem free_runAll_of_free (hc : ∀ p ∈ ps, Clears word D mark p.pattern p.replacement q) (hq : Free q [] s) :
    Free q [] (runAll ps s) := by
  induction ps generalizing s
  case nil => exact hq
  case cons p ps hi =>
    have ⟨hp, hc⟩ := List.forall_mem_cons.mp hc
    exact hi hc (hp.free (.inr hq))

-- If every pass clears its own pattern and those of the passes before it then nothing is left to do.
theorem free_runAll
    (hs : ∀ p ∈ ps, Clears word D mark p.pattern p.replacement p.pattern.expr)
    (hp : ps.Pairwise fun p p' => Clears word D mark p'.pattern p'.replacement p.pattern.expr) :
    ∀ p ∈ ps, Free p.pattern.expr [] (runAll ps s) := by
  induction ps generalizing s
  case nil => simp
  case cons p ps hi =>
    have ⟨hc, hs⟩ := List.forall_mem_cons.mp hs
    have ⟨ha, hp⟩ := List.pairwise_cons.mp hp
    have hf : Free p.pattern.expr [] (runAll ps (p.run s)) := free_runAll_of_free ha (hc.free (.inl rfl))
    exact List.forall_mem_cons.mpr ⟨hf, hi hs hp⟩

theorem runAll_eq_self (h : ∀ p ∈ ps, Free p.pattern.expr [] s) : runAll ps s = s := by
  induction ps
  case nil => rfl
  case cons p ps hi =>
    have ⟨hp, h⟩ := List.forall_mem_cons.mp h
    have hs : p.run s = s := replaces_replaceAll.eq_self hp
    exact (congrArg (runAll ps) hs).trans (hi h)

end Regexp
