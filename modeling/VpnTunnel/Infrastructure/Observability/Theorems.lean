import VpnTunnel.Infrastructure.Observability.Scrubhandler

namespace Infrastructure.Observability

open Regexp ByteString Netip

variable {l lo r s w y z out : ByteString} {c : UInt8}

section Characters

theorem isWord_of_isDigit : ∀ c, isDigit c → isWord c :=
  forall_byte (by decide +kernel)

theorem not_isWord_of_isDelimiter : ∀ c, isDelimiter c → ¬isWord c :=
  forall_byte (by decide +kernel)

theorem not_isGivenBack_of_isLetter : ∀ c, isLetter c → ¬isGivenBack c :=
  forall_byte (by decide +kernel)

theorem not_isWord_of_isGivenBack : ∀ c, isGivenBack c → ¬isWord c :=
  forall_byte (by decide +kernel)

end Characters

section Avoids

theorem endsIn_portEnd : portEnd.EndsIn isDigit :=
  .seq (.seq_assert .plus)

theorem local_portEnd : portEnd.Local (Alike isWord) :=
  ⟨local_lit, ⟨trivial, trivial⟩, local_boundary⟩

theorem local_octet : octet.Local (Alike isWord) :=
  ⟨trivial, .upTo trivial⟩

theorem local_hostPort : hostPort.Local (Alike isWord) :=
  ⟨trivial, trivial, local_lit, .times trivial, trivial, local_portEnd⟩

theorem local_reIPv6Port {R : ByteString → ByteString → Prop} : reIPv6Port.expr.Local R :=
  ⟨local_lit, ⟨trivial, trivial⟩, local_lit, local_lit, trivial, trivial⟩

-- No pattern matches a text with the last byte of the marker.
theorem reIPv4Port_avoids : Avoids isWord isDigit 0x3E reIPv4Port.expr where
  endsIn       := .seq (.seq (.seq endsIn_portEnd))
  word_of_last := isWord_of_isDigit
  not_mentions := by decide
  local_alike  := ⟨local_boundary, .times ⟨local_octet, local_lit⟩, local_octet, local_portEnd⟩

theorem reIPv6Port_avoids : Avoids isWord isDigit 0x3E reIPv6Port.expr where
  endsIn       := .seq (.seq (.seq (.seq .plus)))
  word_of_last := isWord_of_isDigit
  not_mentions := by decide
  local_alike  := local_reIPv6Port

theorem reHostnamePort_avoids : Avoids isWord isDigit 0x3E reHostnamePort.expr where
  endsIn       := .seq (.seq (.seq (.seq (.seq (.seq endsIn_portEnd)))))
  word_of_last := isWord_of_isDigit
  not_mentions := by decide
  local_alike  := ⟨⟨local_start, trivial⟩, local_hostPort⟩

theorem reLocalhostPort_avoids : Avoids isWord isDigit 0x3E reLocalhostPort.expr where
  endsIn       := .seq (.seq endsIn_portEnd)
  word_of_last := isWord_of_isDigit
  not_mentions := by decide
  local_alike  := ⟨local_boundary, local_lit, local_portEnd⟩

end Avoids

section Marks

theorem getLast?_scrubReplacement : scrubReplacement.getLast? = some 0x3E := by
  decide +kernel

theorem not_isDigit_of_mem : ∀ c ∈ scrubReplacement, ¬isDigit c := by
  decide +kernel

theorem not_wordAt_scrubReplacement : wordAt isWord scrubReplacement = false := by
  decide +kernel

theorem wordAt_eq_false {p : UInt8 → Bool} (h : ∃ c ∈ w.head?, p c) (hp : ∀ c, p c → ¬isWord c) :
    wordAt isWord w = false := by
  have ⟨c, hc, h⟩ := h
  simp_all [wordAt]

theorem marks {e : Pattern UInt8}
    (hs : ∀ {l w r}, e.expr.First l w r → wordAt isWord l → wordAt isWord w = false) :
    Marks isWord isDigit 0x3E e fun _ => scrubReplacement where
  last       := fun _ => getLast?_scrubReplacement
  not_mem    := fun _ => not_isDigit_of_mem
  not_wordAt := fun _ => not_wordAt_scrubReplacement
  starts     := hs

theorem reIPv4Port_marks : Marks isWord isDigit 0x3E reIPv4Port fun _ => scrubReplacement :=
  marks fun h => h.matches.not_wordAt_left (h.matches.ne_nil reIPv4Port.consuming)

theorem reIPv6Port_marks : Marks isWord isDigit 0x3E reIPv6Port fun _ => scrubReplacement :=
  marks fun h _ => wordAt_eq_false (StartsIn.cls.seq.seq h.matches) (forall_byte (by decide +kernel))

theorem reLocalhostPort_marks : Marks isWord isDigit 0x3E reLocalhostPort fun _ => scrubReplacement :=
  marks fun h => h.matches.not_wordAt_left (h.matches.ne_nil reLocalhostPort.consuming)

-- A match is at the start of the text, or there is a delimiter at its start.
theorem reHostnamePort_elim (h : reHostnamePort.expr.Matches l w r) :
    (l = [] ∧ hostPort.Matches [] w r) ∨ ∃ c v, w = c :: v ∧ isDelimiter c ∧ hostPort.Matches (c :: l) v r := by
  cases h
  case seq u v ha hb =>
    cases ha
    case left ha =>
      cases ha
      case assert hl =>
        have hl := List.isEmpty_iff.mp hl
        subst hl
        exact .inl ⟨rfl, hb⟩
    case right ha =>
      cases ha
      case cls c hc => exact .inr ⟨c, v, rfl, hc, hb⟩

theorem replaceHostname_elim :
    replaceHostname w = scrubReplacement ∨ ∃ c, isGivenBack c ∧ replaceHostname w = c :: scrubReplacement := by
  cases w
  case nil => exact .inl rfl
  case cons c w =>
    rw [replaceHostname]
    split
    case isTrue hc => exact .inr ⟨c, hc, rfl⟩
    case isFalse   => exact .inl rfl

theorem reHostnamePort_marks : Marks isWord isDigit 0x3E reHostnamePort replaceHostname where
  last := fun {_ w _} _ => by
    obtain h | ⟨c, _, h⟩ := replaceHostname_elim (w := w)
    · rw [h, getLast?_scrubReplacement]
    · rw [h, List.getLast?_cons, getLast?_scrubReplacement, Option.getD_some]
  not_mem := fun {_ w _} _ => by
    obtain h | ⟨c, hc, h⟩ := replaceHostname_elim (w := w)
    · rw [h]
      exact not_isDigit_of_mem
    · rw [h, List.forall_mem_cons]
      exact ⟨fun hd => not_isWord_of_isGivenBack c hc (isWord_of_isDigit c hd), not_isDigit_of_mem⟩
  not_wordAt := fun {_ w _} _ => by
    obtain h | ⟨c, hc, h⟩ := replaceHostname_elim (w := w)
    · rw [h, not_wordAt_scrubReplacement]
    · rw [h]
      exact Bool.eq_false_iff.mpr (not_isWord_of_isGivenBack c hc)
  starts := fun h hl => by
    obtain ⟨rfl, _⟩ | ⟨c, v, rfl, hc, _⟩ := reHostnamePort_elim h.matches
    · contradiction
    · exact Bool.eq_false_iff.mpr (not_isWord_of_isDelimiter c hc)

end Marks

section Clears

-- A word does not go on after a port with a boundary.
theorem not_wordAt_next {q : Regexp UInt8} (hf : q.final = boundary isWord) (hq : Avoids isWord isDigit 0x3E q)
    (h : q.First l w r) : wordAt isWord r = false :=
  h.not_wordAt_right hf fun _ _ _ hm => (hq.endsIn hm).imp fun c hc => hc.imp_right (isWord_of_isDigit c)

theorem not_isDigit_next {q : Regexp UInt8} (hf : q.final = boundary isWord) (hq : Avoids isWord isDigit 0x3E q)
    (h : q.First l w r) : ∀ c ∈ r.head?, ¬isDigit c := by
  intro c hc hd
  have hr := not_wordAt_next hf hq h
  have hword := isWord_of_isDigit c hd
  simp_all [wordAt]

-- The boundary is missing here, but all digits are taken.
theorem reIPv6Port_next (h : reIPv6Port.expr.First l w r) : ∀ c ∈ r.head?, ¬isDigit c :=
  have ⟨_, _, _, hf⟩ := h.final
  hf.star

variable {e : Pattern UInt8} {f : ByteString → ByteString}

theorem clears_reIPv4Port (M : Marks isWord isDigit 0x3E e f)
    (hn : ∀ {l w r}, e.expr.First l w r → ∀ c ∈ r.head?, ¬isDigit c) :
    Clears isWord isDigit 0x3E e f reIPv4Port.expr where
  toMarks  := M
  toAvoids := reIPv4Port_avoids
  after    := fun hw hm => by
    have hs : reIPv4Port.expr.StartsIn isDigit := .assert_seq (.seq (.seq (.seq (.seq .cls))))
    have ⟨c, hc, hd⟩ := hs hm
    exact absurd hd (hn hw c (by simp_all))

theorem clears_reIPv6Port (M : Marks isWord isDigit 0x3E e f) :
    Clears isWord isDigit 0x3E e f reIPv6Port.expr where
  toMarks  := M
  toAvoids := reIPv6Port_avoids
  after    := fun _ hm => hm.congr (fun _ _ _ _ => trivial) local_reIPv6Port trivial (R := fun _ _ => True) trivial

theorem clears_reHostnamePort (M : Marks isWord isDigit 0x3E e f) :
    Clears isWord isDigit 0x3E e f reHostnamePort.expr where
  toMarks  := M
  toAvoids := reHostnamePort_avoids
  after    := fun hw hm => by
    obtain ⟨hl, _⟩ | ⟨c, v, rfl, hc, hm⟩ := reHostnamePort_elim hm
    · have hf := M.last hw
      simp_all
    · exact .seq (.right (.cls hc)) (hm.alike local_hostPort .cons .refl)

theorem clears_reLocalhostPort (M : Marks isWord isDigit 0x3E e f)
    (hn : ∀ {l w r}, e.expr.First l w r → wordAt isWord r = false) :
    Clears isWord isDigit 0x3E e f reLocalhostPort.expr where
  toMarks  := M
  toAvoids := reLocalhostPort_avoids
  after    := fun hw hm => by
    have hs : reLocalhostPort.expr.StartsIn (· == 0x6C) := .assert_seq (.seq (.seq .cls))
    have ⟨c, hc, hd⟩ := hs hm
    have hword : isWord c := eq_of_beq hd ▸ rfl
    have hr := hn hw
    simp_all [wordAt]

end Clears

section Passes

def passes : List (Pass UInt8) := [
  ⟨reIPv4Port,      fun _ => scrubReplacement⟩,
  ⟨reIPv6Port,      fun _ => scrubReplacement⟩,
  ⟨reHostnamePort,  replaceHostname⟩,
  ⟨reLocalhostPort, fun _ => scrubReplacement⟩
]

theorem scrubString_eq_runAll : scrubString s = runAll passes s :=
  rfl

theorem clears_self : ∀ p ∈ passes, Clears isWord isDigit 0x3E p.pattern p.replacement p.pattern.expr := by
  simp only [passes, List.forall_mem_cons]
  refine ⟨?_, ?_, ?_, ?_, by simp⟩
  · exact clears_reIPv4Port reIPv4Port_marks (not_isDigit_next rfl reIPv4Port_avoids)
  · exact clears_reIPv6Port reIPv6Port_marks
  · exact clears_reHostnamePort reHostnamePort_marks
  · exact clears_reLocalhostPort reLocalhostPort_marks (not_wordAt_next rfl reLocalhostPort_avoids)

-- A word may go on after the text that the pass for IPv6 addresses replaces, but the one for `localhost` is later.
theorem clears_earlier :
    passes.Pairwise fun p p' => Clears isWord isDigit 0x3E p'.pattern p'.replacement p.pattern.expr := by
  simp only [passes, List.pairwise_cons, List.forall_mem_cons]
  refine ⟨⟨?_, ?_, ?_, by simp⟩, ⟨?_, ?_, by simp⟩, ⟨?_, by simp⟩, by simp⟩
  · exact clears_reIPv4Port reIPv6Port_marks reIPv6Port_next
  · exact clears_reIPv4Port reHostnamePort_marks (not_isDigit_next rfl reHostnamePort_avoids)
  · exact clears_reIPv4Port reLocalhostPort_marks (not_isDigit_next rfl reLocalhostPort_avoids)
  · exact clears_reIPv6Port reHostnamePort_marks
  · exact clears_reIPv6Port reLocalhostPort_marks
  · exact clears_reHostnamePort reLocalhostPort_marks

-- Each of the four patterns is searched for in a text, and none of them is found.
def Scrubbed (s : ByteString) : Prop :=
  ∀ e ∈ [reIPv4Port, reIPv6Port, reHostnamePort, reLocalhostPort], Free e.expr [] s

theorem scrubbed_iff : Scrubbed s ↔ ∀ p ∈ passes, Free p.pattern.expr [] s := by
  simp [Scrubbed, passes]

theorem scrubbed_scrubString : Scrubbed (scrubString s) := by
  rw [scrubString_eq_runAll, scrubbed_iff]
  exact free_runAll clears_self clears_earlier

theorem Scrubbed.scrubString_eq (h : Scrubbed s) : scrubString s = s := by
  rw [scrubString_eq_runAll]
  exact runAll_eq_self (scrubbed_iff.mp h)

theorem scrubString_fixed (s : ByteString) :
    Scrubbed (scrubString s) ∧ scrubString (scrubString s) = scrubString s :=
  ⟨scrubbed_scrubString, scrubbed_scrubString.scrubString_eq⟩

example : scrubString (ofString "dial 192.168.1.100:8443 failed") = ofString "dial <HOST:PORT> failed" := by
  decide +kernel

end Passes

section Handler

variable {β : Type} {tooMany : β} {n : Nat} {v : Value β} {as : Attrs β} {record : Record β}

mutual
def Value.Scrubbed : Value β → Prop
  | .string s => Observability.Scrubbed s
  | .group as => as.Scrubbed
  | .valuer _ => False
  | .other _  => True

def Attrs.Scrubbed : Attrs β → Prop
  | .nil         => True
  | .cons _ v as => v.Scrubbed ∧ as.Scrubbed
end

mutual
theorem Value.scrubbed_scrubAttr : (v : Value β) → (n : Nat) → (scrubAttr tooMany v n).Scrubbed
  | v,         0     => by cases v <;> trivial
  | .valuer v, n + 1 => v.scrubbed_scrubAttr n
  | .string s, _ + 1 => scrubbed_scrubString
  | .group as, _ + 1 => as.scrubbed_scrubAttrs
  | .other v,  _ + 1 => trivial

theorem Attrs.scrubbed_scrubAttrs : (as : Attrs β) → (scrubAttrs tooMany as).Scrubbed
  | .nil         => trivial
  | .cons _ v as => ⟨v.scrubbed_scrubAttr maxLogValues, as.scrubbed_scrubAttrs⟩
end

mutual
theorem Value.Scrubbed.scrubAttr_eq : {v : Value β} → v.Scrubbed → scrubAttr tooMany v maxLogValues = v
  | .string _, h => congrArg Value.string h.scrubString_eq
  | .group _,  h => congrArg Value.group h.scrubAttrs_eq
  | .other _,  _ => rfl

theorem Attrs.Scrubbed.scrubAttrs_eq : {as : Attrs β} → as.Scrubbed → scrubAttrs tooMany as = as
  | .nil,         _ => rfl
  | .cons _ _ _,  h => congrArg₂ (Attrs.cons _) h.1.scrubAttr_eq h.2.scrubAttrs_eq
end

-- No text gets to the next handler unscrubbed, and a second handler would not find anything.
theorem scrubbed_handle : Observability.Scrubbed (handle tooMany record).message ∧
    (handle tooMany record).attrs.Scrubbed ∧ handle tooMany (handle tooMany record) = handle tooMany record := by
  have hm : Observability.Scrubbed (handle tooMany record).message := scrubbed_scrubString
  have ha : (handle tooMany record).attrs.Scrubbed := record.attrs.scrubbed_scrubAttrs
  refine ⟨hm, ha, ?_⟩
  rw [handle, hm.scrubString_eq, ha.scrubAttrs_eq]

end Handler

end Infrastructure.Observability
