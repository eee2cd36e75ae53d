import Mathlib.Logic.Relation
import VpnTunnel.Infrastructure.Wgconf.Theorems

namespace Infrastructure.Wgconf

open ByteString

-- A comment, or nothing.
inductive Comment : ByteString → Prop
  | none : Comment []
  | some {c} : Comment (hash :: c)

-- A line that starts with a bracket.
inductive Header : ByteString → Prop
  | intro {w t} : Blank spaces w → Header (w ++ lbracket :: t)

-- A line that assigns a value to a key, with spaces around both of them.
inductive KeyLine : (line key val : ByteString) → Prop
  | intro {w₁ w₂ w₃ w₄ key val rest} :
      Blank spaces w₁ → Blank spaces w₂ → Blank spaces w₃ → Blank spaces w₄ → Comment rest →
      trimSpace key = key → key.head? ≠ some lbracket → equals ∉ key → hash ∉ key →
      trimSpace val = val → hash ∉ val →
      KeyLine (w₁ ++ key ++ w₂ ++ equals :: (w₃ ++ val ++ w₄ ++ rest)) key val

-- The keys of a section, in lower case.
def sectionKeys : Option Section → List ByteString
  | none            => []
  | some .interface => ["privatekey", "address", "dns", "mtu"].map .ofString
  | some .peer      =>
    ["publickey", "endpoint", "allowedips", "persistentkeepalive", "presharedkey"].map .ofString

-- The section of the last header.
def enter (sec : Option Section) (line : ByteString) : Option Section :=
  if content line = Section.interface.header then some .interface
  else if content line = Section.peer.header then some .peer
  else sec

def sectionAfter (ls : List ByteString) : Option Section :=
  ls.foldl enter none

-- The lines that may be added to a section.
inductive Ignored (table : CaseTable) (sec : Option Section) : ByteString → Prop
  | blank {line} : Blank spaces line → Ignored table sec line
  | comment {w c} : Blank spaces w → Ignored table sec (w ++ hash :: c)
  | malformed {line} : ¬Header line → equals ∉ line → Ignored table sec line
  | warnAndSkip {line key val} :
      KeyLine line key val → toLower table key ∈ warnAndSkipKeys → Ignored table sec line
  | unknown {line key val} :
      KeyLine line key val → toLower table key ∉ sectionKeys sec → Ignored table sec line

-- The edits of the lines of a section.
inductive Edit.Local (table : CaseTable) (sec : Option Section) :
    List ByteString → List ByteString → Prop
  | insert {line} : Ignored table sec line → Local table sec [] [line]
  | comment {line c} : Local table sec [line] [line ++ hash :: c]
  | respell {line line' key key' val} :
      KeyLine line key val → KeyLine line' key' val → key.map lowerByte = key'.map lowerByte →
      Local table sec [line] [line']
  | swap {line₁ line₂ key₁ key₂ val₁ val₂} :
      KeyLine line₁ key₁ val₁ → KeyLine line₂ key₂ val₂ → toLower table key₁ ≠ toLower table key₂ →
      Local table sec [line₁, line₂] [line₂, line₁]

inductive Edit (table : CaseTable) : List ByteString → List ByteString → Prop
  | intro (xs ys) {ls ls'} :
      Edit.Local table (sectionAfter xs) ls ls' → Edit table (xs ++ ls ++ ys) (xs ++ ls' ++ ys)

variable {table : CaseTable} {p p₁ p₂ : Parser} {sec : Option Section}
  {line line' key key' val body w c : ByteString} {ls ls' : List ByteString}

section Lines

theorem content_comment (line c : ByteString) : content (line ++ hash :: c) = content line := by
  rcases comment_cases line with hn | ⟨x, y, rfl, hx⟩
  · rw [content_append hn, content_of_not_mem hn]
  · rw [List.append_assoc, List.cons_append, content_append hx, content_append hx]

theorem Comment.content (h : Comment w) (hn : hash ∉ line) : content (line ++ w) = trimSpace line := by
  cases h
  case none => rw [List.append_nil, content_of_not_mem hn]
  case some => exact content_append hn

theorem mem_of_mem_content {b : UInt8} (h : b ∈ content line) : b ∈ line := by
  rcases comment_cases line with hn | ⟨x, y, rfl, hx⟩
  · rw [content_of_not_mem hn] at h
    exact mem_of_mem_trimSpace h
  · rw [content_append hx] at h
    exact List.mem_append_left _ (mem_of_mem_trimSpace h)

theorem header_of_content (h : (content line).head? = some lbracket) : Header line := by
  rw [head?_content] at h
  have ⟨t, ht⟩ := List.head?_eq_some_iff.mp h
  have ⟨w, hw, hl, _⟩ := trimLeft_spec isCode_spaces line
  have ⟨u, _, hr, _⟩ := trimRight_spec isCode_reverse_spaces (trimLeft spaces line)
  rw [← trimSpace, ht] at hr
  rw [hl, hr]
  exact .intro hw

theorem head?_trimLeft (h : (trimSpace line).head? ≠ some lbracket) :
    (trimLeft spaces line).head? ≠ some lbracket := by
  intro hl
  have ⟨t, ht⟩ := List.head?_eq_some_iff.mp hl
  refine h ?_
  rw [trimSpace, ht, ← List.nil_append (lbracket :: t),
    trimRight_append_cons isCode_reverse_spaces lbracket_not_mem_spaces]
  rfl

-- An assignment, with whatever spaces and comment there are.
theorem handleLine_assignment {x y : ByteString} (hw : Comment w) (hb : (trimSpace x).head? ≠ some lbracket)
    (hx : equals ∉ x) (hxn : hash ∉ x) (hyn : hash ∉ y) :
    p.handleLine table (x ++ equals :: (y ++ w)) = p.handleKey table (trimSpace x) (trimSpace y) := by
  have hn : hash ∉ x ++ equals :: y := by
    simpa [hxn, hyn] using (by decide : hash ≠ equals)
  have hc : content (x ++ equals :: (y ++ w)) =
      trimLeft spaces x ++ equals :: trimRight spaces y := by
    rw [← List.cons_append, ← List.append_assoc, hw.content hn,
      trimSpace_append_cons equals_not_mem_spaces]
  have hl : (trimLeft spaces x ++ equals :: trimRight spaces y).head? ≠ some lbracket := by
    have hb := head?_trimLeft hb
    cases ht : trimLeft spaces x
    case nil => exact (by decide : equals ≠ lbracket) ∘ Option.some.inj
    case cons => rwa [ht] at hb
  have hcut := cut_append_cons (y := trimRight spaces y) fun h => hx (mem_of_mem_trimLeft h)
  simp only [Parser.handleLine, hc, if_neg hl, hcut, trimSpace_trimLeft, trimSpace_trimRight]

theorem KeyLine.handleLine (h : KeyLine line key val) :
    p.handleLine table line = p.handleKey table key val := by
  cases h
  case intro w₁ w₂ w₃ w₄ rest h₁ h₂ h₃ h₄ hr hk hb he hh hv hvh =>
    have hx : trimSpace (w₁ ++ key ++ w₂) = key := by
      rw [trimSpace_append h₂, trimSpace_blank_append h₁, hk]
    have hy : trimSpace (w₃ ++ val ++ w₄) = val := by
      rw [trimSpace_append h₄, trimSpace_blank_append h₃, hv]
    have hxn : hash ∉ w₁ ++ key ++ w₂ := by
      simp [hh, h₁.not_mem hash_not_mem_spaces, h₂.not_mem hash_not_mem_spaces]
    have hyn : hash ∉ w₃ ++ val ++ w₄ := by
      simp [hvh, h₃.not_mem hash_not_mem_spaces, h₄.not_mem hash_not_mem_spaces]
    have hxe : equals ∉ w₁ ++ key ++ w₂ := by
      simp [he, h₁.not_mem equals_not_mem_spaces, h₂.not_mem equals_not_mem_spaces]
    rw [handleLine_assignment hr (by rwa [hx]) hxe hxn hyn, hx, hy]

end Lines

namespace Parser

-- An assignment to a key that is not one of the section is skipped.
theorem handleKey_unknown (h : toLower table key ∉ sectionKeys p.currentSection) :
    p.handleKey table key val = .ok p := by
  simp only [handleKey]
  split
  case isTrue => rfl
  case isFalse =>
    split
    case h_1 hs =>
      rw [hs] at h
      simp only [sectionKeys, List.map_cons, List.map_nil, List.mem_cons, not_or] at h
      simp [handleInterfaceKey, h]
    case h_2 hs =>
      rw [hs] at h
      simp only [sectionKeys, List.map_cons, List.map_nil, List.mem_cons, not_or] at h
      simp [handlePeerKey, h]
    case h_3 => rfl

-- Two assignments to different keys can be swapped, up to which of them fails.
theorem handleKey_comm {val' : ByteString} (h : toLower table key ≠ toLower table key') :
    (p.handleKey table key val >>= (·.handleKey table key' val')).toOption =
      (p.handleKey table key' val' >>= (·.handleKey table key val)).toOption := by
  have h₁ := handleKey_handles table p.currentSection key val
  have h₂ := handleKey_handles table p.currentSection key' val'
  cases h₁ <;> cases h₂
  case sets.sets f hf h₁ g hg h₂ =>
    rw [h₁ p rfl, h₂ p rfl]
    simp [bind, Except.bind, h₁ _ hg.currentSection, h₂ _ hf.currentSection, hf.comm hg h]
  case sets.fails f hf h₁ e h₂ =>
    rw [h₁ p rfl, h₂ p rfl]
    simp [bind, Except.bind, h₂ _ hf.currentSection, Except.toOption]
  case fails.sets e h₁ g hg h₂ =>
    rw [h₁ p rfl, h₂ p rfl]
    simp [bind, Except.bind, h₁ _ hg.currentSection, Except.toOption]
  case fails.fails h₁ _ h₂ =>
    rw [h₁ p rfl, h₂ p rfl]
    rfl

theorem handleLine_currentSection (h : p₁.handleLine table line = .ok p₂) :
    p₂.currentSection = enter p₁.currentSection line := by
  simp only [handleLine] at h
  split at h
  case isTrue =>
    obtain ⟨s, hs, hc, _⟩ := handleSection_elim h
    rw [hc, enter, hs]
    cases s <;> rfl
  case isFalse hb =>
    have hn (s : Section) : content line ≠ s.header := by
      intro hs
      rw [hs] at hb
      cases s <;> exact hb rfl
    rw [enter, if_neg (hn _), if_neg (hn _)]
    split at h
    case h_1 =>
      cases h
      rfl
    case h_2 => exact handleKey_currentSection h

theorem foldlM_currentSection (h : ls.foldlM (handleLine table) p₁ = .ok p₂) :
    p₂.currentSection = ls.foldl enter p₁.currentSection := by
  refine List.foldlM_invariant
    (P := fun ls p => p.currentSection = ls.foldl enter p₁.currentSection) rfl ?_ h
  intro ls p line p' hp h
  rw [handleLine_currentSection h, hp, List.foldl_append]
  rfl

theorem handleLine_ignored (h : Ignored table p.currentSection line) : p.handleLine table line = .ok p := by
  have hn {line : ByteString} (hc : content line = []) : p.handleLine table line = .ok p := by
    simp [handleLine, hc, cut]
  cases h
  case blank hb =>
    refine hn ?_
    rw [content_of_not_mem (hb.not_mem hash_not_mem_spaces), trimSpace_blank hb]
  case comment hb =>
    refine hn ?_
    rw [content_append (hb.not_mem hash_not_mem_spaces), trimSpace_blank hb]
  case malformed hh he =>
    have hc : cut equals (content line) = none := cut_eq_none_iff.mpr fun h => he (mem_of_mem_content h)
    have hl : (content line).head? ≠ some lbracket := mt header_of_content hh
    simp only [handleLine, if_neg hl, hc]
  case warnAndSkip key val hw hk =>
    rw [hk.handleLine]
    exact if_pos hw
  case unknown key val hu hk => rw [hk.handleLine, handleKey_unknown hu]

end Parser

-- What the edits of a section do not change.
theorem Edit.Local.toOption_eq (h : Edit.Local table p.currentSection ls ls') :
    (ls.foldlM (Parser.handleLine table) p).toOption = (ls'.foldlM (Parser.handleLine table) p).toOption := by
  cases h
  case insert hi => simp [Parser.handleLine_ignored hi, bind, Except.bind, pure, Except.pure]
  case comment line c =>
    have hl : p.handleLine table (line ++ hash :: c) = p.handleLine table line := by
      simp only [Parser.handleLine, content_comment]
    simp [hl]
  case respell hk hk' he =>
    have hl : p.handleLine table _ = p.handleLine table _ := hk.handleLine.trans (Eq.trans (by
      simp only [Parser.handleKey, toLower_eq_of_map_lowerByte_eq he]) hk'.handleLine.symm)
    simp [hl]
  case swap hk₁ hk₂ hn =>
    simp only [List.foldlM_cons, List.foldlM_nil, hk₁.handleLine, hk₂.handleLine, bind_pure]
    exact Parser.handleKey_comm hn

-- The whole text, up to which of its errors is reported.
def parseLines (table : CaseTable) (ls : List ByteString) : Option ParsedConfig :=
  (ls.foldlM (Parser.handleLine table) .init >>= Parser.build).toOption

theorem Edit.parseLines_eq (h : Edit table ls ls') : parseLines table ls = parseLines table ls' := by
  cases h
  case intro xs ys ls ls' h =>
    simp only [parseLines, List.foldlM_append, Except.toOption_bind]
    cases hx : xs.foldlM (Parser.handleLine table) .init
    case error => rfl
    case ok p =>
      have hp : p.currentSection = sectionAfter xs := Parser.foldlM_currentSection hx
      have ho : (Except.ok p : Except Error Parser).toOption = some p := rfl
      rw [← hp] at h
      simp only [ho, Option.bind_eq_bind, Option.bind_some, h.toOption_eq]

theorem parseLines_eq_of_edits (h : Relation.EqvGen (Edit table) ls ls') :
    parseLines table ls = parseLines table ls' := by
  induction h
  case rel h         => exact h.parseLines_eq
  case refl          => rfl
  case symm hi       => exact hi.symm
  case trans hi₁ hi₂ => exact hi₁.trans hi₂

-- No number of such edits makes a difference, as long as both texts can be read by the scanner.
theorem parse_eq_of_edits {body' : ByteString} (hb : ∀ l ∈ body.lines, l.length < maxScanTokenSize)
    (hb' : ∀ l ∈ body'.lines, l.length < maxScanTokenSize)
    (he : Relation.EqvGen (Edit table) body.lines body'.lines) :
    (parse table body).toOption = (parse table body').toOption := by
  rw [parse_of_short hb, parse_of_short hb']
  exact parseLines_eq_of_edits he

def sampleConf : List ByteString :=
  ["[Interface]", "PrivateKey = k", "Address = 10.64.0.2/32", "[Peer]", "PublicKey = p",
    "Endpoint = 192.0.2.1:51820", ""].map .ofString

-- The same with a comment in front, and with the first two keys in another order.
def editedConf : List ByteString :=
  ["# edited", "[Interface]", "Address = 10.64.0.2/32", "PrivateKey = k", "[Peer]", "PublicKey = p",
    "Endpoint = 192.0.2.1:51820", ""].map .ofString

theorem KeyLine.of_equals (key val : ByteString) (hk : trimSpace key = key) (hb : key.head? ≠ some lbracket)
    (he : equals ∉ key) (hh : hash ∉ key) (hv : trimSpace val = val) (hvh : hash ∉ val) :
    KeyLine ([] ++ key ++ [0x20] ++ equals :: ([0x20] ++ val ++ [] ++ [])) key val :=
  have hw : Blank spaces [0x20] := .of_mem (by decide)
  .intro .nil hw hw .nil .none hk hb he hh hv hvh

theorem sampleConf_edits : Relation.EqvGen (Edit default) sampleConf editedConf := by
  have hk := KeyLine.of_equals (.ofString "PrivateKey") (.ofString "k")
    (by decide) (by decide) (by decide) (by decide) (by decide) (by decide)
  have ha := KeyLine.of_equals (.ofString "Address") (.ofString "10.64.0.2/32")
    (by decide) (by decide) (by decide) (by decide) (by decide) (by decide)
  refine .trans _ _ _ (.rel _ _ <| .intro (sampleConf.take 1) (sampleConf.drop 3) <|
    .swap hk ha (by decide)) ?_
  exact .rel _ _ <| .intro [] editedConf.tail <| .insert <|
    .comment (w := []) .nil

theorem parse_eq_of_edits_sampleConf :
    (parse default (unlines sampleConf)).toOption.isSome ∧
    (parse default (unlines sampleConf)).toOption = (parse default (unlines editedConf)).toOption := by
  have hs : (unlines sampleConf).lines = sampleConf := by decide
  have he : (unlines editedConf).lines = editedConf := by decide
  refine ⟨by decide +kernel, parse_eq_of_edits ?_ ?_ ?_⟩
  · rw [hs]
    decide
  · rw [he]
    decide
  · rw [hs, he]
    exact sampleConf_edits

end Infrastructure.Wgconf
