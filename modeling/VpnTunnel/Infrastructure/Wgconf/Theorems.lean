import VpnTunnel.Infrastructure.Wgconf.Basic
import VpnTunnel.Lib.Batch

namespace Infrastructure.Wgconf

open ByteString

namespace Parser

-- What an assignment does to the parser: it changes the field of its key, or nothing.
inductive Sets : ByteString → (Parser → Parser) → Prop
  | skip {key} : Sets key id
  | privateKey {v} :
      Sets (.ofString "privatekey") fun p => { p with iface := { p.iface with privateKey := v } }
  | addresses {v} :
      Sets (.ofString "address") fun p =>
        { p with iface := { p.iface with addresses := p.iface.addresses ++ v } }
  | dns {v} :
      Sets (.ofString "dns") fun p => { p with iface := { p.iface with dns := p.iface.dns ++ v } }
  | mtu {v} :
      Sets (.ofString "mtu") fun p => { p with iface := { p.iface with mtu := v } }
  | publicKey {v} :
      Sets (.ofString "publickey") fun p => { p with peer := { p.peer with publicKey := v } }
  | endpoint {v} :
      Sets (.ofString "endpoint") fun p => { p with peer := { p.peer with endpoint := v } }
  | allowedIPs {v} :
      Sets (.ofString "allowedips") fun p =>
        { p with peer := { p.peer with allowedIPs := p.peer.allowedIPs ++ v } }
  | keepalive {v} :
      Sets (.ofString "persistentkeepalive") fun p =>
        { p with peer := { p.peer with persistentKeepaliveSeconds := v }, keepaliveSet := true }
  | presharedKey {v} :
      Sets (.ofString "presharedkey") fun p => { p with peer := { p.peer with presharedKey := v } }

-- In a section, an assignment does the same to each parser, or it fails.
inductive Handles (sec : Option Section) (key : ByteString) (handle : Parser → Except Error Parser) : Prop
  | sets {f} : Sets key f → (∀ p, p.currentSection = sec → handle p = .ok (f p)) → Handles sec key handle
  | fails {e} : (∀ p, p.currentSection = sec → handle p = .error e) → Handles sec key handle

end Parser

variable {table : CaseTable} {p p₁ p₂ : Parser} {sec : Option Section}
  {raw x y key key' val body : ByteString} {ls : List ByteString} {cfg : ParsedConfig}

abbrev hash : UInt8 := 0x23
abbrev lbracket : UInt8 := 0x5B

def privatekey : ByteString :=
  .ofString "privatekey"

section Content

theorem hash_not_mem_spaces : ∀ e ∈ spaces, hash ∉ e := by
  decide

theorem lbracket_not_mem_spaces : ∀ e ∈ spaces, lbracket ∉ e := by
  decide

theorem content_of_not_mem (h : hash ∉ raw) : content raw = trimSpace raw := by
  simp [content, cut_eq_none_iff.mpr h]

theorem content_append (h : hash ∉ x) : content (x ++ hash :: y) = trimSpace x := by
  simp [content, cut_append_cons h]

-- A line has a comment, or it has none.
theorem comment_cases (raw : ByteString) : hash ∉ raw ∨ ∃ x y, raw = x ++ hash :: y ∧ hash ∉ x := by
  cases h : cut hash raw
  case none   => exact .inl (cut_eq_none_iff.mp h)
  case some z => exact .inr ⟨z.1, z.2, cut_eq_some_iff.mp h⟩

theorem content_dropCR (raw : ByteString) : content (dropCR raw) = content raw := by
  unfold dropCR
  split
  case isFalse => rfl
  case isTrue h =>
    have hr := List.dropLast_append_getLast? _ h
    generalize raw.dropLast = r at hr
    subst hr
    rcases comment_cases r with hn | ⟨x, y, rfl, hx⟩
    · have hb : Blank spaces [0x0D] := .of_mem (by decide)
      rw [content_of_not_mem hn, content_of_not_mem (by simp [hn]; decide), trimSpace_append hb]
    · rw [List.append_assoc, List.cons_append, content_append hx, content_append hx]

theorem head?_content (raw : ByteString) :
    (content raw).head? = some lbracket ↔ (trimSpace raw).head? = some lbracket := by
  rcases comment_cases raw with hn | ⟨x, y, rfl, hx⟩
  · rw [content_of_not_mem hn]
  · rw [content_append hx, trimSpace_append_cons hash_not_mem_spaces, trimSpace]
    cases h : trimLeft spaces x
    case nil => exact iff_of_false (by decide) (by simp; decide)
    case cons c l =>
      obtain ⟨w, _, hs, _⟩ := trimRight_spec isCode_reverse_spaces (c :: l)
      constructor
      · intro hh
        obtain ⟨t, ht⟩ := List.head?_eq_some_iff.mp hh
        rw [ht] at hs
        simpa using (List.cons.inj hs).left
      · intro hh
        cases Option.some.inj hh
        have ht := trimRight_append_cons isCode_reverse_spaces (s := []) (t := l) lbracket_not_mem_spaces
        rw [List.nil_append, List.nil_append] at ht
        rw [ht, List.head?_cons]

theorem toLower_ne_of_hash (hk : hash ∉ key) (h : hash ∈ x) : toLower table (trimSpace x) ≠ key :=
  fun he => hk <| he ▸ lowerByte_mem_toLower (by decide) (mem_trimSpace hash_not_mem_spaces h)

-- If the comment is not stripped, it becomes part of the key or of the value.
theorem valueOf_append (table : CaseTable) (x : ByteString) (hk : hash ∉ key) (y : ByteString) :
    (valueOf table key x = none ∧ valueOf table key (x ++ hash :: y) = none) ∨
      ∃ v w, valueOf table key x = some v ∧ valueOf table key (x ++ hash :: y) = some w ∧ hash ∈ w := by
  cases hc : cut equals x
  case none =>
    have hn : equals ∉ x ++ [hash] := by
      simpa [cut_eq_none_iff.mp hc] using (by decide : equals ≠ hash)
    have hy := cut_append_of_not_mem (y := y) hn
    rw [List.append_assoc, List.singleton_append] at hy
    refine .inl ⟨by simp [valueOf, hc], ?_⟩
    cases hz : cut equals y <;> simp [valueOf, hy, hz, toLower_ne_of_hash hk]
  case some z =>
    obtain ⟨hx, hz⟩ := (cut_eq_some_iff (x := z.1) (y := z.2)).mp hc
    have hy : cut equals (x ++ hash :: y) = some (z.1, z.2 ++ hash :: y) := by
      rw [hx, List.append_assoc, List.cons_append]
      exact cut_append_cons hz
    by_cases hl : toLower table (trimSpace z.1) = key
    case pos =>
      refine .inr ⟨trimSpace z.2, trimSpace (z.2 ++ hash :: y), by simp [valueOf, hc, hl],
        by simp [valueOf, hy, hl], mem_trimSpace hash_not_mem_spaces (by simp)⟩
    case neg => exact .inl ⟨by simp [valueOf, hc, hl], by simp [valueOf, hy, hl]⟩

theorem valueOf_content (hk : hash ∉ key) (h : valueOf table key raw = some val) (hv : hash ∉ val) :
    valueOf table key (content raw) = some val := by
  rcases comment_cases raw with hn | ⟨x, y, rfl, hx⟩
  · rwa [content_of_not_mem hn, valueOf_trimSpace]
  · rcases valueOf_append table x hk y with ⟨_, h₂⟩ | ⟨_, _, _, h₂, hm⟩
    · simp [h₂] at h
    · cases h.symm.trans h₂
      exact absurd hm hv

end Content

-- The values that are assigned to `PrivateKey` in sections that are headed `[Interface]`, if the comments
-- are stripped. The first argument tells whether the lines start in such a section.
def interfaceKeys (table : CaseTable) (inInterface : Bool) : List ByteString → List ByteString
  | []        => []
  | raw :: ls =>
    let line := content raw
    if line.head? = some lbracket then interfaceKeys table (line = Section.interface.header) ls
    else if inInterface then
      (valueOf table privatekey line).toList ++ interfaceKeys table inInterface ls
    else interfaceKeys table inInterface ls

namespace Parser

def inInterface (p : Parser) : Bool :=
  p.currentSection = some .interface

theorem handleSection_elim (h : p₁.handleSection raw = .ok p₂) :
    ∃ s : Section, raw = s.header ∧ p₂.currentSection = some s ∧ p₂.iface = p₁.iface := by
  rw [handleSection] at h
  split at h
  case isTrue hi =>
    cases h
    exact ⟨.interface, hi, rfl, rfl⟩
  case isFalse =>
    split at h
    case isTrue hp =>
      split at h
      case isTrue => contradiction
      case isFalse =>
        cases h
        exact ⟨.peer, hp, rfl, rfl⟩
    case isFalse => contradiction

theorem handleLine_header (h : p₁.handleLine table raw = .ok p₂)
    (hh : (content raw).head? = some lbracket) :
    (content raw = Section.interface.header ∨ content raw = Section.peer.header) ∧
      p₂.inInterface = decide (content raw = Section.interface.header) ∧
      p₂.iface = p₁.iface := by
  rw [handleLine, if_pos hh] at h
  have ⟨s, hs, hc, hi⟩ := handleSection_elim h
  rw [hs, inInterface, hc]
  cases s
  case interface => exact ⟨.inl rfl, by simp, hi⟩
  case peer      => exact ⟨.inr rfl, by decide, hi⟩

namespace Sets

variable {f g : Parser → Parser}

theorem currentSection (h : Sets key f) : (f p).currentSection = p.currentSection := by
  cases h <;> rfl

theorem privateKey_of_ne (h : Sets key f) (hn : key ≠ privatekey) :
    (f p).iface.privateKey = p.iface.privateKey := by
  cases h <;> first | rfl | exact absurd rfl hn

theorem comm (hf : Sets key f) (hg : Sets key' g) (h : key ≠ key') : f (g p) = g (f p) := by
  cases hf <;> cases hg <;> first | rfl | exact absurd rfl h

end Sets

theorem handleInterfaceKey_handles (sec : Option Section) (key val : ByteString) :
    Handles sec key (·.handleInterfaceKey key val) := by
  unfold handleInterfaceKey
  split
  case isTrue h => exact .sets (h ▸ .privateKey) fun _ _ => rfl
  split
  case isTrue h =>
    cases parseCommaSeparatedPrefixes val
    case error => exact .fails fun _ _ => rfl
    case ok    => exact .sets (h ▸ .addresses) fun _ _ => rfl
  split
  case isTrue h =>
    cases parseCommaSeparatedAddrs val
    case error => exact .fails fun _ _ => rfl
    case ok    => exact .sets (h ▸ .dns) fun _ _ => rfl
  split
  case isTrue h =>
    cases Strconv.atoi val
    case error => exact .fails fun _ _ => rfl
    case ok    => exact .sets (h ▸ .mtu) fun _ _ => rfl
  case isFalse => exact .sets .skip fun _ _ => rfl

theorem handlePeerKey_handles (sec : Option Section) (key val : ByteString) :
    Handles sec key (·.handlePeerKey key val) := by
  unfold handlePeerKey
  split
  case isTrue h => exact .sets (h ▸ .publicKey) fun _ _ => rfl
  split
  case isTrue h => exact .sets (h ▸ .endpoint) fun _ _ => rfl
  split
  case isTrue h =>
    cases parseCommaSeparatedPrefixes val
    case error => exact .fails fun _ _ => rfl
    case ok    => exact .sets (h ▸ .allowedIPs) fun _ _ => rfl
  split
  case isTrue h =>
    cases Strconv.atoi val
    case error => exact .fails fun _ _ => rfl
    case ok    => exact .sets (h ▸ .keepalive) fun _ _ => rfl
  split
  case isTrue h => exact .sets (h ▸ .presharedKey) fun _ _ => rfl
  case isFalse => exact .sets .skip fun _ _ => rfl

theorem Handles.congr {handle handle' : Parser → Except Error Parser} (h : Handles sec key handle)
    (he : ∀ p, p.currentSection = sec → handle' p = handle p) : Handles sec key handle' := by
  cases h
  case sets hf h => exact .sets hf fun p hp => (he p hp).trans (h p hp)
  case fails h   => exact .fails fun p hp => (he p hp).trans (h p hp)

theorem handleKey_handles (table : CaseTable) (sec : Option Section) (key val : ByteString) :
    Handles sec (toLower table key) (·.handleKey table key val) := by
  by_cases hw : toLower table key ∈ warnAndSkipKeys
  case pos => exact .sets .skip fun _ _ => if_pos hw
  case neg =>
    match sec with
    | none            => exact .sets .skip fun _ hp => by simp [handleKey, hw, hp]
    | some .interface => exact (handleInterfaceKey_handles _ _ val).congr fun _ hp => by simp [handleKey, hw, hp]
    | some .peer      => exact (handlePeerKey_handles _ _ val).congr fun _ hp => by simp [handleKey, hw, hp]

theorem handlePeerKey_privatekey : p.handlePeerKey privatekey val = .ok p :=
  rfl

theorem privatekey_not_mem_warnAndSkipKeys : privatekey ∉ warnAndSkipKeys := by
  decide

theorem handleKey_currentSection (h : p₁.handleKey table key val = .ok p₂) :
    p₂.currentSection = p₁.currentSection := by
  cases handleKey_handles table p₁.currentSection key val
  case sets hf hs =>
    rw [hs p₁ rfl] at h
    exact Except.ok.inj h ▸ hf.currentSection
  case fails hs =>
    rw [hs p₁ rfl] at h
    contradiction

-- `x` and `y` are what is written before and after the equals sign.
theorem handleKey_privateKey (h : p₁.handleKey table x y = .ok p₂) : p₂.iface.privateKey =
    if p₁.inInterface ∧ toLower table x = privatekey then y else p₁.iface.privateKey := by
  by_cases hk : toLower table x = privatekey
  case pos =>
    simp only [handleKey, hk, privatekey_not_mem_warnAndSkipKeys, if_false] at h
    split at h
    case h_1 hs =>
      cases h
      simp [inInterface, hs, hk]
    case h_2 hs =>
      cases handlePeerKey_privatekey.symm.trans h
      simp [inInterface, hs]
    case h_3 hs =>
      cases h
      simp [inInterface, hs]
  case neg =>
    rw [if_neg fun h => hk h.right]
    cases handleKey_handles table p₁.currentSection x y
    case sets hf hs =>
      rw [hs p₁ rfl] at h
      exact Except.ok.inj h ▸ hf.privateKey_of_ne hk
    case fails hs =>
      rw [hs p₁ rfl] at h
      contradiction

theorem handleLine_key (h : p₁.handleLine table raw = .ok p₂)
    (hh : (content raw).head? ≠ some lbracket) :
    p₂.inInterface = p₁.inInterface ∧ p₂.iface.privateKey =
      if p₁.inInterface then (valueOf table privatekey (content raw)).getD p₁.iface.privateKey
      else p₁.iface.privateKey := by
  rw [handleLine, if_neg hh] at h
  split at h
  case h_1 hc =>
    cases h
    exact ⟨rfl, by simp [valueOf, hc]⟩
  case h_2 k v hc =>
    refine ⟨by rw [inInterface, handleKey_currentSection h, inInterface], ?_⟩
    rw [handleKey_privateKey h, valueOf, hc]
    by_cases hl : toLower table (trimSpace k) = privatekey <;> simp [hl]

-- The last assignment wins.
theorem foldlM_handleLine (h : ls.foldlM (handleLine table) p₁ = .ok p₂) :
    p₂.iface.privateKey =
      (interfaceKeys table p₁.inInterface ls).getLast?.getD p₁.iface.privateKey := by
  induction ls generalizing p₁
  case nil =>
    cases h
    simp [interfaceKeys]
  case cons raw ls hi =>
    rw [List.foldlM_cons, Except.bind_eq_ok] at h
    have ⟨p, hp, h⟩ := h
    rw [hi h, interfaceKeys]
    by_cases hh : (content raw).head? = some lbracket
    case pos =>
      have ⟨_, hs, hk⟩ := handleLine_header hp hh
      simp [hh, hs, hk]
    case neg =>
      have ⟨hs, hk⟩ := handleLine_key hp hh
      rw [hs, hk]
      cases hb : p₁.inInterface
      case false => simp [hh]
      case true =>
        cases valueOf table privatekey (content raw) <;>
          simp [hh, List.getLast?_cons]

theorem build_privateKey (h : p.build = .ok cfg) : cfg.interface.privateKey = p.iface.privateKey := by
  unfold build at h
  repeat' split at h
  all_goals first | contradiction | cases h; rfl

end Parser

theorem Parser.handleLine_dropCR : p.handleLine table (dropCR raw) = p.handleLine table raw := by
  rw [handleLine, content_dropCR, ← handleLine]

-- Neither a carriage return at the end of a line nor an empty last line makes a difference.
theorem Parser.foldlM_scan (h : scan body = (ls, false)) :
    ls.foldlM (handleLine table) p = body.lines.foldlM (handleLine table) p := by
  have ⟨all, hl, _, ha⟩ := scan_elim h
  rw [hl, List.foldlM_map]
  simp only [handleLine_dropCR]
  cases ha
  case inl ha => rw [ha]
  case inr ha =>
    rw [ha, List.foldlM_append]
    exact (bind_pure _).symm

theorem parse_of_short (h : ∀ l ∈ body.lines, l.length < maxScanTokenSize) :
    parse table body = body.lines.foldlM (Parser.handleLine table) .init >>= Parser.build := by
  have ⟨ls, hs⟩ := scan_of_short h
  rw [parse, hs, ← Parser.foldlM_scan hs]
  rfl

theorem short_of_parse (h : parse table body = .ok cfg) : ∀ l ∈ body.lines, l.length < maxScanTokenSize := by
  rcases hs : scan body with ⟨ls, tooLong⟩
  simp only [parse, hs, Except.bind_eq_ok] at h
  have ⟨p, _, h⟩ := h
  cases tooLong
  case true  => contradiction
  case false => exact short_of_scan hs

theorem parse_elim (h : parse table body = .ok cfg) :
    ∃ p, body.lines.foldlM (Parser.handleLine table) .init = .ok p ∧ p.build = .ok cfg := by
  rw [parse_of_short (short_of_parse h)] at h
  exact Except.bind_eq_ok.mp h

-- The key that is read from a body is the last one that is assigned.
theorem parse_privateKey (h : parse table body = .ok cfg) :
    cfg.interface.privateKey = (interfaceKeys table false body.lines).getLast?.getD [] := by
  have ⟨p, hp, hb⟩ := parse_elim h
  rw [Parser.build_privateKey hb, Parser.foldlM_handleLine hp]
  rfl

end Infrastructure.Wgconf
