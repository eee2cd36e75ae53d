import VpnTunnel.Generatevpnconfig.Manual.Basic
import VpnTunnel.Generatevpnconfig.Scanner
import VpnTunnel.Infrastructure.Wgconf.Invariance
import VpnTunnel.Lib.Netip.Accepted

namespace Generatevpnconfig

open ByteString
open Infrastructure
open Infrastructure.Wgconf (Parser ParsedConfig InterfaceSection PeerSection Section commaSeparated)
open Net Netip
open Wgtypes (Key parseKey)

def SingleLine (s : ByteString) : Prop :=
  newline ∉ s ∧ trimSpace s = s

-- What the prompts admit.
structure Answers.Accepted (a : Answers) : Prop where
  address             : validateAddress a.address = .ok ()
  peerPublicKey       : validatePeerPublicKey a.peerPublicKey = .ok ()
  endpoint            : validateEndpoint a.endpoint = .ok ()
  dns                 : validateDNS a.dns = .ok ()
  allowedIPs          : validateAllowedIPs a.allowedIPs = .ok ()
  line_address        : SingleLine a.address
  line_peerPublicKey  : SingleLine a.peerPublicKey
  line_endpoint       : SingleLine a.endpoint
  line_dns            : SingleLine a.dns
  line_allowedIPs     : SingleLine a.allowedIPs

-- The configuration has exactly what was entered.
structure Entered (key : Key) (a : Answers) (cfg : ParsedConfig) : Prop where
  privateKey : cfg.interface.privateKey = key.string
  addresses  : cfg.interface.addresses.map .ok = [parsePrefix a.address]
  dns        : cfg.interface.dns.map .ok = [parseAddr a.dns]
  publicKey  : cfg.peer.publicKey = a.peerPublicKey
  endpoint   : cfg.peer.endpoint = a.endpoint
  allowedIPs : cfg.peer.allowedIPs.map .ok = (commaSeparated a.allowedIPs).map parsePrefix

-- What the syntax of the file can express.
structure Expressible (key : Key) (a : Answers) : Prop where
  endpoint : Wgconf.hash ∉ a.endpoint
  dns      : Wgconf.hash ∉ a.dns ∧ 0x2C ∉ a.dns
  short    : ∀ line ∈ confLines key.string a, line.length < maxScanTokenSize

variable {table : CaseTable} {key : Key} {a : Answers} {val : ByteString} {p : Parser} {cfg : ParsedConfig}

section Lines

-- The names that are written.
structure PlainKey (name lower : ByteString) : Prop where
  trim  : trimSpace (name ++ [0x20]) = name
  head  : name.head? ≠ some lbracket
  plain : equals ∉ name ++ [0x20] ∧ Wgconf.hash ∉ name ++ [0x20]
  ascii : ∀ b ∈ name, b < 0x80
  lower : name.map lowerByte = lower ∧ lower ∉ Wgconf.warnAndSkipKeys

theorem handleLine_confLine {name : String} {lower : ByteString} (h : PlainKey (ofString name) lower) :
    p.handleLine table (confLine name val) = p.handleKey table (ofString name) (Wgconf.content val) := by
  have hl (y w : ByteString) : confLine name (y ++ w) =
      (ofString name ++ [0x20]) ++ equals :: ((0x20 :: y) ++ w) := by
    have hs : ofString " = " = [0x20, equals, 0x20] := by decide
    simp [confLine, hs]
  have hk {y w : ByteString} (hy : Wgconf.hash ∉ y) (hw : Wgconf.Comment w) :
      p.handleLine table (confLine name (y ++ w)) = p.handleKey table (ofString name) (trimSpace y) := by
    have hb : (trimSpace (ofString name ++ [0x20])).head? ≠ some lbracket := h.trim.symm ▸ h.head
    have hs : Wgconf.hash ≠ 0x20 := by decide
    rw [hl, Wgconf.handleLine_assignment hw hb h.plain.left h.plain.right (by simpa [hs] using hy), h.trim,
      ← List.singleton_append, trimSpace_blank_append (.of_mem (by decide))]
  rcases Wgconf.comment_cases val with hn | ⟨y, c, rfl, hy⟩
  · simpa [Wgconf.content_of_not_mem hn] using hk hn .none
  · rw [hk hy .some, Wgconf.content_append hy]

theorem handleKey_interface {name lower : ByteString} (h : PlainKey name lower)
    (hs : p.currentSection = some .interface) :
    p.handleKey table name val = p.handleInterfaceKey lower val := by
  have ⟨hl, hw⟩ := h.lower
  simp only [Parser.handleKey, toLower_of_ascii h.ascii, hl, if_neg hw, hs]

theorem handleKey_peer {name lower : ByteString} (h : PlainKey name lower)
    (hs : p.currentSection = some .peer) :
    p.handleKey table name val = p.handlePeerKey lower val := by
  have ⟨hl, hw⟩ := h.lower
  simp only [Parser.handleKey, toLower_of_ascii h.ascii, hl, if_neg hw, hs]

theorem plainKey_names :
    PlainKey (ofString "PrivateKey") (ofString "privatekey") ∧
    PlainKey (ofString "Address") (ofString "address") ∧
    PlainKey (ofString "DNS") (ofString "dns") ∧
    PlainKey (ofString "PublicKey") (ofString "publickey") ∧
    PlainKey (ofString "AllowedIPs") (ofString "allowedips") ∧
    PlainKey (ofString "Endpoint") (ofString "endpoint") := by
  refine ⟨?_, ?_, ?_, ?_, ?_, ?_⟩
  all_goals exact ⟨by decide, by decide, by decide, by decide +kernel, by decide⟩

-- The parser in one of the sections, with what it has collected.
def reading (sec : Section) (iface : InterfaceSection) (peer : PeerSection) : Parser where
  currentSection := some sec
  peerCount      := if sec = .peer then 1 else 0
  iface          := iface
  peer           := peer
  seenInterface  := true
  seenPeer       := sec = .peer
  keepaliveSet   := false

section Steps

variable {addresses allowedIPs : List Prefix} {q : Parser} {iface : InterfaceSection} {peer : PeerSection}

theorem foldlM_step {ls : List ByteString} {line : ByteString} {r : Except Wgconf.Error Parser}
    (h : p.handleLine table line = .ok q) (hr : ls.foldlM (Parser.handleLine table) q = r) :
    (line :: ls).foldlM (Parser.handleLine table) p = r := by
  rw [List.foldlM_cons, h]
  exact hr

theorem handleLine_nil : p.handleLine table [] = .ok p :=
  rfl

theorem handleLine_interface : Parser.init.handleLine table (ofString "[Interface]") =
    .ok (reading .interface Parser.init.iface Parser.init.peer) :=
  rfl

theorem handleLine_privateKey : (reading .interface iface peer).handleLine table (confLine "PrivateKey" val) =
    .ok (reading .interface { iface with privateKey := Wgconf.content val } peer) := by
  rw [handleLine_confLine plainKey_names.1, handleKey_interface plainKey_names.1 rfl]
  rfl

theorem handleLine_address (h : Wgconf.parseCommaSeparatedPrefixes (Wgconf.content val) = .ok addresses) :
    (reading .interface iface peer).handleLine table (confLine "Address" val) =
      .ok (reading .interface { iface with addresses := iface.addresses ++ addresses } peer) := by
  rw [handleLine_confLine plainKey_names.2.1, handleKey_interface plainKey_names.2.1 rfl]
  change (Wgconf.parseCommaSeparatedPrefixes _).mapError _ >>= _ = _
  rw [h]
  rfl

theorem handleLine_dns : (reading .interface iface peer).handleLine table (confLine "DNS" val) =
    (Wgconf.parseCommaSeparatedAddrs (Wgconf.content val)).mapError .dns >>= fun dns =>
      .ok (reading .interface { iface with dns := iface.dns ++ dns } peer) := by
  rw [handleLine_confLine plainKey_names.2.2.1, handleKey_interface plainKey_names.2.2.1 rfl]
  rfl

theorem handleLine_peer : (reading .interface iface peer).handleLine table (ofString "[Peer]") =
    .ok (reading .peer iface peer) :=
  rfl

theorem handleLine_publicKey : (reading .peer iface peer).handleLine table (confLine "PublicKey" val) =
    .ok (reading .peer iface { peer with publicKey := Wgconf.content val }) := by
  rw [handleLine_confLine plainKey_names.2.2.2.1, handleKey_peer plainKey_names.2.2.2.1 rfl]
  rfl

theorem handleLine_allowedIPs (h : Wgconf.parseCommaSeparatedPrefixes (Wgconf.content val) = .ok allowedIPs) :
    (reading .peer iface peer).handleLine table (confLine "AllowedIPs" val) =
      .ok (reading .peer iface { peer with allowedIPs := peer.allowedIPs ++ allowedIPs }) := by
  rw [handleLine_confLine plainKey_names.2.2.2.2.1, handleKey_peer plainKey_names.2.2.2.2.1 rfl]
  change (Wgconf.parseCommaSeparatedPrefixes _).mapError _ >>= _ = _
  rw [h]
  rfl

theorem handleLine_endpoint : (reading .peer iface peer).handleLine table (confLine "Endpoint" val) =
    .ok (reading .peer iface { peer with endpoint := Wgconf.content val }) := by
  rw [handleLine_confLine plainKey_names.2.2.2.2.2, handleKey_peer plainKey_names.2.2.2.2.2 rfl]
  rfl

end Steps

-- The parser at the end of the file, and what it returns.
def parsed (privateKey : ByteString) (a : Answers) (addresses allowedIPs : List Prefix) (dns : List Addr) :
    Parser :=
  reading .peer { privateKey, addresses, dns, mtu := 0 } {
    publicKey := a.peerPublicKey, endpoint := Wgconf.content a.endpoint, allowedIPs, presharedKey := []
    persistentKeepaliveSeconds := Wgconf.keepaliveUnset
  }

def parsedConfig (privateKey : ByteString) (a : Answers) (addresses allowedIPs : List Prefix)
    (dns : List Addr) : ParsedConfig where
  interface := {
    privateKey, addresses, mtu := Wgconf.defaultMTU
    dns := if dns = [] then [Wgconf.defaultDNS] else dns
  }
  peer      := {
    publicKey := a.peerPublicKey, endpoint := Wgconf.content a.endpoint, allowedIPs, presharedKey := []
    persistentKeepaliveSeconds := Wgconf.defaultKeepalive
  }

theorem foldlM_confLines {privateKey : ByteString} {addresses allowedIPs : List Prefix}
    (hk : Wgconf.content privateKey = privateKey) (hp : Wgconf.content a.peerPublicKey = a.peerPublicKey)
    (ha : Wgconf.parseCommaSeparatedPrefixes (Wgconf.content a.address) = .ok addresses)
    (hi : Wgconf.parseCommaSeparatedPrefixes (Wgconf.content a.allowedIPs) = .ok allowedIPs) :
    (confLines privateKey a ++ [[]]).foldlM (Parser.handleLine table) .init =
      (Wgconf.parseCommaSeparatedAddrs (Wgconf.content a.dns)).mapError .dns >>= fun dns =>
        .ok (parsed privateKey a addresses allowedIPs dns) := by
  simp only [confLines, List.cons_append, List.nil_append]
  refine foldlM_step handleLine_interface ?_
  refine foldlM_step handleLine_privateKey ?_
  refine foldlM_step (handleLine_address ha) ?_
  rw [List.foldlM_cons, handleLine_dns]
  cases (Wgconf.parseCommaSeparatedAddrs (Wgconf.content a.dns)).mapError Wgconf.Error.dns
  case error => rfl
  case ok dns =>
    change List.foldlM _ _ _ = _
    refine foldlM_step handleLine_nil ?_
    refine foldlM_step handleLine_peer ?_
    refine foldlM_step handleLine_publicKey ?_
    refine foldlM_step (handleLine_allowedIPs hi) ?_
    refine foldlM_step handleLine_endpoint ?_
    refine foldlM_step handleLine_nil ?_
    rw [hk, hp]
    rfl

end Lines

section Values

theorem hash_not_mem_of_parsePrefix {q : Prefix} (h : parsePrefix val = .ok q) :
    Wgconf.hash ∉ val ∧ 0x2C ∉ val := by
  have hp := isPlain_of_parsePrefix h
  refine ⟨fun hm => absurd (hp _ hm) (by decide), fun hm => absurd (hp _ hm) (by decide)⟩

theorem commaSeparated_of_not_mem (hn : 0x2C ∉ val) (ht : trimSpace val = val) (hv : val ≠ []) :
    commaSeparated val = [val] := by
  simp [commaSeparated, List.splitOn_of_not_mem hn, ht, hv]

theorem hash_not_mem_content : Wgconf.hash ∉ Wgconf.content val := by
  intro h
  rcases Wgconf.comment_cases val with hn | ⟨y, c, rfl, hy⟩
  · exact hn <| Wgconf.mem_of_mem_content h
  · rw [Wgconf.content_append hy] at h
    exact hy <| mem_of_mem_trimSpace h

theorem content_eq_self_iff (ht : trimSpace val = val) : Wgconf.content val = val ↔ Wgconf.hash ∉ val :=
  ⟨fun h => h ▸ hash_not_mem_content, fun h => (Wgconf.content_of_not_mem h).trans ht⟩

theorem parsePrefix_of_validateAddress (h : validateAddress val = .ok ()) :
    ∃ q, parsePrefix val = .ok q := by
  have ⟨q, hq, _⟩ := Except.bind_eq_ok.mp h
  exact ⟨q, Except.mapError_eq_ok.mp hq⟩

theorem parseAddr_of_validateDNS (h : validateDNS val = .ok ()) : ∃ ip, parseAddr val = .ok ip := by
  have ⟨ip, hip, _⟩ := Except.bind_eq_ok.mp h
  exact ⟨ip, Except.mapError_eq_ok.mp hip⟩

theorem ne_nil_of_validateEndpoint (h : validateEndpoint val = .ok ()) : val ≠ [] := by
  rintro rfl
  have he : validateEndpoint [] = .error (.endpoint .missingPort) := rfl
  simp [he] at h

theorem hash_not_mem_of_validatePeerPublicKey (h : validatePeerPublicKey val = .ok ()) :
    Wgconf.hash ∉ val ∧ val ≠ [] := by
  unfold validatePeerPublicKey at h
  split at h
  case isFalse => cases h
  case isTrue hk =>
    have ⟨k, hk⟩ := Option.isSome_iff_exists.mp hk
    refine ⟨fun hm => ?_, ?_⟩
    · exact absurd (Wgtypes.isChar_of_parseKey hk hm (by decide)) (by decide)
    · rintro rfl
      simp [show parseKey [] = none from rfl] at hk

theorem countCIDRs_elim {parts : List ByteString} {n : Nat} (h : countCIDRs parts = .ok n) :
    ∃ ps, ((parts.map trimSpace).filter (· ≠ [])).mapM parsePrefix = .ok ps ∧ ps.length = n := by
  induction parts generalizing n
  case nil =>
    cases h
    exact ⟨[], rfl, rfl⟩
  case cons part parts hi =>
    simp only [countCIDRs] at h
    split at h
    case isTrue hb => simpa [hb] using hi h
    case isFalse hb =>
      have ⟨q, hq, h⟩ := Except.bind_eq_ok.mp h
      have ⟨m, hm, h⟩ := Except.bind_eq_ok.mp h
      have ⟨ps, hps, hl⟩ := hi hm
      have hq := Except.mapError_eq_ok.mp hq
      cases h
      refine ⟨q :: ps, ?_, by simp [hl]⟩
      rw [List.map_cons, List.filter_cons_of_pos (by simpa using hb), List.mapM_cons, hq, hps]
      rfl

theorem parse_of_validateAllowedIPs (h : validateAllowedIPs val = .ok ()) :
    ∃ ps, Wgconf.parseCommaSeparatedPrefixes val = .ok ps ∧ ps ≠ [] := by
  have ⟨n, hn, h⟩ := Except.bind_eq_ok.mp h
  have ⟨ps, hp, hl⟩ := countCIDRs_elim hn
  refine ⟨ps, hp, ?_⟩
  rintro rfl
  split at h
  case isTrue => cases h
  case isFalse hz => exact hz hl.symm

-- A list of prefixes has no comment in it, because blanks have none either.
theorem hash_not_mem_of_parseCommaSeparated {ps : List Prefix}
    (h : Wgconf.parseCommaSeparatedPrefixes val = .ok ps) : Wgconf.hash ∉ val := by
  intro hm
  have ⟨part, hp, hm⟩ := List.exists_mem_splitOn hm (by decide : Wgconf.hash ≠ 0x2C)
  have hm := mem_trimSpace Wgconf.hash_not_mem_spaces hm
  have hc : trimSpace part ∈ commaSeparated val :=
    List.mem_filter.mpr ⟨List.mem_map_of_mem hp, by simpa using List.ne_nil_of_mem hm⟩
  have hq : parsePrefix (trimSpace part) ∈ (commaSeparated val).map parsePrefix := List.mem_map_of_mem hc
  rw [List.mapM_eq_ok_iff.mp h] at hq
  have ⟨q, _, hq⟩ := List.mem_map.mp hq
  exact (hash_not_mem_of_parsePrefix hq.symm).left hm

end Values

section DNS

variable {ip : Addr}

theorem mem_zone_iff {c : UInt8} (h : parseAddr val = .ok ip) (hp : ¬isPlain c) (hc : c ≠ percent) :
    c ∈ val ↔ c ∈ ip.zone := by
  have ⟨t, ht, hs⟩ := parseAddr_elim h
  have hz : c ∈ zoneSuffix ip.zone ↔ c ∈ ip.zone := by
    unfold zoneSuffix
    split
    case isTrue hz => rw [hz]
    case isFalse   => simp [hc]
  rw [ht, List.mem_append, hz]
  exact or_iff_right fun h => hp (hs c h)

-- The list that is read is the one address just in case nothing of its zone is taken for syntax.
theorem parsedDNS_iff (ht : trimSpace val = val) (h : parseAddr val = .ok ip) :
    (∃ addrs, Wgconf.parseCommaSeparatedAddrs (Wgconf.content val) = .ok addrs ∧
      (if addrs = [] then [Wgconf.defaultDNS] else addrs) = [ip]) ↔
    Wgconf.hash ∉ val ∧ 0x2C ∉ val := by
  constructor
  case mp =>
    intro ⟨addrs, ha, he⟩
    -- A byte of the zone comes from an element of the list, which has neither of the two.
    have hz {c : UInt8} (hp : ¬isPlain c) (hc : c ≠ percent) (hm : c ∈ val) :
        c ∈ Wgconf.content val ∧ c ≠ 0x2C := by
      rw [mem_zone_iff h hp hc] at hm
      split at he
      case isTrue =>
        cases he
        exact absurd hm List.not_mem_nil
      case isFalse =>
        have ⟨elem, he, hi⟩ := List.mem_of_mapM_eq_ok ha |>.mp (by rw [he]; simp : ip ∈ addrs)
        have ⟨part, hs, ht⟩ := List.mem_map.mp (List.mem_filter.mp he).left
        have hm := mem_of_mem_trimSpace (ht.symm ▸ (mem_zone_iff hi hp hc).mpr hm)
        refine ⟨List.mem_of_mem_splitOn hs hm, ?_⟩
        rintro rfl
        exact List.not_mem_of_mem_splitOn hs hm
    exact ⟨fun hm => hash_not_mem_content (hz (by decide) (by decide) hm).left,
      fun hm => (hz (by decide) (by decide) hm).right rfl⟩
  case mpr =>
    intro ⟨hh, hc⟩
    have hn : val ≠ [] := by
      rintro rfl
      cases h
    refine ⟨[ip], ?_, rfl⟩
    rw [(content_eq_self_iff ht).mpr hh, Wgconf.parseCommaSeparatedAddrs, commaSeparated_of_not_mem hc ht hn,
      List.mapM_eq_ok_iff]
    simp [h]

end DNS

theorem build_parsed {privateKey : ByteString} {addresses allowedIPs : List Prefix} {dns : List Addr}
    (hk : privateKey ≠ []) (ha : addresses ≠ []) (hp : a.peerPublicKey ≠ []) (hi : allowedIPs ≠ []) :
    (parsed privateKey a addresses allowedIPs dns).build =
      if Wgconf.content a.endpoint = [] then .error (.missingKey .peer "Endpoint")
      else .ok (parsedConfig privateKey a addresses allowedIPs dns) := by
  simp only [parsed, reading, Parser.build, parsedConfig, not_true_eq_false, if_false, hk, ha, hp, hi]
  rfl

theorem lines_buildConfBody (h : a.Accepted) :
    (buildConfBody key.string a).lines = confLines key.string a ++ [[]] := by
  refine lines_unlines ?_ (by simp [confLines])
  have hc {name : String} {val : ByteString} (hn : newline ∉ ofString name) (hv : newline ∉ val) :
      newline ∉ confLine name val := by
    simpa [confLine, hn, hv] using (by decide : newline ∉ ofString " = ")
  have hk : newline ∉ key.string := not_mem_string (by decide)
  simp only [confLines, List.cons_append, List.nil_append, List.forall_mem_cons, List.not_mem_nil,
    not_false_eq_true, false_imp_iff, forall_true_iff, and_true, true_and]
  exact ⟨by decide, hc (by decide) hk, hc (by decide) h.line_address.left, hc (by decide) h.line_dns.left,
    by decide, hc (by decide) h.line_peerPublicKey.left, hc (by decide) h.line_allowedIPs.left,
    hc (by decide) h.line_endpoint.left⟩

theorem entered_iff (h : a.Accepted) :
    (∃ cfg, Wgconf.parse table (buildConfBody key.string a) = .ok cfg ∧ Entered key a cfg) ↔
      Expressible key a := by
  have ⟨q, hq⟩ := parsePrefix_of_validateAddress h.address
  have ⟨ip, hip⟩ := parseAddr_of_validateDNS h.dns
  have ⟨ps, hps, hn⟩ := parse_of_validateAllowedIPs h.allowedIPs
  have ⟨hph, hpn⟩ := hash_not_mem_of_validatePeerPublicKey h.peerPublicKey
  have ⟨hah, hac⟩ := hash_not_mem_of_parsePrefix hq
  have hat := h.line_address.right
  have han : a.address ≠ [] := by
    intro he
    simp [he, show parsePrefix [] = .error .noSlash from rfl] at hq
  have ha : Wgconf.parseCommaSeparatedPrefixes (Wgconf.content a.address) = .ok [q] := by
    rw [(content_eq_self_iff hat).mpr hah, Wgconf.parseCommaSeparatedPrefixes,
      commaSeparated_of_not_mem hac hat han, List.mapM_eq_ok_iff]
    simp [hq]
  have hk : Wgconf.content key.string = key.string :=
    (content_eq_self_iff trimSpace_string).mpr (not_mem_string (by decide))
  have hf := @foldlM_confLines table a key.string _ _ hk
    ((content_eq_self_iff h.line_peerPublicKey.right).mpr hph) ha
    (((content_eq_self_iff h.line_allowedIPs.right).mpr (hash_not_mem_of_parseCommaSeparated hps)).symm ▸ hps)
  have hb {addrs : List Addr} := @build_parsed a _ _ _ addrs key.string_ne_nil (List.cons_ne_nil q []) hpn hn
  constructor
  case mp =>
    intro ⟨cfg, hp, he⟩
    have hs := Wgconf.short_of_parse hp
    rw [Wgconf.parse_of_short hs, lines_buildConfBody h, hf] at hp
    rw [lines_buildConfBody h] at hs
    have ⟨p, hp, hbuild⟩ := Except.bind_eq_ok.mp hp
    have ⟨addrs, hd, hp⟩ := Except.bind_eq_ok.mp hp
    cases hp
    rw [hb] at hbuild
    split at hbuild <;> cases hbuild
    have hd := Except.mapError_eq_ok.mp hd
    have hi : (if addrs = [] then [Wgconf.defaultDNS] else addrs) = [ip] := by
      have hm := he.dns
      rw [hip] at hm
      exact List.map_injective_iff.mpr (fun _ _ => Except.ok.inj) hm
    exact ⟨(content_eq_self_iff h.line_endpoint.right).mp he.endpoint,
      (parsedDNS_iff h.line_dns.right hip).mp ⟨addrs, hd, hi⟩, fun l hl => hs l (by simp [hl])⟩
  case mpr =>
    intro he
    have ⟨addrs, hd, hi⟩ := (parsedDNS_iff h.line_dns.right hip).mpr he.dns
    have hc := (content_eq_self_iff h.line_endpoint.right).mpr he.endpoint
    have hs : ∀ l ∈ (buildConfBody key.string a).lines, l.length < maxScanTokenSize := by
      rw [lines_buildConfBody h]
      exact List.forall_mem_append.mpr ⟨he.short, by decide⟩
    refine ⟨parsedConfig key.string a [q] ps addrs, ?_, ?_⟩
    · rw [Wgconf.parse_of_short hs, lines_buildConfBody h, hf, hd]
      exact hb.trans <| if_neg <| by rw [hc]; exact ne_nil_of_validateEndpoint h.endpoint
    · refine ⟨rfl, ?_, ?_, rfl, hc, ?_⟩
      · simp [parsedConfig, hq]
      · simp only [parsedConfig, hi, hip, List.map_cons, List.map_nil]
      · exact (List.mapM_eq_ok_iff.mp hps).symm

def plainAnswers : Answers where
  address       := ofString "10.64.0.2/32"
  peerPublicKey := ofString "AQEBAQEBAQEBAQEBAQEBAQEBAQEBAQEBAQEBAQEBAQE="
  endpoint      := ofString "vpn:51820"
  dns           := ofString "fe80::1%eth0"
  allowedIPs    := ofString "0.0.0.0/0, ::/0"

def commentedAnswers : Answers :=
  { plainAnswers with endpoint := ofString "a#b:51820" }

def manualKey : Key where
  bytes        := .replicate 32 2
  length_bytes := by simp [Wgtypes.keyLen]

theorem accepted_plainAnswers : plainAnswers.Accepted where
  address            := by decide +kernel
  peerPublicKey      := by decide +kernel
  endpoint           := by decide
  dns                := by decide +kernel
  allowedIPs         := by decide +kernel
  line_address       := ⟨by decide, by decide⟩
  line_peerPublicKey := ⟨by decide, by decide⟩
  line_endpoint      := ⟨by decide, by decide⟩
  line_dns           := ⟨by decide, by decide⟩
  line_allowedIPs    := ⟨by decide, by decide⟩

theorem entered_plainAnswers :
    ∃ cfg, Wgconf.parse default (buildConfBody manualKey.string plainAnswers) = .ok cfg ∧
      Entered manualKey plainAnswers cfg :=
  entered_iff accepted_plainAnswers |>.mpr ⟨by decide, by decide, by decide +kernel⟩

-- What is behind the number sign is read as a comment.
theorem not_entered_commentedAnswers :
    commentedAnswers.Accepted ∧
    (Wgconf.parse default (buildConfBody manualKey.string commentedAnswers)).toOption.map
      (·.peer.endpoint) = some (ofString "a") :=
  ⟨{ accepted_plainAnswers with endpoint := by decide, line_endpoint := ⟨by decide, by decide⟩ },
    by decide +kernel⟩

section Admitted

variable {input rest : Input} {validate : ByteString → Except Invalid Unit}

theorem Typed.singleLine (h : Typed validate input val) (hn : ∀ l ∈ input.lines, newline ∉ l) :
    SingleLine val := by
  have ⟨⟨line, hl, hv⟩, _⟩ := h
  subst hv
  exact ⟨fun hm => hn line hl (mem_of_mem_trimSpace hm), trimSpace_trimSpace line⟩

-- What a prefix consists of does not occur in spaces.
theorem singleLine_of_parsePrefix {q : Prefix} (h : parsePrefix val = .ok q) : SingleLine val := by
  have hp := isPlain_of_parsePrefix h
  have hs : ∀ e ∈ spaces, ∀ c ∈ e, ¬(isPlain c ∨ c = slash ∨ c = 0x2B ∨ c = 0x2D) := by decide +kernel
  exact ⟨fun hm => absurd (hp _ hm) (by decide), trimSpace_eq_self fun e he c hc hm => hs e he c hc (hp c hm)⟩

theorem promptAddress_elim (h : promptAddress input = .ok (val, rest)) :
    rest.lines <:+ input.lines ∧ validateAddress val = .ok () := by
  have ⟨hs, h⟩ := prompt_elim h
  refine ⟨hs, ?_⟩
  cases h
  case inl h => cases h
  case inr h =>
    have ⟨line, _, hr⟩ := h
    unfold readAddress at hr
    split at hr
    case isTrue => cases hr
    case isFalse =>
      have ⟨normalized, _, hr⟩ := Except.bind_eq_ok.mp hr
      have ⟨_, hv, hr⟩ := Except.bind_eq_ok.mp hr
      cases hr
      exact hv

-- The defaults are like answers.
theorem admitted_of_promptOptional {default : ByteString} (hd : SingleLine default ∧ validate default = .ok ())
    (hn : ∀ l ∈ input.lines, newline ∉ l) (h : promptOptional default validate input = .ok (val, rest)) :
    SingleLine val ∧ validate val = .ok () := by
  cases (promptOptional_elim h).right
  case inl h => exact h ▸ hd
  case inr h => exact ⟨h.singleLine hn, h.right.right⟩

theorem accepted_of_promptAnswers {text : ByteString} (h : promptAnswers (.ofText text) = .ok (a, rest)) :
    a.Accepted := by
  have hn : ∀ l ∈ (Input.ofText text).lines, newline ∉ l := fun l => not_mem_of_mem_scan
  have ⟨address, i₁, h₁, h⟩ := Prompt.bind_eq_ok (x := promptAddress) |>.mp h
  have ⟨peerPublicKey, i₂, h₂, h⟩ := Prompt.bind_eq_ok.mp h
  have ⟨endpoint, i₃, h₃, h⟩ := Prompt.bind_eq_ok.mp h
  have ⟨dns, i₄, h₄, h⟩ := Prompt.bind_eq_ok.mp h
  have ⟨allowedIPs, i₅, h₅, h⟩ := Prompt.bind_eq_ok.mp h
  cases h
  have ⟨s₁, ha⟩ := promptAddress_elim h₁
  have ⟨q, hq⟩ := parsePrefix_of_validateAddress ha
  have hn := fun l hl => hn l (s₁.subset hl)
  have ⟨s₂, hp⟩ := promptRequired_elim h₂
  have hp := And.intro (hp.singleLine hn) hp.right.right
  have hn := fun l hl => hn l (s₂.subset hl)
  have ⟨s₃, he⟩ := promptRequired_elim h₃
  have he := And.intro (he.singleLine hn) he.right.right
  have hn := fun l hl => hn l (s₃.subset hl)
  have hd := admitted_of_promptOptional ⟨⟨by decide, by decide⟩, by decide⟩ hn h₄
  have hn := fun l hl => hn l ((promptOptional_elim h₄).left.subset hl)
  have hi := admitted_of_promptOptional ⟨⟨by decide, by decide⟩, by decide +kernel⟩ hn h₅
  exact ⟨ha, hp.right, he.right, hd.right, hi.right, singleLine_of_parsePrefix hq, hp.left, he.left, hd.left,
    hi.left⟩

end Admitted

end Generatevpnconfig
