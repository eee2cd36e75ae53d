import VpnTunnel.Lib.Http.Reread

-- Targets that differ in nothing but the user info, the query and the fragment.

namespace Http

open ByteString

-- Of two texts that follow the same one, as much can be told as of the texts that are read.
theorem reprint_eq_iff {mode : Encoding} {s t₁ t₂ d₁ d₂ : ByteString} (h₁ : unescape (s ++ t₁) = some d₁)
    (h₂ : unescape (s ++ t₂) = some d₂) (ht₁ : Ends hashSign t₁) (ht₂ : Ends hashSign t₂)
    (hv : validEncoded mode [hashSign] = false) :
    reprint mode (s ++ t₁) d₁ = reprint mode (s ++ t₂) d₂ ↔ unescape t₁ = unescape t₂ := by
  have hr {t d : ByteString} (h : unescape (s ++ t) = some d) (ht : Ends hashSign t) :
      ∃ a b, unescape s = some a ∧ unescape t = some b ∧ d = a ++ b := by
    obtain rfl | ht := ht
    · exact ⟨d, [], by simpa using h, rfl, by simp⟩
    · obtain ⟨t, rfl⟩ := List.head?_eq_some_iff.mp ht
      exact unescape_append_elim (by decide) h
  have he {t d : ByteString} (ht : Ends hashSign t) (hn : t ≠ []) :
      reprint mode (s ++ t) d = escape mode d := by
    obtain ⟨t, rfl⟩ := List.head?_eq_some_iff.mp (ht.resolve_left hn)
    have hf : validEncoded mode (s ++ hashSign :: t) = false := by
      refine List.all_eq_false.mpr ⟨hashSign, by simp, ?_⟩
      simpa [validEncoded] using hv
    simp [reprint, hf]
  obtain ⟨a, b₁, ha, hb₁, rfl⟩ := hr h₁ ht₁
  obtain ⟨a', b₂, ha', hb₂, rfl⟩ := hr h₂ ht₂
  obtain rfl := Option.some.inj (ha.symm.trans ha')
  rw [hb₁, hb₂, Option.some.injEq]
  constructor
  case mp =>
    intro h
    have hu := congrArg unescape h
    rw [unescape_reprint h₁, unescape_reprint h₂] at hu
    exact List.append_cancel_left (Option.some.inj hu)
  case mpr =>
    rintro rfl
    have hn {t : ByteString} (h : unescape t = some b₁) : t = [] ↔ b₁ = [] := by
      refine ⟨?_, not_imp_not.mp fun hn => unescape_ne_nil h hn⟩
      rintro rfl
      exact (Option.some.inj h).symm
    by_cases hb : b₁ = []
    · rw [(hn hb₁).mpr hb, (hn hb₂).mpr hb]
    · rw [he ht₁ ((hn hb₁).not.mpr hb), he ht₂ ((hn hb₂).not.mpr hb)]

-- What is shown of a user.
def Userinfo.shown (x : Userinfo) : ByteString × Bool :=
  (x.reread.username, x.reread.password.isSome)

theorem string_reread {x : Userinfo} : x.reread.string = x.string := by
  rw [Userinfo.reread]
  split
  case isTrue h => simp [Userinfo.string, h.left, h.right]
  case isFalse => rfl

theorem map_string_eq {user₁ user₂ : Option Userinfo}
    (h : user₁.map Userinfo.reread = user₂.map Userinfo.reread) :
    user₁.map Userinfo.string = user₂.map Userinfo.string := by
  simpa [Function.comp_def, string_reread] using congrArg (Option.map Userinfo.string) h

namespace Target

structure Alike (t₁ t₂ : Target) : Prop where
  scheme : t₁.scheme = t₂.scheme
  host   : t₁.authority.map (·.2) = t₂.authority.map (·.2)
  path   : t₁.path = t₂.path

variable {t₁ t₂ : Target} {p : UrlParser} {w₁ w₂ : Url}

-- What a server takes for the end of the path is the same, once it is read.
def SameStray (t₁ t₂ : Target) : Prop :=
  if t₁.isOpaque then t₁.stray = t₂.stray else unescape t₁.stray = unescape t₂.stray

instance : Decidable (SameStray t₁ t₂) :=
  inferInstanceAs (Decidable (ite ..))

theorem Reads.path_iff {t : Target} {w : Url} (h : t.Reads p w) : w.path = [] ↔ t.isOpaque ∨ t.path = [] := by
  have hp := h.path
  rw [pathText] at hp
  cases ho : t.isOpaque <;> simp only [ho] at hp
  case true => simp_all [unescape]
  case false =>
    obtain hr | ⟨hr, hs⟩ := h.rooted ho
    case inl =>
      have hn : t.path ≠ [] := by
        intro hn
        simp [hn] at hr
      have hw : w.path ≠ [] := unescape_ne_nil hp (by simp [hn])
      simp [hn, hw]
    case inr => simp_all [unescape]

theorem Reads.not_opaque {t : Target} {w : Url} {x : Userinfo} (h : t.Reads p w) (hx : w.user = some x) :
    t.isOpaque = false := by
  have hn : t.authority ≠ none := fun hn => by simpa [hx] using h.user hn
  simp [isOpaque, hn]

theorem Reads.withoutUser {t : Target} {w : Url} (h : t.Reads p w) : t.Reads p { w with user := none } :=
  { h with bare := ⟨h.bare.forceQuery, h.bare.rawQuery, h.bare.fragment⟩, user := fun _ => rfl }

theorem tail_eq_iff : t₁.tail = t₂.tail ↔ t₁.query = t₂.query ∧ t₁.fragment = t₂.fragment := by
  have hq (t : Target) : hashSign ∉ t.query.elim [] (questionMark :: ·) := by
    cases h : t.query
    case none => simp
    case some q => simpa +decide using t.noHash.right q h
  have hf (t : Target) : Ends hashSign (t.fragment.elim [] (hashSign :: ·)) := by
    cases t.fragment
    · exact .inl rfl
    · exact .inr rfl
  have hi (c : UInt8) : Function.Injective fun o : Option ByteString => o.elim [] (c :: ·) := by
    rintro (_ | a) (_ | b) h <;> simp_all
  constructor
  case mp =>
    intro h
    obtain ⟨h₁, h₂⟩ := append_inj_of_ends (hq t₁) (hq t₂) (hf t₁) (hf t₂) h
    exact ⟨hi _ h₁, hi _ h₂⟩
  case mpr =>
    rintro ⟨h₁, h₂⟩
    rw [tail, tail, h₁, h₂]

namespace Alike

variable (ha : t₁.Alike t₂)

include ha

theorem authority_iff : t₁.authority = none ↔ t₂.authority = none := by
  rw [← Option.map_eq_none_iff (f := Prod.snd), ha.host, Option.map_eq_none_iff]

theorem isOpaque_eq : t₁.isOpaque = t₂.isOpaque := by
  simp only [isOpaque, ha.scheme, ha.authority_iff, ha.path]

theorem text_eq_iff (hs : t₁.scheme = []) :
    t₁.text = t₂.text ↔ t₁.query = t₂.query ∧ t₁.fragment = t₂.fragment := by
  have hn₁ := (t₁.origin hs).left
  have hn₂ := ha.authority_iff.mp hn₁
  simp [text, hierarchy, ha.scheme, ha.path, hn₁, hn₂, tail_eq_iff]

variable (h₁ : t₁.Reads p w₁) (h₂ : t₂.Reads p w₂)

include h₁ h₂

theorem scheme_eq : w₁.scheme = w₂.scheme := by
  rw [h₁.scheme, h₂.scheme, ha.scheme]

theorem host_eq : w₁.host = w₂.host := by
  have h (t : Target) : t.authority.elim (.ok []) (p.parseHost w₁.scheme ·.2) =
      (t.authority.map (·.2)).elim (.ok []) (p.parseHost w₁.scheme) := by
    cases t.authority <;> rfl
  have hh₁ := h₁.host
  have hh₂ := h₂.host
  rw [← ha.scheme_eq h₁ h₂, h, ← ha.host, ← h, hh₁] at hh₂
  exact Except.ok.inj hh₂

theorem omitHost_eq : w₁.omitHost = w₂.omitHost := by
  simp only [h₁.omitHost, h₂.omitHost, ha.scheme, ha.authority_iff, ha.isOpaque_eq]

theorem path_iff : w₁.path = [] ↔ w₂.path = [] := by
  rw [h₁.path_iff, h₂.path_iff, ha.isOpaque_eq, ha.path]

theorem escapedPath_eq_iff (ho : t₁.isOpaque = false) :
    w₁.escapedPath = w₂.escapedPath ↔ unescape t₁.stray = unescape t₂.stray := by
  have hp₁ := h₁.path
  have hp₂ := h₂.path
  rw [h₁.escapedPath, h₂.escapedPath]
  simp only [pathText, ho, ← ha.isOpaque_eq, ← ha.path, Bool.false_eq_true, if_false] at hp₁ hp₂ ⊢
  exact reprint_eq_iff hp₁ hp₂ t₁.stray_ends t₂.stray_ends (by decide)

variable (hu : w₁.user.map Userinfo.string = w₂.user.map Userinfo.string)

include hu

theorem authority_eq : w₁.authority = w₂.authority := by
  have hn : w₁.user = none ↔ w₂.user = none := by
    rw [← Option.map_eq_none_iff (f := Userinfo.string), hu, Option.map_eq_none_iff]
  have he (w : Url) : w.user.elim [] (·.string ++ ofString "@") =
      (w.user.map Userinfo.string).elim [] (· ++ ofString "@") := by
    cases w.user <;> rfl
  simp only [Url.authority, ha.scheme_eq h₁ h₂, ha.host_eq h₁ h₂, ha.omitHost_eq h₁ h₂, ne_eq,
    ha.path_iff h₁ h₂, hn, he, hu]

theorem base_eq_iff : w₁.base = w₂.base ↔ SameStray t₁ t₂ := by
  rw [SameStray]
  cases ho : t₁.isOpaque
  case true =>
    rw [h₁.base_of_opaque ho, h₂.base_of_opaque (ha.isOpaque_eq ▸ ho), ha.scheme_eq h₁ h₂, ha.path]
    simp
  case false =>
    rw [h₁.base_of_not_opaque ho, h₂.base_of_not_opaque (ha.isOpaque_eq ▸ ho), ha.scheme_eq h₁ h₂,
      ha.authority_eq h₁ h₂ hu]
    simpa using ha.escapedPath_eq_iff h₁ h₂ ho

theorem body_eq (hs : SameStray t₁ t₂) : t₁.body w₁ = t₂.body w₂ := by
  rw [SameStray] at hs
  rw [body, body, ← ha.isOpaque_eq]
  cases ho : t₁.isOpaque <;> simp only [ho] at hs
  case true => simpa using ha.path
  case false =>
    have he := (ha.escapedPath_eq_iff h₁ h₂ ho).mpr (by simpa using hs)
    simp [ha.authority_eq h₁ h₂ hu, he]

end Alike

-- A user is read again as it is printed.
theorem Reads.parseRest_body {t : Target} {w : Url} {x : Userinfo} (h : t.Reads p w) (hs : t.scheme ≠ [])
    (hx : w.user = some x) : parseRest p false w.scheme (t.body w) =
      (p.parseHost w.scheme (escape .host w.host)).bind fun host =>
        Url.setPath p { Url.empty with scheme := w.scheme, user := some x.reread, host } w.escapedPath := by
  have ha : w.authority = slash :: slash :: (x.string ++ atSign :: escape .host w.host) := by
    simp [Url.authority, hx, ofString_atSign, ofString_slashes]
  have hm : slash ∉ x.string ++ atSign :: escape .host w.host := by
    have hx : slash ∉ x.string := not_mem_string (by decide) (by decide)
    have hh : slash ∉ escape .host w.host := not_mem_escape (by decide) (by decide)
    simp +decide [hx, hh]
  have hn : w.scheme ≠ [] := isScheme_ne_nil (h.isScheme_scheme hs)
  have hh : atSign ∉ escape .host w.host := not_mem_escape (by decide) (by decide)
  have hb : t.body w = slash :: slash :: ((x.string ++ atSign :: escape .host w.host) ++ w.escapedPath) := by
    simp [body, h.not_opaque hx, ha]
  rw [hb, parseRest_authority hn hm h.ends_escapedPath, parseAuthority_append hh, parseUserinfo_string]
  cases p.parseHost w.scheme (escape .host w.host) <;> rfl

theorem Reads.stripPassword_eq {t : Target} {w x : Url} {y : Userinfo} {name password : ByteString}
    (f : ByteString → ByteString) (h : t.Reads p w) (hs : t.scheme ≠ []) (hy : w.user = some y)
    (hr : y.reread = ⟨name, some password⟩) (hx : parseRest p false w.scheme (t.body w) = .ok x) :
    ∃ host path, p.parseHost w.scheme (escape .host w.host) = .ok host ∧ unescape w.escapedPath = some path ∧
      Url.stripPassword { x with host := f x.host } = schemeText w.scheme ++ ofString "//" ++
        ((name ++ ofString ":***@") ++ (escape .host (f host) ++ reprint .path w.escapedPath path)) := by
  rw [h.parseRest_body hs hy] at hx
  cases hh : p.parseHost w.scheme (escape .host w.host) <;> rw [hh] at hx
  case error => contradiction
  case ok host =>
    obtain ⟨path, hp, rfl⟩ := setPath_ok.mp hx
    refine ⟨host, path, rfl, hp, ?_⟩
    exact stripPassword_of_password ⟨rfl, rfl, rfl⟩ rfl (h.isScheme_scheme hs) (congrArg some hr) hp
      h.ends_escapedPath rfl

namespace Alike

variable (ha : t₁.Alike t₂) (h₁ : t₁.Reads p w₁) (h₂ : t₂.Reads p w₂)

include ha h₁ h₂

theorem stripPassword_eq {x₁ x₂ : Url} (f : ByteString → ByteString) (hs : t₁.scheme ≠ [])
    (hu : w₁.user.map Userinfo.shown = w₂.user.map Userinfo.shown) (ht : SameStray t₁ t₂)
    (hx₁ : parseRest p false w₁.scheme (t₁.body w₁) = .ok x₁)
    (hx₂ : parseRest p false w₂.scheme (t₂.body w₂) = .ok x₂) :
    Url.stripPassword { x₁ with host := f x₁.host } = Url.stripPassword { x₂ with host := f x₂.host } := by
  have he (hr : w₁.user.map Userinfo.reread = w₂.user.map Userinfo.reread) :
      Url.stripPassword { x₁ with host := f x₁.host } = Url.stripPassword { x₂ with host := f x₂.host } := by
    rw [ha.scheme_eq h₁ h₂, ha.body_eq h₁ h₂ (map_string_eq hr) ht, hx₂] at hx₁
    rw [Except.ok.inj hx₁]
  cases hy₁ : w₁.user <;> cases hy₂ : w₂.user <;> rw [hy₁, hy₂] at hu
  case none.none => exact he (by rw [hy₁, hy₂])
  case none.some => contradiction
  case some.none => contradiction
  case some.some y₁ y₂ =>
    simp only [Option.map_some, Userinfo.shown, Option.some.injEq, Prod.mk.injEq] at hu
    obtain ⟨hn, hp⟩ := hu
    rcases hr₁ : y₁.reread with ⟨name₁, password₁⟩
    rcases hr₂ : y₂.reread with ⟨name₂, password₂⟩
    simp only [hr₁, hr₂] at hn hp
    subst hn
    cases password₁ <;> cases password₂ <;> try contradiction
    case none.none => exact he (by rw [hy₁, hy₂, Option.map_some, Option.map_some, hr₁, hr₂])
    case some.some =>
      have ho := h₁.not_opaque hy₁
      have hp := (ha.escapedPath_eq_iff h₁ h₂ ho).mpr (by simpa [SameStray, ho] using ht)
      obtain ⟨host, path, hh₁, hd₁, hs₁⟩ := h₁.stripPassword_eq f hs hy₁ hr₁ hx₁
      obtain ⟨host', path', hh₂, hd₂, hs₂⟩ := h₂.stripPassword_eq f (ha.scheme ▸ hs) hy₂ hr₂ hx₂
      rw [ha.scheme_eq h₁ h₂, ha.host_eq h₁ h₂, hh₂] at hh₁
      obtain rfl := Except.ok.inj hh₁
      rw [hp, hd₂] at hd₁
      obtain rfl := Option.some.inj hd₁
      rw [hs₁, hs₂, ha.scheme_eq h₁ h₂, hp]

-- Of URLs that are sent, the masked text shows the query and the fragment.
theorem stripPassword_eq_iff {v₁ v₂ : Url} (f : ByteString → ByteString) (hs : t₁.scheme ≠ [])
    (hu : w₁.user.map Userinfo.shown = w₂.user.map Userinfo.shown) (ht : SameStray t₁ t₂)
    (hv₁ : parseURL p (w₁.withQuery t₁.queryText).string = .ok v₁)
    (hv₂ : parseURL p (w₂.withQuery t₂.queryText).string = .ok v₂) :
    Url.stripPassword { v₁ with host := f v₁.host } = Url.stripPassword { v₂ with host := f v₂.host } ↔
      t₁.sentQuery = t₂.sentQuery ∧ t₁.shownFragment = t₂.shownFragment := by
  obtain ⟨x₁, hx₁, _, _, rfl, hf₁⟩ := h₁.parseURL_ok hs hv₁
  obtain ⟨x₂, hx₂, _, _, rfl, hf₂⟩ := h₂.parseURL_ok (ha.scheme ▸ hs) hv₂
  have hp {t : Target} {w x : Url} {fragment rawFragment : ByteString}
      (hx : parseRest p false w.scheme (t.body w) = .ok x)
      (hf : Url.hash { x with fragment, rawFragment } = t.shownFragment) :
      Url.stripPassword { x.withQuery t.sentQuery with host := f x.host, fragment, rawFragment } =
        Url.stripPassword { x with host := f x.host } ++ (t.sentQuery ++ t.shownFragment) := by
    obtain ⟨hb, -, ho⟩ := parseRest_ok hx
    rw [← hf]
    exact stripPassword_withQuery (w := { x with host := f x.host })
      ⟨hb.forceQuery, hb.rawQuery, hb.fragment⟩ ho t.sentQuery_ends
  have hc := ha.stripPassword_eq h₁ h₂ f hs hu ht hx₁ hx₂
  have he (t : Target) : Ends hashSign t.shownFragment := by
    rw [shownFragment]
    split
    · exact .inl rfl
    · exact .inr rfl
  have hp₁ := hp hx₁ hf₁
  have hp₂ := hp hx₂ hf₂
  refine Iff.trans (Eq.congr hp₁ hp₂) ?_
  rw [hc, List.append_cancel_left_eq]
  constructor
  case mp => exact append_inj_of_ends not_mem_before not_mem_before (he t₁) (he t₂)
  case mpr =>
    rintro ⟨hq, hf⟩
    rw [hq, hf]

-- Of URLs that can not be read again, the error shows the text that could not be read.
theorem url_eq_iff {err₁ err₂ : ParseError} (hs : t₁.scheme ≠ []) (hc₁ : t₁.text.any isCTL = false)
    (hc₂ : t₂.text.any isCTL = false) (hu : w₁.user.map Userinfo.reread = w₂.user.map Userinfo.reread)
    (ht : SameStray t₁ t₂) (he₁ : parseURL p (w₁.withQuery t₁.queryText).string = .error err₁)
    (he₂ : parseURL p (w₂.withQuery t₂.queryText).string = .error err₂) :
    err₁.url = err₂.url ↔
      t₁.sentQuery = t₂.sentQuery ∧ (t₁.Readable p w₁ → t₁.sentFragment = t₂.sentFragment) := by
  have hp {q : ByteString} : t₂.printed w₂ q = t₁.printed w₁ q := by
    rw [printed, printed, ha.scheme_eq h₁ h₂, ha.body_eq h₁ h₂ (map_string_eq hu) ht]
  have hi {q₁ q₂ : ByteString} : t₁.printed w₁ q₁ = t₁.printed w₁ q₂ ↔ q₁ = q₂ := by
    simp [printed]
  have hr₁ := h₁.readable_iff hs hc₁
  have hr₂ := h₂.readable_iff (ha.scheme ▸ hs) hc₂
  have hr : t₁.Readable p w₁ ↔ t₂.Readable p w₂ := by
    rw [Readable, Readable, hp]
  obtain ⟨hn₁, hx₁⟩ | ⟨hn₁, hx₁⟩ := h₁.parseURL_error hs he₁ <;>
    obtain ⟨hn₂, hx₂⟩ | ⟨hn₂, hx₂⟩ := h₂.parseURL_error (ha.scheme ▸ hs) he₂ <;> rw [hx₁, hx₂, hp, hi]
  case inl.inl =>
    have hn : ¬t₁.Readable p w₁ := fun h => (hr₁.mp h).elim hn₁
    simp [hn]
  case inl.inr => exact ((hr₁.mp (hr.mpr (hr₂.mpr hn₂))).elim hn₁).elim
  case inr.inl => exact ((hr₂.mp (hr.mp (hr₁.mpr hn₁))).elim hn₂).elim
  case inr.inr =>
    constructor
    case mp =>
      intro h
      obtain ⟨hq, hf⟩ := append_inj_of_ends not_mem_before not_mem_before (.inr rfl) (.inr rfl) h
      exact ⟨hq, fun _ => (List.cons.inj hf).right⟩
    case mpr =>
      rintro ⟨hq, hf⟩
      rw [hq, hf (hr₁.mpr hn₁)]

end Alike

end Target

end Http
