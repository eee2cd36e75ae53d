import Mathlib.Data.List.Nodup
import VpnTunnel.Apitls.Basic
import VpnTunnel.Lib.Os.Sequential

namespace Apitls

open Os Files Sequential

-- What is assumed of the standard library: a certificate that can be read forms a pair with the key that it was
-- made for, and ten years have at least 3650 days.
structure Crypto.Lawful (x : Crypto) : Prop where
  marshal_ok     : ∀ seed, ∃ pkcs8, x.marshalPKCS8PrivateKey (x.generateKey seed).2 = .ok pkcs8
  keyPair_create : ∀ tmpl seed der leaf pkcs8,
    x.createCertificate tmpl (x.generateKey seed).1 (x.generateKey seed).2 = .ok der →
    x.parseCertificate der = .ok leaf → x.marshalPKCS8PrivateKey (x.generateKey seed).2 = .ok pkcs8 →
    x.x509KeyPair (x.encodePEM "CERTIFICATE" der) (x.encodePEM "PRIVATE KEY" pkcs8) =
      .ok (der, [], (x.generateKey seed).2)
  tenYears       : ∀ now, now + 3650 * (24 * hour) ≤ x.tenYearsAfter now

-- The library makes certificates for the host while the clock is between two moments, and it reads them again.
-- A certificate is valid until a whole second.
def Crypto.Issues (x : Crypto) (hostname : String) (ipSANs : List ByteString) (t₀ t₁ : Nat) : Prop :=
  ∀ serialNumber now seed, 0 < serialNumber → serialNumber < 2 ^ 128 → t₀ ≤ now → now < t₁ → ∃ der leaf,
    x.createCertificate (template x hostname ipSANs serialNumber now) (x.generateKey seed).1 (x.generateKey seed).2 =
      .ok der ∧
    x.parseCertificate der = .ok leaf ∧ leaf.dnsNames = [hostname] ∧
    leaf.notAfter = x.tenYearsAfter now / 10 ^ 9 * 10 ^ 9

section Paths

open Filepath

variable {certDir : String}

def names : List String :=
  ["cert.pem", "key.pem", "cert.pem.tmp", "key.pem.tmp"]

theorem plain_of_mem_names : ∀ name ∈ names, Plain name.toList := by
  unfold Plain
  decide +kernel

theorem join_append {name ext : String} (h₁ : Plain name.toList) (h₂ : Plain (name ++ ext).toList) :
    join certDir name ++ ext = join certDir (name ++ ext) := by
  have ⟨pre, hp⟩ := exists_join certDir
  rw [hp _ h₁, hp _ h₂, String.append_assoc]

theorem certTmp_eq : certTmp certDir = join certDir "cert.pem.tmp" :=
  join_append (plain_of_mem_names _ (by simp [names])) (plain_of_mem_names "cert.pem.tmp" (by simp [names]))

theorem keyTmp_eq : keyTmp certDir = join certDir "key.pem.tmp" :=
  join_append (plain_of_mem_names _ (by simp [names])) (plain_of_mem_names "key.pem.tmp" (by simp [names]))

-- The names of the files differ from each other and from the one of the directory.
theorem nodup_paths (h : isAbs certDir) :
    [certDir, certPath certDir, keyPath certDir, certTmp certDir, keyTmp certDir].Nodup := by
  have hm : [certDir, certPath certDir, keyPath certDir, certTmp certDir, keyTmp certDir] =
      certDir :: names.map (join certDir) := by
    simp [certPath, keyPath, certTmp_eq, keyTmp_eq, names]
  rw [hm]
  refine List.nodup_cons.mpr ⟨fun hc => ?_, List.Nodup.map_on ?_ (by decide)⟩
  · have ⟨name, hn, he⟩ := List.mem_map.mp hc
    exact join_ne (ne_empty_of_isAbs h) (plain_of_mem_names name hn) he
  · intro a ha b hb he
    have ⟨pre, hp⟩ := exists_join certDir
    rw [hp a (plain_of_mem_names a ha), hp b (plain_of_mem_names b hb)] at he
    exact (String.append_right_inj pre).mp he

end Paths

variable {t₀ t₁ : Nat}

-- No call fails, random bytes are not all zero, and the clock is between two moments.
def undisturbed (t₀ t₁ : Nat) : Choice → Bool
  | .fail        => false
  | .random data => data.isEmpty || data.any (· ≠ 0)
  | .time t      => t₀ ≤ t && t < t₁
  | _            => true

theorem ne_fail_of_undisturbed : ∀ c, undisturbed t₀ t₁ c → c ≠ .fail := by
  rintro _ hc rfl
  cases hc

theorem serial_pos {data : ByteString} (h : data.any (· ≠ 0)) : 0 < serial data := by
  have hle : ∀ (data : ByteString) n, n ≤ data.foldl (fun n b => n * 256 + b.toNat) n := by
    intro data
    induction data
    case nil => exact fun n => le_rfl
    case cons b data hi =>
      intro n
      have hn : n ≤ n * 256 + b.toNat := by omega
      exact hn.trans (hi _)
  obtain ⟨b, hb, hz⟩ := List.any_eq_true.mp h
  obtain ⟨l₁, l₂, rfl⟩ := List.append_of_mem hb
  rw [serial, List.foldl_append, List.foldl_cons]
  have hb : b.toNat ≠ 0 := by simpa [← UInt8.toNat_inj] using hz
  exact lt_of_lt_of_le (by omega) (hle l₂ _)

theorem serial_lt (data : ByteString) : serial data < 256 ^ data.length := by
  induction data using List.reverseRecOn
  case nil => decide
  case append_singleton data b hi =>
    have hb := b.toNat_lt
    have hs : serial (data ++ [b]) = serial data * 256 + b.toNat := by simp [serial]
    rw [hs, List.length_append, List.length_singleton, Nat.pow_succ]
    omega

variable {x : Crypto} {certDir hostname : String} {ipSANs : List ByteString} {umask : Mode} {pid : Nat} {s s' : Files}

-- The state of the files before a start, whatever has become of earlier ones.
structure Usable (certDir : String) (s : Files) : Prop where
  tidy  : s.Tidy
  dir   : s.names certDir = none ∨ s.names certDir = some (.dir 0o700)
  noDir : ∀ path ∈ [certPath certDir, keyPath certDir, certTmp certDir, keyTmp certDir], s.NoDir path

structure Ready (certDir : String) (s : Files) : Prop extends Usable certDir s where
  ready : s.names certDir = some (.dir 0o700)

-- The certificate is in the files together with its key.
structure Installed (x : Crypto) (certDir hostname : String) (loaded : Certificate × ByteString) (s : Files) :
    Prop where
  dir      : s.names certDir = some (.dir 0o700)
  pair     : ∃ cert key der chain, s.Holds (certPath certDir) cert ∧ s.Holds (keyPath certDir) key ∧
    x.x509KeyPair cert key = .ok (der, chain, loaded.1.privateKey) ∧ loaded.1.certificate = der :: chain ∧
    x.parseCertificate der = .ok loaded.1.leaf ∧ loaded.2 = fingerprintDER x der
  hostname : hostname ∈ loaded.1.leaf.dnsNames

theorem ensures_ensureCertDir (ha : Filepath.isAbs certDir) (hm : 0o700 &&& ~~~umask = 0o700)
    (hu : Usable certDir s) :
    (ensureCertDir certDir).Ensures ((kernel umask).only (undisturbed t₀ t₁)) pid
      (fun r s => r = .ok () ∧ Ready certDir s) s := by
  refine ensures_plain ne_fail_of_undisturbed rfl fun r s' he => ?_
  obtain ⟨rfl, rfl⟩ := Prod.mk.inj (Option.some.inj he)
  cases hu.dir
  case inr hd =>
    have hs : s.stat certDir = .ok 0o700 := by simp [Files.stat, hd]
    rw [hs]
    exact ⟨rfl, hu, hd⟩
  case inl hd =>
    have hs : s.stat certDir = .error .notExist := by simp [Files.stat, hd]
    rw [hs]
    refine ensures_plain ne_fail_of_undisturbed rfl fun r s' he => ?_
    have hk : s.mkdirAll certDir (0o700 &&& ~~~umask) = (.ok (), s.setName certDir (some (.dir 0o700))) := by
      rw [hm]
      simp [Files.mkdirAll, Filepath.ne_empty_of_isAbs ha, hd]
    cases hk.symm.trans (Option.some.inj he)
    refine ⟨rfl, ⟨hu.tidy.setName (by simp), .inr (by simp [setName]), ?_⟩, by simp [setName]⟩
    intro path hp
    have hc : path ≠ certDir := fun he => (List.nodup_cons.mp (nodup_paths ha)).left (he ▸ hp)
    exact (Unchanged.setName hc).noDir (hu.noDir path hp)

theorem ensures_loadX509KeyPair :
    (loadX509KeyPair x certDir).Ensures ((kernel umask).only (undisturbed t₀ t₁)) pid (fun r s' => s' = s ∧
      ∀ pair, r = .ok pair → ∃ cert key, s.Holds (certPath certDir) cert ∧ s.Holds (keyPath certDir) key ∧
        x.x509KeyPair cert key = .ok pair) s := by
  refine ensures_plain ne_fail_of_undisturbed rfl fun r s' he => ?_
  obtain ⟨hr, rfl⟩ := Prod.mk.inj (Option.some.inj he)
  cases r
  case error err => exact ⟨rfl, nofun⟩
  case ok cert =>
    refine ensures_plain ne_fail_of_undisturbed rfl fun r s' he => ?_
    obtain ⟨hr', rfl⟩ := Prod.mk.inj (Option.some.inj he)
    cases r
    case error err => exact ⟨rfl, nofun⟩
    case ok key =>
      refine ⟨rfl, fun pair hp => ⟨cert, key, Holds.of_readFile hr, Holds.of_readFile hr', ?_⟩⟩
      cases hx : x.x509KeyPair cert key <;> simp only [hx, Except.mapError] at hp <;> cases hp
      rfl

theorem shouldRegenerate_eq_none_iff {leaf : Leaf} {now : Nat} :
    shouldRegenerate leaf hostname now = none ↔ now < leaf.notAfter ∧ hostname ∈ leaf.dnsNames := by
  unfold shouldRegenerate
  split
  case isTrue h  => simp [h]
  case isFalse h => simp [not_not.mp h]

theorem ensures_now {α : Type} {Q : α → Files → Prop} {f : Nat → Program α}
    (h : ∀ t, t₀ ≤ t → t < t₁ → (f t).Ensures ((kernel umask).only (undisturbed t₀ t₁)) pid Q s) :
    (now >>= f).Ensures ((kernel umask).only (undisturbed t₀ t₁)) pid Q s := by
  refine .perform_bind fun c t s' he => ?_
  have ⟨hc, he⟩ := Kernel.only_elim he
  cases eq_of_isRead rfl he
  cases exec_now he
  have ⟨h₀, h₁⟩ := Bool.and_eq_true_iff.mp hc
  exact h t (@of_decide_eq_true _ (Nat.decLe _ _) h₀) (@of_decide_eq_true _ (Nat.decLt _ _) h₁)

theorem ensures_loadAndVerify (hd : s.names certDir = some (.dir 0o700)) :
    (loadAndVerify x certDir hostname).Ensures ((kernel umask).only (undisturbed t₀ t₁)) pid
      (fun r s' => s' = s ∧ ∀ loaded, r = .ok loaded →
        Installed x certDir hostname loaded s ∧ t₀ < loaded.1.leaf.notAfter) s := by
  refine .bind ensures_loadX509KeyPair fun r s' hp => ?_
  obtain ⟨rfl, hp⟩ := hp
  cases r
  case error err => exact ⟨rfl, nofun⟩
  case ok pair =>
    obtain ⟨cert, key, hc, hk, hx⟩ := hp pair rfl
    obtain ⟨der, chain, priv⟩ := pair
    dsimp only
    cases hl : x.parseCertificate der
    case error err => exact ⟨rfl, nofun⟩
    case ok leaf =>
      refine ensures_now fun now hlo _ => ?_
      cases hg : shouldRegenerate leaf hostname now
      case some reason => exact ⟨rfl, nofun⟩
      case none =>
        have ⟨hn, hh⟩ := shouldRegenerate_eq_none_iff.mp hg
        refine ⟨rfl, fun loaded he => ?_⟩
        cases he
        exact ⟨⟨hd, ⟨cert, key, der, chain, hc, hk, hx, rfl, hl, rfl⟩, hh⟩, hlo.trans_lt hn⟩

theorem ensures_writePEMFiles {der priv pkcs8 : ByteString} (ha : Filepath.isAbs certDir) (hr : Ready certDir s)
    (hk : x.marshalPKCS8PrivateKey priv = .ok pkcs8) :
    (writePEMFiles x certDir der priv).Ensures ((kernel umask).only (undisturbed t₀ t₁)) pid
      (fun r s => r = .ok () ∧ s.names certDir = some (.dir 0o700) ∧
        s.Holds (certPath certDir) (x.encodePEM "CERTIFICATE" der) ∧
        s.Holds (keyPath certDir) (x.encodePEM "PRIVATE KEY" pkcs8)) s := by
  have hn := nodup_paths ha
  simp only [List.nodup_cons, List.mem_cons, not_or, List.not_mem_nil, not_false_eq_true, and_true] at hn
  obtain ⟨⟨dc, dk, dct, dkt⟩, ⟨ck, cct, ckt⟩, ⟨kct, kkt⟩, ctkt, -⟩ := hn
  have hd := fun path hp => hr.noDir path hp
  simp only [List.mem_cons, List.not_mem_nil, or_false, forall_eq_or_imp, forall_eq] at hd
  obtain ⟨hc, hk', hct, hkt⟩ := hd
  -- The two files are written under their temporary names.
  refine .bind (ensures_writeFile ne_fail_of_undisturbed hr.tidy hct) fun r s₁ h₁ => ?_
  obtain ⟨rfl, t₁, hw₁, u₁⟩ := h₁
  simp only [hk]
  refine .bind (ensures_writeFile ne_fail_of_undisturbed t₁ ((u₁ _ (Ne.symm ctkt)).noDir hkt)) fun r s₂ h₂ => ?_
  obtain ⟨rfl, t₂, hw₂, u₂⟩ := h₂
  -- Then they are renamed one after the other.
  refine ensures_plain ne_fail_of_undisturbed rfl fun r s₃ he => ?_
  have hc₂ := (u₂ _ ckt).noDir ((u₁ _ cct).noDir hc)
  obtain ⟨rfl, t₃, hw₃, u₃⟩ := rename_spec t₂ ((u₂ _ ctkt).holds hw₁) hc₂ (Ne.symm cct) (Option.some.inj he)
  refine ensures_plain ne_fail_of_undisturbed rfl fun r s₄ he => ?_
  have hk₃ := (u₃ _ kct (Ne.symm ck)).noDir ((u₂ _ kkt).noDir ((u₁ _ kct).noDir hk'))
  have hw := (u₃ _ (Ne.symm ctkt) (Ne.symm ckt)).holds hw₂
  obtain ⟨rfl, t₄, hw₄, u₄⟩ := rename_spec t₃ hw hk₃ (Ne.symm kkt) (Option.some.inj he)
  refine ensures_plain ne_fail_of_undisturbed rfl fun r s₅ he => ?_
  obtain ⟨rfl, t₅, hw₅, u₅⟩ := chmod_spec t₄ hw₄ (Option.some.inj he)
  have ud := (u₁ _ dct).trans <| (u₂ _ dkt).trans <| (u₃ _ dct dc).trans <| (u₄ _ dkt dk).trans (u₅ _ dk)
  exact ⟨rfl, ud.names.trans hr.ready, (u₅ _ ck).holds ((u₄ _ ckt ck).holds hw₃), hw₅⟩

theorem ensures_random {α : Type} {Q : α → Files → Prop} {n : Nat} {f : Except Errno ByteString → Program α}
    (hn : n ≠ 0) (h : ∀ data : ByteString, data.any (· ≠ 0) → data.length = n →
      (f (.ok data)).Ensures ((kernel umask).only (undisturbed t₀ t₁)) pid Q s) :
    (random n >>= f).Ensures ((kernel umask).only (undisturbed t₀ t₁)) pid Q s := by
  refine .perform_bind fun c r s' he => ?_
  have ⟨hc, he⟩ := Kernel.only_elim he
  cases eq_of_isRead rfl he
  cases c <;> simp only [kernel, answer, reduceCtorEq, if_false] at he <;> try contradiction
  case random data =>
    split at he
    case isTrue hl =>
      cases he
      refine h _ (Or.resolve_left (Bool.or_eq_true_iff.mp hc) fun hd => hn ?_) hl
      rw [← hl, List.isEmpty_iff.mp hd, List.length_nil]
    case isFalse => contradiction

theorem ensures_generate (hx : x.Lawful) (hi : x.Issues hostname ipSANs t₀ t₁) (ha : Filepath.isAbs certDir)
    (hr : Ready certDir s) :
    (generate x certDir hostname ipSANs).Ensures ((kernel umask).only (undisturbed t₀ t₁)) pid
      (fun r s' => ∃ loaded, r = .ok loaded ∧ Installed x certDir hostname loaded s' ∧
        t₀ < loaded.1.leaf.notAfter) s := by
  refine ensures_random (by decide) fun seed _ _ => ?_
  refine ensures_random (by decide) fun entropy he hn => ?_
  refine ensures_now fun now hlo hhi => ?_
  have hlt : serial entropy < 2 ^ 128 := by simpa [hn] using serial_lt entropy
  have ⟨der, leaf, hd, hl, hs, ht⟩ := hi (serial entropy) now seed (serial_pos he) hlt hlo hhi
  have ⟨pkcs8, hp⟩ := hx.marshal_ok seed
  simp only [hd, hl]
  refine .bind (ensures_writePEMFiles ha hr hp) fun r s' h => ?_
  obtain ⟨rfl, hdir, hc, hk⟩ := h
  refine ⟨_, rfl, ⟨hdir, ⟨_, _, der, [], hc, hk, hx.keyPair_create _ _ _ _ _ hd hl hp, rfl, hl, rfl⟩, ?_⟩, ?_⟩
  · simp [hs]
  · have hy := hx.tenYears now
    rw [hour] at hy
    rw [ht]
    omega

theorem ensures_loadOrGenerate (hx : x.Lawful) (hi : x.Issues hostname ipSANs t₀ t₁) (ha : Filepath.isAbs certDir)
    (hm : 0o700 &&& ~~~umask = 0o700) (hu : Usable certDir s) :
    (loadOrGenerate x certDir hostname ipSANs).Ensures ((kernel umask).only (undisturbed t₀ t₁)) pid
      (fun r s' => ∃ loaded, r = .ok loaded ∧ Installed x certDir hostname loaded s' ∧
        t₀ < loaded.1.leaf.notAfter) s := by
  refine .bind (ensures_ensureCertDir ha hm hu) fun r s h => ?_
  obtain ⟨rfl, hr⟩ := h
  refine ensures_plain ne_fail_of_undisturbed rfl fun r s' he => ?_
  cases (Prod.mk.inj (Option.some.inj he)).right
  refine ensures_plain ne_fail_of_undisturbed rfl fun r' s' he => ?_
  cases (Prod.mk.inj (Option.some.inj he)).right
  dsimp only
  split
  case isTrue =>
    refine .bind (ensures_loadAndVerify hr.ready) fun r s h => ?_
    obtain ⟨rfl, hl⟩ := h
    cases r
    case ok loaded => exact ⟨loaded, rfl, hl loaded rfl⟩
    case error err => exact ensures_generate hx hi ha hr
  case isFalse => exact ensures_generate hx hi ha hr

section Installed

variable {loaded : Certificate × ByteString}

-- No call fails, and the clock stays before a moment.
def clockBefore (t : Nat) : Choice → Bool
  | .fail     => false
  | .time now => now < t
  | _         => true

def Still (_ : Nat) (s s' : Files) : Prop :=
  s' = s

theorem meets_plain {α : Type} {Q : α → Files → Prop} {op : Op} {f : Res op → Program α} {t : Nat}
    (hr : op.isRead) (hp : op.isPlain)
    (h : ∀ r, answer umask pid s op .ok = some (r, s) →
      (f r).Meets ((kernel umask).only (clockBefore t)) Still pid Q s) :
    (Prog.perform op >>= f).Meets ((kernel umask).only (clockBefore t)) Still pid Q s := by
  rintro _ rfl c r s' he
  have ⟨hc, he⟩ := Kernel.only_elim he
  cases eq_of_isRead hr he
  refine ⟨fun _ _ => rfl, h r (exec_ok ?_ hp he)⟩
  rintro rfl
  cases hc

theorem meets_now {α : Type} {Q : α → Files → Prop} {f : Nat → Program α} {t : Nat}
    (h : ∀ now < t, (f now).Meets ((kernel umask).only (clockBefore t)) Still pid Q s) :
    (now >>= f).Meets ((kernel umask).only (clockBefore t)) Still pid Q s := by
  rintro _ rfl c r s' he
  have ⟨hc, he⟩ := Kernel.only_elim he
  cases eq_of_isRead rfl he
  cases exec_now he
  exact ⟨fun _ _ => rfl, h r (@of_decide_eq_true _ (Nat.decLt _ _) hc)⟩

theorem meets_loadAndVerify (h : Installed x certDir hostname loaded s) :
    (loadAndVerify x certDir hostname).Meets ((kernel umask).only (clockBefore loaded.1.leaf.notAfter)) Still pid
      (fun r s' => r = .ok loaded ∧ s' = s) s := by
  have ⟨cert, key, der, chain, hc, hk, hx, hd, hl, hf⟩ := h.pair
  refine .bind (fun _ => rfl) (Q := fun r s' => r = .ok (der, chain, loaded.1.privateKey) ∧ s' = s) ?_ ?_
  · refine meets_plain rfl rfl fun r he => ?_
    cases hc.readFile.symm.trans (Prod.mk.inj (Option.some.inj he)).left
    refine meets_plain rfl rfl fun r he => ?_
    cases hk.readFile.symm.trans (Prod.mk.inj (Option.some.inj he)).left
    rintro _ rfl
    exact ⟨by rw [hx]; rfl, rfl⟩
  · rintro r _ ⟨rfl, rfl⟩
    simp only [hl]
    refine meets_now fun now hn => ?_
    rw [shouldRegenerate_eq_none_iff.mpr ⟨hn, h.hostname⟩]
    rintro _ rfl
    refine ⟨congrArg Except.ok ?_, rfl⟩
    rw [← hd, ← hf]

theorem meets_loadOrGenerate (h : Installed x certDir hostname loaded s) :
    (loadOrGenerate x certDir hostname ipSANs).Meets ((kernel umask).only (clockBefore loaded.1.leaf.notAfter))
      Still pid (fun r _ => r = .ok loaded) s := by
  obtain ⟨cert, key, _, _, hc, hk, _⟩ := h.pair
  refine .bind (fun _ => rfl) (Q := fun r s' => r = .ok () ∧ s' = s) ?_ ?_
  · refine meets_plain rfl rfl fun r he => ?_
    have hs : s.stat certDir = .ok 0o700 := by simp [Files.stat, h.dir]
    cases hs.symm.trans (Prod.mk.inj (Option.some.inj he)).left
    rintro _ rfl
    exact ⟨rfl, rfl⟩
  · rintro r _ ⟨rfl, rfl⟩
    obtain ⟨m₁, h₁⟩ := hc.exists_stat
    obtain ⟨m₂, h₂⟩ := hk.exists_stat
    refine meets_plain rfl rfl fun r he => ?_
    cases h₁.symm.trans (Prod.mk.inj (Option.some.inj he)).left
    refine meets_plain rfl rfl fun r he => ?_
    cases h₂.symm.trans (Prod.mk.inj (Option.some.inj he)).left
    refine .bind (fun _ => rfl) (meets_loadAndVerify h) ?_
    rintro r _ ⟨rfl, rfl⟩ _ _
    rfl

theorem concurrent_installed (h : Installed x certDir hostname loaded s) :
    ((kernel umask).only (clockBefore loaded.1.leaf.notAfter)).Concurrent
      (fun _ : Unit => loadOrGenerate x certDir hostname ipSANs) (· = s) Still (fun r _ => r = .ok loaded) where
  refl _ _                := rfl
  trans _ _ _ _ h₁ h₂     := h₂.trans h₁
  invariant _ _ _ hi hr   := hr.trans hi
  crash d                 := d.elim
  meets _ _ _ hi          := hi ▸ meets_loadOrGenerate h

end Installed

theorem undisturbed_choice (h : t₀ < t₁) (op : Op) : undisturbed t₀ t₁ (choice t₀ op) := by
  cases op
  case random n => cases n <;> simp [choice, undisturbed, List.replicate_succ]
  case now      => simp [choice, undisturbed, h]
  all_goals rfl

-- A start that is undisturbed ends with a certificate for the host in the files that has not expired, and from
-- then on all starts, in any order and cut off at any point, return this one and change nothing.
theorem loadOrGenerate_installs (hx : x.Lawful) (hi : x.Issues hostname ipSANs t₀ t₁) (hlt : t₀ < t₁)
    (ha : Filepath.isAbs certDir) (hm : 0o700 &&& ~~~umask = 0o700) (hu : Usable certDir s) :
    (∃ r s', (loadOrGenerate x certDir hostname ipSANs).Returns ((kernel umask).only (undisturbed t₀ t₁)) pid s r s') ∧
    ∀ r s', (loadOrGenerate x certDir hostname ipSANs).Returns ((kernel umask).only (undisturbed t₀ t₁)) pid s r s' →
      ∃ loaded, r = .ok loaded ∧ Installed x certDir hostname loaded s' ∧ t₀ < loaded.1.leaf.notAfter ∧
        ∀ m, (((kernel umask).only (clockBefore loaded.1.leaf.notAfter)).system
            (fun _ : Unit => loadOrGenerate x certDir hostname ipSANs) s').Reachable m →
          m.shared = s' ∧ ∀ pid r', m.Returned pid r' → r' = .ok loaded := by
  refine ⟨Prog.exists_returns (exists_exec (undisturbed_choice hlt) umask pid), fun r s' hr => ?_⟩
  have ⟨loaded, hl, hins, hn⟩ := (ensures_loadOrGenerate hx hi ha hm hu).returns hr
  refine ⟨loaded, hl, hins, hn, fun m hr => ?_⟩
  have hc := @concurrent_installed _ _ _ ipSANs umask _ _ hins
  exact ⟨(hc.sound rfl hr).invariant, fun pid r' => hc.returned rfl hr⟩

-- A library for one host, in which the text of a key is the key. The clock is in its first second, and the
-- certificates are valid until the same second ten years later.
def plainCrypto : Crypto where
  generateKey seed               := (seed, seed)
  createCertificate tmpl pub _   :=
    if tmpl.dnsNames = ["vpn"] ∧ tmpl.notAfter / 10 ^ 9 = 3650 * 86400 then .ok (1 :: pub) else .error "unknown host"
  parseCertificate _             := .ok ⟨3650 * 86400 * 10 ^ 9, ["vpn"]⟩
  marshalPKCS8PrivateKey priv    := .ok priv
  encodePEM _ data               := data
  x509KeyPair cert key           := if cert = 1 :: key then .ok (cert, [], key) else .error "no pair"
  sum256 data                    := data
  tenYearsAfter now              := now + 3650 * (24 * hour)

theorem lawful_plainCrypto : plainCrypto.Lawful where
  marshal_ok seed := ⟨seed, rfl⟩
  keyPair_create tmpl seed der leaf pkcs8 h _ hp := by
    simp only [plainCrypto] at h hp
    cases hp
    split at h
    case isTrue  =>
      cases h
      simp [plainCrypto]
    case isFalse => cases h
  tenYears now    := le_rfl

theorem issues_plainCrypto : plainCrypto.Issues "vpn" [] 0 (10 ^ 9) := by
  intro serialNumber now seed _ _ _ hn
  have hd : (now + 3650 * (24 * hour)) / 10 ^ 9 = 3650 * 86400 := by
    rw [hour]
    omega
  refine ⟨1 :: seed, ⟨3650 * 86400 * 10 ^ 9, ["vpn"]⟩, ?_, rfl, rfl, ?_⟩
  · simp only [plainCrypto, template, hd, and_self, if_true]
  · simp only [plainCrypto, hd]

-- The first start, and another one after a year.
def firstStart : List Choice :=
  [.ok, .ok, .ok, .ok, .random (.replicate 32 7), .random (.replicate 16 1), .time 5, .ok, .bytes 33, .ok,
    .ok, .bytes 32, .ok, .ok, .ok, .ok]

def afterOneYear : List (Kernel.Event Choice Empty Unit) :=
  .start () :: [.ok, .ok, .ok, .ok, .ok, .time (365 * (24 * hour))].map (.call 0)

theorem loadOrGenerate_installs_plainCrypto :
    ∃ loaded s' m,
      (loadOrGenerate plainCrypto "/tls" "vpn" []).Returns ((kernel 0o022).only (undisturbed 0 (10 ^ 9))) 0 .empty
        (.ok loaded) s' ∧
      Installed plainCrypto "/tls" "vpn" loaded s' ∧
      (((kernel 0o022).only (clockBefore loaded.1.leaf.notAfter)).system
        (fun _ : Unit => loadOrGenerate plainCrypto "/tls" "vpn" []) s').Run afterOneYear m ∧
      m.shared = s' ∧ m.Returned 0 (.ok loaded) := by
  have hu : Usable "/tls" .empty := ⟨⟨nofun, nofun⟩, .inl rfl, fun _ _ _ => nofun⟩
  have h : (loadOrGenerate plainCrypto "/tls" "vpn" []).replay ((kernel 0o022).only (undisturbed 0 (10 ^ 9))) 0 .empty
      firstStart = some (.ok _, _) := rfl
  have hr := Prog.returns_of_replay h
  have ⟨loaded, hl, hins, _, h⟩ := (loadOrGenerate_installs lawful_plainCrypto issues_plainCrypto (by decide)
    (by decide +kernel) (by decide) hu).right _ _ hr
  cases hl
  refine ⟨_, _, _, hr, hins, .of_isSome rfl, ?_, rfl⟩
  exact (h _ ⟨_, .of_isSome rfl⟩).left

end Apitls
