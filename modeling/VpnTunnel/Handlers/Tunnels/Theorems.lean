import VpnTunnel.Handlers.Tunnels.Basic
import VpnTunnel.Tunnelpool.Eligible.Theorems

namespace Handlers.Tunnels

open ByteString Http Tunnelpool
open Supervisor (ConfigPath TunnelID tunnelIDFromPath countryFromBasename)

-- The ids of all buckets.
def Grouped.ids (m : Grouped) : List String :=
  m.entries.flatMap (·.2)

-- The bucket that belongs to the configuration at a path.
def bucketOf (path : ConfigPath) : String :=
  bucket (countryFromBasename (tunnelIDFromPath path))

variable {keyFn : TunnelID → String} {v : View keyFn} {m : Grouped} {id cc : String} {ids : List String}

theorem mem_entries_elim {ent : CatalogEntry} (h : ent ∈ v.entries) :
    ∃ path, v.lookup ent.id = some path ∧ bucket ent.country = bucketOf path := by
  have ⟨key, hk, he⟩ := List.mem_map.mp h
  have ⟨e, hl⟩ := Option.isSome_iff_exists.mp <| AList.lookup_isSome.mpr <| v.mem_order.mp hk
  subst he
  exact ⟨e.path, by simp [View.lookup, hl], by simp [hl, bucketOf, e.country_eq, e.basename_eq]⟩

theorem map_id_entries : v.entries.map (·.id) = v.order := by
  simp [View.entries, Function.comp_def]

theorem exists_mem_entries_iff : (∃ ent ∈ v.entries, bucket ent.country = cc ∧ ent.id = id) ↔
    ∃ path, v.lookup id = some path ∧ bucketOf path = cc := by
  constructor
  · rintro ⟨ent, he, rfl, rfl⟩
    have ⟨path, hl, hb⟩ := mem_entries_elim he
    exact ⟨path, hl, hb.symm⟩
  · rintro ⟨path, hl, rfl⟩
    have hm : id ∈ v.entries.map (·.id) := by
      rw [map_id_entries, ← View.isEligible_iff_mem_order]
      exact View.isEligible_iff.mpr ⟨path, hl⟩
    have ⟨ent, he, hi⟩ := List.mem_map.mp hm
    have ⟨path', hl', hb⟩ := mem_entries_elim he
    rw [hi, hl, Option.some.injEq] at hl'
    exact ⟨ent, he, hl' ▸ hb, hi⟩

-- There is a bucket for each country that occurs, and its contents are the ids of that country.
theorem lookup_groupByCountry (h : (groupByCountry v.entries).lookup cc = some ids) :
    ids.Pairwise (· ≤ ·) ∧ ids.Nodup ∧
      ∀ id, id ∈ ids ↔ ∃ path, v.lookup id = some path ∧ bucketOf path = cc := by
  rw [groupByCountry, AList.lookup_mapVal, AList.lookup_groupBy] at h
  split at h
  case isFalse => contradiction
  case isTrue =>
    have hi := (Option.some.inj h).symm
    have hp := List.perm_insertionSort (· ≤ ·) ((v.entries.filter (bucket ·.country = cc)).map (·.id))
    have hn : ((v.entries.filter (bucket ·.country = cc)).map (·.id)).Nodup :=
      (List.filter_sublist.map _).nodup (map_id_entries ▸ v.nodup)
    refine ⟨hi ▸ List.pairwise_insertionSort .., hi ▸ hp.nodup_iff.mpr hn, fun id => ?_⟩
    rw [hi, hp.mem_iff, ← exists_mem_entries_iff]
    simp [and_assoc]

theorem exists_lookup_groupByCountry {path : ConfigPath} (h : v.lookup id = some path) :
    ∃ ids, (groupByCountry v.entries).lookup (bucketOf path) = some ids ∧ id ∈ ids := by
  have ⟨ent, he, hb, hi⟩ := exists_mem_entries_iff.mpr ⟨path, h, rfl⟩
  have hs : ((groupByCountry v.entries).lookup (bucketOf path)).isSome := by
    rw [groupByCountry, AList.lookup_mapVal, AList.lookup_groupBy, if_pos ⟨ent, he, hb⟩]
    rfl
  have ⟨ids, hl⟩ := Option.isSome_iff_exists.mp hs
  exact ⟨ids, hl, ((lookup_groupByCountry hl).right.right id).mpr ⟨path, h, rfl⟩⟩

theorem mem_ids_iff : id ∈ m.ids ↔ ∃ cc ids, m.lookup cc = some ids ∧ id ∈ ids := by
  simp [Grouped.ids, AList.lookup_eq_some_iff]

theorem nodup_ids : (groupByCountry v.entries).ids.Nodup := by
  refine List.nodup_flatMap.mpr ⟨?_, ?_⟩
  case refine_1 =>
    rintro ⟨cc, ids⟩ he
    exact (lookup_groupByCountry (AList.lookup_eq_some_iff.mpr he)).right.left
  case refine_2 =>
    -- An id that is in two buckets is in the one bucket of its path.
    refine (List.pairwise_map.mp (groupByCountry v.entries).nodupKeys).imp_of_mem ?_
    rintro ⟨cc₁, ids₁⟩ ⟨cc₂, ids₂⟩ he₁ he₂ hn id (hi₁ : id ∈ ids₁) (hi₂ : id ∈ ids₂)
    have hc₁ := (lookup_groupByCountry (AList.lookup_eq_some_iff.mpr he₁)).right.right id
    have hc₂ := (lookup_groupByCountry (AList.lookup_eq_some_iff.mpr he₂)).right.right id
    have ⟨path₁, hl₁, hb₁⟩ := hc₁.mp hi₁
    have ⟨path₂, hl₂, hb₂⟩ := hc₂.mp hi₂
    rw [hl₁, Option.some.injEq] at hl₂
    exact hn (hb₁.symm.trans (hl₂ ▸ hb₂))

-- What a client learns from the catalog is what the router does.
structure Catalog (v : View keyFn) (all : Grouped) : Prop where
  accept : ∀ {id}, v.isEligible id ↔ ∃ path, v.lookup id = some path
  count  : ∀ id, all.ids.count id = if v.isEligible id then 1 else 0
  bucket : ∀ {cc ids id}, all.lookup cc = some ids → id ∈ ids →
    ∃ path, v.lookup id = some path ∧ cc = bucketOf path
  sorted : ∀ {cc ids}, all.lookup cc = some ids → ids.Pairwise (· ≤ ·)

theorem catalog_groupByCountry : Catalog v (groupByCountry v.entries) where
  accept := View.isEligible_iff
  count id := by
    have hm : id ∈ (groupByCountry v.entries).ids ↔ v.isEligible id := by
      rw [mem_ids_iff, View.isEligible_iff]
      constructor
      · rintro ⟨cc, ids, hl, hi⟩
        have ⟨path, hp, _⟩ := ((lookup_groupByCountry hl).right.right id).mp hi
        exact ⟨path, hp⟩
      · rintro ⟨path, hp⟩
        exact ⟨_, exists_lookup_groupByCountry hp⟩
    simp only [nodup_ids.count, hm]
  bucket hl hi := by
    have ⟨path, hp, hb⟩ := ((lookup_groupByCountry hl).right.right _).mp hi
    exact ⟨path, hp, hb.symm⟩
  sorted hl := (lookup_groupByCountry hl).left

-- The value of the parameter lists a bucket by a token that is not blank.
def Lists (table : CaseTable) (raw : ByteString) (cc : String) : Prop :=
  ∃ tok ∈ raw.splitOn 0x2C, trimSpace tok ≠ [] ∧ (toLower table (trimSpace tok)).text = cc

theorem mem_listed_iff {table : CaseTable} {raw : ByteString} : cc ∈ listed table raw ↔ Lists table raw cc := by
  simp only [listed, Lists, List.mem_filterMap, Option.ite_none_right_eq_some, Option.some.injEq]
  refine exists_congr fun tok => and_congr_right fun _ => and_congr_left fun _ => ?_
  exact not_congr ⟨fun h => by_contra fun hn => toLower_ne_nil hn h, fun h => by rw [h]; rfl⟩

theorem lookup_applyFilter {table : CaseTable} {raw : ByteString} (h : Lists table raw cc') :
    (applyFilter table raw m).lookup cc = if cc ∈ listed table raw then m.lookup cc else none := by
  have hl : 0 < (listed table raw).length := List.length_pos_of_mem (mem_listed_iff.mpr h)
  have hr : raw ≠ [] := by
    rintro rfl
    have ⟨tok, ht, hn, _⟩ := h
    rw [List.mem_singleton.mp ht] at hn
    exact hn rfl
  simp [applyFilter, hr, hl]

def isGet (r : Http.Request) : Prop :=
  r.method = ofString "GET"

-- The value of the parameter in a request.
def country (r : Http.Request) : ByteString :=
  r.url.queryGet (ofString "country")

theorem body_serveHTTP {table : CaseTable} {catalog : List CatalogEntry} {w : Header} {r : Http.Request}
    (h : isGet r) : (serveHTTP table catalog w r).body =
      some (applyFilter table (country r) (groupByCountry catalog)) := by
  simp [serveHTTP, show r.method = _ from h, country]

theorem catalog_agrees {env : Env} {configDir : String} {cfgs : List String}
    {deriveID : TunnelID → String} {full : EligibleSet deriveID} {paths : List ConfigPath}
    (h : newFullSet env cfgs configDir deriveID = .ok full)
    (hp : cfgs.mapM (resolveConfig env configDir) = .ok paths)
    (hb : (paths.map tunnelIDFromPath).Nodup)
    (hd : Set.InjOn deriveID {b | b ∈ paths.map tunnelIDFromPath})
    (table : CaseTable) (w : Header) {r : Http.Request} (hg : isGet r) (hc : country r = []) :
    ∃ all, (serveHTTP table full.entries w r).body = some all ∧ Catalog full.toView all ∧
      (∀ path ∈ paths, full.lookup (deriveID (tunnelIDFromPath path)) = some path) ∧
      ∀ w' r', isGet r' → (∃ tok ∈ (country r').splitOn 0x2C, trimSpace tok ≠ []) →
        ∃ some', (serveHTTP table full.entries w' r').body = some some' ∧
          ∀ cc, (Lists table (country r') cc → some'.lookup cc = all.lookup cc) ∧
            (¬Lists table (country r') cc → some'.lookup cc = none) := by
  refine ⟨_, body_serveHTTP hg, ?_, (collected_newFullSet h).lookup_eq hp hb hd, ?_⟩
  case refine_1 =>
    rw [hc]
    exact catalog_groupByCountry
  case refine_2 =>
    rintro w' r' hg' ⟨tok, ht, hn⟩
    refine ⟨_, body_serveHTTP hg', fun cc => ?_⟩
    rw [lookup_applyFilter ⟨tok, ht, hn, rfl⟩, hc]
    exact ⟨fun hl => if_pos (mem_listed_iff.mpr hl), fun hl => if_neg (mt mem_listed_iff.mp hl)⟩

def someEnv : Env where
  getwd   := .root
  readDir := fun _ => .error .notExist
  table   := default
  quote   := fun s => s

def twoConfigs : List String :=
  ["/etc/tunnels/mullvad-se-sto-wg-001.conf", "tunnels/home.conf"]

def someID (basename : TunnelID) : String :=
  "id-" ++ basename

def getTunnels (rawQuery : String) : Http.Request :=
  { Asyncjob.someRequest with
    method := ofString "GET", url := { Asyncjob.someUrl with rawQuery := ofString rawQuery } }

theorem catalog_agrees_twoConfigs : ∃ full : EligibleSet someID,
    newFullSet someEnv twoConfigs "/etc" someID = .ok full ∧
    full.lookup "id-home" = some "/etc/tunnels/home.conf" ∧
    ∃ all se, (serveHTTP someEnv.table full.entries ∅ (getTunnels "")).body = some all ∧
      Catalog full.toView all ∧
      (serveHTTP someEnv.table full.entries ∅ (getTunnels "country=+SE%2C")).body = some se ∧
      se.lookup "se" = all.lookup "se" ∧ se.lookup "zz" = none := by
  have hok : (newFullSet someEnv twoConfigs "/etc" someID).isOk := by decide
  cases h : newFullSet someEnv twoConfigs "/etc" someID
  case error => simp [h, Except.isOk, Except.toBool] at hok
  case ok full =>
    have hp : twoConfigs.mapM (resolveConfig someEnv "/etc") =
      .ok ["/etc/tunnels/mullvad-se-sto-wg-001.conf", "/etc/tunnels/home.conf"] := by decide
    have hd : Set.InjOn someID Set.univ := fun a _ b _ hab => by simpa [someID] using hab
    obtain ⟨all, hb, hc, hl, hf⟩ := catalog_agrees h hp (by decide) (hd.mono (by simp)) someEnv.table ∅
      (r := getTunnels "") rfl (by decide)
    have hi : someID (tunnelIDFromPath "/etc/tunnels/home.conf") = "id-home" := by decide
    have hr : country (getTunnels "country=+SE%2C") = ofString " SE," := by decide
    obtain ⟨se, hs, hf⟩ := hf ∅ (getTunnels "country=+SE%2C") rfl ⟨ofString " SE", by decide, by decide⟩
    refine ⟨full, rfl, hi ▸ hl _ (by simp), all, se, hb, hc, hs, (hf "se").left ?_, (hf "zz").right ?_⟩
    · exact hr ▸ mem_listed_iff.mp (by decide)
    · exact hr ▸ mt mem_listed_iff.mpr (by decide)

end Handlers.Tunnels
