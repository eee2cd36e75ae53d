import VpnTunnel.Lib.Batch
import VpnTunnel.Tunnelpool.Eligible.Basic

namespace Tunnelpool

open Supervisor (ConfigPath TunnelID Country tunnelIDFromPath countryFromBasename)

namespace View

variable {keyFn : TunnelID → String} {v : View keyFn} {ent ent' : Entry} {key : String}

theorem mem_add : key ∈ (v.add ent).byKey ↔ key ∈ v.byKey ∨ key = keyFn ent.basename := by
  unfold add
  split
  case isTrue h => exact ⟨.inl, fun hk => hk.elim id (· ▸ h)⟩
  case isFalse => simp [or_comm]

theorem lookup_add (h : (v.add ent).byKey.lookup key = some ent') :
    ent' = ent ∨ v.byKey.lookup key = some ent' := by
  unfold add at h
  split at h
  case isTrue => exact .inr h
  case isFalse =>
    by_cases hk : key = keyFn ent.basename
    case pos =>
      rw [hk, AList.lookup_insert, Option.some.injEq] at h
      exact .inl h.symm
    case neg =>
      rw [AList.lookup_insert_ne hk] at h
      exact .inr h

theorem isEligible_iff : v.isEligible key ↔ ∃ path, v.lookup key = some path := by
  simp [isEligible, lookup, Option.isSome_iff_exists]

theorem isEligible_iff_mem_order : v.isEligible key ↔ key ∈ v.order := by
  rw [v.mem_order, isEligible, AList.lookup_isSome]

end View

section NewSet

variable {env : Env} {configDir : String} {allowed : List ByteString} {keyFn : TunnelID → String}
variable {v v₁ v₂ : View keyFn} {cfgs cfgs₁ cfgs₂ : List String} {cfg : String} {paths : List ConfigPath}

-- What the configurations that were gone over have contributed. One whose key is taken is left out.
structure Collected (env : Env) (configDir : String) (allowed : List ByteString) (v : View keyFn)
    (cfgs : List String) : Prop where
  sound : ∀ {key ent}, v.byKey.lookup key = some ent →
    ∃ cfg ∈ cfgs, resolveConfig env configDir cfg = .ok ent.path ∧ allows env allowed ent.country
  complete : ∀ {cfg}, cfg ∈ cfgs → ∃ path, resolveConfig env configDir cfg = .ok path ∧
    (allows env allowed (Entry.ofPath path).country → keyFn (tunnelIDFromPath path) ∈ v.byKey)

namespace Collected

theorem empty : Collected env configDir allowed (.empty : View keyFn) [] where
  sound    := by simp [View.empty]
  complete := by simp

theorem skip (h : Collected env configDir allowed v cfgs)
    (hr : resolveConfig env configDir cfg = .ok path)
    (ha : ¬allows env allowed (Entry.ofPath path).country) :
    Collected env configDir allowed v (cfgs ++ [cfg]) where
  sound hl := by
    have ⟨c, hc, hs⟩ := h.sound hl
    exact ⟨c, List.mem_append_left _ hc, hs⟩
  complete hc := by
    rcases List.mem_append.mp hc with hc | hc
    · exact h.complete hc
    · exact ⟨path, List.mem_singleton.mp hc ▸ hr, fun h => absurd h ha⟩

theorem add (h : Collected env configDir allowed v cfgs)
    (hr : resolveConfig env configDir cfg = .ok path)
    (ha : allows env allowed (Entry.ofPath path).country) :
    Collected env configDir allowed (v.add (.ofPath path)) (cfgs ++ [cfg]) where
  sound hl := by
    rcases View.lookup_add hl with rfl | hl
    · exact ⟨cfg, by simp, hr, ha⟩
    · have ⟨c, hc, hs⟩ := h.sound hl
      exact ⟨c, List.mem_append_left _ hc, hs⟩
  complete hc := by
    rcases List.mem_append.mp hc with hc | hc
    · have ⟨p, hp, hk⟩ := h.complete hc
      exact ⟨p, hp, fun ha => View.mem_add.mpr (.inl (hk ha))⟩
    · exact ⟨path, List.mem_singleton.mp hc ▸ hr, fun _ => View.mem_add.mpr (.inr rfl)⟩

theorem addConfig (h : Collected env configDir allowed v₁ cfgs)
    (ha : Tunnelpool.addConfig env configDir allowed v₁ cfg = .ok v₂) :
    Collected env configDir allowed v₂ (cfgs ++ [cfg]) := by
  simp only [Tunnelpool.addConfig, Except.bind_eq_ok, Except.pure_eq_ok] at ha
  have ⟨path, hr, hv⟩ := ha
  split at hv
  case isTrue ha => exact hv ▸ h.add hr ha
  case isFalse ha => exact hv ▸ h.skip hr ha

theorem of_foldlM (h : cfgs.foldlM (Tunnelpool.addConfig env configDir allowed) .empty = .ok v) :
    Collected env configDir allowed v cfgs :=
  List.foldlM_invariant (P := fun cfgs v => Collected env configDir allowed v cfgs) .empty addConfig h

end Collected

theorem collected_newSet {set : EligibleSet keyFn}
    (h : newSet env cfgs configDir allowed keyFn = .ok set) :
    Collected env configDir allowed set.toView cfgs := by
  simp only [newSet, Except.bind_eq_ok] at h
  have ⟨view, hf, h⟩ := h
  split at h
  case isTrue => contradiction
  case isFalse =>
    rw [Except.pure_eq_ok] at h
    subst h
    exact .of_foldlM hf

theorem collected_newFullSet {set : EligibleSet keyFn} (h : newFullSet env cfgs configDir keyFn = .ok set) :
    Collected env configDir [] set.toView cfgs := by
  unfold newFullSet at h
  split at h
  case isTrue => contradiction
  case isFalse => exact collected_newSet h

-- With different basenames, and keys that differ for them, no configuration is left out.
theorem Collected.lookup_eq (h : Collected env configDir [] v cfgs)
    (hp : cfgs.mapM (resolveConfig env configDir) = .ok paths)
    (hb : (paths.map tunnelIDFromPath).Nodup)
    (hk : Set.InjOn keyFn {b | b ∈ paths.map tunnelIDFromPath}) :
    ∀ path ∈ paths, v.lookup (keyFn (tunnelIDFromPath path)) = some path := by
  intro path hm
  have ⟨cfg, hc, hr⟩ := (List.mem_of_mapM_eq_ok hp).mp hm
  have ⟨path', hr', ha⟩ := h.complete hc
  rw [hr, Except.ok.injEq] at hr'
  subst hr'
  have ⟨ent, hl⟩ := Option.isSome_iff_exists.mp <| AList.lookup_isSome.mpr <| ha rfl
  have ⟨cfg', hc', hr', _⟩ := h.sound hl
  have hm' : ent.path ∈ paths := (List.mem_of_mapM_eq_ok hp).mpr ⟨cfg', hc', hr'⟩
  have he : tunnelIDFromPath path = tunnelIDFromPath ent.path :=
    hk (List.mem_map_of_mem hm) (List.mem_map_of_mem hm') (ent.basename_eq ▸ v.key_eq hl)
  rw [View.lookup, hl, List.inj_on_of_nodup_map hb hm hm' he]
  rfl

end NewSet

section Discover

variable {env : Env} {dir : String} {discovered : List ConfigPath} {path : ConfigPath}

theorem isClean_of_discoverConfigs (h : discoverConfigs env dir = .ok discovered) (hp : path ∈ discovered) :
    Filepath.IsClean path := by
  unfold discoverConfigs at h
  split at h
  case h_1 => contradiction
  case h_2 => contradiction
  case h_3 =>
    simp only [Except.bind_eq_ok, Except.pure_eq_ok] at h
    have ⟨paths, hm, hs⟩ := h
    rw [← hs, List.mem_insertionSort] at hp
    have ⟨entry, _, hr⟩ := (List.mem_of_mapM_eq_ok hm).mp hp
    exact Filepath.isClean_of_abs (Except.mapError_eq_ok.mp hr)

-- The paths that were discovered stay as they are.
theorem resolveConfig_of_isClean (h : Filepath.IsClean path) : resolveConfig env dir path = .ok path := by
  rw [resolveConfig, if_pos h.left, resolve, Filepath.abs_of_isClean h]
  rfl

end Discover

namespace EligibleSet

variable {keyFn : TunnelID → String} (set : EligibleSet keyFn)

theorem len_pos : 0 < set.len :=
  List.length_pos_iff.mpr set.ne_nil

-- A random path can be drawn without a panic, and it is the path of an entry.
theorem randomPath_spec (rand : Nat) :
    ∃ key ent, set.byKey.lookup key = some ent ∧ set.randomPath rand = some ent.path := by
  have hl := set.len_pos
  have hi : rand % set.len < set.order.length := Nat.mod_lt _ hl
  have ⟨ent, he⟩ := AList.lookup_isSome.mpr (set.mem_order.mp (List.getElem_mem hi)) |>
    Option.isSome_iff_exists.mp
  refine ⟨_, ent, he, ?_⟩
  simp [View.randomPath, View.intN, Nat.ne_of_gt hl, List.getElem?_eq_getElem hi, View.lookup, he]

end EligibleSet

end Tunnelpool
