import Mathlib.Data.List.AList
import VpnTunnel.Lib.Bytes

namespace Http

open ByteString

-- The bytes that the name of a header consists of.
def validHeaderFieldByte (b : UInt8) : Bool :=
  isAlnum b || (ofString "!#$%&'*+-.^_`|~").contains b

def hyphen : UInt8 := 0x2D

-- Letters are capitalized at the start and after each hyphen. A text that is not the name of a header
-- is left as it is.
def canonicalHeaderKey (s : ByteString) : ByteString :=
  if s.all validHeaderFieldByte then go true s else s
where
  go : Bool → ByteString → ByteString
    | _,     []      => []
    | upper, b :: bs =>
      let c := if upper && isLower b then b - 0x20 else if !upper && isUpper b then b + 0x20 else b
      c :: go (c = hyphen) bs

section Canonical

variable {s t : ByteString}

theorem lowerByte_canonical (upper : Bool) (b : UInt8) :
    lowerByte (if upper && isLower b then b - 0x20 else if !upper && isUpper b then b + 0x20 else b) =
      lowerByte b := by
  revert b upper
  exact forall_comm.mp <| forall_byte (by decide +kernel)

theorem canonical_lowerByte (upper : Bool) (b : UInt8) :
    (if upper && isLower (lowerByte b) then lowerByte b - 0x20
      else if !upper && isUpper (lowerByte b) then lowerByte b + 0x20 else lowerByte b) =
      if upper && isLower b then b - 0x20 else if !upper && isUpper b then b + 0x20 else b := by
  revert b upper
  exact forall_comm.mp <| forall_byte (by decide +kernel)

theorem validHeaderFieldByte_lowerByte (b : UInt8) :
    validHeaderFieldByte (lowerByte b) = validHeaderFieldByte b := by
  revert b
  exact forall_byte (by decide +kernel)

theorem map_lowerByte_go (upper : Bool) :
    (canonicalHeaderKey.go upper s).map lowerByte = s.map lowerByte := by
  induction s generalizing upper
  case nil => rfl
  case cons b s hi => rw [canonicalHeaderKey.go, List.map_cons, List.map_cons, hi, lowerByte_canonical]

theorem go_map_lowerByte (upper : Bool) :
    canonicalHeaderKey.go upper (s.map lowerByte) = canonicalHeaderKey.go upper s := by
  induction s generalizing upper
  case nil => rfl
  case cons b s hi => rw [List.map_cons, canonicalHeaderKey.go, canonicalHeaderKey.go, hi, canonical_lowerByte]

theorem all_validHeaderFieldByte_congr (h : s.map lowerByte = t.map lowerByte) :
    s.all validHeaderFieldByte = t.all validHeaderFieldByte := by
  have hm (u : ByteString) : (u.map lowerByte).all validHeaderFieldByte = u.all validHeaderFieldByte := by
    simp [List.all_map, Function.comp_def, validHeaderFieldByte_lowerByte]
  rw [← hm s, h, hm]

theorem map_lowerByte_canonicalHeaderKey (s : ByteString) :
    (canonicalHeaderKey s).map lowerByte = s.map lowerByte := by
  rw [canonicalHeaderKey]
  split
  case isTrue  => exact map_lowerByte_go true
  case isFalse => rfl

-- The casing of the name of a header does not matter.
theorem canonicalHeaderKey_congr (hv : s.all validHeaderFieldByte)
    (h : s.map lowerByte = t.map lowerByte) : canonicalHeaderKey s = canonicalHeaderKey t := by
  have ht := all_validHeaderFieldByte_congr h ▸ hv
  rw [canonicalHeaderKey, canonicalHeaderKey, if_pos hv, if_pos ht, ← go_map_lowerByte, h, go_map_lowerByte]

example : canonicalHeaderKey (ofString "x-cUSTOM-foo") = canonicalHeaderKey (ofString "X-Custom-Foo") := by
  decide

theorem canonicalHeaderKey_eq_of_invalid (hv : ¬(canonicalHeaderKey s).all validHeaderFieldByte) :
    canonicalHeaderKey s = s := by
  rw [all_validHeaderFieldByte_congr (map_lowerByte_canonicalHeaderKey s)] at hv
  rw [canonicalHeaderKey, if_neg hv]

end Canonical

theorem lt_of_validHeaderFieldByte {b : UInt8} (h : validHeaderFieldByte b) : b < 0x80 := by
  simp only [validHeaderFieldByte, isAlnum, isLower, isUpper, Bool.or_eq_true, Bool.and_eq_true,
    decide_eq_true_eq, List.contains_iff_mem] at h
  obtain ((⟨_, h⟩ | ⟨_, h⟩) | ⟨_, h⟩) | h := h
  · exact UInt8.lt_of_le_of_lt h (by decide)
  · exact UInt8.lt_of_le_of_lt h (by decide)
  · exact UInt8.lt_of_le_of_lt h (by decide)
  · have hl : (ofString "!#$%&'*+-.^_`|~").all (· < 0x80) := by decide
    simpa using List.all_eq_true.mp hl b h

-- A text that is canonicalized to the name of a header is the name of one.
theorem ascii_of_canonicalHeaderKey {s : ByteString}
    (h : (canonicalHeaderKey s).all validHeaderFieldByte) : Utf8.Ascii s := by
  have hs : s.all validHeaderFieldByte := by
    by_contra hn
    rw [canonicalHeaderKey, if_neg hn] at h
    exact hn h
  exact fun b hb => lt_of_validHeaderFieldByte <| List.all_eq_true.mp hs b hb

abbrev Header :=
  AList fun _ : ByteString => List ByteString

-- Other than the instance for `AList`, this one can be evaluated.
instance : DecidableEq Header :=
  fun h₁ h₂ => decidable_of_iff (h₁.entries = h₂.entries) AList.ext_iff.symm

namespace Header

-- The values that are in the map under exactly this key.
def values (h : Header) (key : ByteString) : List ByteString :=
  (h.lookup key).getD []

def get (h : Header) (key : ByteString) : ByteString :=
  (h.values (canonicalHeaderKey key)).headD []

def set (h : Header) (key value : ByteString) : Header :=
  h.insert (canonicalHeaderKey key) [value]

def add (h : Header) (key value : ByteString) : Header :=
  h.insert (canonicalHeaderKey key) (h.values (canonicalHeaderKey key) ++ [value])

def del (h : Header) (key : ByteString) : Header :=
  h.erase (canonicalHeaderKey key)

def fields (h : Header) : List (ByteString × List ByteString) :=
  h.entries.map fun e => (e.1, e.2)

-- The loop that adds all values of some fields, under the names that `f` gives them, if any.
def copy (f : ByteString → Option ByteString) (dst : Header)
    (fields : List (ByteString × List ByteString)) : Header :=
  fields.foldl (fun dst x => (f x.1).elim dst fun key => x.2.foldl (add · key ·) dst) dst

-- The keys of a header that was read from a connection.
def Canonical (h : Header) : Prop :=
  ∀ key ∈ h, canonicalHeaderKey key = key

instance (h : Header) : Decidable h.Canonical :=
  decidable_of_iff (∀ key ∈ h.keys, canonicalHeaderKey key = key) (by simp [Canonical, AList.mem_keys])

-- No key is there without a value.
def Valued (h : Header) : Prop :=
  ∀ key, h.lookup key ≠ some []

variable {h h₁ h₂ dst : Header} {key key' value : ByteString} {vs : List ByteString}
  {f : ByteString → Option ByteString} {l : List (ByteString × List ByteString)}

theorem values_of_lookup (hl : h.lookup key = some vs) : h.values key = vs := by
  simp [values, hl]

@[simp]
theorem values_empty : values ∅ key = [] := by
  simp [values]

@[simp]
theorem values_insert :
    values (AList.insert key vs h) key' = if key' = key then vs else h.values key' := by
  by_cases hk : key' = key
  case pos =>
    subst hk
    simp [values]
  case neg => simp [values, hk]

@[simp]
theorem values_erase :
    values (AList.erase key h) key' = if key' = key then [] else h.values key' := by
  by_cases hk : key' = key
  case pos =>
    subst hk
    simp [values]
  case neg => simp [values, hk, AList.lookup_erase_ne hk]

theorem values_foldl_add :
    (vs.foldl (add · key ·) dst).values key' =
      dst.values key' ++ if canonicalHeaderKey key = key' then vs else [] := by
  induction vs generalizing dst
  case nil => simp
  case cons v vs hi =>
    rw [List.foldl_cons, hi, add, values_insert]
    by_cases hk : key' = canonicalHeaderKey key
    case pos => simp [hk]
    case neg => simp [hk, Ne.symm hk]

theorem values_copy :
    (copy f dst l).values key = dst.values key ++
      l.flatMap fun x => if (f x.1).map canonicalHeaderKey = some key then x.2 else [] := by
  induction l generalizing dst
  case nil => simp [copy]
  case cons x l hi =>
    rw [copy, List.foldl_cons, ← copy, hi, List.flatMap_cons, ← List.append_assoc]
    congr 1
    cases hf : f x.1
    case none => simp
    case some k => simp [values_foldl_add]

theorem Valued.empty : Valued ∅ := by
  simp [Valued]

theorem Valued.insert (hv : h.Valued) (hn : vs ≠ []) : Valued (AList.insert key vs h) := by
  intro key'
  by_cases hk : key' = key
  case pos =>
    subst hk
    simpa using hn
  case neg => simpa [AList.lookup_insert_ne hk] using hv key'

theorem Valued.add (hv : h.Valued) : (h.add key value).Valued :=
  hv.insert (by simp)

theorem Valued.foldl_add (hv : dst.Valued) : (vs.foldl (Header.add · key ·) dst).Valued := by
  induction vs generalizing dst
  case nil => exact hv
  case cons v vs hi => exact hi hv.add

theorem Valued.copy (hv : dst.Valued) : (Header.copy f dst l).Valued := by
  induction l generalizing dst
  case nil => exact hv
  case cons x l hi =>
    apply hi
    cases hf : f x.1
    case none => simpa [hf] using hv
    case some => simpa [hf] using hv.foldl_add

theorem Valued.lookup_eq (hv₁ : h₁.Valued) (hv₂ : h₂.Valued) (hv : h₁.values key = h₂.values key) :
    h₁.lookup key = h₂.lookup key := by
  have hn₁ := hv₁ key
  have hn₂ := hv₂ key
  cases h₁' : h₁.lookup key <;> cases h₂' : h₂.lookup key <;> simp_all [values]

theorem lookup_foldl_del {l : List ByteString} :
    (l.foldl .del h).lookup key = if key ∈ l.map canonicalHeaderKey then none else h.lookup key := by
  induction l generalizing h
  case nil => simp
  case cons k l hi =>
    rw [List.foldl_cons, hi, del]
    by_cases he : key = canonicalHeaderKey k
    case pos =>
      subst he
      simp
    case neg => simp [he, AList.lookup_erase_ne he]

theorem foldl_del_of_not_mem {l : List ByteString} (hl : ∀ key ∈ l, canonicalHeaderKey key ∉ h) :
    l.foldl .del h = h := by
  induction l
  case nil => rfl
  case cons k l hi =>
    have ⟨hk, hl⟩ := List.forall_mem_cons.mp hl
    have hd : h.del k = h := AList.ext (List.kerase_of_notMem_keys hk)
    rw [List.foldl_cons, hd, hi hl]

theorem get_eq (hk : canonicalHeaderKey key = key) : h.get key = (h.values key).headD [] := by
  rw [get, hk]

theorem mem_of_values (hv : value ∈ h.values key) : key ∈ h := by
  cases hl : h.lookup key
  case none => simp [values, hl] at hv
  case some => exact AList.lookup_isSome.mp (by simp [hl])

theorem mem_fields : (key, vs) ∈ h.fields ↔ h.lookup key = some vs := by
  simp only [fields, List.mem_map, Prod.mk.injEq]
  constructor
  case mp =>
    intro ⟨e, he, hk, hv⟩
    subst hk hv
    exact AList.mem_lookup_iff.mpr he
  case mpr =>
    intro hl
    exact ⟨⟨key, vs⟩, AList.mem_lookup_iff.mp hl, rfl, rfl⟩

theorem nodup_fields : (h.fields.map Prod.fst).Nodup := by
  rw [fields, List.map_map]
  exact h.nodupKeys

-- Each key is there once, so that going over all fields finds its values.
theorem flatMap_fields :
    (h.fields.flatMap fun x => if x.1 = key then x.2 else []) = h.values key := by
  cases h
  case mk l hl =>
    simp only [fields, values, AList.lookup, List.flatMap_map]
    induction l
    case nil => rfl
    case cons e l hi =>
      have ⟨hn, hl⟩ := List.nodupKeys_cons.mp hl
      rw [List.flatMap_cons, hi hl]
      by_cases hk : e.1 = key
      case pos =>
        subst hk
        rw [List.dlookup_eq_none.mpr hn]
        cases e
        simp [List.dlookup_cons_eq]
      case neg =>
        simp [hk, List.dlookup_cons_ne l e (Ne.symm hk)]

end Header

end Http
