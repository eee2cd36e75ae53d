import Mathlib.Data.List.AList
import Mathlib.Data.List.Sort
import VpnTunnel.Lib.Bytes

-- The map that is filled by going over a list, if its keys are distinct and stay so.
theorem AList.lookup_foldl_insert {α β : Type*} {l : List (ByteString × α)} {key : ByteString} {b : β}
    (name : ByteString → Option ByteString) (f : α → β) (hl : (l.map Prod.fst).Nodup)
    (hk : ∀ k, name k = some key ↔ k = key) (m : AList fun _ : ByteString => β) :
    (l.foldl (fun m x => (name x.1).elim m fun k => m.insert k (f x.2)) m).lookup key = some b ↔
      (∃ a, (key, a) ∈ l ∧ f a = b) ∨ (∀ a, (key, a) ∉ l) ∧ m.lookup key = some b := by
  induction l generalizing m
  case nil => simp
  case cons x l hi =>
    have ⟨hn, hl⟩ := List.nodup_cons.mp hl
    have hn (a) : (x.1, a) ∉ l := fun ha => hn <| List.mem_map.mpr ⟨_, ha, rfl⟩
    rw [List.foldl_cons, hi hl]
    by_cases hx : x.1 = key
    case pos =>
      subst hx
      simp [(hk x.1).mpr rfl, hn, Prod.ext_iff]
    case neg =>
      have hn : ∀ a, (key, a) ≠ x := fun a ha => hx (ha ▸ rfl)
      cases hm : name x.1
      case none => simp [hn]
      case some k =>
        have hk : key ≠ k := fun h => hx <| (hk x.1).mp (h ▸ hm)
        simp [hn, AList.lookup_insert_ne hk]

-- The values of JSON text. A byte slice is written as the base64 text of its bytes, and `bytes` stands
-- for such a text.
inductive Json
  | null
  | num (n : Int)
  | str (s : ByteString)
  | bytes (b : List UInt8)
  | arr (vs : List Json)
  | obj (fields : List (ByteString × Json))

namespace Json

variable {α β : Type*} {enc : α → Json} {dec : Json → Option β} {f : α → β}

def ofString (s : ByteString) : Json :=
  str (Utf8.toValid s)

-- Reading `null` leaves a field at its zero value.
def toString : Json → Option ByteString
  | str s => some s
  | null  => some []
  | _     => none

def toInt : Json → Option Int
  | num n => some n
  | null  => some 0
  | _     => none

def toBytes : Json → Option (List UInt8)
  | bytes b => some b
  | _       => none

def ofOption (enc : α → Json) : Option α → Json
  | none   => null
  | some a => enc a

def toOption (dec : Json → Option β) : Json → Option (Option β)
  | null => some none
  | j    => (dec j).map some

def ofList (enc : α → Json) (l : List α) : Json :=
  arr (l.map enc)

def toList (dec : Json → Option β) : Json → Option (List β)
  | arr vs => vs.mapM dec
  | _      => none

-- Maps are written in the order of their keys.
def sorted (m : AList fun _ : ByteString => α) : List (ByteString × α) :=
  (m.entries.map fun e => (e.1, e.2)).insertionSort (fun a b => ¬b.1 < a.1)

def ofMap (enc : α → Json) (m : AList fun _ : ByteString => α) : Json :=
  obj <| (sorted m).map fun e => (Utf8.toValid e.1, enc e.2)

def toMap (dec : Json → Option β) : Json → Option (AList fun _ : ByteString => β)
  | obj fields => fields.foldlM (fun m e => (dec e.2).map (m.insert e.1)) ∅
  | _          => none

-- The value of a field, the last one if there are several. An absent field is left at its zero value,
-- as if it were `null`.
def field (name : ByteString) : Json → Option Json
  | obj fields => some <| fields.foldl (fun v e => if e.1 = name then e.2 else v) null
  | null       => some null
  | _          => none

-- What a map looks like after it was written and read: keys that become the same one collapse.
def reread (f : α → β) (m : AList fun _ : ByteString => α) : AList fun _ : ByteString => β :=
  (sorted m).foldl (fun m e => m.insert (Utf8.toValid e.1) (f e.2)) ∅

theorem toOption_ofOption (h : ∀ a, dec (enc a) = some (f a)) (hn : ∀ a, enc a ≠ null)
    (o : Option α) : toOption dec (ofOption enc o) = some (o.map f) := by
  cases o
  case none => rfl
  case some a => 
    have ha := h a
    have hn := hn a
    cases he : enc a <;> simp_all [ofOption, toOption]

theorem toList_ofList (h : ∀ a, dec (enc a) = some (f a)) (l : List α) :
    toList dec (ofList enc l) = some (l.map f) := by
  simp only [toList, ofList]
  induction l
  case nil => rfl
  case cons a l hi => simp [h, hi]

theorem toMap_ofMap (h : ∀ a, dec (enc a) = some (f a)) (m : AList fun _ : ByteString => α) :
    toMap dec (ofMap enc m) = some (reread f m) := by
  simp only [toMap, ofMap, reread]
  generalize sorted m = l
  generalize (∅ : AList fun _ : ByteString => β) = m'
  induction l generalizing m'
  case nil => rfl
  case cons e l hi => simp [h, hi]

section Maps

variable {m : AList fun _ : ByteString => α} {key : ByteString}

theorem mem_sorted {a : α} : (key, a) ∈ sorted m ↔ m.lookup key = some a := by
  rw [sorted, (List.perm_insertionSort ..).mem_iff, ← Option.mem_def, AList.mem_lookup_iff]
  simp

theorem nodup_sorted : ((sorted m).map Prod.fst).Nodup := by
  rw [sorted, ((List.perm_insertionSort ..).map Prod.fst).nodup_iff, List.map_map]
  exact m.nodupKeys

-- An entry whose key is plain text survives.
theorem lookup_reread {b : β} (hk : Utf8.Ascii key) :
    (reread f m).lookup key = some b ↔ ∃ a, m.lookup key = some a ∧ f a = b := by
  have hv (k) : some (Utf8.toValid k) = some key ↔ k = key := by
    rw [Option.some.injEq, Utf8.toValid_eq_iff hk]
  refine (AList.lookup_foldl_insert (some ∘ Utf8.toValid) f nodup_sorted hv ∅).trans ?_
  simp [mem_sorted]

theorem valid_of_mem_reread (h : key ∈ reread f m) : Utf8.valid key := by
  have go (l : List (ByteString × α)) (m : AList fun _ : ByteString => β)
      (hm : ∀ k ∈ m, Utf8.valid k)
      (h : key ∈ l.foldl (fun m e => m.insert (Utf8.toValid e.1) (f e.2)) m) : Utf8.valid key := by
    induction l generalizing m
    case nil => exact hm key h
    case cons e l hi =>
      refine hi _ (fun k hk => ?_) h
      cases (AList.mem_insert _).mp hk
      case inl hk => exact hk ▸ Utf8.valid_toValid e.1
      case inr hk => exact hm k hk
  exact go _ _ (by simp) h

-- All entries survive if all keys are well-formed.
theorem lookup_reread_of_valid (h : ∀ k ∈ m, Utf8.valid k) :
    (reread f m).lookup key = (m.lookup key).map f := by
  have he : reread f m = (sorted m).foldl (fun m e => m.insert e.1 (f e.2)) ∅ := by
    refine List.foldl_ext _ _ _ fun _ e he => ?_
    have hm : e.1 ∈ m := AList.lookup_isSome.mp (by simp [mem_sorted.mp he])
    rw [Utf8.toValid_eq_self_iff.mpr (h e.1 hm)]
  refine Option.ext fun b => ?_
  rw [he]
  refine (AList.lookup_foldl_insert some f nodup_sorted (by simp) ∅).trans ?_
  simp [mem_sorted]

end Maps

end Json
