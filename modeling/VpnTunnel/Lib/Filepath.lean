import VpnTunnel.Lib.Text

-- The functions on paths that are separated by slashes. The characters of a path stand for its bytes,
-- so that any name of a file is covered.
namespace Filepath

-- The elements of a path, the last one first.
abbrev Stack :=
  List (List Char)

def dotdot : List Char :=
  ['.', '.']

def isRooted (p : List Char) : Bool :=
  p.head? = some '/'

def push (rooted : Bool) (st : Stack) (elem : List Char) : Stack :=
  if elem = [] ∨ elem = ['.'] then
    st
  else if elem = dotdot then
    match st with
    | []       => if rooted then [] else [dotdot]
    | e :: st' => if e = dotdot then dotdot :: st else st'
  else
    elem :: st

def elements (p : List Char) : List (List Char) :=
  ((p.splitOn '/').foldl (push (isRooted p)) []).reverse

def cleanChars (p : List Char) : List Char :=
  let out := ['/'].intercalate (elements p)
  if isRooted p then '/' :: out else if out = [] then ['.'] else out

def isAbs (p : String) : Bool :=
  isRooted p.toList

def clean (p : String) : String :=
  .ofList (cleanChars p.toList)

def join (a b : String) : String :=
  if a ≠ "" then clean (a ++ "/" ++ b) else if b ≠ "" then clean b else ""

def dir (p : String) : String :=
  clean <| .ofList (p.toList.reverse.dropWhile (· ≠ '/')).reverse

-- The suffix from the last dot of the last element on.
def ext (p : String) : String :=
  let elem := p.toList.reverse.takeWhile (· ≠ '/')
  if '.' ∈ elem then .ofList ('.' :: (elem.takeWhile (· ≠ '.')).reverse) else ""

-- What `os.Getwd` returns.
abbrev Getwd :=
  Except String { wd : String // isAbs wd }

def Getwd.root : Getwd :=
  .ok ⟨"/", rfl⟩

def abs (getwd : Getwd) (p : String) : Except String String :=
  if isAbs p then .ok (clean p) else getwd.map (join ·.val p)

-- The elements of a path that starts with a slash.
def Plain (elem : List Char) : Prop :=
  elem ≠ [] ∧ elem ≠ ['.'] ∧ elem ≠ dotdot ∧ '/' ∉ elem

variable {st : Stack} {elem : List Char} {elems : List (List Char)}

section

variable {p : List Char}

theorem push_of_plain (h : Plain elem) : push rooted st elem = elem :: st := by
  simp [push, h.left, h.right.left, h.right.right.left]

theorem plain_push (hs : ∀ e ∈ st, Plain e) (he : '/' ∉ elem) : ∀ e ∈ push true st elem, Plain e := by
  unfold push
  split
  case isTrue => exact hs
  case isFalse hn =>
    have ⟨hn₁, hn₂⟩ := not_or.mp hn
    split
    case isTrue =>
      cases st
      case nil => simp
      case cons e st =>
        have ⟨h, hs⟩ := List.forall_mem_cons.mp hs
        simpa [h.right.right.left] using hs
    case isFalse hd => exact List.forall_mem_cons.mpr ⟨⟨hn₁, hn₂, hd, he⟩, hs⟩

theorem foldl_push_of_plain (h : ∀ e ∈ elems, Plain e) :
    elems.foldl (push rooted) st = elems.reverse ++ st := by
  induction elems generalizing st
  case nil => rfl
  case cons e elems hi =>
    have ⟨he, h⟩ := List.forall_mem_cons.mp h
    simp [push_of_plain he, hi h]

theorem plain_foldl_push (hs : ∀ e ∈ st, Plain e) (he : ∀ e ∈ elems, '/' ∉ e) :
    ∀ e ∈ elems.foldl (push true) st, Plain e := by
  induction elems generalizing st
  case nil => exact hs
  case cons e elems hi =>
    have ⟨h, he⟩ := List.forall_mem_cons.mp he
    exact hi (plain_push hs h) he

theorem plain_elements (h : isRooted p) : ∀ e ∈ elements p, Plain e := by
  intro e he
  rw [elements, h, List.mem_reverse] at he
  exact plain_foldl_push (by simp) (fun _ => List.not_mem_of_mem_splitOn) e he

theorem cleanChars_of_isRooted (h : isRooted p) :
    cleanChars p = '/' :: ['/'].intercalate (elements p) :=
  if_pos h

theorem isRooted_cleanChars (h : isRooted p) : isRooted (cleanChars p) := by
  simp [cleanChars_of_isRooted h, isRooted]

theorem elements_cleanChars (h : isRooted p) : elements (cleanChars p) = elements p := by
  have hp := plain_elements h
  have hs (q) : List.splitOn '/' ('/' :: q) = [] :: q.splitOn '/' := by
    simp [List.splitOn_eq_splitOnP, List.splitOnP_cons_eq_if_modifyHead]
  rw [elements, isRooted_cleanChars h, cleanChars_of_isRooted h, hs, List.foldl_cons]
  by_cases hn : elements p = []
  case pos => rw [hn]; rfl
  case neg =>
    rw [List.splitOn_intercalate '/' (fun e he => (hp e he).right.right.right) hn,
      foldl_push_of_plain hp]
    simp [push]

-- Cleaning a path that is clean already does nothing.
theorem cleanChars_cleanChars (h : isRooted p) : cleanChars (cleanChars p) = cleanChars p := by
  rw [cleanChars_of_isRooted (isRooted_cleanChars h), elements_cleanChars h,
    ← cleanChars_of_isRooted h]

theorem exists_intercalate_concat (elems : List (List Char)) :
    ∃ pre, ∀ elem, ['/'].intercalate (elems ++ [elem]) = pre ++ elem := by
  induction elems
  case nil => exact ⟨[], by simp⟩
  case cons e elems hi =>
    have ⟨pre, hp⟩ := hi
    refine ⟨e ++ ['/'] ++ pre, fun elem => ?_⟩
    rw [List.cons_append, List.intercalate_cons_of_ne_nil (by simp), hp, ← List.append_assoc]

theorem elements_append (hp : p ≠ []) (h : Plain elem) :
    elements (p ++ '/' :: elem) = elements p ++ [elem] := by
  have hr : isRooted (p ++ '/' :: elem) = isRooted p := by
    rw [isRooted, isRooted, List.head?_append_of_ne_nil p hp]
  have hs : (p ++ '/' :: elem).splitOn '/' = p.splitOn '/' ++ [elem] := by
    rw [List.splitOn_eq_splitOnP, List.splitOnP_append_cons _ _ (by simp), ← List.splitOn_eq_splitOnP,
      ← List.splitOn_eq_splitOnP, List.splitOn_of_not_mem h.right.right.right]
  rw [elements, hr, hs, List.foldl_append, List.foldl_cons, List.foldl_nil, push_of_plain h]
  simp [elements]

theorem cleanChars_of_plain (h : Plain elem) : cleanChars elem = elem := by
  have hr : isRooted elem = false := decide_eq_false fun hr =>
    h.right.right.right (List.mem_of_mem_head? (by simp [hr]))
  have he : elements elem = [elem] := by
    rw [elements, List.splitOn_of_not_mem h.right.right.right, List.foldl_cons, List.foldl_nil, push_of_plain h]
    rfl
  simp [cleanChars, hr, he, h.left]

-- A plain element stays at the end of the path that it is joined to.
theorem exists_cleanChars_append (hp : p ≠ []) :
    ∃ pre, ∀ elem, Plain elem → cleanChars (p ++ '/' :: elem) = pre ++ elem := by
  have ⟨pre, hi⟩ := exists_intercalate_concat (elements p)
  refine ⟨if isRooted p then '/' :: pre else pre, fun elem he => ?_⟩
  have hr : isRooted (p ++ '/' :: elem) = isRooted p := by
    rw [isRooted, isRooted, List.head?_append_of_ne_nil p hp]
  simp only [cleanChars, elements_append hp he, hi, hr]
  split
  case isTrue  => rfl
  case isFalse => exact if_neg (by simp [he.left])

section Relative

-- The elements of a path that is not rooted, the last one first: plain ones, after those that go up.
def Reduced (st : Stack) : Prop :=
  ∃ plains ups, st = plains ++ List.replicate ups dotdot ∧ ∀ e ∈ plains, Plain e

theorem reduced_push (h : Reduced st) (he : '/' ∉ elem) : Reduced (push false st elem) := by
  have ⟨plains, ups, hs, hp⟩ := h
  unfold push
  split
  case isTrue => exact h
  case isFalse hn =>
    have ⟨hn₁, hn₂⟩ := not_or.mp hn
    split
    case isTrue =>
      subst hs
      cases plains
      case nil =>
        cases ups
        case zero     => exact ⟨[], 1, rfl, by simp⟩
        case succ ups => exact ⟨[], ups + 2, by simp [List.replicate_succ], by simp⟩
      case cons e plains =>
        have ⟨h, hp⟩ := List.forall_mem_cons.mp hp
        exact ⟨plains, ups, by simp [h.right.right.left], hp⟩
    case isFalse hd =>
      exact ⟨elem :: plains, ups, by simp [hs], List.forall_mem_cons.mpr ⟨⟨hn₁, hn₂, hd, he⟩, hp⟩⟩

theorem reduced_foldl_push (hs : Reduced st) (he : ∀ e ∈ elems, '/' ∉ e) :
    Reduced (elems.foldl (push false) st) := by
  induction elems generalizing st
  case nil => exact hs
  case cons e elems hi =>
    have ⟨h, he⟩ := List.forall_mem_cons.mp he
    exact hi (reduced_push hs h) he

theorem foldl_push_replicate (n k : Nat) :
    (List.replicate n dotdot).foldl (push false) (.replicate k dotdot) = .replicate (n + k) dotdot := by
  induction n generalizing k
  case zero => simp
  case succ n hi =>
    have hp : push false (.replicate k dotdot) dotdot = .replicate (k + 1) dotdot := by
      cases k
      case zero   => rfl
      case succ k => simp [push, dotdot, List.replicate_succ]
    rw [List.replicate_succ, List.foldl_cons, hp, hi, Nat.add_assoc, Nat.add_comm 1]

theorem foldl_push_of_reduced (h : Reduced st) : st.reverse.foldl (push false) [] = st := by
  have ⟨plains, ups, hs, hp⟩ := h
  have hr := foldl_push_replicate ups 0
  rw [List.replicate_zero, Nat.add_zero] at hr
  rw [hs, List.reverse_append, List.reverse_replicate, List.foldl_append, hr,
    foldl_push_of_plain (by simpa using hp), List.reverse_reverse]

theorem elements_cleanChars_of_relative (h : isRooted p = false) : elements (cleanChars p) = elements p := by
  have hred : Reduced (elements p).reverse := by
    rw [elements, h, List.reverse_reverse]
    exact reduced_foldl_push ⟨[], 0, rfl, by simp⟩ fun _ => List.not_mem_of_mem_splitOn
  have hmem : ∀ e ∈ elements p, e ≠ [] ∧ '/' ∉ e := by
    have ⟨plains, ups, hs, hp⟩ := hred
    intro e he
    rw [← List.mem_reverse, hs, List.mem_append] at he
    obtain he | he := he
    · exact ⟨(hp e he).left, (hp e he).right.right.right⟩
    · simp [(List.mem_replicate.mp he).right, dotdot]
  cases he : elements p
  case nil =>
    simp only [cleanChars, h, he]
    rfl
  case cons e elems =>
    have ⟨hn, hs⟩ := hmem e (by simp [he])
    have ⟨rest, hi⟩ : ∃ rest, ['/'].intercalate (e :: elems) = e ++ rest := by
      cases elems
      case nil       => exact ⟨[], by simp⟩
      case cons e' l => exact ⟨_, by rw [List.intercalate_cons_of_ne_nil (by simp), List.append_assoc]⟩
    have hc : cleanChars p = ['/'].intercalate (e :: elems) := by
      simp [cleanChars, h, he, hi, hn]
    have hr : isRooted (cleanChars p) = false := by
      rw [hc, hi, isRooted, List.head?_append_of_ne_nil e hn]
      exact decide_eq_false fun hh => hs (List.mem_of_mem_head? (by simp [hh]))
    rw [elements, hr, hc, List.splitOn_intercalate '/' (fun e' hm => (hmem e' (he ▸ hm)).right) (by simp)]
    have hf := foldl_push_of_reduced hred
    rw [List.reverse_reverse, he] at hf
    rw [hf, List.reverse_reverse]

end Relative

theorem cleanChars_ne_nil : cleanChars p ≠ [] := by
  simp only [cleanChars]
  split
  case isTrue => simp
  case isFalse =>
    split
    case isTrue => simp
    case isFalse hn => exact hn

end

variable {p q a b : String}

theorem isAbs_append (h : isAbs a) : isAbs (a ++ b) := by
  have ⟨_, hl⟩ := List.head?_eq_some_iff.mp (of_decide_eq_true h)
  simp [isAbs, isRooted, hl]

theorem ne_empty_of_isAbs (h : isAbs a) : a ≠ "" := by
  rintro rfl
  contradiction

theorem exists_join (a : String) : ∃ pre : String, ∀ b : String, Plain b.toList → join a b = pre ++ b := by
  by_cases ha : a = ""
  case pos =>
    refine ⟨"", fun b hb => ?_⟩
    have hn : b ≠ "" := fun hn => hb.left (by simp [hn])
    rw [join, if_neg (not_not.mpr ha), if_pos hn, clean, cleanChars_of_plain hb]
    simp
  case neg =>
    have ⟨pre, hp⟩ := exists_cleanChars_append (p := a.toList) (by simpa using ha)
    refine ⟨.ofList pre, fun b hb => ?_⟩
    rw [join, if_pos ha, clean]
    simp [hp _ hb]

theorem join_ne (ha : a ≠ "") (hb : Plain b.toList) : join a b ≠ a := by
  intro he
  have hl : elements (cleanChars (a ++ "/" ++ b).toList) = elements a.toList := by
    rw [join, if_pos ha, clean] at he
    simpa using congrArg (elements ·.toList) he
  have hc : (a ++ "/" ++ b).toList = a.toList ++ '/' :: b.toList := by simp
  have hi : elements (cleanChars (a ++ "/" ++ b).toList) = elements (a ++ "/" ++ b).toList := by
    cases hr : isRooted (a ++ "/" ++ b).toList
    case false => exact elements_cleanChars_of_relative hr
    case true  => exact elements_cleanChars hr
  rw [hi, hc, elements_append (by simpa using ha) hb] at hl
  simpa using congrArg List.length hl

-- The absolute paths that `Abs` returns.
def IsClean (p : String) : Prop :=
  isAbs p ∧ clean p = p

theorem isClean_clean (h : isAbs p) : IsClean (clean p) := by
  constructor
  · simpa [isAbs, clean] using isRooted_cleanChars h
  · simpa [clean] using congrArg String.ofList (cleanChars_cleanChars h)

example : clean "/etc//tunnels/../auth/./x" = "/etc/auth/x" ∧ clean "/etc/auth/x" = "/etc/auth/x" := by
  decide

theorem isClean_join (h : isAbs a) : IsClean (join a b) := by
  rw [join, if_pos (ne_empty_of_isAbs h)]
  exact isClean_clean (isAbs_append (isAbs_append h))

theorem isClean_of_abs {getwd : Getwd} (h : abs getwd p = .ok q) : IsClean q := by
  unfold abs at h
  split at h
  case isTrue ha =>
    cases h
    exact isClean_clean ha
  case isFalse =>
    cases getwd <;> cases h
    case ok.refl wd => exact isClean_join wd.property

theorem abs_of_isClean {getwd : Getwd} (h : IsClean p) : abs getwd p = .ok p := by
  rw [abs, if_pos h.left, h.right]

theorem dir_ne_empty : dir p ≠ "" := by
  intro h
  exact cleanChars_ne_nil (by simpa [dir, clean] using h)

end Filepath
