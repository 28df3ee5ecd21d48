import Mathlib.Tactic

/-!
# Lexical paths

Unix path strings and the purely lexical operations `Clean`, `Join` and `Rel` on
them.  A path is split at its slashes and walked component by component; the
position reached is a number of steps above the start and the names below.  A
character stands for a byte.
-/

namespace RuseonCore
namespace LexicalPath

/-- The component that leads to the parent. -/
def dotDot : List Char := ['.', '.']

/-- A component that names a directory entry. -/
def IsName (component : List Char) : Prop :=
  component ≠ [] ∧ component ≠ ['.'] ∧ component ≠ dotDot ∧ '/' ∉ component

instance (component : List Char) : Decidable (IsName component) :=
  inferInstanceAs (Decidable (_ ∧ _))

/-- A position relative to a start: how far above it the walk has climbed, and
the names entered from there, innermost first. -/
@[ext]
structure Position where
  ups : Nat
  below : List (List Char)
  named : ∀ name ∈ below, IsName name
  deriving DecidableEq

namespace Position

/-- The start itself. -/
def start : Position where
  ups := 0
  below := []
  named := by simp

/-- Enter a named entry. -/
def push (pos : Position) (name : List Char) (isName : IsName name) :
    Position where
  ups := pos.ups
  below := name :: pos.below
  named := List.forall_mem_cons.mpr ⟨isName, pos.named⟩

/-- Go to the parent; the root is its own parent. -/
def up (rooted : Bool) (pos : Position) : Position where
  ups := if pos.below = [] ∧ rooted = false then pos.ups + 1 else pos.ups
  below := pos.below.tail
  named := fun name within => pos.named name (List.mem_of_mem_tail within)

/-- Walk one component. -/
def enter (rooted : Bool) (pos : Position) (component : List Char) : Position :=
  if isName : IsName component then pos.push component isName
  else if component = dotDot then pos.up rooted
  else pos

/-- Walk several components. -/
def walk (rooted : Bool) (pos : Position) (components : List (List Char)) :
    Position :=
  components.foldl (enter rooted) pos

/-- Names below the climb, outermost first. -/
def names (pos : Position) : List (List Char) :=
  pos.below.reverse

/-- Shortest list of components that leads to the position. -/
def components (pos : Position) : List (List Char) :=
  List.replicate pos.ups dotDot ++ pos.names

/-- Path string of a position. -/
def render (rooted : Bool) (pos : Position) : List Char :=
  if rooted then '/' :: ['/'].intercalate pos.names
  else if pos.components = [] then ['.']
  else ['/'].intercalate pos.components

/-- Position that is reached from `pos` in the way that `relative` is reached
from the start. -/
def descend (pos relative : Position) : Position where
  ups := pos.ups + (relative.ups - pos.below.length)
  below := relative.below ++ pos.below.drop relative.ups
  named := by
    intro name within
    rcases List.mem_append.mp within with new | old
    · exact relative.named name new
    · exact pos.named name (List.mem_of_mem_drop old)

end Position

open Position

/-- The path starts at the root. -/
def isAbs (path : List Char) : Bool :=
  path.head? == some '/'

/-- Position that a path leads to. -/
def resolve (path : List Char) : Position :=
  walk (isAbs path) start (path.splitOn '/')

/-- Shortest equivalent of a path. -/
def clean (path : List Char) : List Char :=
  (resolve path).render (isAbs path)

/-- Join path elements, leaving out empty ones at the front. -/
def join (elements : List (List Char)) : List Char :=
  match elements.dropWhile List.isEmpty with
  | [] => []
  | element :: rest => clean (['/'].intercalate (element :: rest))

/-- Components of a clean path. -/
def elements (path : List Char) : List (List Char) :=
  let path := if isAbs path then path.tail else path
  if path = [] then [] else path.splitOn '/'

/-- Components that lead from a base to a target, if this can be told
lexically. -/
def relElements :
    (base target : List (List Char)) → Option (List (List Char))
  | first :: base, first' :: target =>
      if first = first' then relElements base target
      else if first = dotDot then none
      else some (List.replicate (base.length + 1) dotDot ++ first' :: target)
  | base, target => some (List.replicate base.length dotDot ++ target)

/-- Path of a target relative to a base. -/
def rel (base target : List Char) : Option (List Char) :=
  let base := clean base
  let target := clean target
  if target = base then some ['.']
  else
    let base := if base = ['.'] then [] else base
    if isAbs base ≠ isAbs target then none
    else (relElements (elements base) (elements target)).map
      ['/'].intercalate

/-! ## Walks -/

namespace Position

@[simp] theorem walk_nil (pos : Position) : pos.walk rooted [] = pos := rfl

@[simp] theorem walk_cons (pos : Position) (component : List Char) :
    pos.walk rooted (component :: rest) =
      (pos.enter rooted component).walk rooted rest := rfl

theorem walk_append (pos : Position) (first second : List (List Char)) :
    pos.walk rooted (first ++ second) =
      (pos.walk rooted first).walk rooted second :=
  List.foldl_append

@[simp] theorem descend_start (pos : Position) : pos.descend start = pos := by
  ext1 <;> simp [descend, start]

/-- Going up after a descent is a descent after going up. -/
theorem up_descend (pos relative : Position) :
    (pos.descend relative).up false = pos.descend (relative.up false) := by
  cases entered : relative.below with
  | cons name outer => ext1 <;> simp [up, descend, entered]
  | nil =>
      ext1
      · simp only [up, descend, entered, List.nil_append, List.drop_eq_nil_iff,
          and_true, if_true]
        split <;> omega
      · simp [up, descend, entered]

/-- A component is walked after a descent as it is before it. -/
theorem enter_descend (pos relative : Position) (component : List Char) :
    (pos.descend relative).enter false component =
      pos.descend (relative.enter false component) := by
  unfold enter
  split
  · rfl
  · split
    · exact up_descend pos relative
    · rfl

/-- Walking from a position is walking from the start and descending. -/
theorem walk_eq_descend (pos : Position) (components : List (List Char)) :
    pos.walk false components = pos.descend (start.walk false components) := by
  have shifted : ∀ relative : Position,
      (pos.descend relative).walk false components =
        pos.descend (relative.walk false components) := by
    induction components with
    | nil => exact fun relative => rfl
    | cons component rest inductionHypothesis =>
        intro relative
        rw [walk_cons, walk_cons, enter_descend]
        exact inductionHypothesis (relative.enter false component)
  simpa using shifted start

theorem enter_of_isName
    (pos : Position)
    {name : List Char}
    (isName : IsName name) :
    pos.enter rooted name = pos.push name isName :=
  dif_pos isName

theorem enter_dotDot (pos : Position) :
    pos.enter rooted dotDot = pos.up rooted := by
  simp [enter, IsName]

/-- Walking names enters them one after the other. -/
theorem below_walk_names
    (rooted : Bool)
    (pos : Position)
    {names : List (List Char)}
    (isName : ∀ name ∈ names, IsName name) :
    (pos.walk rooted names).ups = pos.ups ∧
      (pos.walk rooted names).below = names.reverse ++ pos.below := by
  induction names generalizing pos with
  | nil => simp
  | cons name names inductionHypothesis =>
      rw [List.forall_mem_cons] at isName
      rw [walk_cons, enter_of_isName pos isName.1]
      simpa [push] using inductionHypothesis (pos.push name isName.1) isName.2

/-- Climbing from the start. -/
theorem walk_replicate_dotDot (count : Nat) :
    start.walk false (List.replicate count dotDot) =
      { start with ups := count } := by
  induction count with
  | zero => rfl
  | succ count inductionHypothesis =>
      rw [List.replicate_succ', walk_append, inductionHypothesis, walk_cons,
        enter_dotDot]
      simp [up, start]

theorem isName_of_mem_names
    (pos : Position)
    {name : List Char}
    (within : name ∈ pos.names) :
    IsName name :=
  pos.named name (List.mem_reverse.mp within)

/-- The components of a position lead to it. -/
theorem walk_components (pos : Position) :
    start.walk false pos.components = pos := by
  rw [components, walk_append, walk_replicate_dotDot]
  obtain ⟨climbed, entered⟩ := below_walk_names false
    { start with ups := pos.ups } fun _ within => pos.isName_of_mem_names within
  ext1
  · exact climbed
  · rw [entered]
    simp [start, names]

theorem slash_notMem_components
    (pos : Position)
    {component : List Char}
    (within : component ∈ pos.components) :
    component ≠ [] ∧ '/' ∉ component := by
  rw [components, List.mem_append] at within
  rcases within with climb | name
  · rw [(List.mem_replicate.mp climb).2]
    decide
  · obtain ⟨nonempty, _, _, noSlash⟩ := pos.isName_of_mem_names name
    exact ⟨nonempty, noSlash⟩

/-- The string of a relative position splits into its components. -/
theorem splitOn_render (pos : Position) :
    (pos.render false).splitOn '/' =
      if pos.components = [] then [['.']] else pos.components := by
  unfold render
  split
  · contradiction
  · split
    · decide
    · rename_i entered
      refine List.splitOn_intercalate '/' ?_ entered
      intro component within
      exact (pos.slash_notMem_components within).2

theorem not_isAbs_render (pos : Position) :
    isAbs (pos.render false) = false := by
  unfold render
  split
  · contradiction
  · split
    · decide
    · cases shown : pos.components with
      | nil => contradiction
      | cons first rest =>
          obtain ⟨nonempty, noSlash⟩ := pos.slash_notMem_components
            (shown ▸ List.mem_cons_self : first ∈ pos.components)
          cases first with
          | nil => contradiction
          | cons c first =>
              have different : c ≠ '/' := by
                rintro rfl
                exact noSlash List.mem_cons_self
              cases rest <;> simp [isAbs, List.intercalate, different]

/-- Relative positions are recovered from their strings. -/
theorem resolve_render (pos : Position) :
    resolve (pos.render false) = pos := by
  rw [resolve, pos.not_isAbs_render, splitOn_render]
  split
  · rename_i empty
    rw [← pos.walk_components, empty]
    decide
  · exact pos.walk_components

end Position

/-- Cleaning a relative path twice changes nothing more. -/
theorem clean_render (pos : Position) :
    clean (pos.render false) = pos.render false := by
  rw [clean, pos.resolve_render, pos.not_isAbs_render]

/-- Only a position that is not above the start has a string without leading
dots. -/
theorem ups_eq_zero_of_noDots
    {pos : Position}
    (noDots : ¬ dotDot <+: pos.render false) :
    pos.ups = 0 := by
  cases climbed : pos.ups with
  | zero => rfl
  | succ count =>
      refine absurd ?_ noDots
      have shown : pos.components =
          dotDot :: (List.replicate count dotDot ++ pos.names) := by
        rw [components, climbed, List.replicate_succ, List.cons_append]
      rw [render, shown, if_neg (by decide), if_neg (by simp)]
      cases List.replicate count dotDot ++ pos.names with
      | nil => simp [List.intercalate]
      | cons next rest => simp [List.intercalate]

/-- Joined elements are split again one by one. -/
theorem splitOn_intercalate_elements
    (first : List Char)
    (rest : List (List Char)) :
    (['/'].intercalate (first :: rest)).splitOn '/' =
      (first :: rest).flatMap (List.splitOn '/') := by
  induction rest generalizing first with
  | nil => simp [List.intercalate]
  | cons second rest inductionHypothesis =>
      have joined : ['/'].intercalate (first :: second :: rest) =
          first ++ '/' :: ['/'].intercalate (second :: rest) := by
        simp [List.intercalate]
      rw [joined, List.splitOn_append_cons_self, inductionHypothesis]
      rfl

/-- Elements below a named one are walked one after the other. -/
theorem join_of_isName
    {first : List Char}
    (isName : IsName first)
    (rest : List (List Char)) :
    join (first :: rest) =
      (start.walk false ((first :: rest).flatMap (List.splitOn '/'))).render
        false := by
  obtain ⟨nonempty, _, _, noSlash⟩ := isName
  cases first with
  | nil => contradiction
  | cons c first =>
      have different : c ≠ '/' := by
        rintro rfl
        exact noSlash List.mem_cons_self
      have relative : isAbs (['/'].intercalate ((c :: first) :: rest)) = false := by
        cases rest <;> simp [isAbs, List.intercalate, different]
      have kept : ((c :: first) :: rest).dropWhile List.isEmpty =
          (c :: first) :: rest := by
        simp
      rw [join, kept]
      simp only [clean, resolve, relative, splitOn_intercalate_elements]

end LexicalPath
end RuseonCore
