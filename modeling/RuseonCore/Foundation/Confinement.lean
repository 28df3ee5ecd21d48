import RuseonCore.Foundation.LexicalPath

/-!
# Paths below a base

A path lies below another one if it continues it by names of entries, component
by component.  A target whose path relative to a base does not begin with two dots
is the base itself or lies below it, for clean paths of any kind.
-/

namespace RuseonCore
namespace LexicalPath

open Position

/-- Components of a path; empty ones and single dots lead nowhere. -/
def steps (path : List Char) : List (List Char) :=
  (path.splitOn '/').filter fun component => component ≠ [] ∧ component ≠ ['.']

/-- The path continues the base by names of entries. -/
def Below (base path : List Char) : Prop :=
  isAbs path = isAbs base ∧
    ∃ names, names ≠ [] ∧ (∀ name ∈ names, IsName name) ∧ steps path = steps base ++ names

/-! ## Clean paths -/

namespace Position

variable (pos : Position)

/-- Components below the root, or from the start. -/
def componentsFrom (rooted : Bool) : List (List Char) :=
  if rooted then pos.names else pos.components

theorem slash_notMem_names {name : List Char} (within : name ∈ pos.names) :
    '/' ∉ name :=
  (pos.isName_of_mem_names within).2.2.2

/-- A component of a position is a name or leads to the parent. -/
theorem isName_or_dotDot
    {rooted : Bool}
    {component : List Char}
    (within : component ∈ pos.componentsFrom rooted) :
    IsName component ∨ component = dotDot := by
  rw [componentsFrom] at within
  split at within
  · exact .inl (pos.isName_of_mem_names within)
  · rcases List.mem_append.mp within with climb | name
    · exact .inr (List.eq_of_mem_replicate climb)
    · exact .inl (pos.isName_of_mem_names name)

theorem isAbs_render (rooted : Bool) : isAbs (pos.render rooted) = rooted := by
  cases rooted with
  | true => rfl
  | false => exact pos.not_isAbs_render

theorem render_ne_nil (rooted : Bool) : pos.render rooted ≠ [] := by
  cases rooted with
  | true => exact List.cons_ne_nil _ _
  | false =>
      intro empty
      have split := pos.splitOn_render
      rw [empty, List.splitOn_nil] at split
      split at split
      · cases split
      · have within : [] ∈ pos.components := split ▸ List.mem_singleton_self []
        exact (pos.slash_notMem_components within).1 rfl

/-- The string of a position below the root splits into the names. -/
theorem splitOn_render_rooted :
    (pos.render true).splitOn '/' = [] :: if pos.names = [] then [[]] else pos.names := by
  rw [render, if_pos rfl]
  change ([] ++ '/' :: _).splitOn '/' = _
  rw [List.splitOn_append_cons_self_of_not_mem List.not_mem_nil]
  split
  · rename_i empty
    rw [empty]
    rfl
  · rename_i entered
    rw [List.splitOn_intercalate '/' (fun _ within => pos.slash_notMem_names within) entered]

/-- The components of a path that is written out. -/
theorem steps_render (rooted : Bool) :
    steps (pos.render rooted) = pos.componentsFrom rooted := by
  have kept : (pos.componentsFrom rooted).filter
      (fun component => component ≠ [] ∧ component ≠ ['.']) = pos.componentsFrom rooted := by
    rw [List.filter_eq_self]
    intro component within
    rcases pos.isName_or_dotDot within with isName | rfl
    · simp [isName.1, isName.2.1]
    · decide
  cases rooted with
  | true =>
      rw [steps, splitOn_render_rooted, List.filter_cons_of_neg (by simp)]
      split
      · rename_i empty
        simp [componentsFrom, empty]
      · exact kept
  | false =>
      rw [steps, splitOn_render]
      split
      · rename_i empty
        simp [componentsFrom, empty]
      · exact kept

theorem below_resolve_render_rooted : (resolve (pos.render true)).below = pos.below := by
  have rooted : isAbs (pos.render true) = true := rfl
  have walked := (below_walk_names true start
    fun _ within => pos.isName_of_mem_names within).2
  rw [resolve, rooted, splitOn_render_rooted, walk_cons]
  have first : start.enter true [] = start := by decide
  rw [first]
  split
  · rename_i empty
    have none : pos.below = [] := List.reverse_eq_nil_iff.mp empty
    rw [none]
    decide
  · rw [walked]
    simp [names, start]

end Position

/-- Cleaning a path twice changes nothing more. -/
theorem clean_clean (path : List Char) : clean (clean path) = clean path := by
  cases rooted : isAbs path with
  | false => rw [clean, clean, rooted, not_isAbs_render, resolve_render]
  | true =>
      have abs : isAbs ((resolve path).render true) = true := rfl
      have same := (resolve path).below_resolve_render_rooted
      rw [clean, clean, rooted, abs]
      exact congrArg (fun below => '/' :: ['/'].intercalate below.reverse) same

/-! ## Relative paths -/

/-- Components that lead to a target without going up continue the base. -/
theorem append_of_relElements
    {base target relative : List (List Char)}
    (found : relElements base target = some relative)
    (descends : relative.head? ≠ some dotDot) :
    target = base ++ relative := by
  fun_induction relElements base target with
  | case1 first base target inductionHypothesis =>
      rw [List.cons_append, inductionHypothesis found]
  | case2 => cases found
  | case3 =>
      cases found
      simp [List.replicate_succ] at descends
  | case4 base target unmatched =>
      cases found
      cases base with
      | nil => simp
      | cons first base =>
          simp [List.replicate_succ] at descends

/-- A path that does not begin with two dots does not begin with a step up. -/
theorem head_ne_dotDot
    {components : List (List Char)}
    (noDots : ¬ dotDot <+: ['/'].intercalate components) :
    components.head? ≠ some dotDot := by
  intro climbs
  obtain ⟨rest, rfl⟩ := List.head?_eq_some_iff.mp climbs
  apply noDots
  cases rest with
  | nil => simp [List.intercalate]
  | cons next rest => simp [List.intercalate]

/-- Behind a component that is not a step up there are only names. -/
theorem isName_of_append
    (pos : Position)
    {rooted : Bool}
    {before after : List (List Char)}
    (parts : pos.componentsFrom rooted = before ++ after)
    (descends : after.head? ≠ some dotDot) :
    ∀ name ∈ after, IsName name := by
  intro name within
  cases rooted with
  | true =>
      change pos.names = before ++ after at parts
      apply pos.isName_of_mem_names
      exact parts ▸ List.mem_append_right before within
  | false =>
      change List.replicate pos.ups dotDot ++ pos.names = before ++ after at parts
      rcases List.append_eq_append_iff.mp parts with ⟨entered, -, split⟩ | ⟨climb, split, rfl⟩
      · apply pos.isName_of_mem_names
        exact split ▸ List.mem_append_right entered within
      · -- What is left of the climb would be in front.
        cases climb with
        | nil => exact pos.isName_of_mem_names within
        | cons first climb =>
            have up : first = dotDot :=
              List.eq_of_mem_replicate (split ▸ List.mem_append_right before List.mem_cons_self)
            exact absurd (congrArg some up) descends

/-- The components of a clean path that `Rel` compares. -/
theorem elements_render (pos : Position) (rooted : Bool) :
    elements (pos.render rooted) =
      if pos.render rooted = ['.'] then [['.']] else pos.componentsFrom rooted := by
  split
  · rename_i isDot
    rw [isDot]
    decide
  · rename_i notDot
    rw [elements, pos.isAbs_render]
    cases rooted with
    | true =>
        have below : (pos.render true).tail = ['/'].intercalate pos.names := rfl
        change (if (pos.render true).tail = [] then [] else (pos.render true).tail.splitOn '/') =
          pos.names
        rw [below]
        cases entered : pos.names with
        | nil => rfl
        | cons name names =>
            have split : (['/'].intercalate (name :: names)).splitOn '/' = name :: names := by
              rw [← entered]
              exact List.splitOn_intercalate '/' (fun _ within => pos.slash_notMem_names within)
                (by simp [entered])
            rw [if_neg]
            · exact split
            · intro empty
              rw [empty] at split
              have within : [] ∈ pos.names := by
                rw [entered, ← split]
                exact List.mem_singleton_self []
              exact (pos.isName_of_mem_names within).1 rfl
    | false =>
        have split := pos.splitOn_render
        have entered : pos.components ≠ [] := by
          intro none
          exact notDot (by rw [render, if_neg (by decide), if_pos none])
        rw [if_neg entered] at split
        simp only [Bool.false_eq_true, if_false]
        rw [if_neg (pos.render_ne_nil false)]
        exact split

/-- A single dot has no components. -/
theorem componentsFrom_of_dot
    {pos : Position}
    {rooted : Bool}
    (isDot : pos.render rooted = ['.']) :
    pos.componentsFrom rooted = [] := by
  rw [← pos.steps_render, isDot]
  decide

/-- A clean path is made of its components. -/
theorem render_congr
    {pos other : Position}
    {rooted : Bool}
    (same : pos.componentsFrom rooted = other.componentsFrom rooted) :
    pos.render rooted = other.render rooted := by
  cases rooted with
  | true => exact congrArg (fun names => '/' :: ['/'].intercalate names) same
  | false =>
      change pos.components = other.components at same
      rw [render, render, same]
      rfl

/-- A target that `Rel` reaches without going up is the base or lies below it. -/
theorem eq_or_below_of_rel
    {base target relative : List Char}
    (found : rel (clean base) (clean target) = some relative)
    (noDots : ¬ dotDot <+: relative) :
    clean target = clean base ∨ Below (clean base) (clean target) := by
  rw [rel, clean_clean, clean_clean] at found
  by_cases same : clean target = clean base
  · exact .inl same
  · right
    rw [if_neg same] at found
    obtain ⟨basePos, rooted, isBase⟩ : ∃ pos rooted, clean base = Position.render rooted pos :=
      ⟨_, _, rfl⟩
    obtain ⟨targetPos, targetRooted, isTarget⟩ :
        ∃ pos rooted, clean target = Position.render rooted pos :=
      ⟨_, _, rfl⟩
    rw [isBase, isTarget] at found same ⊢
    have baseElements : elements (if basePos.render rooted = ['.'] then []
        else basePos.render rooted) = basePos.componentsFrom rooted := by
      split
      · rename_i isDot
        rw [componentsFrom_of_dot isDot]
        rfl
      · rename_i notDot
        rw [elements_render, if_neg notDot]
    have baseAbs : isAbs (if basePos.render rooted = ['.'] then []
        else basePos.render rooted) = rooted := by
      split
      · rename_i isDot
        rw [← basePos.isAbs_render rooted, isDot]
        rfl
      · exact basePos.isAbs_render rooted
    dsimp only at found
    rw [baseElements, baseAbs, isAbs_render] at found
    split at found
    · cases found
    · rename_i sameRoot
      have sameRoot : rooted = targetRooted := not_not.mp sameRoot
      subst sameRoot
      obtain ⟨components, related, rfl⟩ := Option.map_eq_some_iff.mp found
      have descends := head_ne_dotDot noDots
      have parts := append_of_relElements related descends
      have different : targetPos.componentsFrom rooted ≠ basePos.componentsFrom rooted :=
        fun sameComponents => same (render_congr sameComponents)
      rw [elements_render] at parts
      split at parts
      · rename_i isDot
        rw [componentsFrom_of_dot isDot] at different
        exfalso
        cases entered : basePos.componentsFrom rooted with
        | nil => exact different entered.symm
        | cons first rest =>
            rw [entered, List.cons_append, List.cons.injEq] at parts
            have within : ['.'] ∈ basePos.componentsFrom rooted := by
              rw [entered, ← parts.1]
              exact List.mem_cons_self
            rcases basePos.isName_or_dotDot within with isName | isDotDot
            · exact isName.2.1 rfl
            · cases isDotDot
      · refine ⟨?_, components, ?_, ?_, ?_⟩
        · rw [isAbs_render, isAbs_render]
        · rintro rfl
          exact different (parts.trans (List.append_nil _))
        · exact isName_of_append targetPos parts descends
        · rw [steps_render, steps_render, parts]

end LexicalPath
end RuseonCore
