import RuseonCore.Archive.Truncation

/-!
# The scans of arbitrary files

What `getFileIndex` makes of any bytes.  The sizes that lead the scans through the
file come from the file itself, and a scan may lose track of the boxes.  Even so,
every iteration reads a header behind the one that the last iteration read, so both
loops end, and the pairs of boxes that are listed lie in the file one behind the
other.
-/

namespace RuseonCore
namespace Archive

open Transition

/-! ## Iterations -/

/-- The first loop as a transition function. -/
def initLoop (contents : Bytes) (state : Nat × Nat) (_ : Unit) : Option (Nat × Nat) :=
  initStep contents state.1 state.2

/-- The second loop as a transition function. -/
def partsLoop (unmarshal : Unmarshal) (contents : Bytes) (offset : Nat) (_ : Unit) :
    Option Nat :=
  (partsStep unmarshal contents offset).map Prod.snd

/-- Parts that an iteration of the second loop appends to the index. -/
def listing (unmarshal : Unmarshal) (contents : Bytes) (offset : Nat) (_ : Unit) :
    List PartInfo :=
  ((partsStep unmarshal contents offset).bind Prod.fst).toList

section

variable {unmarshal : Unmarshal} {contents : Bytes} {offset : Nat}

theorem PairAt.lt
    {stop : Nat}
    (pair : PairAt contents offset stop) :
    offset < stop := by
  obtain ⟨first, second, -, -, valid, -, -, -, rfl, -⟩ := pair
  have positive : 8 ≤ first.size := valid.1
  omega

/-! ## Termination -/

/-- A loop over positions in which every iteration reads eight bytes of the file and
goes on behind them. -/
theorem length_le_of_advancing
    {State : Type}
    {step : State → Unit → Option State}
    (position : State → Nat)
    (advancing : ∀ state next, step state () = some next →
      position state + 8 ≤ contents.length ∧ position state + 8 ≤ position next)
    {start finish : State}
    {rounds : List Unit}
    (reached : run step start rounds = some finish) :
    rounds.length ≤ contents.length / 8 := by
  have preserved : ∀ (history : List Unit) state round next,
      8 * history.length ≤ position state ∧ 8 * history.length ≤ contents.length →
      step state round = some next →
      8 * (history ++ [round]).length ≤ position next ∧
        8 * (history ++ [round]).length ≤ contents.length := by
    intro history state round next before taken
    have advanced := advancing state next taken
    rw [List.length_append, List.length_singleton]
    omega
  have initial : 8 * ([] : List Unit).length ≤ position start ∧
      8 * ([] : List Unit).length ≤ contents.length := by simp
  have bounded := (run_invariant_history preserved initial reached).2
  rw [List.nil_append] at bounded
  omega

/-- The first loop ends with the size that the scan returns. -/
theorem initLoop_ends (pos initSize : Nat) :
    ∃ rounds finish, run (initLoop contents) (pos, initSize) rounds = some finish ∧
      initLoop contents finish () = none ∧ finish.2 = scanInit contents pos initSize := by
  induction left : contents.length - pos using Nat.strong_induction_on
    generalizing pos initSize with
  | _ left inductionHypothesis =>
      rw [scanInit_eq_step]
      cases taken : initStep contents pos initSize with
      | none => exact ⟨[], (pos, initSize), rfl, taken, rfl⟩
      | some next =>
          have advanced := initStep_advances taken
          obtain ⟨rounds, finish, reached, ended, size⟩ :=
            inductionHypothesis (contents.length - next.1) (by omega) next.1 next.2 rfl
          refine ⟨() :: rounds, finish, ?_, ended, size⟩
          exact run_cons_eq_some.mpr ⟨next, taken, reached⟩

/-- The second loop ends, and has listed the parts that the scan returns. -/
theorem partsLoop_ends (offset : Nat) :
    ∃ rounds finish, run (partsLoop unmarshal contents) offset rounds = some finish ∧
      partsLoop unmarshal contents finish () = none ∧
      trace (partsLoop unmarshal contents) (listing unmarshal contents) offset rounds =
        scanParts unmarshal contents offset := by
  induction left : contents.length - offset using Nat.strong_induction_on
    generalizing offset with
  | _ left inductionHypothesis =>
      rw [scanParts_eq_step]
      cases taken : partsStep unmarshal contents offset with
      | none =>
          refine ⟨[], offset, rfl, ?_, rfl⟩
          rw [partsLoop, taken, Option.map_none]
      | some outcome =>
          obtain ⟨part, next⟩ := outcome
          obtain ⟨within, advanced, -⟩ := partsStep_eq_some taken
          have stepped : partsLoop unmarshal contents offset () = some next := by
            rw [partsLoop, taken, Option.map_some]
          obtain ⟨rounds, finish, reached, ended, listed⟩ :=
            inductionHypothesis (contents.length - next) (by omega) next rfl
          refine ⟨() :: rounds, finish, ?_, ended, ?_⟩
          · exact run_cons_eq_some.mpr ⟨next, stepped, reached⟩
          · rw [trace, stepped, listing, taken, Option.bind_some]
            exact congrArg (part.toList ++ ·) listed

/-! ## Layout of the parts -/

/-- The parts are pairs of boxes that follow each other from a position on. -/
def Laid (contents : Bytes) : Nat → List PartInfo → Prop
  | _, [] => True
  | offset, part :: parts =>
      offset ≤ part.offset ∧ ∃ stop, PairAt contents part.offset stop ∧ Laid contents stop parts

theorem Laid.mono
    {earlier : Nat}
    {parts : List PartInfo}
    (laid : Laid contents offset parts)
    (before : earlier ≤ offset) :
    Laid contents earlier parts := by
  cases parts with
  | nil => trivial
  | cons part parts => exact ⟨before.trans laid.1, laid.2⟩

theorem Laid.le
    {parts : List PartInfo}
    (laid : Laid contents offset parts)
    {part : PartInfo}
    (member : part ∈ parts) :
    offset ≤ part.offset := by
  induction parts generalizing offset with
  | nil => cases member
  | cons first parts inductionHypothesis =>
      obtain ⟨begins, stop, pair, rest⟩ := laid
      rcases List.mem_cons.mp member with rfl | later
      · exact begins
      · have passed := pair.lt
        have behind := inductionHypothesis rest later
        omega

/-- Every part ends before the parts behind it begin. -/
theorem Laid.pairwise
    {parts : List PartInfo}
    (laid : Laid contents offset parts) :
    parts.Pairwise fun part later => part.offset < later.offset := by
  induction parts generalizing offset with
  | nil => exact List.Pairwise.nil
  | cons first parts inductionHypothesis =>
      obtain ⟨begins, stop, pair, rest⟩ := laid
      rw [List.pairwise_cons]
      refine ⟨?_, inductionHypothesis rest⟩
      intro later member
      exact pair.lt.trans_le (rest.le member)

theorem Laid.getElem?
    {parts : List PartInfo}
    (laid : Laid contents offset parts)
    {i : Nat}
    {part : PartInfo}
    (found : parts[i]? = some part) :
    ∃ stop, PairAt contents part.offset stop ∧
      ∀ next, parts[i + 1]? = some next → stop ≤ next.offset := by
  induction parts generalizing offset i with
  | nil => cases found
  | cons first parts inductionHypothesis =>
      obtain ⟨begins, stop, pair, rest⟩ := laid
      cases i with
      | zero =>
          obtain rfl := Option.some.inj found
          refine ⟨stop, pair, ?_⟩
          intro next behind
          exact rest.le (List.mem_of_getElem? behind)
      | succ i => exact inductionHypothesis rest found

theorem laid_scanParts (offset : Nat) :
    Laid contents offset (scanParts unmarshal contents offset) := by
  induction left : contents.length - offset using Nat.strong_induction_on
    generalizing offset with
  | _ left inductionHypothesis =>
      rw [scanParts_eq_step]
      cases taken : partsStep unmarshal contents offset with
      | none => trivial
      | some outcome =>
          obtain ⟨part, next⟩ := outcome
          obtain ⟨within, advanced, listed⟩ := partsStep_eq_some taken
          have rest := inductionHypothesis (contents.length - next) (by omega) next rfl
          cases part with
          | none => exact rest.mono (by omega)
          | some part =>
              obtain ⟨here, pair⟩ := listed part rfl
              exact ⟨here.ge, next, here ▸ pair, rest⟩

end

/-- Both loops end on any file, after at most one iteration for every eight bytes, and
the parts that are listed are pairs of boxes in the file, behind the init section and
one behind the other. -/
theorem getFileIndex_laid
    (unmarshal : Unmarshal)
    (cache : IndexLRUCache)
    (files : Files)
    (path : String)
    (contents : Bytes)
    (cold : cache.lookup path = none)
    (stored : files path = some contents) :
    ∃ idx, (getFileIndex unmarshal cache files path).1 = .ok idx ∧
      (∃ rounds finish, run (initLoop contents) (0, 0) rounds = some finish ∧
        initLoop contents finish () = none ∧ finish.2 = idx.initSize ∧
        rounds.length ≤ contents.length / 8) ∧
      (∃ rounds finish,
        run (partsLoop unmarshal contents) idx.initSize rounds = some finish ∧
        partsLoop unmarshal contents finish () = none ∧
        trace (partsLoop unmarshal contents) (listing unmarshal contents) idx.initSize rounds =
          idx.parts ∧
        rounds.length ≤ contents.length / 8) ∧
      (idx.parts.Pairwise fun part later => part.offset < later.offset) ∧
      (∀ part ∈ idx.parts, idx.initSize ≤ part.offset) ∧
      (∀ i part, idx.parts[i]? = some part →
        ∃ stop, PairAt contents part.offset stop ∧
          ∀ next, idx.parts[i + 1]? = some next → stop ≤ next.offset) := by
  have laid : Laid contents (parseIndex unmarshal contents).initSize
      (parseIndex unmarshal contents).parts := laid_scanParts _
  refine ⟨parseIndex unmarshal contents, getFileIndex_of_cold cold stored, ?_, ?_,
    laid.pairwise, fun part member => laid.le member, fun i part found => laid.getElem? found⟩
  · obtain ⟨rounds, finish, reached, ended, size⟩ := @initLoop_ends contents 0 0
    refine ⟨rounds, finish, reached, ended, size, ?_⟩
    apply length_le_of_advancing Prod.fst _ reached
    intro state next taken
    exact initStep_advances taken
  · obtain ⟨rounds, finish, reached, ended, listed⟩ :=
      @partsLoop_ends unmarshal contents (parseIndex unmarshal contents).initSize
    refine ⟨rounds, finish, reached, ended, listed, ?_⟩
    apply length_le_of_advancing id _ reached
    intro offset next taken
    obtain ⟨⟨part, after⟩, stepped, rfl⟩ := Option.map_eq_some_iff.mp taken
    obtain ⟨within, advanced, -⟩ := partsStep_eq_some stepped
    exact ⟨within, advanced⟩

/-- A header of eight bytes, a `moof` box with a stray box behind it, and a fragment. -/
def strayBox : Bytes :=
  firstPart ++ ([0, 0, 0, 8] ++ moof) ++ [0, 0, 0, 8, 102, 114, 101, 101] ++ nextPart

theorem getFileIndex_laid_strayBox :
    ∃ idx, (getFileIndex (fun _ => none) (newIndexLRUCache 2000)
        (fun _ => some strayBox) "a.mp4").1 = .ok idx ∧
      idx.parts.map PartInfo.offset = [8, 40] ∧
      idx.parts.Pairwise fun part later => part.offset < later.offset := by
  obtain ⟨idx, returned, -, -, increasing, -⟩ := getFileIndex_laid (fun _ => none)
    (newIndexLRUCache 2000) (fun _ => some strayBox) "a.mp4" strayBox
    (IndexLRUCache.lookup_new _ _) rfl
  refine ⟨idx, returned, ?_, increasing⟩
  have parsed : Except.ok idx = _ :=
    returned.symm.trans (getFileIndex_of_cold (IndexLRUCache.lookup_new _ _) rfl)
  rw [Except.ok.inj parsed]
  decide +kernel

end Archive
end RuseonCore
