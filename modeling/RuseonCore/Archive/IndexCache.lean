import RuseonCore.Archive.IndexLru
import RuseonCore.Foundation.Transition

/-!
# Cached indices of growing files

Model of `getFileIndex` in `internal/archive/hls.go` beside the writers of the
archive: the recorder appends to its files, and the cleanup deletes a file and
then calls `InvalidateFileIndex`.  A call looks into the cache, parses the file
when it finds nothing there, and stores the result; other calls and writers may
come in between.  A file is parsed as it is at one moment.
-/

namespace RuseonCore
namespace Archive

open Transition

/-- Reason for which a file cannot be opened. -/
inductive OpenError
  | notExist
  deriving DecidableEq

/-- A blob store. -/
abbrev Files := String → Option Bytes

/-- A call of `getFileIndex` that found nothing in the cache, with the index once
it has parsed the file. -/
structure IndexCall where
  path : String
  parsed : Option FileIndex
  deriving DecidableEq

/-- The blob store, the cache, and the calls under way. -/
structure IndexState where
  files : Files
  cache : IndexLRUCache
  calls : List IndexCall

/-- Steps of the writers and of the calls; calls are identified by their
position. -/
inductive IndexStep
  | append (path : String) (bytes : Bytes)
  | delete (path : String)
  | invalidate (path : String)
  | lookup (path : String)
  | parse (call : Nat)
  | add (call : Nat)

section

variable (unmarshal : Unmarshal)

/-- A call with nothing else in between. -/
def getFileIndex (cache : IndexLRUCache) (files : Files) (path : String) :
    Except OpenError FileIndex × IndexLRUCache :=
  match cache.get path with
  | (some idx, cache) => (.ok idx, cache)
  | (none, cache) =>
      match files path with
      | none => (.error .notExist, cache)
      | some contents =>
          let idx := parseIndex unmarshal contents
          (.ok idx, cache.add path idx)

/-- The parts of a file. -/
def parseParts (contents : Bytes) : List PartInfo :=
  (parseIndex unmarshal contents).parts

namespace IndexState

/-- The given files, and an empty cache. -/
def start (files : Files) (capacity : Int) : IndexState where
  files := files
  cache := newIndexLRUCache capacity
  calls := []

/-- Effect of one step. -/
def step (s : IndexState) : IndexStep → Option IndexState
  | .append path bytes =>
      some { s with
        files := Function.update s.files path
          (some ((s.files path).getD [] ++ bytes)) }
  | .delete path =>
      if (s.files path).isSome then
        some { s with files := Function.update s.files path none }
      else none
  | .invalidate path => some { s with cache := s.cache.remove path }
  | .lookup path =>
      match s.cache.get path with
      | (some _, cache) => some { s with cache := cache }
      | (none, cache) =>
          some { s with cache := cache, calls := s.calls ++ [⟨path, none⟩] }
  | .parse call =>
      match s.calls[call]? with
      | some ⟨path, none⟩ =>
          match s.files path with
          | none => some { s with calls := s.calls.eraseIdx call }
          | some contents =>
              some { s with
                calls := s.calls.set call ⟨path, some (parseIndex unmarshal contents)⟩ }
      | _ => none
  | .add call =>
      match s.calls[call]? with
      | some ⟨path, some idx⟩ =>
          some { s with
            cache := s.cache.add path idx
            calls := s.calls.eraseIdx call }
      | _ => none

/-- A call returns for every path the parts that it would return with an empty
cache. -/
def Current (s : IndexState) : Prop :=
  ∀ path, (getFileIndex unmarshal s.cache s.files path).1.map FileIndex.parts =
    (getFileIndex unmarshal (newIndexLRUCache s.cache.capacity) s.files path).1.map
      FileIndex.parts

/-- The index of the file is in the cache, or a call has parsed the file and has not
stored the index yet. -/
def isIndexed (s : IndexState) (path : String) : Bool :=
  (s.cache.lookup path).isSome ||
    s.calls.any fun call => call.path == path && call.parsed.isSome

/-- Files are written and deleted only while they are not indexed. -/
def Spares (s : IndexState) : IndexStep → Prop
  | .append path _ | .delete path => s.isIndexed path = false
  | _ => True

instance (s : IndexState) (label : IndexStep) : Decidable (s.Spares label) := by
  unfold Spares
  split <;> infer_instance

end IndexState

/-! ## Answers of a call -/

variable {unmarshal}

theorem getFileIndex_of_cached
    {cache : IndexLRUCache}
    {path : String}
    {idx : FileIndex}
    (cached : cache.lookup path = some idx)
    (files : Files) :
    (getFileIndex unmarshal cache files path).1 = .ok idx := by
  unfold getFileIndex
  split
  · rename_i found got
    have same := cache.get_fst path
    rw [got, cached] at same
    rw [Option.some.inj same]
  · rename_i got
    have same := cache.get_fst path
    rw [got, cached] at same
    cases same

/-- A call that finds nothing in the cache returns the index of the file. -/
theorem getFileIndex_of_cold
    {cache : IndexLRUCache}
    {files : Files}
    {path : String}
    {contents : Bytes}
    (cold : cache.lookup path = none)
    (stored : files path = some contents) :
    (getFileIndex unmarshal cache files path).1 = .ok (parseIndex unmarshal contents) := by
  unfold getFileIndex
  split
  · rename_i found got
    have same := cache.get_fst path
    rw [got, cold] at same
    cases same
  · rw [stored]

/-- Without a cached index, the file is parsed. -/
theorem getFileIndex_of_uncached
    {cache : IndexLRUCache}
    {path : String}
    (uncached : cache.lookup path = none)
    (files : Files) :
    (getFileIndex unmarshal cache files path).1.map FileIndex.parts =
      ((files path).map (parseParts unmarshal)).elim (.error .notExist) .ok := by
  unfold getFileIndex
  split
  · rename_i found got
    have same := cache.get_fst path
    rw [got, uncached] at same
    cases same
  · cases files path with
    | none => rfl
    | some contents => rfl

namespace IndexState

/-- Calls return what they should when every cached index has the parts of the
file. -/
theorem current_of_cached
    {s : IndexState}
    (fresh : ∀ path idx, s.cache.lookup path = some idx →
      (s.files path).map (parseParts unmarshal) = some idx.parts) :
    s.Current unmarshal := by
  intro path
  rw [getFileIndex_of_uncached (IndexLRUCache.lookup_new s.cache.capacity path)]
  cases cached : s.cache.lookup path with
  | none => rw [getFileIndex_of_uncached cached]
  | some idx =>
      rw [getFileIndex_of_cached cached, fresh path idx cached]
      rfl

/-! ## Steps -/

/-- The cache, or a call that has parsed the file, has this index. -/
def Holds (s : IndexState) (path : String) (idx : FileIndex) : Prop :=
  s.cache.lookup path = some idx ∨ ⟨path, some idx⟩ ∈ s.calls

variable (unmarshal) in
/-- Every index, in the cache or on its way there, has the parts of the file. -/
def Fresh (s : IndexState) : Prop :=
  ∀ path idx, s.Holds path idx →
    (s.files path).map (parseParts unmarshal) = some idx.parts

variable {s : IndexState}

theorem isIndexed_of_holds
    {path : String}
    {idx : FileIndex}
    (holds : s.Holds path idx) :
    s.isIndexed path = true := by
  rw [isIndexed, Bool.or_eq_true, List.any_eq_true]
  rcases holds with cached | parsed
  · exact .inl (by rw [cached]; rfl)
  · exact .inr ⟨_, parsed, by simp⟩

/-- A file that is not indexed may change. -/
theorem Fresh.update
    (fresh : s.Fresh unmarshal)
    {path : String}
    (unindexed : s.isIndexed path = false)
    (contents : Option Bytes) :
    { s with files := Function.update s.files path contents }.Fresh unmarshal := by
  intro other idx holds
  have different : other ≠ path := by
    rintro rfl
    have indexed : s.isIndexed other = true := isIndexed_of_holds holds
    rw [unindexed] at indexed
    cases indexed
  dsimp only
  rw [Function.update_of_ne different]
  exact fresh other idx holds

/-- Indices may be dropped, or move from a call to the cache. -/
theorem Fresh.of_holds
    {next : IndexState}
    (fresh : s.Fresh unmarshal)
    (files : next.files = s.files)
    (held : ∀ path idx, next.Holds path idx → s.Holds path idx) :
    next.Fresh unmarshal := by
  intro path idx holds
  rw [files]
  exact fresh path idx (held path idx holds)

/-- A lookup only moves an entry of the cache. -/
theorem Fresh.lookup
    {next : IndexState}
    {path : String}
    (fresh : s.Fresh unmarshal)
    (taken : s.step unmarshal (.lookup path) = some next) :
    next.Fresh unmarshal := by
  have same := s.cache.lookup_get path
  simp only [step] at taken
  split at taken
  all_goals
    rename_i got
    rw [got] at same
    cases taken
    refine fresh.of_holds rfl fun other idx holds => ?_
    rcases holds with cached | parsed
    · exact .inl ((same other).symm.trans cached)
    · exact .inr (by simpa using parsed)

/-- An index that a call has just parsed is that of the file. -/
theorem Fresh.parse
    {next : IndexState}
    {call : Nat}
    (fresh : s.Fresh unmarshal)
    (taken : s.step unmarshal (.parse call) = some next) :
    next.Fresh unmarshal := by
  simp only [step] at taken
  split at taken
  · split at taken
    · cases taken
      exact fresh.of_holds rfl fun _ _ => Or.imp_right List.mem_of_mem_eraseIdx
    · rename_i path _ contents stored
      cases taken
      rintro other idx (cached | parsed)
      · exact fresh other idx (.inl cached)
      · rcases List.mem_or_eq_of_mem_set parsed with old | new
        · exact fresh other idx (.inr old)
        · cases new
          rw [stored]
          rfl
  · cases taken

/-- An index that is stored was with a call. -/
theorem Fresh.add
    {next : IndexState}
    {call : Nat}
    (fresh : s.Fresh unmarshal)
    (taken : s.step unmarshal (.add call) = some next) :
    next.Fresh unmarshal := by
  simp only [step] at taken
  split at taken
  · rename_i path idx found
    cases taken
    refine fresh.of_holds rfl fun other value holds => ?_
    rcases holds with cached | parsed
    · by_cases same : other = path
      · subst same
        rw [s.cache.lookup_add_self other idx] at cached
        cases cached
        exact .inr (List.mem_of_getElem? found)
      · exact .inl (IndexLRUCache.lookup_of_lookup_add same cached)
    · exact .inr (List.mem_of_mem_eraseIdx parsed)
  · cases taken

/-- Indices keep the parts of their files as long as indexed files are spared. -/
theorem Fresh.step
    {next : IndexState}
    {label : IndexStep}
    (fresh : s.Fresh unmarshal)
    (spares : s.Spares label)
    (taken : s.step unmarshal label = some next) :
    next.Fresh unmarshal := by
  cases label with
  | append path bytes =>
      cases taken
      exact fresh.update spares _
  | delete path =>
      rw [IndexState.step, Option.ite_none_right_eq_some] at taken
      cases taken.2
      exact fresh.update spares _
  | invalidate path =>
      cases taken
      exact fresh.of_holds rfl fun _ _ => Or.imp_left IndexLRUCache.lookup_of_lookup_remove
  | lookup path => exact fresh.lookup taken
  | parse call => exact fresh.parse taken
  | add call => exact fresh.add taken

theorem fresh_start (files : Files) (capacity : Int) :
    (start files capacity).Fresh unmarshal := by
  rintro path idx (cached | parsed)
  · cases cached
  · cases parsed

end IndexState

/-- From any files and an empty cache, calls return all along a run the parts that
they would return with an empty cache, if no file is written or deleted while its
index is in the cache or with a call that has parsed the file. -/
theorem file_index_current_of_spares
    (unmarshal : Unmarshal)
    (files : Files)
    (capacity : Int)
    (labels : List IndexStep)
    (spares : Meets (IndexState.step unmarshal) IndexState.Spares
      (.start files capacity) labels) :
    Always (IndexState.step unmarshal) (IndexState.Current unmarshal)
      (.start files capacity) labels := by
  have preserved : ∀ (s : IndexState) label next, s.Fresh unmarshal → s.Spares label →
      s.step unmarshal label = some next → next.Fresh unmarshal :=
    fun _ _ _ fresh spared taken => fresh.step spared taken
  exact spares.always preserved
    (fun _ fresh => IndexState.current_of_cached fun path idx cached =>
      fresh path idx (.inl cached))
    (IndexState.fresh_start files capacity)

end

/-- A header, and one fragment with empty boxes. -/
def firstPart : Bytes :=
  [0, 0, 0, 8, 102, 116, 121, 112] ++ ([0, 0, 0, 8] ++ moof) ++ ([0, 0, 0, 8] ++ mdat)

/-- Another fragment. -/
def nextPart : Bytes :=
  ([0, 0, 0, 8] ++ moof) ++ ([0, 0, 0, 8] ++ mdat)

/-- The file is complete before it is indexed, and deleted after its index; meanwhile
another file is written. -/
def completed : List IndexStep :=
  [.append "a.mp4" firstPart, .append "a.mp4" nextPart, .lookup "a.mp4", .parse 0,
    .append "b.mp4" firstPart, .add 0, .lookup "a.mp4", .invalidate "a.mp4",
    .delete "a.mp4"]

theorem file_index_current_of_spares_completed :
    (run (IndexState.step fun _ => none) (.start (fun _ => none) 2000)
        completed).isSome = true ∧
      Always (IndexState.step fun _ => none) (IndexState.Current fun _ => none)
        (.start (fun _ => none) 2000) completed := by
  refine ⟨by decide +kernel, ?_⟩
  refine file_index_current_of_spares (fun _ => none) (fun _ => none) 2000 completed ?_
  decide +kernel

/-- The file is indexed while it is written. -/
def ongoing : List IndexStep :=
  [.append "a.mp4" firstPart, .lookup "a.mp4", .parse 0, .add 0, .append "a.mp4" nextPart]

/-- The fragment that is appended after the file was indexed is not listed. -/
theorem index_misses_appended_part :
    ∃ finish,
      run (IndexState.step fun _ => none) (.start (fun _ => none) 2000) ongoing =
        some finish ∧
      (getFileIndex (fun _ => none) finish.cache finish.files "a.mp4").1 =
        .ok ⟨0, 8, [⟨8, 90000⟩]⟩ ∧
      (getFileIndex (fun _ => none) (newIndexLRUCache 2000) finish.files "a.mp4").1 =
        .ok ⟨0, 8, [⟨8, 90000⟩, ⟨24, 90000⟩]⟩ ∧
      ¬ finish.Current fun _ => none := by
  refine ⟨_, rfl, ?_, ?_, ?_⟩
  · decide +kernel
  · decide +kernel
  · intro current
    have same := current "a.mp4"
    revert same
    decide +kernel

end Archive
end RuseonCore
