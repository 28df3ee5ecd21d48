import RuseonCore.Buffer.Runs

/-!
# Preloading a new reader

`Subscribe` scans the circular history backwards for a keyframe and sends what
follows it to the new reader, while it holds the mutex of the buffer.  Both loops
are stated here on the list of all frames written so far.
-/

namespace RuseonCore
namespace Buffer

open Transition

/-- Position of the most recent keyframe among the written frames. -/
structure LastKey (written : List Frame) (idx : Nat) : Prop where
  key : ∃ f, written[idx]? = some f ∧ f.isKeyFrame = true
  last : ∀ j f, idx < j → written[j]? = some f → f.isKeyFrame = false

theorem LastKey.unique
    {written : List Frame}
    {first second : Nat}
    (isFirst : LastKey written first)
    (isSecond : LastKey written second) :
    first = second := by
  obtain ⟨f, atFirst, firstKey⟩ := isFirst.key
  obtain ⟨g, atSecond, secondKey⟩ := isSecond.key
  rcases Nat.lt_trichotomy first second with before | same | after
  · simp [isFirst.last second g before atSecond] at secondKey
  · exact same
  · simp [isSecond.last first f after atFirst] at firstKey

namespace RingBuffer

/-! ## The backward scan -/

/-- What the scan reads `i` frames back. -/
theorem load_back
    {written : List Frame}
    {rb : RingBuffer}
    (invariant : Invariant written rb)
    {i : Nat}
    (inHistory : i < written.length)
    (near : i < rb.capacity) :
    ∃ f, written[written.length - (i + 1)]? = some f ∧
      rb.frames.load (written.length - (i + 1)) =
        some { index := written.length - (i + 1), frame := f } := by
  have bound : written.length - (i + 1) < written.length := by omega
  refine ⟨written[written.length - (i + 1)], List.getElem?_eq_getElem bound, ?_⟩
  rw [invariant.retains _ (by simpa using bound)
    (by rw [length_tag]; unfold capacity at near; omega)]
  exact getElem?_tag_eq_some.mpr ⟨rfl, List.getElem?_eq_getElem bound⟩

/-- A keyframe found by the scan is the most recent one behind the start of the
scan. -/
theorem not_key_after_scan
    {written : List Frame}
    {rb : RingBuffer}
    (invariant : Invariant written rb)
    {i iterations idx : Nat}
    (within : i + iterations ≤ rb.capacity)
    (found : rb.scanIFrame i iterations = some idx)
    {j : Nat}
    {f : Frame}
    (after : idx < j)
    (scanned : j + i < written.length)
    (present : written[j]? = some f) :
    f.isKeyFrame = false := by
  induction iterations generalizing i with
  | zero => simp [scanIFrame] at found
  | succ iterations inductionHypothesis =>
      obtain ⟨g, back, stored⟩ := load_back invariant (i := i) (by omega) (by omega)
      rw [scanIFrame, invariant.head_eq, if_neg (by omega), stored] at found
      dsimp only at found
      split at found
      · rw [Option.some.injEq] at found
        omega
      · rename_i delta
        by_cases same : j = written.length - (i + 1)
        · rw [same, back, Option.some.injEq] at present
          rw [← present]
          simpa using delta
        · exact inductionHypothesis (by omega) found (by omega)

/-- Without a keyframe in its range, the scan finds none. -/
theorem not_key_of_scan_eq_none
    {written : List Frame}
    {rb : RingBuffer}
    (invariant : Invariant written rb)
    {i iterations : Nat}
    (within : i + iterations ≤ rb.capacity)
    (missing : rb.scanIFrame i iterations = none)
    {j : Nat}
    {f : Frame}
    (scanned : j + i < written.length)
    (inRange : written.length ≤ j + i + iterations)
    (present : written[j]? = some f) :
    f.isKeyFrame = false := by
  induction iterations generalizing i with
  | zero => omega
  | succ iterations inductionHypothesis =>
      obtain ⟨g, back, stored⟩ := load_back invariant (i := i) (by omega) (by omega)
      rw [scanIFrame, invariant.head_eq, if_neg (by omega), stored] at missing
      dsimp only at missing
      split at missing
      · cases missing
      · rename_i delta
        by_cases same : j = written.length - (i + 1)
        · rw [same, back, Option.some.injEq] at present
          rw [← present]
          simpa using delta
        · exact inductionHypothesis (by omega) missing (by omega) (by omega)

/-- The scan of the whole history finds the most recent keyframe. -/
theorem lastKey_of_scan
    {written : List Frame}
    {rb : RingBuffer}
    (invariant : Invariant written rb)
    {idx : Nat}
    (found : rb.scanIFrame 0 rb.capacity = some idx) :
    LastKey written idx ∧ idx < written.length ∧ written.length ≤ idx + rb.capacity := by
  obtain ⟨before, near, entry, stored, key⟩ := rb.scanIFrame_eq_some found
  rw [invariant.head_eq] at before near
  rw [invariant.retains idx (by simpa using before)
    (by rw [length_tag]; unfold capacity at near; omega)] at stored
  have present := (getElem?_tag_eq_some.mp stored).2
  refine ⟨⟨⟨entry.frame, present, key⟩, fun j f after there => ?_⟩, before, by omega⟩
  have bound := (List.getElem?_eq_some_iff.mp there).1
  exact not_key_after_scan invariant (by omega) found after (by omega) there

/-- The scan finds the most recent keyframe if it is recent enough. -/
theorem scan_of_lastKey
    {written : List Frame}
    {rb : RingBuffer}
    (invariant : Invariant written rb)
    {idx : Nat}
    (lastKey : LastKey written idx)
    (near : written.length ≤ idx + rb.capacity) :
    rb.scanIFrame 0 rb.capacity = some idx := by
  cases scanned : rb.scanIFrame 0 rb.capacity with
  | some found => rw [(lastKey_of_scan invariant scanned).1.unique lastKey]
  | none =>
      obtain ⟨f, present, key⟩ := lastKey.key
      have bound := (List.getElem?_eq_some_iff.mp present).1
      have delta := not_key_of_scan_eq_none invariant (by omega) scanned (by omega)
        (by omega) present
      simp [delta] at key

/-! ## The forward copy -/

/-- Preloading receives nothing. -/
theorem received_preload
    {frames : Ring WrittenFrame}
    {c next : Channel WrittenFrame}
    {i iterations : Nat}
    (opened : c.closed = false)
    (loaded : preload frames c i iterations = some next) :
    next.received = c.received := by
  induction iterations generalizing i c with
  | zero => rw [← Option.some.inj loaded]
  | succ iterations inductionHypothesis =>
      rw [preload] at loaded
      split at loaded
      · exact inductionHypothesis opened loaded
      · obtain ⟨sent, sends, rest⟩ := Option.bind_eq_some_iff.mp loaded
        unfold Channel.send at sends
        rw [if_neg (by simp [opened])] at sends
        split at sends
        · rw [Option.some.injEq] at sends
          subst sent
          have kept : next.received = (c.push _ _).received :=
            inductionHypothesis opened rest
          exact kept
        · cases sends

/-- What a new reader of an open buffer finds: an empty or preloaded channel, of
which nothing was received. -/
structure Preloaded (written : List Frame) (capacity : Nat) (reader : Reader) : Prop where
  size : reader.c.capacity = capacity
  opened : reader.c.closed = false
  unread : reader.c.received = 0
  drops : reader.drops = 0
  recent : ∀ idx, LastKey written idx → written.length ≤ idx + capacity →
    reader.c.sent = (tag written).drop idx ∧ reader.needsIFrame = false
  stale : (∀ idx, LastKey written idx → idx + capacity < written.length) →
    reader.c.sent = [] ∧ (reader.needsIFrame = true ↔ written ≠ [])

/-- No send of the forward copy blocks. -/
theorem freshReader_preloaded
    {written : List Frame}
    {rb : RingBuffer}
    (invariant : Invariant written rb) :
    ∃ reader, rb.freshReader = some reader ∧
      Preloaded written rb.capacity reader := by
  unfold freshReader
  cases scanned : rb.scanIFrame 0 rb.capacity with
  | some idx =>
      obtain ⟨lastKey, before, near⟩ := lastKey_of_scan invariant scanned
      obtain ⟨c, loaded, sent, size, opened⟩ :=
        preload_eq_some invariant.retains idx (rb.head - idx)
          (by rw [length_tag, invariant.head_eq]; omega)
          (by rw [length_tag]; exact near)
          (Channel.make rb.capacity) rfl
          (by
            rw [invariant.head_eq, Channel.sent_make, Channel.capacity_make, List.length_nil]
            change _ ≤ 0 + rb.capacity
            omega)
      refine ⟨{ c := c, drops := 0, needsIFrame := false }, ?_, ?_⟩
      · dsimp only
        rw [loaded, Option.map_some]
      · exact
          { size := size
            opened := opened
            unread := received_preload (c := Channel.make rb.capacity) rfl loaded
            drops := rfl
            recent := fun other isLast _ => by
              rw [isLast.unique lastKey]
              exact ⟨sent, rfl⟩
            stale := fun old => by
              have tooOld := old idx lastKey
              omega }
  | none =>
      refine ⟨_, rfl, ?_⟩
      exact
        { size := rfl
          opened := rfl
          unread := rfl
          drops := rfl
          recent := fun idx lastKey near => by
            rw [scan_of_lastKey invariant lastKey near] at scanned
            cases scanned
          stale := fun _ => by
            rw [invariant.head_eq]
            simp [List.length_pos_iff] }

end RingBuffer

/-! ## Runs -/

/-- The buffer keeps some history and has the given capacity. -/
def Sized (size : Nat) (rb : RingBuffer) : Prop :=
  (∃ history, Invariant history rb) ∧ rb.capacity = size

/-- No step changes the capacity. -/
theorem sized_step
    (size : Nat)
    (rb : RingBuffer)
    (action : Action)
    (next : RingBuffer)
    (sized : Sized size rb)
    (taken : step rb action = some next) :
    Sized size next := by
  obtain ⟨⟨history, invariant⟩, same⟩ := sized
  refine ⟨invariant_step rb action next ⟨history, invariant⟩ taken, ?_⟩
  rw [← same]
  cases effect_of_step invariant taken with
  | write f opened =>
      rw [RingBuffer.capacity, (RingBuffer.write_frame opened invariant.distinct f).1]
      rfl
  | register reader _ _ _ => rfl
  | subscribeClosed _ reader closed _ _ _ =>
      rw [step, RingBuffer.subscribe_eq_of_closed closed, Option.some.injEq] at taken
      rw [← taken]
      rfl
  | quiet _ _ quiet _ => rw [RingBuffer.capacity, quiet.frames, RingBuffer.capacity]

theorem capacity_of_run
    {capacity : Int}
    {actions : List Action}
    {rb : RingBuffer}
    (reached : run step (newRingBuffer capacity) actions = some rb) :
    rb.capacity = (newRingBuffer capacity).capacity := by
  have initial : Sized (newRingBuffer capacity).capacity (newRingBuffer capacity) :=
    ⟨⟨[], Invariant.newRingBuffer capacity⟩, rfl⟩
  exact (run_invariant (sized_step _) initial reached).2

/-- In every run, a reader that subscribes to an open buffer is preloaded with
the written frames from the most recent keyframe on, if that is among the last
`capacity` frames.  Otherwise it gets nothing, and waits for a keyframe if
anything was written.  No send blocks. -/
theorem subscribe_preloads
    (capacity : Int)
    (actions : List Action)
    {rb : RingBuffer}
    (reached : run step (newRingBuffer capacity) actions = some rb)
    (opened : rb.closed = false) :
    ∃ reader, rb.subscribe = some (rb.register reader) ∧
      RingBuffer.Preloaded (accepted actions) (newRingBuffer capacity).capacity reader := by
  obtain ⟨reader, fresh, preloaded⟩ :=
    RingBuffer.freshReader_preloaded (recorded_of_run reached).invariant
  rw [capacity_of_run reached] at preloaded
  refine ⟨reader, ?_, preloaded⟩
  rw [RingBuffer.subscribe_eq_of_open opened, fresh, Option.map_some]

/-- A buffer of three frames that has wrapped around. -/
def wrapped : List Action :=
  let key : Frame := { timestamp := 0, isKeyFrame := true, nalus := [] }
  let delta : Frame := { timestamp := 0, isKeyFrame := false, nalus := [] }
  [.write key, .write delta, .write key, .write delta, .write delta]

theorem subscribe_preloads_wrapped :
    ∃ rb reader, run step (newRingBuffer 3) wrapped = some rb ∧
      rb.subscribe = some (rb.register reader) ∧
      reader.c.sent = (tag (accepted wrapped)).drop 2 ∧
      reader.needsIFrame = false := by
  obtain ⟨rb, reached⟩ : ∃ rb, run step (newRingBuffer 3) wrapped = some rb :=
    ⟨_, rfl⟩
  have opened : rb.closed = false := by
    rw [← Option.some.inj reached]
    decide
  obtain ⟨reader, subscribed, preloaded⟩ := subscribe_preloads 3 wrapped reached opened
  refine ⟨rb, reader, reached, subscribed, preloaded.recent 2 ?_ (by decide)⟩
  refine ⟨⟨_, rfl, rfl⟩, fun j f after present => ?_⟩
  have bound : j < 5 := (List.getElem?_eq_some_iff.mp present).1
  obtain rfl | rfl : j = 3 ∨ j = 4 := by omega
  · rw [← Option.some.inj present]
  · rw [← Option.some.inj present]

end Buffer
end RuseonCore
