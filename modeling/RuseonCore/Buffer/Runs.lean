import RuseonCore.Buffer.Delivery

/-!
# Runs of the ring buffer

Whole runs of `Write`, `SetParams`, `Subscribe`, `Reader.Close`, channel
receives and `Close`, in any order.  One inversion lemma says what a step can
do; the delivery order and the cold-start rule follow from it by induction over
the run.
-/

namespace RuseonCore
namespace Buffer

open Transition

/-- What a step from a state that satisfies the invariant can do. -/
inductive Effect (history : List Frame) (rb : RingBuffer) :
    Action → RingBuffer → Prop
  | write (f : Frame) (opened : rb.closed = false) :
      Effect history rb (.write f) (rb.write f)
  | register (reader : Reader)
      (opened : rb.closed = false)
      (fresh : ReaderInvariant history rb.capacity True reader)
      (first : FirstIsKey reader) :
      Effect history rb .subscribe (rb.register reader)
  | subscribeClosed (next : RingBuffer) (reader : Reader)
      (closed : rb.closed = true)
      (invariant : Invariant history next)
      (created : next.readers = rb.readers ++ [reader])
      (unsent : reader.c.sent = []) :
      Effect history rb .subscribe next
  | quiet (action : Action) (next : RingBuffer)
      (quiet : Quiet rb next)
      (notAccepted : ∀ f, action = .write f → rb.closed = true) :
      Effect history rb action next

/-- Every enabled step has one of the listed effects. -/
theorem effect_of_step
    {history : List Frame}
    {rb next : RingBuffer}
    {action : Action}
    (invariant : Invariant history rb)
    (taken : step rb action = some next) :
    Effect history rb action next := by
  cases action with
  | write f =>
      simp only [step, Option.some.injEq] at taken
      subst next
      cases closed : rb.closed with
      | false => exact .write f closed
      | true =>
          have ignored : rb.write f = rb := by simp [RingBuffer.write, closed]
          rw [ignored]
          exact .quiet _ _ invariant.quiet_refl fun _ _ => closed
  | setParams vps sps pps =>
      simp only [step, Option.some.injEq] at taken
      subst next
      exact .quiet _ _ (invariant.quiet_setParams vps sps pps) (by simp)
  | subscribe =>
      cases closed : rb.closed with
      | false =>
          obtain ⟨reader, registered, fresh, first⟩ :=
            invariant.subscribe_of_open closed
          rw [step, registered, Option.some.injEq] at taken
          subst next
          exact .register reader closed fresh first
      | true =>
          obtain ⟨nextInvariant, reader, created, unsent⟩ :=
            invariant.subscribe_of_closed closed taken
          exact .subscribeClosed next reader closed nextInvariant created unsent
  | closeReader r =>
      simp only [step, Option.ite_none_right_eq_some, Option.some.injEq] at taken
      rw [← taken.2]
      exact .quiet _ _ (invariant.quiet_closeReader r) (by simp)
  | receive r => exact .quiet _ _ (invariant.quiet_receive taken) (by simp)
  | close =>
      simp only [step, Option.some.injEq] at taken
      subst next
      exact .quiet _ _ invariant.quiet_close (by simp)

/-- A step keeps the invariant of the buffer for some history. -/
theorem invariant_step
    (rb : RingBuffer)
    (action : Action)
    (next : RingBuffer)
    (before : ∃ history, Invariant history rb)
    (taken : step rb action = some next) :
    ∃ history, Invariant history next := by
  obtain ⟨history, invariant⟩ := before
  cases effect_of_step invariant taken with
  | write f opened => exact ⟨_, invariant.write opened f⟩
  | register reader opened fresh _ => exact ⟨_, invariant.register opened fresh⟩
  | subscribeClosed _ _ _ nextInvariant _ _ => exact ⟨_, nextInvariant⟩
  | quiet _ _ quiet _ => exact ⟨_, quiet.invariant invariant⟩

/-- A buffer is closed by `close` only, and never reopened. -/
theorem closed_step
    {rb next : RingBuffer}
    {action : Action}
    (taken : step rb action = some next) :
    next.closed = true ↔ rb.closed = true ∨ action = .close := by
  cases action with
  | write f =>
      simp only [step, Option.some.injEq] at taken
      subst next
      simp [RingBuffer.closed_write]
  | setParams vps sps pps =>
      simp only [step, Option.some.injEq] at taken
      subst next
      simp [RingBuffer.setParams]
  | subscribe => simp [RingBuffer.closed_subscribe taken]
  | closeReader r =>
      simp only [step, Option.ite_none_right_eq_some, Option.some.injEq] at taken
      rw [← taken.2, RingBuffer.closeReader]
      split <;> simp
  | receive r =>
      obtain ⟨reader, _, received⟩ := Option.bind_eq_some_iff.mp taken
      obtain ⟨drained, _, rfl⟩ := Option.map_eq_some_iff.mp received
      simp
  | close =>
      simp only [step, Option.some.injEq] at taken
      subst next
      simp [RingBuffer.closed_close]

/-! ## Delivery order -/

/-- State of the buffer after the given actions. -/
structure Recorded (actions : List Action) (rb : RingBuffer) : Prop where
  invariant : Invariant (accepted actions) rb
  closed_iff : rb.closed = true ↔ Action.close ∈ actions

/-- A step that is not an accepted write leaves the accepted frames as they
are. -/
theorem accepted_concat_of_not_accepted
    {actions : List Action}
    {action : Action}
    (notAccepted : ∀ f, action = .write f → Action.close ∈ actions) :
    accepted (actions ++ [action]) = accepted actions := by
  by_cases closed : Action.close ∈ actions
  · exact accepted_append_of_mem closed _
  · rw [accepted_append_of_not_mem closed]
    cases action with
    | write f => exact absurd (notAccepted f rfl) closed
    | setParams => simp [accepted]
    | subscribe => simp [accepted]
    | closeReader => simp [accepted]
    | receive => simp [accepted]
    | close => simp [accepted]

/-- One step extends the record by its action. -/
theorem Recorded.step
    {actions : List Action}
    {rb next : RingBuffer}
    {action : Action}
    (recorded : Recorded actions rb)
    (taken : step rb action = some next) :
    Recorded (actions ++ [action]) next where
  invariant := by
    have invariant := recorded.invariant
    cases effect_of_step invariant taken with
    | write f opened =>
        have notClosed : Action.close ∉ actions := by
          rw [← recorded.closed_iff]
          simp [opened]
        rw [accepted_append_of_not_mem notClosed]
        exact invariant.write opened f
    | register reader opened fresh _ =>
        rw [accepted_concat_of_not_accepted (by simp)]
        exact invariant.register opened fresh
    | subscribeClosed _ _ _ nextInvariant _ _ =>
        rw [accepted_concat_of_not_accepted (by simp)]
        exact nextInvariant
    | quiet _ _ quiet notAccepted =>
        rw [accepted_concat_of_not_accepted fun f isWrite =>
          recorded.closed_iff.mp (notAccepted f isWrite)]
        exact quiet.invariant invariant
  closed_iff := by
    rw [closed_step taken, recorded.closed_iff, List.mem_append,
      List.mem_singleton]
    exact or_congr_right eq_comm

/-- Every run of a new buffer is recorded by its actions. -/
theorem recorded_of_run
    {capacity : Int}
    {actions : List Action}
    {rb : RingBuffer}
    (reached : run step (newRingBuffer capacity) actions = some rb) :
    Recorded actions rb := by
  have initial : Recorded [] (newRingBuffer capacity) :=
    ⟨Invariant.newRingBuffer capacity, by simp [newRingBuffer]⟩
  exact run_invariant_history
    (fun _ _ _ _ recorded taken => recorded.step taken) initial reached

/-- Index order is transitive, so a chain of deliveries is sorted. -/
theorem indices_increasing
    {sent : List WrittenFrame}
    (chained : sent.IsChain Follows) :
    (sent.map WrittenFrame.index).Pairwise (· < ·) := by
  rw [List.pairwise_map]
  have increasing : sent.IsChain fun earlier later =>
      earlier.index < later.index :=
    chained.imp fun _ _ follows => follows.1
  exact List.isChain_iff_pairwise.mp increasing

/-- In every run, the frames put into a reader's channel are accepted frames in
strictly increasing write order, and only a keyframe follows a gap. -/
theorem delivered_in_order
    (capacity : Int)
    (actions : List Action)
    {rb : RingBuffer}
    (reached : run step (newRingBuffer capacity) actions = some rb)
    (reader : Reader)
    (created : reader ∈ rb.readers) :
    (∀ entry ∈ reader.c.sent,
      (accepted actions)[entry.index]? = some entry.frame) ∧
    (reader.c.sent.map WrittenFrame.index).Pairwise (· < ·) ∧
    ∀ earlier later, [earlier, later] <:+: reader.c.sent →
      later.index ≠ earlier.index + 1 →
      later.frame.isKeyFrame = true := by
  obtain ⟨r, present⟩ := List.mem_iff_getElem?.mp created
  have invariant :=
    (recorded_of_run reached).invariant.readers r reader present
  refine ⟨fun entry delivered => ?_, indices_increasing invariant.chained, ?_⟩
  · exact (getElem?_tag_eq_some.mp (invariant.genuine entry delivered)).2
  · intro earlier later consecutive gap
    have pair : [earlier, later].IsChain Follows :=
      invariant.chained.infix consecutive
    exact (List.isChain_pair.mp pair).2 gap

/-- Two writes, a subscription, and a reader of a two-slot buffer that
overflows and resumes on the next keyframe. -/
def overflow : List Action :=
  let key : Frame := { timestamp := 0, isKeyFrame := true, nalus := [] }
  let delta : Frame := { timestamp := 0, isKeyFrame := false, nalus := [] }
  [.write key, .write delta, .subscribe, .write delta, .receive 0,
    .write delta, .write key]

theorem delivered_in_order_overflow :
    ∃ rb, run step (newRingBuffer 2) overflow = some rb ∧
      (rb.readers.map fun reader => reader.c.sent.map WrittenFrame.index) =
        [[0, 1, 4]] ∧
      ∀ reader ∈ rb.readers, ∀ earlier later,
        [earlier, later] <:+: reader.c.sent →
        later.index ≠ earlier.index + 1 →
        later.frame.isKeyFrame = true := by
  have delivered : (run step (newRingBuffer 2) overflow).map
      (fun rb => rb.readers.map fun reader =>
        reader.c.sent.map WrittenFrame.index) = some [[0, 1, 4]] := by
    decide
  obtain ⟨rb, reached, indices⟩ := Option.map_eq_some_iff.mp delivered
  refine ⟨rb, reached, indices, fun reader created => ?_⟩
  exact (delivered_in_order 2 overflow reached reader created).2.2

/-! ## Cold start -/

/-- The step does not write a delta frame as the very first frame of a buffer
that already has subscribers. -/
def KeyBeforeDelta (rb : RingBuffer) : Action → Prop
  | .write f => rb.closed = false → rb.head = 0 → rb.subsSlice ≠ [] →
      f.isKeyFrame = true
  | _ => True

/-- Every reader's first frame is a keyframe. -/
def ColdStart (rb : RingBuffer) : Prop :=
  ∀ reader ∈ rb.readers, FirstIsKey reader

/-- Offering a frame to a registered reader keeps its cold start, unless the
frame is a delta frame and the first one ever written. -/
theorem firstIsKey_offer
    {history : List Frame}
    {reader : Reader}
    (invariant : ReaderInvariant history capacity subscribed reader)
    (registered : subscribed)
    (positive : 0 < capacity)
    (f : Frame) :
    FirstIsKey (reader.offer { index := history.length, frame := f }).1 ↔
      FirstIsKey reader ∧ (history = [] → f.isKeyFrame = true) := by
  have nonempty_of_sent : reader.c.sent ≠ [] → history ≠ [] := by
    intro sent empty
    obtain ⟨entry, delivered⟩ := List.exists_mem_of_ne_nil _ sent
    have found := invariant.genuine entry delivered
    simp [empty, tag] at found
  unfold Reader.offer
  split
  · rename_i skipped
    simp only [Bool.and_eq_true] at skipped
    simp [invariant.waits skipped.1]
  · rename_i notSkipped
    rcases reader.c.trySend_cases { index := history.length, frame := f }
        (invariant.opened registered) with ⟨room, outcome⟩ | ⟨full, outcome⟩
    · rw [outcome]
      by_cases unsent : reader.c.sent = []
      · simp only [FirstIsKey, Channel.sent_push, unsent, List.nil_append,
          List.head?_cons, List.head?_nil, Option.mem_def, Option.some.injEq,
          forall_eq', reduceCtorEq, false_implies, implies_true, true_and]
        refine ⟨fun key _ => key, fun early => ?_⟩
        cases waiting : reader.needsIFrame with
        | true => simpa [waiting] using notSkipped
        | false =>
            have newest := invariant.current registered waiting
            rw [unsent] at newest
            exact early (by simpa [tag] using newest.symm)
      · obtain ⟨first, rest, delivered⟩ := List.exists_cons_of_ne_nil unsent
        simp [FirstIsKey, delivered, nonempty_of_sent unsent]
    · have sent : reader.c.sent ≠ [] := fun unsent =>
        reader.c.not_full_of_sent_eq_nil
          (by rw [invariant.capacity_eq]; exact positive) unsent full
      rw [outcome]
      simp [FirstIsKey, nonempty_of_sent sent]

/-- Effect of an accepted write on the cold start of all readers. -/
theorem coldStart_write
    {history : List Frame}
    {rb : RingBuffer}
    (invariant : Invariant history rb)
    (opened : rb.closed = false)
    (f : Frame) :
    ColdStart (rb.write f) ↔
      ColdStart rb ∧ KeyBeforeDelta rb (.write f) := by
  have positive : 0 < rb.capacity := rb.frames.capacity_pos
  have empty_iff : history = [] ↔ rb.head = 0 := by
    rw [invariant.head_eq, List.length_eq_zero_iff]
  constructor
  · intro after
    refine ⟨fun reader created => ?_, fun _ unwritten subscribed => ?_⟩
    · obtain ⟨r, present⟩ := List.mem_iff_getElem?.mp created
      have written := invariant.readers_write opened f r
      rw [present] at written
      by_cases member : r ∈ rb.subsSlice
      · rw [if_pos member, Option.map_some] at written
        exact ((firstIsKey_offer (invariant.readers r reader present) member
          positive f).mp (after _ (List.mem_of_getElem? written))).1
      · rw [if_neg member] at written
        exact after reader (List.mem_of_getElem? written)
    · obtain ⟨r, member⟩ := List.exists_mem_of_ne_nil _ subscribed
      obtain ⟨reader, present⟩ := invariant.registered r member
      have written := invariant.readers_write opened f r
      rw [if_pos member, present, Option.map_some] at written
      exact ((firstIsKey_offer (invariant.readers r reader present) member
        positive f).mp (after _ (List.mem_of_getElem? written))).2
          (empty_iff.mpr unwritten)
  · rintro ⟨before, met⟩ reader created
    obtain ⟨r, present⟩ := List.mem_iff_getElem?.mp created
    rw [invariant.readers_write opened f r] at present
    by_cases member : r ∈ rb.subsSlice
    · rw [if_pos member] at present
      obtain ⟨old, presentBefore, rfl⟩ := Option.map_eq_some_iff.mp present
      refine (firstIsKey_offer (invariant.readers r old presentBefore) member
        positive f).mpr ⟨before old (List.mem_of_getElem? presentBefore), ?_⟩
      intro empty
      exact met opened (empty_iff.mp empty) (List.ne_nil_of_mem member)
    · rw [if_neg member] at present
      exact before reader (List.mem_of_getElem? present)

/-- Quiet steps change the first frame of no reader. -/
theorem Quiet.coldStart_iff
    {rb next : RingBuffer}
    (quiet : Quiet rb next) :
    ColdStart next ↔ ColdStart rb := by
  constructor
  · intro after reader created
    obtain ⟨r, present⟩ := List.mem_iff_getElem?.mp created
    obtain ⟨later, presentAfter⟩ := quiet.reader_after present
    have same := (quiet.readers r reader later present presentAfter).1
    rw [FirstIsKey, ← same]
    exact after later (List.mem_of_getElem? presentAfter)
  · intro before reader created
    obtain ⟨r, present⟩ := List.mem_iff_getElem?.mp created
    obtain ⟨old, presentBefore⟩ := quiet.reader_before present
    have same := (quiet.readers r old reader presentBefore present).1
    rw [FirstIsKey, same]
    exact before old (List.mem_of_getElem? presentBefore)

/-- A new reader joins the others without affecting them. -/
theorem coldStart_concat
    {rb next : RingBuffer}
    {reader : Reader}
    (created : next.readers = rb.readers ++ [reader])
    (first : FirstIsKey reader) :
    ColdStart next ↔ ColdStart rb := by
  rw [ColdStart, created, List.forall_mem_append, List.forall_mem_singleton]
  exact and_iff_left first

/-- A step keeps the cold start of all readers exactly if it meets the
condition. -/
theorem coldStart_step
    {history : List Frame}
    {rb next : RingBuffer}
    {action : Action}
    (invariant : Invariant history rb)
    (taken : step rb action = some next) :
    ColdStart next ↔ ColdStart rb ∧ KeyBeforeDelta rb action := by
  cases effect_of_step invariant taken with
  | write f opened => exact coldStart_write invariant opened f
  | register reader opened _ first =>
      have created : (rb.register reader).readers = rb.readers ++ [reader] := rfl
      simp [coldStart_concat created first, KeyBeforeDelta]
  | subscribeClosed _ reader _ _ created unsent =>
      have first : FirstIsKey reader := by simp [FirstIsKey, unsent]
      simp [coldStart_concat created first, KeyBeforeDelta]
  | quiet _ _ quiet notAccepted =>
      rw [quiet.coldStart_iff]
      refine ⟨fun before => ⟨before, ?_⟩, And.left⟩
      cases action with
      | write f => simp [KeyBeforeDelta, notAccepted f rfl]
      | setParams => trivial
      | subscribe => trivial
      | closeReader => trivial
      | receive => trivial
      | close => trivial

/-- In a run of a new buffer the first frame delivered to every reader is a
keyframe exactly if no step writes a delta frame as the first frame of a buffer
that already has subscribers. -/
theorem first_delivered_isKeyFrame_iff
    (capacity : Int)
    (actions : List Action)
    {rb : RingBuffer}
    (reached : run step (newRingBuffer capacity) actions = some rb) :
    (∀ reader ∈ rb.readers, ∀ first ∈ reader.c.sent.head?,
      first.frame.isKeyFrame = true) ↔
    Meets step KeyBeforeDelta (newRingBuffer capacity) actions := by
  have initial : ColdStart (newRingBuffer capacity) := by
    simp [ColdStart, newRingBuffer]
  have recordedStep : ∀ state action next,
      (∃ actions, Recorded actions state) → step state action = some next →
      ∃ actions, Recorded actions next := by
    intro state action next recorded taken
    obtain ⟨before, recordedBefore⟩ := recorded
    exact ⟨before ++ [action], recordedBefore.step taken⟩
  have exactStep : ∀ state action next,
      (∃ actions, Recorded actions state) → step state action = some next →
      (ColdStart next ↔ ColdStart state ∧ KeyBeforeDelta state action) := by
    intro state action next recorded taken
    obtain ⟨before, recordedBefore⟩ := recorded
    exact coldStart_step recordedBefore.invariant taken
  rw [← and_iff_right (b := Meets _ _ _ _) initial]
  exact holds_iff_meets recordedStep exactStep
    ⟨[], recorded_of_run (run_nil _)⟩ reached

/-- A reader that joins before the keyframe arrives. -/
theorem first_delivered_isKeyFrame_iff_early :
    let key : Frame := { timestamp := 0, isKeyFrame := true, nalus := [] }
    ∃ rb, run step (newRingBuffer 2) [.subscribe, .write key] = some rb ∧
      ∀ reader ∈ rb.readers, ∀ first ∈ reader.c.sent.head?,
        first.frame.isKeyFrame = true := by
  intro key
  have enabled :
      (run step (newRingBuffer 2) [.subscribe, .write key]).isSome := by
    decide
  obtain ⟨rb, reached⟩ := Option.isSome_iff_exists.mp enabled
  refine ⟨rb, reached, ?_⟩
  apply (first_delivered_isKeyFrame_iff 2 _ reached).mpr
  simp [Meets, KeyBeforeDelta, key]

/-- A reader that subscribes to an empty buffer is sent the delta frame that is
written first. -/
theorem first_delivered_delta :
    let delta : Frame := { timestamp := 0, isKeyFrame := false, nalus := [] }
    ∃ rb, run step (newRingBuffer 2) [.subscribe, .write delta] = some rb ∧
      ∃ reader ∈ rb.readers, ∃ first ∈ reader.c.sent.head?,
        first.frame.isKeyFrame = false := by
  intro delta
  have delivered : (run step (newRingBuffer 2) [.subscribe, .write delta]).map
      (fun rb => rb.readers.map fun reader => reader.c.sent) =
        some [[{ index := 0, frame := delta }]] := by
    decide
  obtain ⟨rb, reached, sent⟩ := Option.map_eq_some_iff.mp delivered
  obtain ⟨reader, only, sentOnly⟩ := List.map_eq_singleton_iff.mp sent
  refine ⟨rb, reached, reader, by simp [only], { index := 0, frame := delta }, ?_, rfl⟩
  simp [sentOnly]

end Buffer
end RuseonCore
