import RuseonCore.Buffer.Runs

/-!
# Slow consumers do not disturb each other

A reader shares the subscriber slice with all others: `Write` walks it,
`Subscribe` extends it and `Close` of a reader compacts it.  The buffer as one
reader sees it is a buffer that has this reader only; the module shows that a
run of the shared buffer is, for the reader, a run of its private one over the
writes, the closing of the buffer and the reader's own actions.  Two runs that
agree on these leave the reader in the same state.
-/

namespace RuseonCore
namespace Buffer

open Transition

/-- What reader number `a` sees of a step.  It calls itself number 0, and the
subscription that creates it is the one made when `a` readers exist. -/
def view (a : Nat) (rb : RingBuffer) : Action → List Action
  | .write f => [.write f]
  | .setParams _ _ _ => []
  | .subscribe => if rb.readers.length = a then [.subscribe] else []
  | .closeReader r => if r = a then [.closeReader 0] else []
  | .receive r => if r = a then [.receive 0] else []
  | .close => [.close]

/-- The private buffer of reader number `a`: same history, no other reader. -/
structure Isolates (a : Nat) (rb alone : RingBuffer) : Prop where
  frames : alone.frames = rb.frames
  head : alone.head = rb.head
  closed : alone.closed = rb.closed
  reader : alone.readers[0]? = rb.readers[a]?
  single : alone.readers[1]? = none
  member : 0 ∈ alone.subsSlice ↔ a ∈ rb.subsSlice

namespace Isolates

section

variable {a : Nat}
variable {rb alone : RingBuffer}
variable {history privateHistory : List Frame}

/-- A fresh reader depends on the history only. -/
theorem freshReader_eq
    (isolates : Isolates a rb alone) :
    alone.freshReader = rb.freshReader := by
  have capacity : alone.capacity = rb.capacity := by
    rw [RingBuffer.capacity, RingBuffer.capacity, isolates.frames]
  have scan : ∀ iterations i,
      alone.scanIFrame i iterations = rb.scanIFrame i iterations := by
    intro iterations
    induction iterations with
    | zero => intro i; rfl
    | succ iterations inductionHypothesis =>
        intro i
        simp only [RingBuffer.scanIFrame, isolates.head, isolates.frames,
          inductionHypothesis]
  unfold RingBuffer.freshReader
  rw [scan, capacity, isolates.frames, isolates.head]

/-- Before its reader is created, the private buffer has none. -/
theorem readers_eq_nil
    (isolates : Isolates a rb alone)
    (uncreated : rb.readers.length ≤ a) :
    alone.readers = [] := by
  have absent := isolates.reader
  rw [List.getElem?_eq_none uncreated] at absent
  exact List.length_eq_zero_iff.mp
    (Nat.le_zero.mp (List.getElem?_eq_none_iff.mp absent))

/-- A step of the shared buffer that leaves the history and the reader alone is
not seen by the reader. -/
theorem unseen
    {next : RingBuffer}
    (isolates : Isolates a rb alone)
    (frames : next.frames = rb.frames)
    (head : next.head = rb.head)
    (closed : next.closed = rb.closed)
    (reader : next.readers[a]? = rb.readers[a]?)
    (member : a ∈ next.subsSlice ↔ a ∈ rb.subsSlice) :
    Isolates a next alone where
  frames := isolates.frames.trans frames.symm
  head := isolates.head.trans head.symm
  closed := isolates.closed.trans closed.symm
  reader := isolates.reader.trans reader.symm
  single := isolates.single
  member := isolates.member.trans member.symm

/-- A write reaches the reader in both buffers or in neither. -/
theorem write
    (isolates : Isolates a rb alone)
    (invariant : Invariant history rb)
    (ownInvariant : Invariant privateHistory alone)
    (f : Frame) :
    Isolates a (rb.write f) (alone.write f) := by
  cases closed : rb.closed with
  | true =>
      have aloneClosed := isolates.closed.trans closed
      rw [RingBuffer.write, if_pos closed, RingBuffer.write, if_pos aloneClosed]
      exact isolates
  | false =>
      have aloneOpened := isolates.closed.trans closed
      obtain ⟨frames, head, _, slice, readers⟩ :=
        RingBuffer.write_frame closed invariant.distinct f
      obtain ⟨aloneFrames, aloneHead, _, aloneSlice, aloneReaders⟩ :=
        RingBuffer.write_frame aloneOpened ownInvariant.distinct f
      refine
        { frames := ?_
          head := ?_
          closed := by simp [isolates.closed]
          reader := ?_
          single := ?_
          member := ?_ }
      · rw [frames, aloneFrames, isolates.frames, isolates.head]
      · rw [head, aloneHead, isolates.head]
      · rw [readers, aloneReaders, isolates.reader, isolates.head]
        simp only [isolates.member]
      · rw [aloneReaders, isolates.single]
        simp
      · rw [slice, aloneSlice]
        exact isolates.member

/-- The reader's own subscription makes the same reader in both buffers. -/
theorem subscribe_self
    {next : RingBuffer}
    (isolates : Isolates a rb alone)
    (invariant : Invariant history rb)
    (ownInvariant : Invariant privateHistory alone)
    (turn : rb.readers.length = a)
    (subscribed : rb.subscribe = some next) :
    ∃ aloneNext, alone.subscribe = some aloneNext ∧
      Isolates a next aloneNext := by
  have empty := isolates.readers_eq_nil (Nat.le_of_eq turn)
  have capacity : alone.capacity = rb.capacity := by
    rw [RingBuffer.capacity, RingBuffer.capacity, isolates.frames]
  cases closed : rb.closed with
  | true =>
      have aloneClosed := isolates.closed.trans closed
      rw [RingBuffer.subscribe_eq_of_closed closed, Option.some.injEq]
        at subscribed
      refine ⟨_, RingBuffer.subscribe_eq_of_closed aloneClosed, ?_⟩
      subst next
      exact
        { frames := isolates.frames
          head := isolates.head
          closed := isolates.closed
          reader := by simp [empty, ← turn, capacity]
          single := by simp [empty]
          member := by
            simp [invariant.closed_subs closed, ownInvariant.closed_subs aloneClosed] }
  | false =>
      have aloneOpened := isolates.closed.trans closed
      rw [RingBuffer.subscribe_eq_of_open closed] at subscribed
      obtain ⟨reader, fresh, rfl⟩ := Option.map_eq_some_iff.mp subscribed
      refine ⟨alone.register reader, ?_, ?_⟩
      · rw [RingBuffer.subscribe_eq_of_open aloneOpened, isolates.freshReader_eq,
          fresh, Option.map_some]
      · exact
          { frames := isolates.frames
            head := isolates.head
            closed := isolates.closed
            reader := by simp [RingBuffer.register, empty, ← turn]
            single := by simp [RingBuffer.register, empty]
            member := by simp [RingBuffer.register, empty, ← turn] }

/-- Another reader's subscription is not seen. -/
theorem subscribe_other
    {next : RingBuffer}
    (isolates : Isolates a rb alone)
    (turn : rb.readers.length ≠ a)
    (subscribed : rb.subscribe = some next) :
    Isolates a next alone := by
  have reader_concat : ∀ reader : Reader,
      (rb.readers ++ [reader])[a]? = rb.readers[a]? := by
    intro reader
    rcases Nat.lt_or_ge a rb.readers.length with created | uncreated
    · exact List.getElem?_append_left created
    · rw [List.getElem?_eq_none (by simp; omega), List.getElem?_eq_none uncreated]
  cases closed : rb.closed with
  | true =>
      rw [RingBuffer.subscribe_eq_of_closed closed, Option.some.injEq]
        at subscribed
      subst next
      exact isolates.unseen rfl rfl rfl (reader_concat _) Iff.rfl
  | false =>
      rw [RingBuffer.subscribe_eq_of_open closed] at subscribed
      obtain ⟨reader, _, rfl⟩ := Option.map_eq_some_iff.mp subscribed
      refine isolates.unseen rfl rfl rfl (reader_concat _) ?_
      simp [RingBuffer.register, Ne.symm turn]

/-- The reader's own `Close` unregisters it in both buffers. -/
theorem closeReader_self
    (isolates : Isolates a rb alone)
    (invariant : Invariant history rb)
    (ownInvariant : Invariant privateHistory alone) :
    Isolates a (rb.closeReader a) (alone.closeReader 0) := by
  by_cases registered : a ∈ rb.subsSlice
  · have inSubs : a ∈ rb.subs := by simpa [invariant.subs_eq] using registered
    have aloneInSubs : 0 ∈ alone.subs := by
      simpa [ownInvariant.subs_eq] using isolates.member.mpr registered
    rw [RingBuffer.closeReader, if_pos inSubs, RingBuffer.closeReader,
      if_pos aloneInSubs]
    exact
      { frames := isolates.frames
        head := isolates.head
        closed := isolates.closed
        reader := isolates.reader
        single := isolates.single
        member := by
          simp [invariant.distinct.mem_erase_iff, ownInvariant.distinct.mem_erase_iff] }
  · have notInSubs : a ∉ rb.subs := by simpa [invariant.subs_eq] using registered
    have aloneNotInSubs : 0 ∉ alone.subs := by
      simpa [ownInvariant.subs_eq] using mt isolates.member.mp registered
    rw [RingBuffer.closeReader, if_neg notInSubs, RingBuffer.closeReader,
      if_neg aloneNotInSubs]
    exact isolates

/-- Another reader's `Close` compacts the slice around the reader. -/
theorem closeReader_other
    (isolates : Isolates a rb alone)
    {r : Nat}
    (other : r ≠ a) :
    Isolates a (rb.closeReader r) alone := by
  unfold RingBuffer.closeReader
  split
  · exact isolates.unseen rfl rfl rfl rfl (List.mem_erase_of_ne (Ne.symm other))
  · exact isolates

/-- The reader's own receive takes the same item in both buffers. -/
theorem receive_self
    {next : RingBuffer}
    (isolates : Isolates a rb alone)
    (received : rb.receive a = some next) :
    ∃ aloneNext, alone.receive 0 = some aloneNext ∧
      Isolates a next aloneNext := by
  obtain ⟨reader, present, taken⟩ := Option.bind_eq_some_iff.mp received
  obtain ⟨⟨item, c⟩, drained, rfl⟩ := Option.map_eq_some_iff.mp taken
  have alonePresent := isolates.reader.trans present
  have bound := (List.getElem?_eq_some_iff.mp present).1
  have aloneBound := (List.getElem?_eq_some_iff.mp alonePresent).1
  refine ⟨_, by rw [RingBuffer.receive, alonePresent, Option.bind_some, drained,
    Option.map_some], ?_⟩
  exact
    { frames := isolates.frames
      head := isolates.head
      closed := isolates.closed
      reader := by
        rw [List.getElem?_set_self bound, List.getElem?_set_self aloneBound]
      single := by
        rw [List.getElem?_set_ne Nat.zero_ne_one]
        exact isolates.single
      member := isolates.member }

/-- Another reader's receive is not seen. -/
theorem receive_other
    {next : RingBuffer}
    (isolates : Isolates a rb alone)
    {r : Nat}
    (other : r ≠ a)
    (received : rb.receive r = some next) :
    Isolates a next alone := by
  obtain ⟨reader, _, taken⟩ := Option.bind_eq_some_iff.mp received
  obtain ⟨⟨item, c⟩, _, rfl⟩ := Option.map_eq_some_iff.mp taken
  exact isolates.unseen rfl rfl rfl (List.getElem?_set_ne other) Iff.rfl

/-- Closing the buffer closes the reader's channel in both or in neither. -/
theorem close
    (isolates : Isolates a rb alone)
    (invariant : Invariant history rb)
    (ownInvariant : Invariant privateHistory alone) :
    Isolates a rb.close alone.close := by
  cases closed : rb.closed with
  | true =>
      have aloneClosed := isolates.closed.trans closed
      rw [RingBuffer.close, if_pos closed, RingBuffer.close, if_pos aloneClosed]
      exact isolates
  | false =>
      have aloneOpened := isolates.closed.trans closed
      obtain ⟨frames, head, nowClosed, _, readers⟩ :=
        RingBuffer.foldl_closeChannel_frame rb.subsSlice invariant.distinct
          { rb with closed := true }
      obtain ⟨aloneFrames, aloneHead, aloneNowClosed, _, aloneReaders⟩ :=
        RingBuffer.foldl_closeChannel_frame alone.subsSlice ownInvariant.distinct
          { alone with closed := true }
      rw [RingBuffer.close, if_neg (Bool.eq_false_iff.mp closed),
        RingBuffer.close, if_neg (Bool.eq_false_iff.mp aloneOpened)]
      exact
        { frames := (aloneFrames.trans isolates.frames).trans frames.symm
          head := (aloneHead.trans isolates.head).trans head.symm
          closed := aloneNowClosed.trans nowClosed.symm
          reader := by
            rw [readers, aloneReaders]
            simp only [isolates.member, isolates.reader]
          single := by
            rw [aloneReaders]
            simp [isolates.single]
          member := by simp }

end

end Isolates

/-- The private buffer answers every step of the shared one with the actions
that its reader sees. -/
theorem Isolates.step
    {a : Nat}
    {rb alone next : RingBuffer}
    {history privateHistory : List Frame}
    {action : Action}
    (isolates : Isolates a rb alone)
    (invariant : Invariant history rb)
    (ownInvariant : Invariant privateHistory alone)
    (taken : step rb action = some next) :
    ∃ aloneNext, run step alone (view a rb action) = some aloneNext ∧
      Isolates a next aloneNext := by
  cases action with
  | write f =>
      simp only [Buffer.step, Option.some.injEq] at taken
      subst next
      exact ⟨alone.write f, rfl, isolates.write invariant ownInvariant f⟩
  | setParams vps sps pps =>
      simp only [Buffer.step, Option.some.injEq] at taken
      subst next
      exact ⟨alone, rfl, isolates.unseen rfl rfl rfl rfl Iff.rfl⟩
  | subscribe =>
      by_cases turn : rb.readers.length = a
      · obtain ⟨aloneNext, subscribed, isolatesNext⟩ :=
          isolates.subscribe_self invariant ownInvariant turn taken
        exact ⟨aloneNext, by simp [view, turn, Buffer.step, subscribed],
          isolatesNext⟩
      · exact ⟨alone, by simp [view, turn], isolates.subscribe_other turn taken⟩
  | closeReader r =>
      simp only [Buffer.step, Option.ite_none_right_eq_some, Option.some.injEq]
        at taken
      obtain ⟨created, rfl⟩ := taken
      by_cases own : r = a
      · subst r
        have present : 0 < alone.readers.length := by
          have reader := isolates.reader
          rw [List.getElem?_eq_getElem created] at reader
          exact (List.getElem?_eq_some_iff.mp reader).1
        exact ⟨alone.closeReader 0, by simp [view, Buffer.step, present],
          isolates.closeReader_self invariant ownInvariant⟩
      · exact ⟨alone, by simp [view, own], isolates.closeReader_other own⟩
  | receive r =>
      by_cases own : r = a
      · subst r
        obtain ⟨aloneNext, received, isolatesNext⟩ := isolates.receive_self taken
        exact ⟨aloneNext, by simp [view, Buffer.step, received], isolatesNext⟩
      · exact ⟨alone, by simp [view, own], isolates.receive_other own taken⟩
  | close =>
      simp only [Buffer.step, Option.some.injEq] at taken
      subst next
      exact ⟨alone.close, rfl, isolates.close invariant ownInvariant⟩

/-- A run of a new buffer is, for reader number `a`, a run of a new buffer over
what the reader sees. -/
theorem isolates_of_run
    (a : Nat)
    {capacity : Int}
    {actions : List Action}
    {rb : RingBuffer}
    (reached : run step (newRingBuffer capacity) actions = some rb) :
    ∃ alone,
      run step (newRingBuffer capacity)
          (trace step (view a) (newRingBuffer capacity) actions) = some alone ∧
        Isolates a rb alone := by
  let related (shared alone : RingBuffer) : Prop :=
    Isolates a shared alone ∧ (∃ history, Invariant history shared) ∧
      ∃ history, Invariant history alone
  have new : ∃ history, Invariant history (newRingBuffer capacity) :=
    ⟨[], Invariant.newRingBuffer capacity⟩
  have initial : related (newRingBuffer capacity) (newRingBuffer capacity) := by
    refine ⟨?_, new, new⟩
    exact
      { frames := rfl
        head := rfl
        closed := rfl
        reader := by simp [newRingBuffer]
        single := by simp [newRingBuffer]
        member := by simp [newRingBuffer] }
  have simulated : ∀ shared action next alone, related shared alone →
      step shared action = some next →
      ∃ aloneNext,
        run step alone (view a shared action) = some aloneNext ∧
          related next aloneNext := by
    rintro shared action next alone ⟨isolates, invariant, ownInvariant⟩ taken
    obtain ⟨aloneNext, answered, isolatesNext⟩ :=
      isolates.step invariant.choose_spec ownInvariant.choose_spec taken
    exact ⟨aloneNext, answered, isolatesNext,
      invariant_step shared action next invariant taken,
      run_invariant invariant_step ownInvariant answered⟩
  obtain ⟨alone, answered, isolates, _⟩ :=
    run_simulation simulated initial reached
  exact ⟨alone, answered, isolates⟩

/-- Two runs of a new buffer in which one reader, number `a₁` in the first and
`a₂` in the second, sees the same writes, the same closing of the buffer and
the same actions of its own leave this reader in the same state, whatever the
other readers do: it was sent the same frames in the same order, has taken as
many, and has the same `Drops` count and `NeedsIFrame` flag. -/
theorem reader_isolated
    (capacity : Int)
    (actions₁ actions₂ : List Action)
    (a₁ a₂ : Nat)
    {rb₁ rb₂ : RingBuffer}
    (reached₁ : run step (newRingBuffer capacity) actions₁ = some rb₁)
    (reached₂ : run step (newRingBuffer capacity) actions₂ = some rb₂)
    (same :
      trace step (view a₁) (newRingBuffer capacity) actions₁ =
        trace step (view a₂) (newRingBuffer capacity) actions₂) :
    rb₁.readers[a₁]? = rb₂.readers[a₂]? := by
  obtain ⟨alone₁, answered₁, isolates₁⟩ := isolates_of_run a₁ reached₁
  obtain ⟨alone₂, answered₂, isolates₂⟩ := isolates_of_run a₂ reached₂
  rw [same, answered₂, Option.some.injEq] at answered₁
  rw [← isolates₁.reader, ← isolates₂.reader, answered₁]

/-- A reader of a one-slot buffer that is alone, and the same reader beside one
that subscribes first, never receives and unregisters in between. -/
def undisturbed (beside : Bool) : List Action :=
  let key : Frame := { timestamp := 0, isKeyFrame := true, nalus := [] }
  let delta : Frame := { timestamp := 0, isKeyFrame := false, nalus := [] }
  if beside then
    [.subscribe, .write key, .subscribe, .write delta, .closeReader 0,
      .receive 1, .write delta, .subscribe, .write key]
  else
    [.write key, .subscribe, .write delta, .receive 0, .write delta, .write key]

theorem reader_isolated_beside_slow :
    ∃ shared alone,
      run step (newRingBuffer 1) (undisturbed true) = some shared ∧
      run step (newRingBuffer 1) (undisturbed false) = some alone ∧
      (alone.readers.map fun reader =>
        (reader.c.sent.map WrittenFrame.index, reader.drops)) = [([0, 3], 1)] ∧
      shared.readers[1]? = alone.readers[0]? := by
  have enabled : (run step (newRingBuffer 1) (undisturbed true)).isSome := by
    decide
  have delivered : (run step (newRingBuffer 1) (undisturbed false)).map
      (fun rb => rb.readers.map fun reader =>
        (reader.c.sent.map WrittenFrame.index, reader.drops)) =
        some [([0, 3], 1)] := by
    decide
  obtain ⟨shared, reached⟩ := Option.isSome_iff_exists.mp enabled
  obtain ⟨alone, reachedAlone, outcome⟩ := Option.map_eq_some_iff.mp delivered
  refine ⟨shared, alone, reached, reachedAlone, outcome, ?_⟩
  exact reader_isolated 1 _ _ 1 0 reached reachedAlone (by decide)

end Buffer
end RuseonCore
