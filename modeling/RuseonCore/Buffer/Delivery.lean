import RuseonCore.Buffer.RingBuffer

/-!
# What a reader is delivered

The frames put into a reader's channel, preloaded by `Subscribe` or sent by
`Write`, are compared with the history of all accepted writes.  Two facts
carry the results of this module: the circular history holds the last
`capacity` accepted frames, and a registered reader that does not wait for a
keyframe has been delivered the newest frame.
-/

namespace RuseonCore
namespace Buffer

open Transition

/-- Frames accepted by the writes of an action list: those before the first
`close`. -/
def accepted : List Action → List Frame
  | [] => []
  | .write f :: actions => f :: accepted actions
  | .close :: _ => []
  | .setParams _ _ _ :: actions => accepted actions
  | .subscribe :: actions => accepted actions
  | .closeReader _ :: actions => accepted actions
  | .receive _ :: actions => accepted actions

/-- Number a history by write index. -/
def tag (history : List Frame) : List WrittenFrame :=
  history.mapIdx fun index frame => { index := index, frame := frame }

@[simp] theorem length_tag (history : List Frame) :
    (tag history).length = history.length := by
  simp [tag]

@[simp] theorem tag_concat (history : List Frame) (f : Frame) :
    tag (history ++ [f]) =
      tag history ++ [{ index := history.length, frame := f }] := by
  simp [tag]

/-- An entry of the tagged history stands at its own index. -/
theorem getElem?_tag_eq_some
    {history : List Frame}
    {position : Nat}
    {entry : WrittenFrame} :
    (tag history)[position]? = some entry ↔
      entry.index = position ∧ history[position]? = some entry.frame := by
  cases entry with
  | mk index frame =>
      rw [tag, List.getElem?_mapIdx]
      cases history[position]? <;> simp [eq_comm]

/-- After the first `close` nothing is accepted any more. -/
theorem accepted_append_of_mem
    {actions : List Action}
    (closed : Action.close ∈ actions)
    (later : List Action) :
    accepted (actions ++ later) = accepted actions := by
  induction actions with
  | nil => simp at closed
  | cons action actions inductionHypothesis =>
      cases action <;>
        simp_all [accepted]

/-- Before the first `close` the accepted frames of two lists concatenate. -/
theorem accepted_append_of_not_mem
    {actions : List Action}
    (opened : Action.close ∉ actions)
    (later : List Action) :
    accepted (actions ++ later) = accepted actions ++ accepted later := by
  induction actions with
  | nil => rfl
  | cons action actions inductionHypothesis =>
      cases action <;>
        simp_all [accepted]

/-- The relation between two consecutively delivered frames: write indices
increase, and a gap is bridged by a keyframe only. -/
def Follows (earlier later : WrittenFrame) : Prop :=
  earlier.index < later.index ∧
    (later.index ≠ earlier.index + 1 → later.frame.isKeyFrame = true)

/-- State of one reader against the accepted history. -/
structure ReaderInvariant
    (history : List Frame)
    (capacity : Nat)
    (subscribed : Prop)
    (reader : Reader) : Prop where
  capacity_eq : reader.c.capacity = capacity
  genuine : ∀ entry ∈ reader.c.sent, (tag history)[entry.index]? = some entry
  chained : reader.c.sent.IsChain Follows
  opened : subscribed → reader.c.closed = false
  current : subscribed → reader.needsIFrame = false →
    reader.c.sent.getLast? = (tag history).getLast?
  waits : reader.needsIFrame = true → history ≠ []

namespace ReaderInvariant

/-- What was genuine stays genuine when the history grows. -/
theorem genuine_concat
    {history : List Frame}
    {sent : List WrittenFrame}
    (genuine : ∀ entry ∈ sent, (tag history)[entry.index]? = some entry)
    (f : Frame) :
    ∀ entry ∈ sent, (tag (history ++ [f]))[entry.index]? = some entry := by
  intro entry delivered
  have found := genuine entry delivered
  obtain ⟨bound, _⟩ := List.getElem?_eq_some_iff.mp found
  rw [tag_concat, List.getElem?_append_left bound]
  exact found

/-- A write does not concern a reader that is not registered. -/
theorem concat
    {history : List Frame}
    {reader : Reader}
    (invariant : ReaderInvariant history capacity subscribed reader)
    (unsubscribed : ¬subscribed)
    (f : Frame) :
    ReaderInvariant (history ++ [f]) capacity subscribed reader where
  capacity_eq := invariant.capacity_eq
  genuine := genuine_concat invariant.genuine f
  chained := invariant.chained
  opened := invariant.opened
  current := fun registered => absurd registered unsubscribed
  waits := by simp

/-- Unregistering a reader keeps its invariant. -/
theorem unsubscribe
    {history : List Frame}
    {reader : Reader}
    (invariant : ReaderInvariant history capacity subscribed reader)
    {stillSubscribed : Prop}
    (weaker : stillSubscribed → subscribed) :
    ReaderInvariant history capacity stillSubscribed reader where
  capacity_eq := invariant.capacity_eq
  genuine := invariant.genuine
  chained := invariant.chained
  opened := fun registered => invariant.opened (weaker registered)
  current := fun registered => invariant.current (weaker registered)
  waits := invariant.waits

/-- The frame being written may follow the last delivered one when it is a
keyframe or the reader does not wait for one. -/
theorem follows_next
    {history : List Frame}
    {reader : Reader}
    (invariant : ReaderInvariant history capacity subscribed reader)
    (registered : subscribed)
    (f : Frame)
    (accepts : reader.needsIFrame = false ∨ f.isKeyFrame = true)
    (last : WrittenFrame)
    (isLast : last ∈ reader.c.sent.getLast?) :
    Follows last { index := history.length, frame := f } := by
  have delivered : last ∈ reader.c.sent := List.mem_of_getLast? isLast
  have older := (List.getElem?_eq_some_iff.mp
    (invariant.genuine last delivered)).1
  rw [length_tag] at older
  refine ⟨older, fun gap => ?_⟩
  rcases accepts with flowing | key
  · have newest := invariant.current registered flowing
    rw [Option.mem_def.mp isLast, eq_comm, List.getLast?_eq_getElem?,
      length_tag, getElem?_tag_eq_some] at newest
    have consecutive := newest.1
    simp only at gap
    omega
  · exact key

/-- One iteration of the broadcast loop keeps the invariant of a registered
reader. -/
theorem offer
    {history : List Frame}
    {reader : Reader}
    (invariant : ReaderInvariant history capacity subscribed reader)
    (registered : subscribed)
    (f : Frame) :
    ReaderInvariant (history ++ [f]) capacity subscribed
      (reader.offer { index := history.length, frame := f }).1 := by
  unfold Reader.offer
  split
  · rename_i skipped
    simp only [Bool.and_eq_true, Bool.not_eq_true'] at skipped
    exact
      { capacity_eq := invariant.capacity_eq
        genuine := genuine_concat invariant.genuine f
        chained := invariant.chained
        opened := invariant.opened
        current := fun _ flowing => by simp [skipped.1] at flowing
        waits := by simp }
  · rename_i notSkipped
    have accepts : reader.needsIFrame = false ∨ f.isKeyFrame = true := by
      cases waiting : reader.needsIFrame <;> simp_all
    rcases reader.c.trySend_cases { index := history.length, frame := f }
        (invariant.opened registered) with ⟨room, outcome⟩ | ⟨_, outcome⟩
    · rw [outcome]
      refine
        { capacity_eq := invariant.capacity_eq
          genuine := ?_
          chained := ?_
          opened := invariant.opened
          current := fun _ _ => by simp
          waits := by simp }
      · intro entry delivered
        rw [Channel.sent_push, List.mem_append, List.mem_singleton] at delivered
        rcases delivered with old | new
        · exact genuine_concat invariant.genuine f entry old
        · rw [new, getElem?_tag_eq_some]
          simp
      · rw [Channel.sent_push, List.isChain_append]
        refine ⟨invariant.chained, List.isChain_singleton _, ?_⟩
        intro last isLast next isNext
        simp only [List.head?_cons, Option.mem_def, Option.some.injEq] at isNext
        subst next
        exact invariant.follows_next registered f accepts last isLast
    · rw [outcome]
      exact
        { capacity_eq := invariant.capacity_eq
          genuine := genuine_concat invariant.genuine f
          chained := invariant.chained
          opened := invariant.opened
          current := fun _ flowing => by simp at flowing
          waits := by simp }

/-- A reader that is preloaded with the end of the history. -/
theorem preloaded
    {history : List Frame}
    {start capacity : Nat}
    (before : start < history.length)
    {c : Channel WrittenFrame}
    (sent : c.sent = (tag history).drop start)
    (capacity_eq : c.capacity = capacity)
    (opened : c.closed = false) :
    ReaderInvariant history capacity True
      { c := c, drops := 0, needsIFrame := false } := by
  refine
    { capacity_eq := capacity_eq
      genuine := ?_
      chained := ?_
      opened := fun _ => opened
      current := fun _ _ => ?_
      waits := by simp }
  · intro entry delivered
    rw [sent] at delivered
    obtain ⟨position, found⟩ :=
      List.mem_iff_getElem?.mp (List.mem_of_mem_drop delivered)
    rw [(getElem?_tag_eq_some.mp found).1]
    exact found
  · rw [sent]
    apply List.IsChain.drop
    rw [List.isChain_iff_getElem]
    intro position bound
    simp [tag, Follows]
  · rw [sent, List.getLast?_drop, if_neg]
    rw [length_tag]
    omega

/-- A reader that starts with an empty channel and waits for a keyframe unless
nothing was written. -/
theorem unloaded
    (history : List Frame)
    (capacity : Nat) :
    ReaderInvariant history capacity True
      { c := Channel.make capacity
        drops := 0
        needsIFrame := decide (0 < history.length) } := by
  refine
    { capacity_eq := rfl
      genuine := by simp
      chained := List.isChain_nil
      opened := fun _ => rfl
      current := fun _ flowing => ?_
      waits := fun waiting => ?_ }
  · have empty : history = [] := by simpa using flowing
    simp [empty, tag]
  · exact List.ne_nil_of_length_pos (by simpa using waiting)

end ReaderInvariant

/-- State of the buffer against the accepted history. -/
structure Invariant (history : List Frame) (rb : RingBuffer) : Prop where
  head_eq : rb.head = history.length
  retains : rb.frames.Retains (tag history)
  subs_eq : rb.subs = rb.subsSlice.toFinset
  distinct : rb.subsSlice.Nodup
  registered : ∀ r ∈ rb.subsSlice, ∃ reader, rb.readers[r]? = some reader
  closed_subs : rb.closed = true → rb.subsSlice = []
  readers : ∀ r reader, rb.readers[r]? = some reader →
    ReaderInvariant history rb.capacity (r ∈ rb.subsSlice) reader

/-- The first frame delivered to the reader, if any, is a keyframe. -/
def FirstIsKey (reader : Reader) : Prop :=
  ∀ first ∈ reader.c.sent.head?, first.frame.isKeyFrame = true

namespace Invariant

/-- A new buffer satisfies the invariant. -/
theorem newRingBuffer (capacity : Int) :
    Invariant [] (newRingBuffer capacity) where
  head_eq := rfl
  retains := by
    unfold Buffer.newRingBuffer
    split
    · exact Ring.retains_empty _ _
    · exact Ring.retains_empty _ _
  subs_eq := rfl
  distinct := List.nodup_nil
  registered := by simp [Buffer.newRingBuffer]
  closed_subs := fun _ => rfl
  readers := by simp [Buffer.newRingBuffer]

/-- Writing to an open buffer offers the frame to exactly the registered
readers. -/
theorem readers_write
    {history : List Frame}
    {rb : RingBuffer}
    (invariant : Invariant history rb)
    (opened : rb.closed = false)
    (f : Frame)
    (r : Nat) :
    (rb.write f).readers[r]? =
      if r ∈ rb.subsSlice then
        rb.readers[r]?.map fun reader =>
          (reader.offer { index := history.length, frame := f }).1
      else rb.readers[r]? := by
  obtain ⟨_, _, _, _, readers⟩ := RingBuffer.write_frame opened invariant.distinct f
  rw [← invariant.head_eq]
  exact readers r

/-- Writing to an open buffer extends the accepted history by the frame. -/
theorem write
    {history : List Frame}
    {rb : RingBuffer}
    (invariant : Invariant history rb)
    (opened : rb.closed = false)
    (f : Frame) :
    Invariant (history ++ [f]) (rb.write f) := by
  have readersWrite := invariant.readers_write opened f
  obtain ⟨frames, head, subs, slice, _⟩ :=
    RingBuffer.write_frame opened invariant.distinct f
  refine
    { head_eq := ?_
      retains := ?_
      subs_eq := ?_
      distinct := ?_
      registered := ?_
      closed_subs := ?_
      readers := ?_ }
  · rw [head, List.length_append, List.length_singleton, invariant.head_eq]
  · have stored := invariant.retains.store
      { index := rb.head, frame := f }
    rw [length_tag, ← invariant.head_eq] at stored
    rw [frames, tag_concat, ← invariant.head_eq]
    exact stored
  · rw [subs, slice]
    exact invariant.subs_eq
  · rw [slice]
    exact invariant.distinct
  · intro r member
    rw [slice] at member
    obtain ⟨reader, present⟩ := invariant.registered r member
    rw [readersWrite r, if_pos member, present]
    exact ⟨_, rfl⟩
  · intro nowClosed
    simp [opened] at nowClosed
  · intro r reader present
    rw [slice, RingBuffer.capacity, frames]
    rw [readersWrite r] at present
    split at present
    · rename_i member
      obtain ⟨before, presentBefore, rfl⟩ := Option.map_eq_some_iff.mp present
      exact (invariant.readers r before presentBefore).offer member f
    · rename_i absent
      exact (invariant.readers r reader present).concat absent f

/-- Subscribing to an open buffer registers a reader that starts on a
keyframe, if it is preloaded at all. -/
theorem subscribe_of_open
    {history : List Frame}
    {rb : RingBuffer}
    (invariant : Invariant history rb)
    (opened : rb.closed = false) :
    ∃ reader, rb.subscribe = some (rb.register reader) ∧
      ReaderInvariant history rb.capacity True reader ∧
      FirstIsKey reader := by
  rw [RingBuffer.subscribe_eq_of_open opened, RingBuffer.freshReader]
  cases scanned : rb.scanIFrame 0 rb.capacity with
  | some idx =>
      obtain ⟨before, near, key, stored, isKey⟩ := rb.scanIFrame_eq_some scanned
      rw [invariant.head_eq] at before near
      obtain ⟨c, loaded, sent, capacity, cOpened⟩ :=
        RingBuffer.preload_eq_some invariant.retains idx (rb.head - idx)
          (by rw [length_tag, invariant.head_eq]; omega)
          (by rw [length_tag]; simpa [RingBuffer.capacity] using near)
          (Channel.make rb.capacity) rfl
          (by
            simp only [Channel.make, List.length_nil]
            rw [invariant.head_eq]
            omega)
      have retained : (tag history)[idx]? = some key := by
        rw [← invariant.retains idx (by simpa using before)
          (by rw [length_tag]; simpa [RingBuffer.capacity] using near)]
        exact stored
      rw [Channel.sent_make, List.nil_append] at sent
      refine ⟨{ c := c, drops := 0, needsIFrame := false }, ?_, ?_, ?_⟩
      · simp [loaded]
      · exact .preloaded before sent capacity cOpened
      · intro first isFirst
        rw [sent, List.head?_drop, retained] at isFirst
        simp only [Option.mem_def, Option.some.injEq] at isFirst
        rw [← isFirst]
        exact isKey
  | none =>
      refine ⟨{ c := Channel.make rb.capacity, drops := 0,
                needsIFrame := decide (0 < rb.head) }, rfl, ?_, ?_⟩
      · rw [invariant.head_eq]
        exact .unloaded history rb.capacity
      · intro first isFirst
        simp at isFirst

/-- Entering a reader that satisfies its invariant keeps the buffer's. -/
theorem register
    {history : List Frame}
    {rb : RingBuffer}
    (invariant : Invariant history rb)
    (opened : rb.closed = false)
    {reader : Reader}
    (fresh : ReaderInvariant history rb.capacity True reader) :
    Invariant history (rb.register reader) := by
  have newId : rb.readers.length ∉ rb.subsSlice := by
    intro member
    obtain ⟨old, present⟩ := invariant.registered _ member
    simp at present
  refine
    { head_eq := invariant.head_eq
      retains := invariant.retains
      subs_eq := ?_
      distinct := ?_
      registered := ?_
      closed_subs := fun nowClosed => by
        simp [RingBuffer.register, opened] at nowClosed
      readers := ?_ }
  · ext r
    simp [RingBuffer.register, invariant.subs_eq]
  · exact List.nodup_append.mpr ⟨invariant.distinct, List.nodup_singleton _, by
      intro r member other isNew equal
      rw [List.mem_singleton.mp isNew] at equal
      exact newId (equal ▸ member)⟩
  · intro r member
    simp only [RingBuffer.register, List.mem_append, List.mem_singleton] at member
    rcases member with old | new
    · obtain ⟨before, present⟩ := invariant.registered r old
      refine ⟨before, ?_⟩
      simp only [RingBuffer.register]
      rw [List.getElem?_append_left (List.getElem?_eq_some_iff.mp present).1]
      exact present
    · exact ⟨reader, by simp [RingBuffer.register, new]⟩
  · intro r current present
    simp only [RingBuffer.register] at present ⊢
    by_cases old : r < rb.readers.length
    · rw [List.getElem?_append_left old] at present
      refine (invariant.readers r current present).unsubscribe fun member => ?_
      rcases List.mem_append.mp member with before | new
      · exact before
      · rw [List.mem_singleton.mp new] at old
        omega
    · have bound := (List.getElem?_eq_some_iff.mp present).1
      simp only [List.length_append, List.length_singleton] at bound
      have same : r = rb.readers.length := by omega
      subst r
      rw [List.getElem?_concat_length, Option.some.injEq] at present
      subst current
      exact fresh.unsubscribe fun _ => trivial

/-- A reader created on a closed buffer receives nothing. -/
theorem subscribe_of_closed
    {history : List Frame}
    {rb next : RingBuffer}
    (invariant : Invariant history rb)
    (closed : rb.closed = true)
    (subscribed : rb.subscribe = some next) :
    Invariant history next ∧ ∃ reader, next.readers = rb.readers ++ [reader] ∧
      reader.c.sent = [] := by
  rw [RingBuffer.subscribe_eq_of_closed closed, Option.some.injEq] at subscribed
  subst next
  refine ⟨?_, _, rfl, by simp⟩
  have noSubs := invariant.closed_subs closed
  refine
    { head_eq := invariant.head_eq
      retains := invariant.retains
      subs_eq := invariant.subs_eq
      distinct := invariant.distinct
      registered := by simp [noSubs]
      closed_subs := fun _ => noSubs
      readers := ?_ }
  intro r reader present
  rcases List.mem_append.mp (List.mem_of_getElem? present) with old | new
  · obtain ⟨position, presentBefore⟩ := List.mem_iff_getElem?.mp old
    refine (invariant.readers position reader presentBefore).unsubscribe ?_
    simp [noSubs]
  · rw [List.mem_singleton.mp new]
    exact
      { capacity_eq := by simp [RingBuffer.capacity]
        genuine := by simp
        chained := by simp
        opened := by simp [noSubs]
        current := by simp [noSubs]
        waits := by simp }

end Invariant

/-- A step that delivers nothing: it may unregister readers, drain or close
their channels, but changes neither the history nor what readers were sent. -/
structure Quiet (rb next : RingBuffer) : Prop where
  head : next.head = rb.head
  frames : next.frames = rb.frames
  subs : next.subs = next.subsSlice.toFinset
  sublist : next.subsSlice.Sublist rb.subsSlice
  closed : next.closed = true → next.subsSlice = []
  created : next.readers.length = rb.readers.length
  readers : ∀ r before after,
    rb.readers[r]? = some before → next.readers[r]? = some after →
    after.c.sent = before.c.sent ∧ after.c.capacity = before.c.capacity ∧
      after.needsIFrame = before.needsIFrame ∧
      (r ∈ next.subsSlice → after.c.closed = before.c.closed)

/-- A step that leaves the readers alone relates each to itself. -/
theorem readers_unchanged
    {rb next : RingBuffer}
    (same : next.readers = rb.readers) :
    ∀ r before after,
      rb.readers[r]? = some before → next.readers[r]? = some after →
      after.c.sent = before.c.sent ∧ after.c.capacity = before.c.capacity ∧
        after.needsIFrame = before.needsIFrame ∧
        (r ∈ next.subsSlice → after.c.closed = before.c.closed) := by
  intro r before after presentBefore presentAfter
  rw [same, presentBefore, Option.some.injEq] at presentAfter
  simp [presentAfter]

/-- Every reader after a quiet step was there before it. -/
theorem Quiet.reader_before
    {rb next : RingBuffer}
    (quiet : Quiet rb next)
    {r : Nat}
    {after : Reader}
    (present : next.readers[r]? = some after) :
    ∃ before, rb.readers[r]? = some before := by
  have bound := (List.getElem?_eq_some_iff.mp present).1
  rw [quiet.created] at bound
  exact ⟨_, List.getElem?_eq_getElem bound⟩

/-- Every reader before a quiet step is there after it. -/
theorem Quiet.reader_after
    {rb next : RingBuffer}
    (quiet : Quiet rb next)
    {r : Nat}
    {before : Reader}
    (present : rb.readers[r]? = some before) :
    ∃ after, next.readers[r]? = some after := by
  have bound := (List.getElem?_eq_some_iff.mp present).1
  rw [← quiet.created] at bound
  exact ⟨_, List.getElem?_eq_getElem bound⟩

/-- Quiet steps keep the invariant. -/
theorem Quiet.invariant
    {history : List Frame}
    {rb next : RingBuffer}
    (quiet : Quiet rb next)
    (invariant : Invariant history rb) :
    Invariant history next := by
  refine
    { head_eq := quiet.head.trans invariant.head_eq
      retains := by rw [quiet.frames]; exact invariant.retains
      subs_eq := quiet.subs
      distinct := invariant.distinct.sublist quiet.sublist
      registered := ?_
      closed_subs := quiet.closed
      readers := ?_ }
  · intro r member
    obtain ⟨reader, present⟩ :=
      invariant.registered r (quiet.sublist.subset member)
    exact quiet.reader_after present
  · intro r reader present
    obtain ⟨before, presentBefore⟩ := quiet.reader_before present
    have old := invariant.readers r before presentBefore
    obtain ⟨sameSent, sameCapacity, sameWaiting, sameClosed⟩ :=
      quiet.readers r before reader presentBefore present
    refine
      { capacity_eq := ?_
        genuine := by rw [sameSent]; exact old.genuine
        chained := by rw [sameSent]; exact old.chained
        opened := fun member =>
          (sameClosed member).trans (old.opened (quiet.sublist.subset member))
        current := fun member => ?_
        waits := by rw [sameWaiting]; exact old.waits }
    · rw [sameCapacity, RingBuffer.capacity, quiet.frames]
      exact old.capacity_eq
    · rw [sameSent, sameWaiting]
      exact old.current (quiet.sublist.subset member)

namespace Invariant

/-- A step that changes nothing is quiet. -/
theorem quiet_refl
    {history : List Frame}
    {rb : RingBuffer}
    (invariant : Invariant history rb) :
    Quiet rb rb where
  head := rfl
  frames := rfl
  subs := invariant.subs_eq
  sublist := List.Sublist.refl _
  closed := invariant.closed_subs
  created := rfl
  readers := readers_unchanged rfl

/-- Storing codec parameters is quiet. -/
theorem quiet_setParams
    {history : List Frame}
    {rb : RingBuffer}
    (invariant : Invariant history rb)
    (vps sps pps : Option (List UInt8)) :
    Quiet rb (rb.setParams vps sps pps) where
  head := rfl
  frames := rfl
  subs := invariant.subs_eq
  sublist := List.Sublist.refl _
  closed := invariant.closed_subs
  created := rfl
  readers := readers_unchanged rfl

/-- Closing a reader is quiet. -/
theorem quiet_closeReader
    {history : List Frame}
    {rb : RingBuffer}
    (invariant : Invariant history rb)
    (r : Nat) :
    Quiet rb (rb.closeReader r) := by
  unfold RingBuffer.closeReader
  split
  · refine
      { head := rfl
        frames := rfl
        subs := ?_
        sublist := List.erase_sublist
        closed := fun closed => by simp [invariant.closed_subs closed]
        created := rfl
        readers := readers_unchanged rfl }
    ext other
    simp [invariant.subs_eq, invariant.distinct.mem_erase_iff]
  · exact invariant.quiet_refl

/-- Receiving is quiet. -/
theorem quiet_receive
    {history : List Frame}
    {rb next : RingBuffer}
    (invariant : Invariant history rb)
    {r : Nat}
    (received : rb.receive r = some next) :
    Quiet rb next := by
  obtain ⟨reader, present, taken⟩ := Option.bind_eq_some_iff.mp received
  obtain ⟨⟨item, c⟩, drained, rfl⟩ := Option.map_eq_some_iff.mp taken
  obtain ⟨sent, capacity, closed, _⟩ := Channel.receive_frame drained
  refine
    { head := rfl
      frames := rfl
      subs := invariant.subs_eq
      sublist := List.Sublist.refl _
      closed := invariant.closed_subs
      created := List.length_set
      readers := fun other before after presentBefore presentAfter => ?_ }
  by_cases same : r = other
  · subst other
    have bound := (List.getElem?_eq_some_iff.mp present).1
    rw [present, Option.some.injEq] at presentBefore
    simp only [List.getElem?_set_self bound, Option.some.injEq] at presentAfter
    subst before
    subst after
    exact ⟨sent, capacity, rfl, fun _ => closed⟩
  · simp only [List.getElem?_set_ne same, presentBefore, Option.some.injEq]
      at presentAfter
    simp [presentAfter]

/-- Closing the buffer is quiet. -/
theorem quiet_close
    {history : List Frame}
    {rb : RingBuffer}
    (invariant : Invariant history rb) :
    Quiet rb rb.close := by
  unfold RingBuffer.close
  split
  · exact invariant.quiet_refl
  · obtain ⟨frames, head, _, created, readers⟩ :=
      RingBuffer.foldl_closeChannel_frame rb.subsSlice invariant.distinct
        { rb with closed := true }
    refine
      { head := head
        frames := frames
        subs := rfl
        sublist := List.nil_sublist _
        closed := fun _ => rfl
        created := created
        readers := fun r before after presentBefore presentAfter => ?_ }
    simp only [readers r, presentBefore, Option.map_some] at presentAfter
    split at presentAfter
    · simp [← Option.some.inj presentAfter]
    · simp [← Option.some.inj presentAfter]

end Invariant

end Buffer
end RuseonCore
