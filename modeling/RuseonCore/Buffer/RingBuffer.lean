import RuseonCore.Foundation.Channel
import RuseonCore.Foundation.Ring
import RuseonCore.Foundation.Transition

/-!
# The frame ring buffer

Model of `internal/buffer/ring.go`: a circular history of frames together with
a non-blocking broadcaster.  Every method runs under the buffer's mutex, so a
method is one step; a channel receive by a consumer is a step of its own.

Readers are heap objects of the source.  They are numbered in the order in
which `Subscribe` creates them and never leave `readers`, while `subs` and
`subsSlice` hold the numbers of those that are registered.  A frame pointer is
represented by the frame together with the number of the `Write` that stored
it.  `head` counts writes in a natural number, which agrees with the 64-bit
counter of the source for fewer than `2 ^ 64` writes.  Prometheus counters and
the camera label are not modelled.
-/

namespace RuseonCore
namespace Buffer

/-- A video access unit. -/
structure Frame where
  timestamp : Int
  isKeyFrame : Bool
  nalus : List (List UInt8)
  deriving DecidableEq

/-- A frame as held by the buffer, identified by its write index. -/
structure WrittenFrame where
  index : Nat
  frame : Frame
  deriving DecidableEq

/-- Codec parameter sets; `none` is a nil slice. -/
structure CodecParams where
  vps : Option (List UInt8)
  sps : Option (List UInt8)
  pps : Option (List UInt8)
  deriving DecidableEq

/-- Subscription handle of one consumer.  While `needsIFrame` is set, the
reader skips delta frames. -/
structure Reader where
  c : Channel WrittenFrame
  drops : Nat
  needsIFrame : Bool

namespace Reader

/-- Body of the broadcast loop of `Write` for one subscriber.  The flag tells
whether the frame was dropped. -/
def offer (reader : Reader) (f : WrittenFrame) : Reader × Bool :=
  if reader.needsIFrame && !f.frame.isKeyFrame then (reader, false)
  else
    match reader.c.trySend f with
    | (c, true) => ({ reader with c := c, needsIFrame := false }, false)
    | (c, false) =>
        ({ c := c, drops := reader.drops + 1, needsIFrame := true }, true)

end Reader

/-- The ring buffer with all readers it ever created.  The circular history
carries the capacity; `subs` are the keys of the subscriber map. -/
structure RingBuffer where
  frames : Ring WrittenFrame
  head : Nat
  closed : Bool
  params : Option CodecParams
  subs : Finset Nat
  subsSlice : List Nat
  totalDrops : Nat
  readers : List Reader

/-- Allocate a buffer; a capacity that is not positive becomes 100. -/
def newRingBuffer (capacity : Int) : RingBuffer where
  frames :=
    if positive : 0 < capacity then Ring.empty capacity.toNat (by omega)
    else Ring.empty 100 (by decide)
  head := 0
  closed := false
  params := none
  subs := ∅
  subsSlice := []
  totalDrops := 0
  readers := []

namespace RingBuffer

/-- Frame capacity of the history and of every reader's channel. -/
def capacity (rb : RingBuffer) : Nat := rb.frames.capacity

/-- One iteration of the broadcast loop. -/
def offerTo (f : WrittenFrame) (rb : RingBuffer) (sub : Nat) : RingBuffer :=
  { rb with
    readers := rb.readers.modify sub fun reader => (reader.offer f).1
    totalDrops :=
      if rb.readers[sub]?.any fun reader => (reader.offer f).2 then
        rb.totalDrops + 1
      else rb.totalDrops }

/-- Store the frame and dispatch it to every registered reader. -/
def write (rb : RingBuffer) (f : Frame) : RingBuffer :=
  if rb.closed then rb
  else
    let written : WrittenFrame := { index := rb.head, frame := f }
    rb.subsSlice.foldl (offerTo written)
      { rb with
        frames := rb.frames.store rb.head written
        head := rb.head + 1 }

/-- Store copies of the codec parameters. -/
def setParams (rb : RingBuffer) (vps sps pps : Option (List UInt8)) :
    RingBuffer :=
  { rb with params := some { vps := vps, sps := sps, pps := pps } }

/-- Backward scan of the history from the newest frame, `i` frames back, for
the given number of further iterations. -/
def scanIFrame (rb : RingBuffer) (i : Nat) : Nat → Option Nat
  | 0 => none
  | iterations + 1 =>
      if rb.head < i + 1 then none
      else
        match rb.frames.load (rb.head - (i + 1)) with
        | some f =>
            if f.frame.isKeyFrame then some (rb.head - (i + 1))
            else rb.scanIFrame (i + 1) iterations
        | none => rb.scanIFrame (i + 1) iterations

/-- Index of the most recent keyframe of the history, whether there is one,
and the head. -/
def findLastIFrameLocked (rb : RingBuffer) : Nat × Bool × Nat :=
  match rb.scanIFrame 0 rb.capacity with
  | some idx => (idx, true, rb.head)
  | none => (rb.head, false, rb.head)

/-- Send the stored frames from index `i` on into a channel; `none` means that
a send blocks. -/
def preload (frames : Ring WrittenFrame) :
    Channel WrittenFrame → (i iterations : Nat) → Option (Channel WrittenFrame)
  | c, _, 0 => some c
  | c, i, iterations + 1 =>
      match frames.load i with
      | none => preload frames c (i + 1) iterations
      | some f => (c.send f).bind fun c => preload frames c (i + 1) iterations

/-- Enter a new reader into the subscriber map and slice. -/
def register (rb : RingBuffer) (r : Reader) : RingBuffer :=
  { rb with
    subs := insert rb.readers.length rb.subs
    subsSlice := rb.subsSlice ++ [rb.readers.length]
    readers := rb.readers ++ [r] }

/-- Register a new reader, replaying the history from its last keyframe. -/
def subscribe (rb : RingBuffer) : Option RingBuffer :=
  let r : Reader :=
    { c := Channel.make rb.capacity, drops := 0, needsIFrame := false }
  if rb.closed then
    some { rb with readers := rb.readers ++ [{ r with c := r.c.close }] }
  else
    let (startIdx, found, head) := rb.findLastIFrameLocked
    let ready :=
      if found then
        (preload rb.frames r.c startIdx (head - startIdx)).map
          fun c => { r with c := c }
      else if 0 < head then some { r with needsIFrame := true }
      else some r
    ready.map rb.register

/-- Unregister a reader; a second call finds nothing to do. -/
def closeReader (rb : RingBuffer) (r : Nat) : RingBuffer :=
  if r ∈ rb.subs then
    { rb with subs := rb.subs.erase r, subsSlice := rb.subsSlice.erase r }
  else rb

/-- Close the channel of one reader. -/
def closeChannel (rb : RingBuffer) (sub : Nat) : RingBuffer :=
  { rb with
    readers := rb.readers.modify sub
      fun reader => { reader with c := reader.c.close } }

/-- Close the buffer and the channels of all registered readers. -/
def close (rb : RingBuffer) : RingBuffer :=
  if rb.closed then rb
  else
    { rb.subsSlice.foldl closeChannel { rb with closed := true } with
      subs := ∅
      subsSlice := [] }

/-- One channel receive by the consumer of a reader. -/
def receive (rb : RingBuffer) (r : Nat) : Option RingBuffer :=
  rb.readers[r]?.bind fun reader =>
    reader.c.receive.map fun taken =>
      { rb with readers := rb.readers.set r { reader with c := taken.2 } }

/-! ## Effects of the loops -/

/-- The broadcast loop offers the frame once to every listed reader. -/
theorem foldl_offerTo_frame
    (f : WrittenFrame)
    (subs : List Nat)
    (distinct : subs.Nodup)
    (rb : RingBuffer) :
    (subs.foldl (offerTo f) rb).frames = rb.frames ∧
      (subs.foldl (offerTo f) rb).head = rb.head ∧
      (subs.foldl (offerTo f) rb).closed = rb.closed ∧
      (subs.foldl (offerTo f) rb).subs = rb.subs ∧
      (subs.foldl (offerTo f) rb).subsSlice = rb.subsSlice ∧
      ∀ r, (subs.foldl (offerTo f) rb).readers[r]? =
        if r ∈ subs then rb.readers[r]?.map fun reader => (reader.offer f).1
        else rb.readers[r]? := by
  induction subs generalizing rb with
  | nil => simp
  | cons sub subs inductionHypothesis =>
      obtain ⟨absent, distinctTail⟩ := List.nodup_cons.mp distinct
      obtain ⟨frames, head, closed, keys, slice, readers⟩ :=
        inductionHypothesis distinctTail (offerTo f rb sub)
      rw [List.foldl_cons]
      refine ⟨frames, head, closed, keys, slice, fun r => ?_⟩
      rw [readers r]
      simp only [offerTo, List.getElem?_modify]
      by_cases same : r = sub
      · subst r
        simp [absent]
      · simp [same, Ne.symm same]

/-- Writing to an open buffer stores the frame and offers it once to every
registered reader. -/
theorem write_frame
    {rb : RingBuffer}
    (opened : rb.closed = false)
    (distinct : rb.subsSlice.Nodup)
    (f : Frame) :
    (rb.write f).frames = rb.frames.store rb.head { index := rb.head, frame := f } ∧
      (rb.write f).head = rb.head + 1 ∧
      (rb.write f).subs = rb.subs ∧
      (rb.write f).subsSlice = rb.subsSlice ∧
      ∀ r, (rb.write f).readers[r]? =
        if r ∈ rb.subsSlice then
          rb.readers[r]?.map fun reader =>
            (reader.offer { index := rb.head, frame := f }).1
        else rb.readers[r]? := by
  obtain ⟨frames, head, _, subs, slice, readers⟩ := foldl_offerTo_frame
    { index := rb.head, frame := f } rb.subsSlice distinct
    { rb with
      frames := rb.frames.store rb.head { index := rb.head, frame := f }
      head := rb.head + 1 }
  rw [write, if_neg (Bool.eq_false_iff.mp opened)]
  exact ⟨frames, head, subs, slice, readers⟩

@[simp] theorem closed_write (rb : RingBuffer) (f : Frame) :
    (rb.write f).closed = rb.closed := by
  have loop : ∀ (f : WrittenFrame) (subs : List Nat) (rb : RingBuffer),
      (subs.foldl (offerTo f) rb).closed = rb.closed := by
    intro f subs
    induction subs with
    | nil => simp
    | cons sub subs inductionHypothesis =>
        intro rb
        rw [List.foldl_cons, inductionHypothesis, offerTo]
  unfold write
  split
  · rfl
  · exact loop _ _ _

/-- The closing loop closes the channel of every listed reader. -/
theorem foldl_closeChannel_frame
    (subs : List Nat)
    (distinct : subs.Nodup)
    (rb : RingBuffer) :
    (subs.foldl closeChannel rb).frames = rb.frames ∧
      (subs.foldl closeChannel rb).head = rb.head ∧
      (subs.foldl closeChannel rb).closed = rb.closed ∧
      (subs.foldl closeChannel rb).readers.length = rb.readers.length ∧
      ∀ r, (subs.foldl closeChannel rb).readers[r]? =
        if r ∈ subs then
          rb.readers[r]?.map fun reader => { reader with c := reader.c.close }
        else rb.readers[r]? := by
  induction subs generalizing rb with
  | nil => simp
  | cons sub subs inductionHypothesis =>
      obtain ⟨absent, distinctTail⟩ := List.nodup_cons.mp distinct
      obtain ⟨frames, head, closed, created, readers⟩ :=
        inductionHypothesis distinctTail (closeChannel rb sub)
      rw [List.foldl_cons]
      refine ⟨frames, head, closed, ?_, fun r => ?_⟩
      · rw [created]
        exact List.length_modify _ _ _
      rw [readers r]
      simp only [closeChannel, List.getElem?_modify]
      by_cases same : r = sub
      · subst r
        simp [absent]
      · simp [same, Ne.symm same]

/-- `Subscribe` does not close the buffer. -/
theorem closed_subscribe
    {rb next : RingBuffer}
    (subscribed : rb.subscribe = some next) :
    next.closed = rb.closed := by
  unfold subscribe at subscribed
  split at subscribed
  · rw [← Option.some.inj subscribed]
  · obtain ⟨reader, _, rfl⟩ := Option.map_eq_some_iff.mp subscribed
    rfl

@[simp] theorem closed_close (rb : RingBuffer) : rb.close.closed = true := by
  have loop : ∀ (subs : List Nat) (rb : RingBuffer),
      (subs.foldl closeChannel rb).closed = rb.closed := by
    intro subs
    induction subs with
    | nil => simp
    | cons sub subs inductionHypothesis =>
        intro rb
        rw [List.foldl_cons, inductionHypothesis, closeChannel]
  unfold close
  split
  · assumption
  · exact loop _ _

/-- The reader that `Subscribe` makes for an open buffer: it is preloaded from
the last keyframe of the history, or waits for one if anything was written. -/
def freshReader (rb : RingBuffer) : Option Reader :=
  match rb.scanIFrame 0 rb.capacity with
  | some idx =>
      (preload rb.frames (Channel.make rb.capacity) idx (rb.head - idx)).map
        fun c => { c := c, drops := 0, needsIFrame := false }
  | none =>
      some
        { c := Channel.make rb.capacity
          drops := 0
          needsIFrame := decide (0 < rb.head) }

/-- Subscribing to an open buffer registers a fresh reader. -/
theorem subscribe_eq_of_open
    {rb : RingBuffer}
    (opened : rb.closed = false) :
    rb.subscribe = rb.freshReader.map rb.register := by
  unfold subscribe findLastIFrameLocked freshReader
  cases scanned : rb.scanIFrame 0 rb.capacity with
  | some idx => simp [opened]
  | none => by_cases written : 0 < rb.head <;> simp [opened, written]

/-- Subscribing to a closed buffer makes a reader whose channel is closed. -/
theorem subscribe_eq_of_closed
    {rb : RingBuffer}
    (closed : rb.closed = true) :
    rb.subscribe = some
      { rb with
        readers := rb.readers ++
          [{ c := (Channel.make rb.capacity).close
             drops := 0
             needsIFrame := false }] } := by
  simp [subscribe, closed]

/-- A keyframe found by the backward scan is a stored keyframe at most
`i + iterations` frames back. -/
theorem scanIFrame_eq_some
    (rb : RingBuffer)
    {i iterations idx : Nat}
    (found : rb.scanIFrame i iterations = some idx) :
    idx < rb.head ∧ rb.head ≤ idx + (i + iterations) ∧
      ∃ f, rb.frames.load idx = some f ∧ f.frame.isKeyFrame = true := by
  induction iterations generalizing i with
  | zero => simp [scanIFrame] at found
  | succ iterations inductionHypothesis =>
      rw [scanIFrame] at found
      split at found
      · simp at found
      · rename_i inHistory
        split at found
        · rename_i f stored
          split at found
          · rename_i key
            simp only [Option.some.injEq] at found
            subst idx
            exact ⟨by omega, by omega, f, stored, key⟩
          · obtain ⟨before, near, stored⟩ := inductionHypothesis found
            exact ⟨before, by omega, stored⟩
        · obtain ⟨before, near, stored⟩ := inductionHypothesis found
          exact ⟨before, by omega, stored⟩

/-- Preloading the rest of a retained history into an open channel with room
appends exactly that rest. -/
theorem preload_eq_some
    {frames : Ring WrittenFrame}
    {history : List WrittenFrame}
    (retains : frames.Retains history)
    (i iterations : Nat)
    (reaches : i + iterations = history.length)
    (recent : history.length ≤ i + frames.capacity)
    (c : Channel WrittenFrame)
    (opened : c.closed = false)
    (room : c.sent.length + iterations ≤ c.received + c.capacity) :
    ∃ next, preload frames c i iterations = some next ∧
      next.sent = c.sent ++ history.drop i ∧
      next.capacity = c.capacity ∧ next.closed = false := by
  induction iterations generalizing i c with
  | zero =>
      have drained : history.drop i = [] := List.drop_eq_nil_of_le (by omega)
      exact ⟨c, rfl, by rw [drained, List.append_nil], rfl, opened⟩
  | succ iterations inductionHypothesis =>
      have bound : i < history.length := by omega
      have stored : frames.load i = some history[i] := by
        rw [retains i bound recent, List.getElem?_eq_getElem bound]
      have notFull : ¬c.Full := by
        unfold Channel.Full
        omega
      obtain ⟨next, loaded, sent, capacity, nextOpened⟩ :=
        inductionHypothesis (i + 1) (by omega) (by omega)
          (c.push history[i] notFull) opened
          (by
            simp only [Channel.push, List.length_append, List.length_singleton]
            omega)
      refine ⟨next, ?_, ?_, capacity, nextOpened⟩
      · rw [preload, stored]
        simp only [Channel.send, opened, notFull, Bool.false_eq_true, if_false,
          not_false_eq_true, dif_pos, Option.bind_some]
        exact loaded
      · rw [sent, Channel.sent_push, List.append_assoc, List.singleton_append,
          List.getElem_cons_drop]

end RingBuffer

/-- The atomic steps of a buffer and its consumers. -/
inductive Action
  | write (f : Frame)
  | setParams (vps sps pps : Option (List UInt8))
  | subscribe
  | closeReader (r : Nat)
  | receive (r : Nat)
  | close
  deriving DecidableEq

/-- Effect of one step; a step on a reader that does not exist yet, and a
blocked channel operation, are not enabled. -/
def step (rb : RingBuffer) : Action → Option RingBuffer
  | .write f => some (rb.write f)
  | .setParams vps sps pps => some (rb.setParams vps sps pps)
  | .subscribe => rb.subscribe
  | .closeReader r =>
      if r < rb.readers.length then some (rb.closeReader r) else none
  | .receive r => rb.receive r
  | .close => some rb.close

end Buffer
end RuseonCore
