import RuseonCore.Buffer.Runs

/-!
# Channel safety of the ring buffer

Sending on a closed channel and closing a channel twice panic in the goroutine
that does it, which for `Write` and `Close` is the ingest of the camera.  Both
set the channel's `misused` flag, which nothing resets.  The flag stays off
because the subscriber slice lists registered readers only, each once, and only
`Close` of the buffer closes a registered reader's channel, emptying the slice
in the same step.
-/

namespace RuseonCore
namespace Buffer

open Transition

/-- No channel was ever sent on when closed, or closed twice. -/
def ChannelsSound (rb : RingBuffer) : Prop :=
  ∀ reader ∈ rb.readers, reader.c.misused = false

/-- Offering a frame to a reader with an open channel does not misuse it. -/
theorem misused_offer
    {reader : Reader}
    (opened : reader.c.closed = false)
    (f : WrittenFrame) :
    (reader.offer f).1.c.misused = reader.c.misused := by
  unfold Reader.offer
  split
  · rfl
  · rcases reader.c.trySend_cases f opened with ⟨room, outcome⟩ | ⟨_, outcome⟩
    · rw [outcome]
      rfl
    · rw [outcome]

/-- Closing an open channel does not misuse it. -/
theorem misused_close
    {c : Channel WrittenFrame}
    (opened : c.closed = false) :
    c.close.misused = c.misused := by
  simp [Channel.close, opened]

/-- Preloading an open channel does not misuse it. -/
theorem misused_preload
    {frames : Ring WrittenFrame}
    {c next : Channel WrittenFrame}
    {i iterations : Nat}
    (opened : c.closed = false)
    (loaded : RingBuffer.preload frames c i iterations = some next) :
    next.misused = c.misused := by
  induction iterations generalizing i c with
  | zero =>
      simp only [RingBuffer.preload, Option.some.injEq] at loaded
      rw [loaded]
  | succ iterations inductionHypothesis =>
      rw [RingBuffer.preload] at loaded
      cases stored : frames.load i with
      | none =>
          rw [stored] at loaded
          exact inductionHypothesis opened loaded
      | some f =>
          rw [stored] at loaded
          obtain ⟨pushed, sent, rest⟩ := Option.bind_eq_some_iff.mp loaded
          simp only [Channel.send, opened, Bool.false_eq_true, if_false,
            Option.dite_none_right_eq_some, Option.some.injEq] at sent
          obtain ⟨room, rfl⟩ := sent
          exact inductionHypothesis (c := c.push f room) opened rest

/-- A fresh reader's channel is only filled. -/
theorem misused_freshReader
    {rb : RingBuffer}
    {reader : Reader}
    (fresh : rb.freshReader = some reader) :
    reader.c.misused = false := by
  unfold RingBuffer.freshReader at fresh
  split at fresh
  · obtain ⟨c, loaded, rfl⟩ := Option.map_eq_some_iff.mp fresh
    exact misused_preload rfl loaded
  · rw [← Option.some.inj fresh]
    rfl

/-- A step that changes each reader at most in a way that keeps its channel
unmisused keeps all channels sound. -/
theorem ChannelsSound.of_readers
    {rb next : RingBuffer}
    (sound : ChannelsSound rb)
    (readers : ∀ (r : Nat) (after : Reader), next.readers[r]? = some after →
      ∃ before : Reader, rb.readers[r]? = some before ∧
        after.c.misused = before.c.misused) :
    ChannelsSound next := by
  intro after created
  obtain ⟨r, present⟩ := List.mem_iff_getElem?.mp created
  obtain ⟨before, presentBefore, same⟩ := readers r after present
  rw [same]
  exact sound before (List.mem_of_getElem? presentBefore)

/-- A new reader with a sound channel joins the others. -/
theorem ChannelsSound.concat
    {rb next : RingBuffer}
    (sound : ChannelsSound rb)
    {reader : Reader}
    (created : next.readers = rb.readers ++ [reader])
    (unmisused : reader.c.misused = false) :
    ChannelsSound next := by
  intro other member
  rw [created, List.mem_append, List.mem_singleton] at member
  rcases member with old | new
  · exact sound other old
  · rw [new]
    exact unmisused

/-- `Write` sends on open channels only. -/
theorem ChannelsSound.write
    {history : List Frame}
    {rb : RingBuffer}
    (sound : ChannelsSound rb)
    (invariant : Invariant history rb)
    (f : Frame) :
    ChannelsSound (rb.write f) := by
  cases closed : rb.closed with
  | true =>
      rw [RingBuffer.write, if_pos closed]
      exact sound
  | false =>
      apply sound.of_readers
      intro r after present
      rw [invariant.readers_write closed f r] at present
      split at present
      · rename_i member
        obtain ⟨before, presentBefore, rfl⟩ := Option.map_eq_some_iff.mp present
        have opened := (invariant.readers r before presentBefore).opened member
        exact ⟨before, presentBefore, misused_offer opened _⟩
      · exact ⟨after, present, rfl⟩

/-- `Subscribe` fills a channel it has just made. -/
theorem ChannelsSound.subscribe
    {rb next : RingBuffer}
    (sound : ChannelsSound rb)
    (subscribed : rb.subscribe = some next) :
    ChannelsSound next := by
  cases closed : rb.closed with
  | true =>
      rw [RingBuffer.subscribe_eq_of_closed closed, Option.some.injEq]
        at subscribed
      rw [← subscribed]
      exact sound.concat rfl rfl
  | false =>
      rw [RingBuffer.subscribe_eq_of_open closed] at subscribed
      obtain ⟨reader, fresh, rfl⟩ := Option.map_eq_some_iff.mp subscribed
      exact sound.concat rfl (misused_freshReader fresh)

/-- `Close` closes the channels of registered readers, which are open. -/
theorem ChannelsSound.close
    {history : List Frame}
    {rb : RingBuffer}
    (sound : ChannelsSound rb)
    (invariant : Invariant history rb) :
    ChannelsSound rb.close := by
  unfold RingBuffer.close
  split
  · exact sound
  · obtain ⟨_, _, _, _, readers⟩ :=
      RingBuffer.foldl_closeChannel_frame rb.subsSlice invariant.distinct
        { rb with closed := true }
    apply sound.of_readers
    intro r after present
    rw [readers r] at present
    split at present
    · rename_i member
      obtain ⟨before, presentBefore, rfl⟩ := Option.map_eq_some_iff.mp present
      have opened := (invariant.readers r before presentBefore).opened member
      exact ⟨before, presentBefore, misused_close opened⟩
    · exact ⟨after, present, rfl⟩

/-- A receive leaves the flag of every channel as it is. -/
theorem ChannelsSound.receive
    {rb next : RingBuffer}
    {r : Nat}
    (sound : ChannelsSound rb)
    (received : rb.receive r = some next) :
    ChannelsSound next := by
  obtain ⟨reader, present, taken⟩ := Option.bind_eq_some_iff.mp received
  obtain ⟨⟨item, c⟩, drained, rfl⟩ := Option.map_eq_some_iff.mp taken
  obtain ⟨_, _, _, misused⟩ := Channel.receive_frame drained
  intro other member
  rcases List.mem_or_eq_of_mem_set member with old | new
  · exact sound other old
  · rw [new]
    exact misused.trans (sound reader (List.mem_of_getElem? present))

/-- No step misuses a channel. -/
theorem ChannelsSound.step
    {history : List Frame}
    {rb next : RingBuffer}
    {action : Action}
    (sound : ChannelsSound rb)
    (invariant : Invariant history rb)
    (taken : step rb action = some next) :
    ChannelsSound next := by
  cases action with
  | write f =>
      simp only [Buffer.step, Option.some.injEq] at taken
      rw [← taken]
      exact sound.write invariant f
  | setParams vps sps pps =>
      simp only [Buffer.step, Option.some.injEq] at taken
      rw [← taken]
      exact sound
  | subscribe => exact sound.subscribe taken
  | closeReader r =>
      simp only [Buffer.step, Option.ite_none_right_eq_some, Option.some.injEq]
        at taken
      rw [← taken.2, RingBuffer.closeReader]
      split <;> exact sound
  | receive r => exact sound.receive taken
  | close =>
      simp only [Buffer.step, Option.some.injEq] at taken
      rw [← taken]
      exact sound.close invariant

/-- In every run of a new buffer no channel is sent on after it was closed, and
none is closed twice.  In every state on the way the subscriber slice lists the
keys of the subscriber map, each once, and their channels are open. -/
theorem channels_sound
    (capacity : Int)
    (actions : List Action)
    {rb : RingBuffer}
    (reached : run step (newRingBuffer capacity) actions = some rb) :
    (∀ reader ∈ rb.readers, reader.c.misused = false) ∧
    rb.subsSlice.Nodup ∧
    (∀ r, r ∈ rb.subsSlice ↔ r ∈ rb.subs) ∧
    ∀ r ∈ rb.subsSlice, ∃ reader,
      rb.readers[r]? = some reader ∧ reader.c.closed = false := by
  have initial : Recorded [] (newRingBuffer capacity) ∧
      ChannelsSound (newRingBuffer capacity) :=
    ⟨recorded_of_run (run_nil _), by simp [ChannelsSound, newRingBuffer]⟩
  have preserved : ∀ history state action next,
      Recorded history state ∧ ChannelsSound state →
      step state action = some next →
      Recorded (history ++ [action]) next ∧ ChannelsSound next := by
    rintro history state action next ⟨recorded, sound⟩ taken
    exact ⟨recorded.step taken, sound.step recorded.invariant taken⟩
  obtain ⟨recorded, sound⟩ := run_invariant_history preserved initial reached
  have invariant := recorded.invariant
  refine ⟨sound, invariant.distinct, fun r => ?_, fun r member => ?_⟩
  · rw [invariant.subs_eq, List.mem_toFinset]
  · obtain ⟨reader, present⟩ := invariant.registered r member
    exact ⟨reader, present, (invariant.readers r reader present).opened member⟩

/-- Two readers, one closed twice and once more after the buffer, which is
closed twice and written to afterwards. -/
theorem channels_sound_repeated_close :
    let key : Frame := { timestamp := 0, isKeyFrame := true, nalus := [] }
    ∃ rb, run step (newRingBuffer 2)
        [.subscribe, .subscribe, .write key, .closeReader 0, .closeReader 0,
          .write key, .close, .closeReader 1, .close, .write key, .subscribe] =
          some rb ∧
      ∀ reader ∈ rb.readers, reader.c.misused = false := by
  intro key
  have enabled : (run step (newRingBuffer 2)
      [.subscribe, .subscribe, .write key, .closeReader 0, .closeReader 0,
        .write key, .close, .closeReader 1, .close, .write key,
        .subscribe]).isSome := by
    decide
  obtain ⟨rb, reached⟩ := Option.isSome_iff_exists.mp enabled
  exact ⟨rb, reached, (channels_sound 2 _ reached).1⟩

end Buffer
end RuseonCore
