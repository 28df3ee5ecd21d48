import RuseonCore.Recorder.Handling

/-!
# Codec parameters of recorded samples

The recorder writes the codec parameters of the ring buffer into the header of a
file when it creates the file, and does not look at them again until the next
file.  Here the recorder runs beside `SetParams` calls of `internal/buffer/ring.go`,
and every sample is remembered with the parameters that were in force when its
frame came.  A frame is consumed before the parameters change again.
-/

namespace RuseonCore
namespace Recorder

open Buffer Transition

/-- The recorder, the codec parameters of the ring buffer, and for every sample
that was built the parameters its frame was captured under. -/
structure Capture where
  run : Run
  params : Option CodecParams
  captured : List CodecParams

/-- A `SetParams` call, or a step of the recorder. -/
inductive CaptureStep
  | setParams (vps sps pps : Option (List UInt8))
  | run (label : RunStep)

/-- The sample with the given number was captured under the parameters in the
header of the file. -/
def OpenFile.Describes
    (file : OpenFile)
    (captured : List CodecParams)
    (id : Nat) : Prop :=
  ∃ params, file.header = some params ∧ captured[id]? = some params

/-- Every sample in a file, or on its way there, was captured under the
parameters in the header of the file. -/
structure Run.Matching (r : Run) (captured : List CodecParams) : Prop where
  archived : ∀ file ∈ r.archive, ∀ id ∈ file.stored, file.Describes captured id
  opened : ∀ file, r.file = some file →
    ∀ id ∈ file.stored ++ r.taken, file.Describes captured id

namespace Capture

/-- `GetParams`: all parameters are nil until they are set. -/
def getParams (c : Capture) : CodecParams :=
  c.params.getD ⟨none, none, none⟩

/-- The recorder is launched; the ring buffer has no parameters yet. -/
def start : Capture where
  run := Run.start
  params := none
  captured := []

/-- The answers of a step of the recorder agree with the ring buffer. -/
def Reads (c : Capture) : RunStep → Prop
  | .poll found => found = (c.getParams.sps.isSome && c.getParams.pps.isSome)
  | .frame _ answers => answers.params = c.getParams
  | .exit _ => True

instance (c : Capture) (label : RunStep) : Decidable (c.Reads label) :=
  match label with
  | .poll found => inferInstanceAs (Decidable
      (found = (c.getParams.sps.isSome && c.getParams.pps.isSome)))
  | .frame _ answers => inferInstanceAs (Decidable (answers.params = c.getParams))
  | .exit _ => inferInstanceAs (Decidable True)

/-- The recorder has taken a step. -/
def advance (c : Capture) (next : Run) : Capture :=
  { c with
    run := next
    captured :=
      if next.samplesBuilt = c.run.samplesBuilt then c.captured
      else c.captured ++ [c.getParams] }

/-- Effect of one step. -/
def step (c : Capture) : CaptureStep → Option Capture
  | .setParams vps sps pps => some { c with params := some ⟨vps, sps, pps⟩ }
  | .run label => if c.Reads label then (c.run.step label).map c.advance else none

/-- Every sample was captured under the parameters in the header of its file. -/
def Matching (c : Capture) : Prop :=
  c.run.Matching c.captured

/-- The parameters do not change while a file is open. -/
def Stable (c : Capture) : CaptureStep → Prop
  | .setParams vps sps pps => c.run.file.isSome = true → c.params = some ⟨vps, sps, pps⟩
  | .run _ => True

instance (c : Capture) (label : CaptureStep) : Decidable (c.Stable label) :=
  match label with
  | .setParams _ _ _ => inferInstanceAs (Decidable (_ → _))
  | .run _ => inferInstanceAs (Decidable True)

/-- Every sample has its parameters. -/
def Tracked (c : Capture) : Prop :=
  c.captured.length = c.run.samplesBuilt

end Capture

/-! ## Samples of a file -/

namespace OpenFile

theorem Describes.append
    {file : OpenFile}
    {captured : List CodecParams}
    {id : Nat}
    (describes : file.Describes captured id)
    (more : List CodecParams) :
    file.Describes (captured ++ more) id := by
  obtain ⟨params, header, found⟩ := describes
  have within := (List.getElem?_eq_some_iff.mp found).1
  exact ⟨params, header, (List.getElem?_append_left within).trans found⟩

theorem stored_of_extends
    {r : Run}
    {before after : OpenFile}
    (longer : r.Extends before after)
    {id : Nat}
    (member : id ∈ after.stored) :
    id ∈ before.stored ++ r.taken := by
  obtain ⟨part, parts, _, samples⟩ := longer.parts
  rw [stored, parts, List.flatMap_append, List.mem_append] at member
  rcases member with old | new
  · exact List.mem_append_left _ old
  · simp only [List.flatMap_cons, List.flatMap_nil, List.append_nil] at new
    obtain ⟨s, within, rfl⟩ := List.mem_map.mp new
    exact List.mem_append_right _ (samples s within)

end OpenFile

namespace Run

theorem Matching.append
    {r : Run}
    {captured : List CodecParams}
    (matching : r.Matching captured)
    (more : List CodecParams) :
    r.Matching (captured ++ more) where
  archived := fun file member id stored =>
    (matching.archived file member id stored).append more
  opened := fun file found id stored => (matching.opened file found id stored).append more

/-- A file that is completed with waiting samples has their parameters. -/
theorem Finishes.describes
    {r : Run}
    {before after : OpenFile}
    (finishes : r.Finishes before after)
    {captured : List CodecParams}
    (describes : ∀ id ∈ before.stored ++ r.taken, before.Describes captured id) :
    ∀ id ∈ after.stored, after.Describes captured id := by
  intro id member
  rcases finishes with rfl | longer
  · exact describes id (List.mem_append_left _ member)
  · obtain ⟨params, header, found⟩ :=
      describes id (OpenFile.stored_of_extends longer member)
    exact ⟨params, longer.header.trans header, found⟩

theorem Matching.closes
    {r next : Run}
    {captured : List CodecParams}
    (matching : r.Matching captured)
    (closes : r.Closes next) :
    next.Matching captured where
  archived := by
    apply closes.archived (fun file => ∀ id ∈ file.stored, file.Describes captured id)
      matching.archived
    intro file after opened finishes
    exact finishes.describes (matching.opened file opened)
  opened := fun file found => by
    rw [closes.file] at found
    cases found

/-- A file that has just begun has at most the sample of its first frame. -/
theorem Matching.begun
    {r : Run}
    {captured : List CodecParams}
    (matching : r.Matching captured)
    (f : Frame)
    (answers : FrameAnswers)
    (latest : answers.built = true → captured[r.samplesBuilt]? = some answers.params) :
    (((r.openFile answers).beginFile f).addSample f answers.built).Matching captured where
  archived := by
    rw [archive_addSample]
    exact matching.archived
  opened := fun file found id member => by
    rw [file_addSample] at found
    rw [← Option.some.inj found] at member ⊢
    rcases List.mem_append.mp member with stored | taken
    · cases stored
    · rcases mem_taken_addSample taken with old | ⟨built, new⟩
      · cases old
      · rw [new]
        exact ⟨answers.params, rfl, latest built⟩

end Run

namespace Capture

/-! ## Steps -/

theorem captured_advance_append (c : Capture) (next : Run) :
    ∃ more, (c.advance next).captured = c.captured ++ more := by
  unfold advance
  dsimp only
  split
  · exact ⟨[], (List.append_nil _).symm⟩
  · exact ⟨[c.getParams], rfl⟩

theorem captured_advance_grown
    {c : Capture}
    {next : Run}
    (count : next.samplesBuilt = c.run.samplesBuilt + 1) :
    (c.advance next).captured = c.captured ++ [c.getParams] := by
  have grown : next.samplesBuilt ≠ c.run.samplesBuilt := by
    rw [count]
    exact Nat.succ_ne_self _
  rw [advance, if_neg grown]

/-- A recorder that closes its file keeps the parameters of all samples. -/
theorem Matching.advance
    {c : Capture}
    {next : Run}
    (matching : c.Matching)
    (closes : c.run.Closes next) :
    (c.advance next).Matching := by
  obtain ⟨more, captured⟩ := c.captured_advance_append next
  rw [Matching, captured]
  exact (Run.Matching.closes matching closes).append more

/-- A file that is closed without parts has no samples. -/
theorem Matching.unheaded
    {c : Capture}
    {rotated next : Run}
    (matching : c.Matching)
    (closes : c.run.Closes rotated)
    (file : next.file = none)
    {closed : ClosedFile}
    (archive : next.archive = rotated.archive ++ [closed])
    (empty : closed.parts = []) :
    (c.advance next).Matching := by
  obtain ⟨more, captured⟩ := c.captured_advance_append next
  rw [Matching, captured]
  refine Run.Matching.append ⟨?_, ?_⟩ more
  · rw [Capture.advance, archive]
    intro other member
    rcases List.mem_append.mp member with old | new
    · exact (Run.Matching.closes matching closes).archived other old
    · rw [List.mem_singleton.mp new, OpenFile.stored, empty]
      intro id stored
      cases stored
  · intro other found
    rw [Capture.advance, file] at found
    cases found

/-- A new file has the parameters in force in its header. -/
theorem Matching.begun
    {c : Capture}
    {rotated : Run}
    (tracked : c.Tracked)
    (matching : c.Matching)
    (closes : c.run.Closes rotated)
    (built : rotated.samplesBuilt = c.run.samplesBuilt)
    (f : Frame)
    {answers : FrameAnswers}
    (read : answers.params = c.getParams) :
    (c.advance
      (((rotated.openFile answers).beginFile f).addSample f answers.built)).Matching := by
  obtain ⟨more, captured⟩ := c.captured_advance_append
    (((rotated.openFile answers).beginFile f).addSample f answers.built)
  have before := (Run.Matching.closes matching closes).append more
  rw [← captured] at before
  refine before.begun f answers ?_
  intro isBuilt
  have count : (((rotated.openFile answers).beginFile f).addSample f
      answers.built).samplesBuilt = c.run.samplesBuilt + 1 := by
    rw [Run.samplesBuilt_addSample, isBuilt, ← built]
    rfl
  rw [captured_advance_grown count, built, ← tracked, read]
  exact List.getElem?_concat_length

/-- The parameters of all samples are in order, and the header of the open file has
the parameters in force. -/
structure Sound (c : Capture) : Prop where
  matching : c.Matching
  headed : ∀ file, c.run.file = some file → file.header = some c.getParams

/-- Without an open file, the parameters of the samples are in order. -/
theorem Matching.closed
    {c : Capture}
    (matching : c.Matching)
    (closed : c.run.file = none) :
    c.Sound where
  matching := matching
  headed := fun file found => by
    rw [closed] at found
    cases found

/-- The open file goes on with the sample of a frame. -/
theorem Sound.extended
    {c : Capture}
    {next : Run}
    (tracked : c.Tracked)
    (sound : c.Sound)
    {file after : OpenFile}
    (opened : c.run.file = some file)
    (reopened : next.file = some after)
    (header : after.header = file.header)
    (archive : next.archive = c.run.archive)
    {built : Bool}
    (count : next.samplesBuilt = c.run.samplesBuilt + built.toNat)
    (kept : ∀ id ∈ after.stored ++ next.taken,
      id ∈ file.stored ++ c.run.taken ∨ (built = true ∧ id = c.run.samplesBuilt)) :
    (c.advance next).Sound := by
  have same := header.trans (sound.headed file opened)
  obtain ⟨more, captured⟩ := c.captured_advance_append next
  refine ⟨⟨?_, ?_⟩, ?_⟩
  · rw [captured]
    change ∀ closed ∈ next.archive, _
    rw [archive]
    exact (Run.Matching.append sound.matching more).archived
  · intro other found id member
    cases reopened.symm.trans found
    rcases kept id member with old | ⟨isBuilt, new⟩
    · obtain ⟨params, described, hasParams⟩ := sound.matching.opened file opened id old
      rw [captured]
      exact OpenFile.Describes.append ⟨params, header.trans described, hasParams⟩ more
    · rw [isBuilt] at count
      refine ⟨c.getParams, same, ?_⟩
      rw [captured_advance_grown count, new, ← tracked]
      exact List.getElem?_concat_length
  · intro other found
    cases reopened.symm.trans found
    exact same

/-- Handling a frame keeps the parameters in order. -/
theorem Sound.handle
    {c : Capture}
    (tracked : c.Tracked)
    (sound : c.Sound)
    {f : Frame}
    {answers : FrameAnswers}
    (read : answers.params = c.getParams) :
    (c.advance (c.run.handle f answers)).Sound := by
  have matching := sound.matching
  cases c.run.handles_handle f answers with
  | dropped replaced closes => exact (matching.advance closes).closed closes.file
  | unheaded rotated replaced closes file closed archive empty =>
      exact (matching.unheaded closes file archive empty).closed file
  | begun rotated replaced closes built result =>
      rw [result]
      refine ⟨matching.begun tracked closes built f read, fun file found => ?_⟩
      rw [advance, Run.file_addSample] at found
      cases found
      exact congrArg some read
  | held opened current unflushed result =>
      obtain ⟨file, found⟩ := Option.isSome_iff_exists.mp opened
      rw [result]
      refine sound.extended tracked found
        ((Run.file_addSample c.run f answers.built).trans found) rfl
        (Run.archive_addSample c.run f answers.built)
        (Run.samplesBuilt_addSample c.run f answers.built) ?_
      intro id member
      rcases List.mem_append.mp member with stored | taken
      · exact .inl (List.mem_append_left _ stored)
      · exact (Run.mem_taken_addSample taken).imp_left (List.mem_append_right _)
  | flushed file after opened current flushes written reopened longer archive
      baseTime samples pending built =>
      have count := built.trans (Run.samplesBuilt_addSample c.run f answers.built)
      refine sound.extended tracked opened reopened longer.header archive count ?_
      intro id member
      rcases List.mem_append.mp member with stored | taken
      · exact .inl (OpenFile.stored_of_extends longer stored)
      · obtain ⟨s, waiting | latest, rfl⟩ := Run.mem_taken.mp taken
        · rw [samples] at waiting
          cases waiting
        · have added : s.id ∈ (c.run.addSample f answers.built).taken :=
            Run.mem_taken.mpr ⟨s, .inr (pending.symm.trans latest), rfl⟩
          exact (Run.mem_taken_addSample added).imp_left (List.mem_append_right _)
  | broken opened current flushes unwritten closes =>
      exact (matching.advance closes).closed closes.file

/-- A step of the recorder reads what the ring buffer has. -/
theorem step_run_eq_some
    {c next : Capture}
    {label : RunStep}
    (taken : c.step (.run label) = some next) :
    c.Reads label ∧ ∃ after, c.run.step label = some after ∧ next = c.advance after := by
  simp only [step] at taken
  split at taken
  · rename_i reads
    obtain ⟨after, stepped, result⟩ := Option.map_eq_some_iff.mp taken
    exact ⟨reads, after, stepped, result.symm⟩
  · cases taken

/-- A step keeps the parameters in order, if the parameters do not change while a
file is open. -/
theorem Sound.step
    {c next : Capture}
    {label : CaptureStep}
    (tracked : c.Tracked)
    (sound : c.Sound)
    (stable : c.Stable label)
    (taken : c.step label = some next) :
    next.Sound := by
  cases label with
  | setParams vps sps pps =>
      cases taken
      refine ⟨sound.matching, fun file found => ?_⟩
      have headed := sound.headed file found
      rwa [getParams, stable (Option.isSome_of_mem found)] at headed
  | run label =>
      obtain ⟨reads, after, stepped, rfl⟩ := step_run_eq_some taken
      cases Run.steps_of_step stepped with
      | polled found phase _ =>
          rw [advance, if_pos rfl]
          exact ⟨⟨sound.matching.archived, sound.matching.opened⟩, sound.headed⟩
      | handled f answers _ => exact sound.handle tracked reads
      | cancelled answers _ =>
          rw [advance, if_pos rfl]
          exact ⟨⟨sound.matching.archived, sound.matching.opened⟩, sound.headed⟩
      | finished answers _ =>
          have closes := c.run.closes_finish answers
          exact Matching.closed
            (sound.matching.advance ⟨closes.file, closes.idle, closes.opened⟩) closes.file

/-- Every sample that is built gets its parameters. -/
theorem Tracked.advance
    {c : Capture}
    {next : Run}
    (tracked : c.Tracked)
    (count : next.samplesBuilt = c.run.samplesBuilt ∨
      next.samplesBuilt = c.run.samplesBuilt + 1) :
    (c.advance next).Tracked := by
  rcases count with same | grown
  · rw [Tracked, Capture.advance, if_pos same]
    exact tracked.trans same.symm
  · rw [Tracked, captured_advance_grown grown, List.length_append, tracked]
    exact grown.symm

theorem Tracked.step
    {c next : Capture}
    {label : CaptureStep}
    (tracked : c.Tracked)
    (taken : c.step label = some next) :
    next.Tracked := by
  cases label with
  | setParams vps sps pps =>
      rw [← Option.some.inj taken]
      exact tracked
  | run label =>
      obtain ⟨_, after, stepped, rfl⟩ := step_run_eq_some taken
      apply tracked.advance
      cases Run.steps_of_step stepped with
      | polled found phase _ => exact .inl rfl
      | handled f answers _ => exact c.run.samplesBuilt_handle f answers
      | cancelled answers _ => exact .inl rfl
      | finished answers _ => exact .inl (c.run.samplesBuilt_finish answers)

theorem matching_start : start.Matching where
  archived := fun file member => by cases member
  opened := fun file found => by cases found

end Capture

/-- All along a run beside changes of the codec parameters, every sample of a
file was captured under the parameters in the header of the file, if the parameters
do not change while a file is open. -/
theorem samples_match_header_of_stable
    (labels : List CaptureStep)
    (stable : Meets Capture.step Capture.Stable Capture.start labels) :
    Always Capture.step Capture.Matching Capture.start labels := by
  have preserved : ∀ (c : Capture) label next, c.Tracked ∧ c.Sound → c.Stable label →
      c.step label = some next → next.Tracked ∧ next.Sound :=
    fun _ _ _ holds met taken =>
      ⟨holds.1.step taken, holds.2.step holds.1 met taken⟩
  exact stable.always preserved (fun _ holds => holds.2.matching)
    ⟨rfl, Capture.matching_start.closed rfl⟩

/-- An SPS for 144x96 pixels, and a PPS. -/
def largeParams : CodecParams :=
  ⟨none, some [0x67, 0x42, 0x00, 0x0a, 0xf8, 0x49, 0xa2], some [0x68, 0xce, 0x38, 0x80]⟩

/-- The parameters change before the first file, and are set again unchanged while
it is open. -/
def settled : List CaptureStep :=
  [.setParams none smallParams.sps smallParams.pps, .run (.poll true),
    .setParams none largeParams.sps largeParams.pps,
    .run (.frame (keyframeAt 0) { smoothly with params := largeParams }),
    .setParams none largeParams.sps largeParams.pps,
    .run (.frame (keyframeAt 1) { smoothly with params := largeParams }),
    .run (.frame (keyframeAt 2) { smoothly with params := largeParams })]

theorem samples_match_header_of_stable_settled :
    (run Capture.step Capture.start settled).isSome = true ∧
      Always Capture.step Capture.Matching Capture.start settled :=
  ⟨by decide, samples_match_header_of_stable settled (by decide)⟩

/-- The parameters change after the first frame of the file. -/
def reconfigured : List CaptureStep :=
  [.setParams none smallParams.sps smallParams.pps, .run (.poll true),
    .run (.frame (keyframeAt 0) smoothly),
    .setParams none largeParams.sps largeParams.pps,
    .run (.frame (keyframeAt 1) { smoothly with params := largeParams }),
    .run (.frame (keyframeAt 2) { smoothly with params := largeParams })]

/-- The sample of the second keyframe is written to the file of the first one,
whose header has other parameters. -/
theorem sample_under_other_header :
    ∃ finish file,
      run Capture.step Capture.start reconfigured = some finish ∧
      finish.run.file = some file ∧
      file.header = some smallParams ∧
      file.stored = [0, 1] ∧
      finish.captured[1]? = some largeParams ∧
      ¬ finish.Matching := by
  refine ⟨_, _, rfl, rfl, rfl, rfl, rfl, ?_⟩
  intro matching
  obtain ⟨params, header, captured⟩ := matching.opened _ rfl 1 (by decide)
  cases header
  revert captured
  decide

end Recorder
end RuseonCore
