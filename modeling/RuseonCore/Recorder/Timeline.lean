import RuseonCore.Recorder.Durations

/-!
# The timeline of a file

The last sample of a part gets its duration from the keyframe that begins the next
part, so the durations of a part lead to the base time of the next one.  Between
the frames of a file, this is an invariant of the variables of the goroutine
(`Clocked`): the samples in the parts of the file, those that are collected and the
pending one are linked by their durations wherever the gaps are plausible.
-/

namespace RuseonCore
namespace Recorder

open Buffer Rtsp Transition

/-! ## Ticks -/

/-- Timestamp of the frame of a sample in ticks. -/
def Sample.tick (s : Sample) : Int64 :=
  durationTo90k (timestamp s.frame)

theorem Sample.tick_mk (id : Nat) (f : Frame) (duration : UInt32) :
    Sample.tick ⟨id, f, duration⟩ = durationTo90k (timestamp f) := rfl

/-- The duration of a sample is the gap to the next one, if that is plausible. -/
def Sample.Follows (s next : Sample) : Prop :=
  0 < next.tick - s.tick → next.tick - s.tick ≤ 450000 →
    s.duration = (next.tick - s.tick).toInt.toNat.toUInt32

/-- Samples of parts. -/
def samplesOf (parts : List Part) : List Sample :=
  parts.flatMap Part.samples

/-- The parts of a file that starts at the origin, and samples after them. -/
structure Timed (origin : Int64) (parts : List Part) (rest : List Sample) : Prop where
  start : ∀ s, (samplesOf parts ++ rest).head? = some s → s.tick = origin
  based : ∀ part ∈ parts, ∃ s, part.samples.head? = some s ∧
    part.baseTime = (s.tick - origin).toUInt64
  linked : (samplesOf parts ++ rest).IsChain Sample.Follows

namespace Timed

variable {origin : Int64} {parts : List Part} {samples rest : List Sample}

theorem nil (origin : Int64) : Timed origin [] [] where
  start := by simp [samplesOf]
  based := by simp
  linked := List.IsChain.nil

/-- The samples after the parts may be written as a part. -/
theorem write
    (timed : Timed origin parts (samples ++ rest))
    (nonempty : samples ≠ [])
    {part : Part}
    (contents : part.samples = samples)
    (base : ∀ s, samples.head? = some s → part.baseTime = (s.tick - origin).toUInt64) :
    Timed origin (parts ++ [part]) rest := by
  have same : samplesOf (parts ++ [part]) ++ rest = samplesOf parts ++ (samples ++ rest) := by
    simp [samplesOf, contents]
  refine ⟨same ▸ timed.start, ?_, same ▸ timed.linked⟩
  intro other member
  rcases List.mem_append.mp member with old | new
  · exact timed.based other old
  · obtain ⟨s, others, rfl⟩ := List.exists_cons_of_ne_nil nonempty
    rw [List.mem_singleton.mp new, contents]
    exact ⟨s, rfl, base s rfl⟩

/-- The last sample gets its duration. -/
theorem settle
    {pending : Sample}
    (timed : Timed origin parts (samples ++ [pending]))
    (duration : UInt32) :
    Timed origin parts (samples ++ [{ pending with duration := duration }]) := by
  have linked := timed.linked
  rw [← List.append_assoc, List.isChain_append] at linked
  refine ⟨?_, timed.based, ?_⟩
  · intro s first
    rw [← List.append_assoc, List.head?_append] at first
    have start := timed.start
    rw [← List.append_assoc, List.head?_append] at start
    cases head : (samplesOf parts ++ samples).head? with
    | some other =>
        rw [head] at first start
        exact start s first
    | none =>
        rw [head] at first start
        rw [← Option.some.inj first]
        exact start pending rfl
  · rw [← List.append_assoc, List.isChain_append]
    refine ⟨linked.1, List.isChain_singleton _, ?_⟩
    intro last isLast next isNext
    rw [← Option.some.inj isNext]
    exact linked.2.2 last isLast pending rfl

/-- A further sample follows. -/
theorem append
    {pending next : Sample}
    (timed : Timed origin parts (samples ++ [pending]))
    (follows : pending.Follows next) :
    Timed origin parts (samples ++ [pending] ++ [next]) := by
  refine ⟨?_, timed.based, ?_⟩
  · intro s first
    apply timed.start s
    rw [← List.append_assoc, List.head?_append] at first
    cases head : (samplesOf parts ++ (samples ++ [pending])).head? with
    | some other =>
        rw [head] at first
        exact first
    | none => simp at head
  · rw [← List.append_assoc, List.isChain_append]
    refine ⟨timed.linked, List.isChain_singleton _, ?_⟩
    intro last isLast other isNext
    rw [← Option.some.inj isNext]
    have isPending : some pending = some last := by
      simpa [← List.append_assoc] using isLast
    rw [← Option.some.inj isPending]
    exact follows

end Timed

/-- The parts are those of a file. -/
def TimedParts (parts : List Part) : Prop :=
  ∃ origin, Timed origin parts []

namespace Run

/-- The variables of the goroutine agree with the samples that wait. -/
structure Clocked (r : Run) (file : OpenFile) (pending : Sample) : Prop where
  found : r.pendingSample = some pending
  earlier : ∀ s ∈ r.partSamples, s.id < pending.id
  built : pending.id < r.samplesBuilt
  last : r.lastPts = pending.tick - r.initialPts
  base : ∀ s, (r.partSamples ++ [pending]).head? = some s →
    r.partStartBaseTime = (s.tick - r.initialPts).toUInt64
  timed : Timed r.initialPts file.parts (r.partSamples ++ [pending])

namespace Clocked

variable {r : Run} {file : OpenFile} {pending : Sample}

/-- The pending sample joins the others, which keep their durations. -/
theorem partSamples_appendPending
    (clocked : r.Clocked file pending)
    (duration : UInt32) :
    (r.appendPending duration).partSamples =
      r.partSamples ++ [{ pending with duration := duration }] := by
  have kept : r.partSamples.map (setDuration pending.id duration) = r.partSamples := by
    refine Eq.trans (List.map_congr_left fun s member => ?_) (List.map_id _)
    exact if_neg (clocked.earlier s member).ne
  simp only [appendPending, clocked.found, kept]

theorem partSamples_addSample
    (clocked : r.Clocked file pending)
    (f : Frame)
    (built : Bool) :
    (r.addSample f built).partSamples =
      r.partSamples ++ [{ pending with duration := r.pendingDuration f }] := by
  rw [Run.partSamples_addSample, settlePending, clocked.found, Option.isSome_some,
    if_pos rfl]
  exact clocked.partSamples_appendPending _

theorem follows
    (clocked : r.Clocked file pending)
    (f : Frame)
    (id : Nat) :
    Sample.Follows { pending with duration := r.pendingDuration f } ⟨id, f, 0⟩ := by
  intro positive small
  have gap : r.currentPts f - r.lastPts =
      durationTo90k (timestamp f) - durationTo90k (timestamp pending.frame) := by
    rw [currentPts, clocked.last, Sample.tick]
    grind
  rw [Sample.tick_mk, Sample.tick_mk, ← gap] at positive small ⊢
  rw [pendingDuration, if_neg]
  rw [Bool.or_eq_true, not_or, decide_eq_true_eq, decide_eq_true_eq]
  exact ⟨Int64.not_le.mpr positive, Int64.not_lt.mpr small⟩

/-- The base time is that of the first sample, with samples after it as well. -/
theorem base_of_head
    (clocked : r.Clocked file pending)
    {duration : UInt32}
    {rest : List Sample}
    {s : Sample}
    (first : (r.partSamples ++ [{ pending with duration := duration }] ++ rest).head? =
      some s) :
    r.partStartBaseTime = (s.tick - r.initialPts).toUInt64 := by
  cases waiting : r.partSamples with
  | nil =>
      rw [waiting] at first
      rw [← Option.some.inj first]
      exact clocked.base pending (by rw [waiting]; rfl)
  | cons head others =>
      rw [waiting] at first
      exact clocked.base s (by rw [waiting]; exact first)

/-- The samples that wait may be written with the pending one. -/
theorem write
    (clocked : r.Clocked file pending)
    {duration : UInt32}
    {rest : List Sample}
    (timed : Timed r.initialPts file.parts
      (r.partSamples ++ [{ pending with duration := duration }] ++ rest))
    {part : Part}
    (contents : part.samples = r.partSamples ++ [{ pending with duration := duration }])
    (base : part.baseTime = r.partStartBaseTime) :
    Timed r.initialPts (file.parts ++ [part]) rest := by
  refine timed.write (by simp) contents ?_
  intro s first
  rw [← List.append_nil (r.partSamples ++ _)] at first
  rw [base]
  exact clocked.base_of_head first

theorem mayClose (clocked : r.Clocked file pending) :
    TimedParts (file.parts ++ [(r.appendPending r.lastGoodDuration).currentPart]) := by
  refine ⟨r.initialPts, clocked.write ?_ (clocked.partSamples_appendPending _)
    (partStartBaseTime_appendPending r _)⟩
  rw [List.append_nil]
  exact clocked.timed.settle r.lastGoodDuration

theorem mayFlush
    (clocked : r.Clocked file pending)
    (f : Frame)
    (built : Bool) :
    TimedParts (file.parts ++ [(r.addSample f built).currentPart]) := by
  refine ⟨r.initialPts, clocked.write ?_ (clocked.partSamples_addSample f built)
    (partStartBaseTime_addSample r f built)⟩
  rw [List.append_nil]
  exact clocked.timed.settle (r.pendingDuration f)

/-- A further frame of the file. -/
theorem addSample
    (clocked : r.Clocked file pending)
    (f : Frame) :
    (r.addSample f true).Clocked file ⟨r.samplesBuilt, f, 0⟩ where
  found := rfl
  earlier := by
    rw [clocked.partSamples_addSample]
    intro s member
    rcases List.mem_append.mp member with old | new
    · exact (clocked.earlier s old).trans clocked.built
    · rw [List.mem_singleton.mp new]
      exact clocked.built
  built := by
    rw [samplesBuilt_addSample]
    exact Nat.lt_succ_self _
  last := by
    rw [initialPts_addSample]
    rfl
  base := by
    rw [clocked.partSamples_addSample, partStartBaseTime_addSample, initialPts_addSample]
    intro s first
    exact clocked.base_of_head first
  timed := by
    rw [clocked.partSamples_addSample, initialPts_addSample]
    exact (clocked.timed.settle _).append (clocked.follows f _)

/-- A keyframe that completes a part. -/
theorem flushed
    (clocked : r.Clocked file pending)
    (opened : r.file = some file)
    {f : Frame}
    {answers : FrameAnswers}
    (key : f.isKeyFrame = true)
    (written : answers.gop = .ok) :
    ∃ after, ((r.addSample f true).flushPart f answers).file = some after ∧
      ((r.addSample f true).flushPart f answers).Clocked after ⟨r.samplesBuilt, f, 0⟩ := by
  have added := clocked.addSample f
  have contents := clocked.partSamples_addSample f true
  have nonempty : (r.addSample f true).partSamples ≠ [] := by
    rw [contents]
    simp
  obtain ⟨after, same, parts⟩ :=
    parts_marshalPart ((file_addSample r f true).trans opened) .ok
  rw [flushPart_key key nonempty written]
  refine ⟨after, same, rfl, ?_, added.built, added.last, ?_, ?_⟩
  · intro s member
    cases member
  · intro s first
    rw [← Option.some.inj first]
    rfl
  · have timed := added.timed
    rw [initialPts_addSample, contents] at timed
    change Timed (r.addSample f true).initialPts after.parts ([] ++ [⟨r.samplesBuilt, f, 0⟩])
    rw [parts, initialPts_addSample]
    exact clocked.write timed contents (partStartBaseTime_addSample r f true)

end Clocked

/-- The first frame of a file. -/
theorem clocked_begun
    (r : Run)
    (f : Frame)
    (answers : FrameAnswers)
    {file : OpenFile}
    (opened : (((r.openFile answers).beginFile f).addSample f true).file = some file) :
    (((r.openFile answers).beginFile f).addSample f true).Clocked file
      ⟨r.samplesBuilt, f, 0⟩ := by
  have empty := partSamples_begun r f answers true
  have same : file.parts = [] := by
    rw [file_addSample] at opened
    rw [← Option.some.inj opened]
    rfl
  refine ⟨rfl, ?_, ?_, ?_, ?_, ?_⟩
  · rw [empty]
    intro s member
    cases member
  · rw [samplesBuilt_addSample]
    exact Nat.lt_succ_self _
  · rw [initialPts_addSample]
    rfl
  · rw [empty, partStartBaseTime_addSample, initialPts_addSample]
    intro s first
    rw [← Option.some.inj first]
    change 0 = (durationTo90k (timestamp f) - durationTo90k (timestamp f)).toUInt64
    rw [Int64.sub_self]
    rfl
  · rw [empty, initialPts_addSample, same]
    refine ⟨?_, by simp, List.isChain_singleton _⟩
    intro s first
    rw [← Option.some.inj first]
    rfl

/-- The parts of all files, and the samples that wait, are on the timelines. -/
structure AllTimed (r : Run) : Prop where
  written : r.Kept TimedParts
  waiting : ∀ file, r.file = some file → ∃ pending, r.Clocked file pending

theorem AllTimed.mayClose {r : Run} (timed : r.AllTimed) : r.MayClose TimedParts := by
  intro file opened
  obtain ⟨pending, clocked⟩ := timed.waiting file opened
  exact clocked.mayClose

theorem AllTimed.handle
    {r : Run}
    (timed : r.AllTimed)
    (f : Frame)
    {answers : FrameAnswers}
    (built : answers.built = true) :
    (r.handle f answers).AllTimed := by
  constructor
  · refine kept_handle timed.written ⟨0, Timed.nil 0⟩ timed.mayClose f answers ?_
    intro file opened
    obtain ⟨pending, clocked⟩ := timed.waiting file opened
    exact clocked.mayFlush f answers.built
  · intro after opened
    cases handles_handle r f answers with
    | dropped _ closes | broken _ _ _ _ closes =>
        rw [closes.file] at opened
        cases opened
    | unheaded _ _ _ file =>
        rw [file] at opened
        cases opened
    | begun rotated _ _ _ result =>
        rw [result, built] at opened ⊢
        exact ⟨_, clocked_begun rotated f answers opened⟩
    | held _ _ _ result =>
        rw [result, built] at opened ⊢
        rw [file_addSample] at opened
        obtain ⟨pending, clocked⟩ := timed.waiting after opened
        exact ⟨_, clocked.addSample f⟩
    | flushed file _ isOpen current flushes written =>
        obtain ⟨pending, clocked⟩ := timed.waiting file isOpen
        rw [Bool.and_eq_true] at flushes
        have young : answers.expired = false := by
          simpa [flushes.1] using current
        rw [handle_current isOpen (.inr young) built] at opened ⊢
        obtain ⟨longer, found, next⟩ := clocked.flushed isOpen flushes.1 written
        rw [found] at opened
        rw [← Option.some.inj opened]
        exact ⟨_, next⟩

theorem AllTimed.step
    {r next : Run}
    {label : RunStep}
    (timed : r.AllTimed)
    (taken : r.step label = some next)
    (built : ∀ f answers, label = .frame f answers → answers.built = true) :
    next.AllTimed := by
  cases steps_of_step taken with
  | polled | cancelled =>
      refine ⟨timed.written, fun file opened => ?_⟩
      obtain ⟨pending, clocked⟩ := timed.waiting file opened
      exact ⟨pending, ⟨clocked.found, clocked.earlier, clocked.built, clocked.last,
        clocked.base, clocked.timed⟩⟩
  | handled f answers => exact timed.handle f (built f answers rfl)
  | finished answers =>
      refine ⟨kept_finish timed.written timed.mayClose answers, fun file opened => ?_⟩
      have closed : (r.finish answers).file = some file := opened
      rw [file_finish] at closed
      cases closed

theorem allTimed_start : start.AllTimed where
  written := by simp [Kept, files, start]
  waiting := by simp [start]

end Run

/-! ## Steady files -/

/-- Timestamp of the frame of a sample as a number. -/
def Sample.time (s : Sample) : Int :=
  s.tick.toInt

/-- The timestamps increase in steps of at most five seconds. -/
def Steady (samples : List Sample) : Prop :=
  samples.IsChain fun s next => s.time < next.time ∧ next.time ≤ s.time + 450000

instance (samples : List Sample) : Decidable (Steady samples) :=
  inferInstanceAs (Decidable (samples.IsChain _))

/-- Length of a part on the timeline. -/
def Part.length (part : Part) : Nat :=
  (part.samples.map fun s => s.duration.toNat).sum

/-- Every part starts at the timestamp of its first frame relative to that of the
file, and ends where the next one starts. -/
structure Seamless (parts : List Part) : Prop where
  based : ∀ part ∈ parts, ∃ s first, part.samples.head? = some s ∧
    (samplesOf parts).head? = some first ∧
      (part.baseTime.toNat : Int) = s.time - first.time
  joined : parts.IsChain fun part next =>
    next.baseTime.toNat = part.baseTime.toNat + part.length

namespace Sample

/-- The difference of two timestamps does not wrap around. -/
theorem toInt_gap (s next : Sample) :
    (next.tick - s.tick).toInt = next.time - s.time := by
  have here := toInt_durationTo90k_bounds (timestamp s.frame)
  have there := toInt_durationTo90k_bounds (timestamp next.frame)
  change _ ≤ s.tick.toInt ∧ s.tick.toInt ≤ _ at here
  change _ ≤ next.tick.toInt ∧ next.tick.toInt ≤ _ at there
  exact toInt_sub_of_fits (by omega) (by omega)

/-- Number of ticks to the next sample. -/
theorem Follows.duration
    {s next : Sample}
    (follows : s.Follows next)
    (later : s.time < next.time)
    (close : next.time ≤ s.time + 450000) :
    (s.duration.toNat : Int) = next.time - s.time := by
  have gap := toInt_gap s next
  have limit : (450000 : Int64).toInt = 450000 := by decide
  have positive : 0 < next.tick - s.tick := by
    rw [Int64.lt_iff_toInt_lt, gap, Int64.toInt_zero]
    omega
  have small : next.tick - s.tick ≤ 450000 := by
    rw [Int64.le_iff_toInt_le, gap, limit]
    omega
  rw [follows positive small, gap, Nat.toUInt32_eq, UInt32.toNat_ofNat']
  omega

/-- Distance from an earlier sample as an unsigned number. -/
theorem toNat_gap
    {s next : Sample}
    (later : s.time ≤ next.time) :
    (((next.tick - s.tick).toUInt64).toNat : Int) = next.time - s.time := by
  have gap := toInt_gap s next
  have nonneg : 0 ≤ next.tick - s.tick := by
    rw [Int64.le_iff_toInt_le, gap, Int64.toInt_zero]
    omega
  rw [Int64.toNat_toUInt64_of_le nonneg, ← Int64.toNat_toInt, gap]
  omega

end Sample

/-- Durations that are the gaps to the next samples add up to the gap between the
first sample and the one behind the last. -/
theorem sum_durations
    {samples : List Sample}
    {s next : Sample}
    {rest : List Sample}
    (gaps : (samples ++ next :: rest).IsChain fun s next =>
      (s.duration.toNat : Int) = next.time - s.time)
    (first : samples.head? = some s) :
    (((samples.map fun s => s.duration.toNat).sum : Nat) : Int) = next.time - s.time := by
  induction samples generalizing s with
  | nil => cases first
  | cons head others inductionHypothesis =>
      rw [← Option.some.inj first]
      cases others with
      | nil =>
          have gap := List.isChain_cons_cons.mp gaps
          simpa using gap.1
      | cons second others =>
          have gap := List.isChain_cons_cons.mp gaps
          have later := inductionHypothesis gap.2 rfl
          rw [List.map_cons, List.sum_cons]
          omega

/-- Parts whose base times are measured from one sample are joined. -/
theorem joined_of_gaps
    {parts : List Part}
    {first : Sample}
    (gaps : (samplesOf parts).IsChain fun s next =>
      (s.duration.toNat : Int) = next.time - s.time)
    (based : ∀ part ∈ parts, ∃ s, part.samples.head? = some s ∧
      (part.baseTime.toNat : Int) = s.time - first.time) :
    parts.IsChain fun part next =>
      next.baseTime.toNat = part.baseTime.toNat + part.length := by
  induction parts with
  | nil => exact List.IsChain.nil
  | cons part parts inductionHypothesis =>
      have split : samplesOf (part :: parts) = part.samples ++ samplesOf parts := rfl
      rw [split] at gaps
      have others := inductionHypothesis (List.isChain_append.mp gaps).2.1
        (fun other member => based other (List.mem_cons_of_mem _ member))
      cases parts with
      | nil => exact List.isChain_singleton _
      | cons next parts =>
          refine List.isChain_cons_cons.mpr ⟨?_, others⟩
          obtain ⟨s, head, base⟩ := based part (by simp)
          obtain ⟨t, nextHead, nextBase⟩ := based next (by simp)
          obtain ⟨tail, samples⟩ := List.head?_eq_some_iff.mp nextHead
          have behind : samplesOf (next :: parts) = t :: (tail ++ samplesOf parts) := by
            change next.samples ++ samplesOf parts = _
            rw [samples, List.cons_append]
          rw [behind] at gaps
          have length : (part.length : Int) = t.time - s.time := sum_durations gaps head
          omega

/-- No sample of a steady file comes before the first one. -/
theorem Steady.first_le
    {samples : List Sample}
    (steady : Steady samples)
    {first : Sample}
    {others : List Sample}
    (same : samples = first :: others)
    {s : Sample}
    (among : s ∈ samples) :
    first.time ≤ s.time := by
  rw [same] at among steady
  rcases List.mem_cons.mp among with isFirst | later
  · rw [isFirst]
  · have times : (first.time :: others.map Sample.time).IsChain (· < ·) :=
      List.isChain_map_of_isChain Sample.time (fun _ _ step => step.1) steady
    exact (times.rel_cons (List.mem_map_of_mem later)).le

/-- The durations of a steady file are the gaps between its samples. -/
theorem Steady.gaps
    {samples : List Sample}
    (steady : Steady samples)
    (linked : samples.IsChain Sample.Follows) :
    samples.IsChain fun s next => (s.duration.toNat : Int) = next.time - s.time := by
  rw [List.isChain_iff_forall_rel_of_append_cons_cons]
  intro s next before behind same
  have follows := List.isChain_iff_forall_rel_of_append_cons_cons.mp linked same
  have step := List.isChain_iff_forall_rel_of_append_cons_cons.mp steady same
  exact follows.duration step.1 step.2

/-- Every part has a first sample, to which its base time belongs. -/
theorem Timed.exists_first
    {origin : Int64}
    {parts : List Part}
    {rest : List Sample}
    (timed : Timed origin parts rest)
    {part : Part}
    (member : part ∈ parts) :
    ∃ s ∈ samplesOf parts, part.samples.head? = some s ∧
      part.baseTime = (s.tick - origin).toUInt64 := by
  obtain ⟨s, head, base⟩ := timed.based part member
  exact ⟨s, List.mem_flatMap.mpr ⟨part, member, List.mem_of_head? head⟩, head, base⟩

/-- The parts of a steady file have neither gaps nor overlaps. -/
theorem Timed.seamless
    {origin : Int64}
    {parts : List Part}
    (timed : Timed origin parts [])
    (steady : Steady (samplesOf parts)) :
    Seamless parts := by
  have start := timed.start
  have linked := timed.linked
  rw [List.append_nil] at start linked
  cases samples : samplesOf parts with
  | nil =>
      have none : parts = [] := by
        rw [List.eq_nil_iff_forall_not_mem]
        intro part member
        obtain ⟨s, among, -⟩ := timed.exists_first member
        rw [samples] at among
        cases among
      rw [none]
      exact ⟨by simp, List.IsChain.nil⟩
  | cons first others =>
      have isFirst : (samplesOf parts).head? = some first := by
        rw [samples]
        rfl
      have based : ∀ part ∈ parts, ∃ s, part.samples.head? = some s ∧
          (part.baseTime.toNat : Int) = s.time - first.time := by
        intro part member
        obtain ⟨s, among, head, base⟩ := timed.exists_first member
        refine ⟨s, head, ?_⟩
        rw [base, ← start first isFirst]
        exact Sample.toNat_gap (steady.first_le samples among)
      refine ⟨?_, joined_of_gaps (steady.gaps linked) based⟩
      intro part member
      obtain ⟨s, head, base⟩ := based part member
      exact ⟨s, first, head, isFirst, base⟩

/-- The sample of every frame can be built. -/
def AllBuilt (labels : List RunStep) : Prop :=
  ∀ f answers, RunStep.frame f answers ∈ labels → answers.built = true

theorem allTimed_run
    {labels : List RunStep}
    {finish : Run}
    (reached : run Run.step Run.start labels = some finish)
    (built : AllBuilt labels) :
    finish.AllTimed := by
  have preserved : ∀ history (r : Run) label next,
      (AllBuilt history → r.AllTimed) → r.step label = some next →
        AllBuilt (history ++ [label]) → next.AllTimed := by
    intro history r label next before taken all
    have timed := before fun f answers earlier => all f answers (by simp [earlier])
    exact timed.step taken fun f answers same => all f answers (by simp [same])
  exact run_invariant_history preserved
    (fun _ : AllBuilt [] => Run.allTimed_start) reached built

/-- Every sample that is written lasts between one tick and five seconds, whatever
is delivered and whatever fails.  If the samples can be built, every file whose
timestamps increase in steps of at most five seconds is seamless, a file that was
cut short by a write error as well. -/
theorem timelines_seamless
    (labels : List RunStep)
    {finish : Run}
    (reached : run Run.step Run.start labels = some finish) :
    (∀ file ∈ finish.files, ∀ part ∈ file.parts, ∀ s ∈ part.samples,
      1 ≤ s.duration ∧ s.duration ≤ 450000) ∧
    (AllBuilt labels →
      ∀ file ∈ finish.files, Steady (samplesOf file.parts) → Seamless file.parts) := by
  constructor
  · have measured : finish.AllMeasured :=
      run_invariant (fun _ _ _ measured taken => Run.AllMeasured.step measured taken)
        Run.allMeasured_start reached
    exact measured.written
  · intro built file member steady
    have timed := allTimed_run reached built
    obtain ⟨origin, ofFile⟩ := timed.written file member
    exact ofFile.seamless steady

/-- Three keyframes a second apart, and the end of the loop. -/
def threeSeconds : List RunStep :=
  [.poll true, .frame (keyframeAt 10) smoothly, .frame (keyframeAt 11) smoothly,
    .frame (keyframeAt 12) smoothly, .exit ⟨.ok, "11-00-01", none⟩]

theorem steady_threeSeconds :
    ∃ finish, run Run.step Run.start threeSeconds = some finish ∧
      finish.files.map (fun file => file.parts.map Part.baseTime) =
        [[0, 90000, 180000]] ∧
      ∀ file ∈ finish.files, Steady (samplesOf file.parts) :=
  ⟨_, rfl, by decide, by decide⟩

theorem timelines_seamless_seconds :
    ∃ finish, run Run.step Run.start threeSeconds = some finish ∧
      finish.files.map (fun file => file.parts.map Part.baseTime) =
        [[0, 90000, 180000]] ∧
      ∀ file ∈ finish.files, Seamless file.parts := by
  obtain ⟨finish, reached, baseTimes, steady⟩ := steady_threeSeconds
  refine ⟨finish, reached, baseTimes, fun file member => ?_⟩
  apply (timelines_seamless threeSeconds reached).2 _ file member (steady file member)
  intro f answers given
  simp only [threeSeconds, List.mem_cons, RunStep.frame.injEq, reduceCtorEq,
    List.not_mem_nil, false_or, or_false] at given
  rcases given with ⟨-, same⟩ | ⟨-, same⟩ | ⟨-, same⟩ <;> rw [same] <;> rfl

end Recorder
end RuseonCore
