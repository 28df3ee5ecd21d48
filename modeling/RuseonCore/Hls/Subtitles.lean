import RuseonCore.Hls.Loop
import RuseonCore.Hls.Window

/-!
# Subtitles of the listed segments

The subtitle playlist of a muxer lists an entry for every segment of the window.
A segment that the muxing goroutine closes has subtitles; the copy of a segment
that `CheckWatchdog` makes has none, and its entry is answered with an empty
body.
-/

namespace RuseonCore
namespace Hls

open Transition

/-- Body of an answer to a request for a segment. -/
inductive SegmentBody
  | vtt (text : String)
  | ts (frames : List MuxedFrame)
  deriving DecidableEq

/-- The body begins with the header of a subtitle file. -/
def SegmentBody.HasHeader : SegmentBody → Prop
  | .vtt text => "WEBVTT\n".toList <+: text.toList
  | .ts _ => False

/-- Answer of `GetHLSSegment`: the media type and the body, or `none` if there is
no such segment.  A nil slice is an empty body. -/
def getHLSSegment (m : Muxer) (segment : String) : Option (String × SegmentBody) :=
  match m.acquireSegment segment with
  | (_, none) => none
  | (acquired, some (p, mimeType)) =>
      acquired.heap[p]?.map fun seg =>
        (mimeType,
          if mimeType = "text/vtt" then .vtt ((seg.vttData.map WebVTT.text).getD "")
          else .ts (seg.data.getD []))

/-- Every entry of the subtitle playlist is answered with subtitles. -/
def Muxer.ServesSubtitles (format : SecondsFormat) (m : Muxer) : Prop :=
  ∀ playlist, (m.getSubsPlaylist format).2 = some playlist →
    ∃ seq, playlist = renderSubsPlaylist format seq m.listings ∧
      ∀ listing ∈ m.listings, ∃ body,
        getHLSSegment m (vttName listing.name) = some ("text/vtt", body) ∧ body.HasHeader

/-- Until the muxer is stopped, every entry of the subtitle playlist is answered
with subtitles. -/
def Serving.Subtitled (format : SecondsFormat) (serving : Serving) : Prop :=
  serving.stopped = false → serving.muxer.ServesSubtitles format

/-- The watchdog repeats no segment. -/
def Serving.Repeatless (serving : Serving) : ServingStep → Prop
  | .checkWatchdog seen now => serving.muxer.watchdogFires seen now = false
  | _ => True

/-! ## Answers -/

/-- Both kinds of subtitles begin with the header. -/
theorem WebVTT.hasHeader_text (vtt : WebVTT) : "WEBVTT\n".toList <+: vtt.text.toList := by
  cases vtt with
  | empty =>
      change _ <+: "WEBVTT\n\n".toList
      simp
  | mapped segmentStartPts cues =>
      change _ <+: ("WEBVTT\nX-TIMESTAMP-MAP=MPEGTS:" ++ toString segmentStartPts.toInt ++
        ",LOCAL:00:00:00.000\n\n" ++ String.join (cues.map fun cue =>
          cue.start.text ++ " --> " ++ cue.stop.text ++ "\n" ++ cue.json ++ "\n\n")).toList
      simp only [String.toList_append, List.append_assoc]
      simp

namespace Muxer

/-- Before the first segment there is no subtitle playlist. -/
def Blank (m : Muxer) : Prop :=
  m.segments = [] → m.cachedSubsPlaylist = none

/-- The segments of the window have subtitles. -/
def AllSubtitled (m : Muxer) : Prop :=
  ∀ p ∈ m.segments, ∀ vttData ∈ m.heap[p]?.map Segment.vttData, vttData ≠ none

section

variable {format : SecondsFormat} {m : Muxer}

/-- An entry of the window is answered with what its segment has. -/
theorem Windowed.getHLSSegment_vtt
    (windowed : m.Windowed format)
    {p : Nat}
    (listed : p ∈ m.segments)
    {seg : Segment}
    (stored : m.heap[p]? = some seg) :
    getHLSSegment m (vttName (segmentName (p + 1))) =
      some ("text/vtt", .vtt ((seg.vttData.map WebVTT.text).getD "")) := by
  have indexed : m.segIndex[segmentName (p + 1)]? = some p :=
    (windowed.indexed _ p).mpr ⟨listed, rfl⟩
  have found : m.lookup (vttName (segmentName (p + 1))) = some p := by
    rw [lookup, tsName_vttName, indexed]
  have acquired : m.acquireSegment (vttName (segmentName (p + 1))) =
      ({ m with heap := m.heap.modify p Segment.retain }, some (p, "text/vtt")) := by
    rw [acquireSegment, found, isVTT_vttName]
    rfl
  rw [getHLSSegment, acquired]
  dsimp only
  rw [List.getElem?_modify_eq, stored]
  rfl

/-- The playlist lists the window, if there is one. -/
theorem Windowed.getSubsPlaylist_eq
    (windowed : m.Windowed format)
    (nonempty : m.segments ≠ []) :
    (m.getSubsPlaylist format).2 =
      some (renderSubsPlaylist format (m.heap.length - m.segments.length + 1) m.listings) := by
  rw [getSubsPlaylist, (windowed.rendered nonempty).2]

/-- The listed names are those of the segments in the window. -/
theorem Shape.mem_listings
    (shape : m.Shape)
    {listing : Listing} :
    listing ∈ m.listings ↔ ∃ p ∈ m.segments, ∃ seg, m.heap[p]? = some seg ∧
      listing = seg.toListing ∧ seg.name = segmentName (p + 1) := by
  rw [listings, List.mem_filterMap]
  refine exists_congr fun p => and_congr_right fun _ => ?_
  rw [Option.map_eq_some_iff]
  constructor
  · rintro ⟨seg, stored, rfl⟩
    exact ⟨seg, stored, rfl, shape.named p seg stored⟩
  · rintro ⟨seg, stored, rfl, -⟩
    exact ⟨seg, stored, rfl⟩

/-- The entries are answered with subtitles exactly if the segments of the window
have some. -/
theorem Windowed.servesSubtitles_iff
    (windowed : m.Windowed format)
    (blank : m.Blank) :
    m.ServesSubtitles format ↔ m.AllSubtitled := by
  constructor
  · intro serves p listed vttData held absent
    obtain ⟨seg, stored, rfl⟩ := Option.map_eq_some_iff.mp held
    have name := windowed.named p seg stored
    obtain ⟨seq, -, entries⟩ := serves _
      (windowed.getSubsPlaylist_eq (List.ne_nil_of_mem listed))
    obtain ⟨body, answered, hasHeader⟩ := entries seg.toListing
      (windowed.toShape.mem_listings.mpr ⟨p, listed, seg, stored, rfl, name⟩)
    rw [name, windowed.getHLSSegment_vtt listed stored, absent] at answered
    cases answered
    exact absurd (List.prefix_nil.mp hasHeader) (by decide)
  · intro subtitled playlist shown
    by_cases empty : m.segments = []
    · simp [getSubsPlaylist, blank empty, empty] at shown
    · rw [windowed.getSubsPlaylist_eq empty] at shown
      refine ⟨_, (Option.some.inj shown).symm, ?_⟩
      intro listing member
      obtain ⟨p, listed, seg, stored, rfl, name⟩ := windowed.toShape.mem_listings.mp member
      obtain ⟨vtt, present⟩ := Option.ne_none_iff_exists'.mp
        (subtitled p listed seg.vttData (by rw [stored]; rfl))
      refine ⟨_, (congrArg (getHLSSegment m ∘ vttName) name).trans
        (windowed.getHLSSegment_vtt listed stored), ?_⟩
      rw [present]
      exact vtt.hasHeader_text

end

/-! ## Changes of the window -/

/-- A segment was added to the window. -/
structure Extends (m next : Muxer) (vttData : Option WebVTT) : Prop where
  window : ∀ p ∈ next.segments, p ∈ m.segments ∨ p = m.heap.length
  last : m.heap.length ∈ next.segments
  subtitles : ∀ q : Nat, next.heap[q]?.map Segment.vttData =
    if q = m.heap.length then some vttData else m.heap[q]?.map Segment.vttData

/-- The window and its subtitles are the same. -/
structure Same (m next : Muxer) : Prop where
  window : next.segments = m.segments
  subtitles : ∀ q : Nat, next.heap[q]?.map Segment.vttData = m.heap[q]?.map Segment.vttData
  blank : m.Blank → next.Blank

section

variable {m next : Muxer} {vttData : Option WebVTT}

@[simp] theorem segments_rebuild (format : SecondsFormat) (m : Muxer) :
    (m.rebuildPlaylistsLocked format).segments = m.segments := by
  unfold rebuildPlaylistsLocked
  split <;> rfl

theorem same_rebuild (format : SecondsFormat) (m : Muxer) :
    m.Same (m.rebuildPlaylistsLocked format) where
  window := segments_rebuild format m
  subtitles := by
    intro q
    rw [heap_rebuild]
  blank := by
    intro blank empty
    rw [segments_rebuild] at empty
    rw [rebuildPlaylistsLocked, empty]
    exact blank empty

theorem same_modify
    {change : Segment → Segment}
    (keeps : ∀ seg, (change seg).vttData = seg.vttData)
    (m : Muxer)
    (p : Nat) :
    m.Same { m with heap := m.heap.modify p change } where
  window := rfl
  subtitles := part_modify keeps m.heap p
  blank := id

theorem Extends.rebuild
    (grows : m.Extends next vttData)
    (format : SecondsFormat) :
    m.Extends (next.rebuildPlaylistsLocked format) vttData where
  window := by
    rw [segments_rebuild]
    exact grows.window
  last := by
    rw [segments_rebuild]
    exact grows.last
  subtitles := by
    rw [heap_rebuild]
    exact grows.subtitles

theorem extends_appendSegment (m : Muxer) (seg : Segment) :
    m.Extends (m.appendSegment seg) seg.vttData := by
  have added : ∀ q : Nat, (m.heap ++ [seg])[q]?.map Segment.vttData =
      if q = m.heap.length then some seg.vttData else m.heap[q]?.map Segment.vttData := by
    intro q
    rcases lt_trichotomy q m.heap.length with before | rfl | behind
    · rw [List.getElem?_append_left before, if_neg before.ne]
    · rw [List.getElem?_concat_length, if_pos rfl]
      rfl
    · rw [List.getElem?_append_right behind.le, if_neg behind.ne',
        List.getElem?_eq_none behind.le, List.getElem?_eq_none]
      rw [List.length_singleton]
      omega
  rw [appendSegment]
  by_cases long : m.maxSegments < m.segments.length + 1
  · have three := m.atLeastThree
    cases window : m.segments with
    | nil =>
        rw [window, List.length_nil] at long
        omega
    | cons oldSeg rest =>
        rw [evict_of_long (m := { m with
          heap := m.heap ++ [seg]
          segments := oldSeg :: rest ++ [m.heap.length]
          firstSegReady := true }) rfl (by simpa [window] using long)]
        refine ⟨?_, by simp, ?_⟩
        · intro p member
          rcases List.mem_append.mp member with older | isLast
          · exact .inl (by rw [window]; exact List.mem_cons_of_mem oldSeg older)
          · exact .inr (List.mem_singleton.mp isLast)
        · intro q
          exact (part_modify vttData_release _ oldSeg q).trans (added q)
  · rw [evict_of_short (by simpa using long)]
    exact ⟨by simp, by simp, added⟩

theorem extends_publish
    (format : SecondsFormat)
    (m : Muxer)
    (duration : Int64)
    (content : List MuxedFrame)
    (vttData : WebVTT) :
    m.Extends (m.publish format duration content vttData) (some vttData) := by
  rw [publish]
  apply Extends.rebuild
  have added := extends_appendSegment
    { m with seqCount := m.seqCount + 1, needsDiscontinuity := false }
    { name := segmentName (m.seqCount + 1), duration := duration
      isDiscontinuity := m.needsDiscontinuity, data := some content, buf := some content
      refCount := 1, vttData := some vttData, muxed := content, copied := false, puts := 0 }
  exact ⟨added.window, added.last, added.subtitles⟩

/-- The copy that the watchdog makes has no subtitles. -/
theorem extends_checkWatchdog
    {format : SecondsFormat}
    (windowed : m.Windowed format)
    {seen now : Int64}
    (fires : m.watchdogFires seen now = true) :
    m.Extends (m.checkWatchdog format seen now) none := by
  have nonempty : m.segments ≠ [] := by
    rintro empty
    simp [watchdogFires, empty] at fires
  obtain ⟨lastSeg, last⟩ : ∃ lastSeg,
      (m.segments.getLast?.bind fun p => m.heap[p]?) = some lastSeg := by
    rw [List.getLast?_eq_some_getLast nonempty, Option.bind_some]
    exact ⟨_, List.getElem?_eq_getElem (windowed.toShape.lt_length (List.getLast_mem nonempty))⟩
  rw [checkWatchdog, if_pos fires, last]
  have added := (extends_appendSegment { m with seqCount := m.seqCount + 1 }
    (copyOf lastSeg (m.seqCount + 1))).rebuild format
  exact ⟨added.window, added.last, added.subtitles⟩

/-- A segment with subtitles leaves all with subtitles. -/
theorem Extends.allSubtitled
    {vtt : WebVTT}
    (grows : m.Extends next (some vtt))
    (subtitled : m.AllSubtitled) :
    next.AllSubtitled := by
  intro p listed vttData held
  rw [grows.subtitles] at held
  split at held
  · cases held
    simp
  · rename_i old
    exact subtitled p ((grows.window p listed).resolve_right old) vttData held

/-- A segment without subtitles is in the window. -/
theorem Extends.not_allSubtitled (grows : m.Extends next none) :
    ¬ next.AllSubtitled := by
  intro subtitled
  refine subtitled _ grows.last none ?_ rfl
  rw [grows.subtitles, if_pos rfl]
  rfl

theorem Same.allSubtitled_iff (same : m.Same next) :
    next.AllSubtitled ↔ m.AllSubtitled := by
  simp only [AllSubtitled, same.window, same.subtitles]

end

end Muxer

/-! ## Steps -/

namespace Serving

/-- The window is in order until the muxer is stopped, and empty from then on. -/
structure Orderly (format : SecondsFormat) (serving : Serving) : Prop where
  windowed : serving.stopped = false → serving.muxer.Windowed format
  blank : serving.stopped = false → serving.muxer.Blank
  ended : serving.stopped = true → serving.muxer.segments = []

/-- What a step can do to the window. -/
inductive Moves (serving next : Serving) (label : ServingStep) : Prop
  | stop
      (stopped : next.stopped = true)
      (window : next.muxer.segments = [])
      (others : serving.Repeatless label)
  | same
      (stopped : next.stopped = serving.stopped)
      (same : serving.muxer.Same next.muxer)
      (others : serving.Repeatless label)
  | closed
      (vttData : WebVTT)
      (running : serving.stopped = false)
      (stays : next.stopped = false)
      (grows : serving.muxer.Extends next.muxer (some vttData))
      (others : serving.Repeatless label)
  | repeated
      (stays : next.stopped = false)
      (grows : serving.muxer.Extends next.muxer none)
      (fires : ¬ serving.Repeatless label)

theorem moves
    {format : SecondsFormat}
    {serving next : Serving}
    {label : ServingStep}
    (orderly : serving.Orderly format)
    (taken : serving.step format label = some next) :
    serving.Moves next label := by
  cases label with
  | storeFrameTime now =>
      rw [← Option.some.inj taken]
      exact .same rfl ⟨rfl, fun _ => rfl, id⟩ trivial
  | flagDiscontinuity =>
      rw [← Option.some.inj taken]
      exact .same rfl ⟨rfl, fun _ => rfl, id⟩ trivial
  | publish duration content vttData =>
      obtain ⟨running, rfl⟩ := publish_cases taken
      exact .closed vttData running running
        (Muxer.extends_publish format _ duration content vttData) trivial
  | checkWatchdog seen now =>
      rw [← Option.some.inj taken]
      cases fires : serving.muxer.watchdogFires seen now with
      | false =>
          have same : serving.muxer.checkWatchdog format seen now = serving.muxer := by
            rw [Muxer.checkWatchdog, fires]
            rfl
          rw [same]
          exact .same rfl ⟨rfl, fun _ => rfl, id⟩ fires
      | true =>
          have running : serving.stopped = false := by
            rw [Bool.eq_false_iff]
            intro stopped
            simp [Muxer.watchdogFires, orderly.ended stopped] at fires
          refine .repeated running (Muxer.extends_checkWatchdog (orderly.windowed running) fires) ?_
          rw [Repeatless, fires]
          decide
  | acquireSegment name =>
      rcases acquireSegment_cases taken with rfl | ⟨p, _, rfl⟩
      · exact .same rfl ⟨rfl, fun _ => rfl, id⟩ trivial
      · exact .same rfl (@Muxer.same_modify Segment.retain (fun _ => rfl) _ p) trivial
  | release p =>
      obtain ⟨_, rfl⟩ := release_cases taken
      exact .same rfl (Muxer.same_modify Muxer.vttData_release _ p) trivial
  | getPlaylist =>
      rcases getPlaylist_cases taken with rfl | rfl
      · exact .same rfl ⟨rfl, fun _ => rfl, id⟩ trivial
      · exact .same rfl (Muxer.same_rebuild format _) trivial
  | getSubsPlaylist =>
      rcases getSubsPlaylist_cases taken with rfl | rfl
      · exact .same rfl ⟨rfl, fun _ => rfl, id⟩ trivial
      · exact .same rfl (Muxer.same_rebuild format _) trivial
  | stop =>
      rw [← Option.some.inj taken]
      exact .stop rfl rfl trivial

theorem orderly_step
    {format : SecondsFormat}
    {serving next : Serving}
    {label : ServingStep}
    (orderly : serving.Orderly format)
    (taken : serving.step format label = some next) :
    next.Orderly format where
  windowed := windowed_step orderly.windowed taken
  blank := by
    intro running
    cases moves orderly taken with
    | stop stopped =>
        rw [running] at stopped
        cases stopped
    | same stopped same => exact same.blank (orderly.blank (stopped.symm.trans running))
    | closed vttData _ _ grows =>
        exact fun empty => absurd empty (List.ne_nil_of_mem grows.last)
    | repeated _ grows =>
        exact fun empty => absurd empty (List.ne_nil_of_mem grows.last)
  ended := by
    intro ended
    cases moves orderly taken with
    | stop _ window => exact window
    | same stopped same => exact same.window.trans (orderly.ended (stopped.symm.trans ended))
    | closed vttData _ stays =>
        rw [ended] at stays
        cases stays
    | repeated stays =>
        rw [ended] at stays
        cases stays

theorem orderly_start
    (format : SecondsFormat)
    (maxSegments : Option Int)
    (now : Int64) :
    (start (newMuxer maxSegments now)).Orderly format where
  windowed := fun _ => Muxer.windowed_newMuxer format maxSegments now
  blank := fun _ _ => rfl
  ended := fun _ => rfl

/-- A step leaves all entries with subtitles exactly if the watchdog repeats no
segment in it. -/
theorem subtitled_step
    {format : SecondsFormat}
    {serving next : Serving}
    {label : ServingStep}
    (orderly : serving.Orderly format)
    (subtitled : serving.Subtitled format)
    (taken : serving.step format label = some next) :
    next.Subtitled format ↔ serving.Repeatless label := by
  have following := orderly_step orderly taken
  have before : serving.stopped = false → serving.muxer.AllSubtitled := fun running =>
    ((orderly.windowed running).servesSubtitles_iff (orderly.blank running)).mp
      (subtitled running)
  have after : ∀ running : next.stopped = false,
      (next.muxer.ServesSubtitles format ↔ next.muxer.AllSubtitled) := fun running =>
    (following.windowed running).servesSubtitles_iff (following.blank running)
  cases moves orderly taken with
  | stop stopped _ others =>
      refine iff_of_true ?_ others
      intro running
      rw [stopped] at running
      cases running
  | same stopped same others =>
      refine iff_of_true ?_ others
      intro running
      exact (after running).mpr (same.allSubtitled_iff.mpr (before (stopped.symm.trans running)))
  | closed vttData running stays grows others =>
      refine iff_of_true ?_ others
      intro _
      exact (after stays).mpr (grows.allSubtitled (before running))
  | repeated stays grows fires =>
      refine iff_of_false ?_ fires
      intro served
      exact grows.not_allSubtitled ((after stays).mp (served stays))

end Serving

/-- All along a run, every entry of the subtitle playlist is answered with a body
that begins with the header, exactly if the watchdog never repeats a segment. -/
theorem subtitles_served_iff
    (format : SecondsFormat)
    (maxSegments : Option Int)
    (now : Int64)
    (labels : List ServingStep)
    {finish : Serving}
    (reached : run (Serving.step format)
      (Serving.start (newMuxer maxSegments now)) labels = some finish) :
    Always (Serving.step format) (Serving.Subtitled format)
        (Serving.start (newMuxer maxSegments now)) labels ↔
      Meets (Serving.step format) Serving.Repeatless
        (Serving.start (newMuxer maxSegments now)) labels := by
  have invariantStep : ∀ (serving : Serving) label next, serving.Orderly format →
      serving.step format label = some next → next.Orderly format :=
    fun _ _ _ orderly taken => Serving.orderly_step orderly taken
  have exactStep : ∀ (serving : Serving) label next, serving.Orderly format →
      serving.Subtitled format → serving.step format label = some next →
      (next.Subtitled format ↔ serving.Repeatless label) :=
    fun _ _ _ orderly subtitled taken => Serving.subtitled_step orderly subtitled taken
  apply always_iff_meets invariantStep exactStep
    (Serving.orderly_start format maxSegments now) _ reached
  intro _ playlist shown
  simp [Serving.start, Muxer.getSubsPlaylist, newMuxer] at shown

instance (serving : Serving) (label : ServingStep) : Decidable (serving.Repeatless label) :=
  match label with
  | .checkWatchdog _ _ => inferInstanceAs (Decidable (_ = _))
  | .storeFrameTime _ => inferInstanceAs (Decidable True)
  | .flagDiscontinuity => inferInstanceAs (Decidable True)
  | .publish _ _ _ => inferInstanceAs (Decidable True)
  | .acquireSegment _ => inferInstanceAs (Decidable True)
  | .release _ => inferInstanceAs (Decidable True)
  | .getPlaylist => inferInstanceAs (Decidable True)
  | .getSubsPlaylist => inferInstanceAs (Decidable True)
  | .stop => inferInstanceAs (Decidable True)

/-- The watchdog looks after four seconds only. -/
theorem subtitles_served_iff_early :
    ∃ finish,
      run (Serving.step wholeSeconds) (Serving.start (newMuxer none 1))
        [.publish 2000000000 [] .empty, .checkWatchdog 1 4000000001] = some finish ∧
      Always (Serving.step wholeSeconds) (Serving.Subtitled wholeSeconds)
        (Serving.start (newMuxer none 1))
        [.publish 2000000000 [] .empty, .checkWatchdog 1 4000000001] := by
  refine ⟨_, rfl, ?_⟩
  refine (subtitles_served_iff wholeSeconds none 1
    [.publish 2000000000 [] .empty, .checkWatchdog 1 4000000001] rfl).mpr ?_
  decide

/-- Six seconds after the last frame, the watchdog repeats the only segment; the
entry of the copy is answered with an empty body. -/
theorem copy_without_subtitles :
    ∃ finish,
      run (Serving.step wholeSeconds) (Serving.start (newMuxer none 1))
        [.publish 2000000000 [] .empty, .checkWatchdog 1 6000000001] = some finish ∧
      finish.stopped = false ∧
      finish.muxer.listings.map Listing.name = ["stream_1.ts", "stream_2.ts"] ∧
      getHLSSegment finish.muxer "stream_2.vtt" = some ("text/vtt", .vtt "") ∧
      ¬ finish.Subtitled wholeSeconds := by
  have reached : run (Serving.step wholeSeconds) (Serving.start (newMuxer none 1))
      [.publish 2000000000 [] .empty, .checkWatchdog 1 6000000001] = some _ := rfl
  have windowed := Serving.windowed_run reached rfl
  have answered := windowed.getHLSSegment_vtt (p := 1) (by decide) rfl
  refine ⟨_, reached, rfl, by decide, answered, ?_⟩
  intro subtitled
  have all := (windowed.servesSubtitles_iff (fun empty => by cases empty)).mp (subtitled rfl)
  exact all 1 (by decide) none rfl rfl

end Hls
end RuseonCore
