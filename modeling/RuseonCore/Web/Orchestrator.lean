import RuseonCore.Foundation.Transition

/-!
# Choosing a protocol

Model of `PlayerOrchestrator` in `web/src/v2/core/orchestrator.ts`, for one camera,
as the maps keep the cameras apart.  It is played with the protocol that the user
has pinned, or with one of a chain of candidates, which take turns as they fail.
The capabilities of the browser may differ from call to call.
-/

namespace RuseonCore
namespace Web

open Transition

inductive StreamingProtocol
  | webrtc
  | webcodecs
  | hls
  | snapshot
  | auto
  deriving DecidableEq

structure Capabilities where
  hasWebRTC : Bool
  hasWebCodecs : Bool
  hasWebCodecsH265 : Bool

/-- Entries of the camera in `overrides`, `currentActive` and `candidateChains`. -/
structure PlayerOrchestrator where
  override : Option StreamingProtocol
  currentActive : Option StreamingProtocol
  candidateChain : Option (List StreamingProtocol)
  deriving DecidableEq

/-- Calls to the listeners and to the reconnect coordinator. -/
inductive Outcome
  | notify (fromMode toMode : StreamingProtocol) (reason : String)
  | schedule
  | reset

inductive PlayerCall
  | getEffectiveProtocol (cameraCodec : String)
  | setOverride (protocol : Option StreamingProtocol)
  | reportFailure (failedProtocol : StreamingProtocol) (errorMsg cameraCodec : String)
  | reportHealthy

def includes (text part : String) : Bool :=
  text.toList.tails.any part.toList.isPrefixOf

def buildCandidateChain (caps : Capabilities) (cameraCodec : String) : List StreamingProtocol :=
  let isH265 := includes cameraCodec.toLower "265" || includes cameraCodec.toLower "hevc"
  let plays := !isH265 || caps.hasWebCodecsH265
  (if caps.hasWebRTC && plays then [.webrtc] else []) ++
    (if caps.hasWebCodecs && plays then [.webcodecs] else []) ++ [.hls, .snapshot]

/-- The first candidate. -/
def first (chain : List StreamingProtocol) : StreamingProtocol := chain.head?.getD .hls

namespace PlayerOrchestrator

def start : PlayerOrchestrator := ⟨none, none, none⟩

/-- The user has pinned a protocol. -/
def pinned (o : PlayerOrchestrator) : Bool := o.override.any (· ≠ .auto)

/-- Effect of a call. -/
def call (caps : Capabilities) (o : PlayerOrchestrator) :
    PlayerCall → PlayerOrchestrator × List Outcome
  | .getEffectiveProtocol cameraCodec =>
      if o.pinned || o.currentActive.isSome then (o, [])
      else
        let chain := buildCandidateChain caps cameraCodec
        ({ o with candidateChain := some chain, currentActive := some (first chain) }, [])
  | .setOverride protocol =>
      let prev := o.currentActive.getD .auto
      match protocol with
      | none | some .auto =>
          let next := first (o.candidateChain.getD (buildCandidateChain caps ""))
          ({ o with override := none, currentActive := some next },
            [.notify prev next "user_auto"])
      | some protocol =>
          ({ o with override := some protocol, currentActive := some protocol },
            [.notify prev protocol "user_pinned"])
  | .reportFailure failedProtocol errorMsg cameraCodec =>
      if o.pinned then (o, [.schedule])
      else
        let chain := (o.candidateChain.filter (· ≠ [])).getD (buildCandidateChain caps cameraCodec)
        let (next, reason) :=
          match chain[chain.idxOf failedProtocol + 1]? with
          | some next => (next, "degrade: ")
          | none => (first chain, "reset_retry: ")
        ({ o with candidateChain := some chain, currentActive := some next },
          [.notify failedProtocol next (reason ++ errorMsg)])
  | .reportHealthy => (o, [.reset])

/-- What `getEffectiveProtocol` returns once the camera has an entry. -/
def effectiveProtocol (o : PlayerOrchestrator) : Option StreamingProtocol :=
  if o.pinned then o.override else o.currentActive

def step (o : PlayerOrchestrator) (label : Capabilities × PlayerCall) :
    Option PlayerOrchestrator :=
  some (o.call label.1 label.2).1

/-- A call by the player: only the protocol in use fails. -/
def Plays (o : PlayerOrchestrator) : Capabilities × PlayerCall → Prop
  | (_, .setOverride _) => False
  | (_, .reportFailure failed _ _) => o.effectiveProtocol = some failed
  | _ => True

/-- Failures that calls report. -/
def failures (labels : List (Capabilities × PlayerCall)) : Nat :=
  labels.countP fun label => label.2 matches .reportFailure _ _ _

/-- A candidate of the chain is in use, and the user has not pinned any. -/
structure At (chain : List StreamingProtocol) (i : Nat) (o : PlayerOrchestrator) : Prop where
  override : o.override = none
  known : o.candidateChain = some chain
  inside : i < chain.length
  active : o.currentActive = chain[i]?

/-- The candidates of a chain are different, and one of them is in use unless the
user has pinned a protocol. -/
structure Valid (o : PlayerOrchestrator) : Prop where
  nodup : ∀ chain, o.candidateChain = some chain → chain.Nodup ∧ chain ≠ []
  placed : ∀ chain, o.override = none → o.candidateChain = some chain → ∃ i, At chain i o

section Rotation

variable {o next : PlayerOrchestrator} {chain : List StreamingProtocol} {i : Nat}

theorem nodup_buildCandidateChain (caps : Capabilities) (cameraCodec : String) :
    (buildCandidateChain caps cameraCodec).Nodup ∧ buildCandidateChain caps cameraCodec ≠ [] := by
  unfold buildCandidateChain
  dsimp only
  split <;> split <;> decide

theorem at_first (nonempty : chain ≠ []) (override : o.override = none)
    (known : o.candidateChain = some chain) (active : o.currentActive = some (first chain)) :
    At chain 0 o := by
  obtain ⟨p, rest, rfl⟩ := List.exists_cons_of_ne_nil nonempty
  exact ⟨override, known, Nat.zero_lt_succ _, active⟩

theorem valid_step (o : PlayerOrchestrator) (label : Capabilities × PlayerCall)
    (next : PlayerOrchestrator) (valid : o.Valid) (taken : o.step label = some next) :
    next.Valid := by
  obtain ⟨caps, request⟩ := label
  cases taken
  have built := nodup_buildCandidateChain caps
  cases request with
  | getEffectiveProtocol cameraCodec =>
      simp only [call]
      split
      · exact valid
      · constructor
        · rintro _ ⟨⟩
          exact built cameraCodec
        · rintro _ free ⟨⟩
          exact ⟨0, at_first (built cameraCodec).2 free rfl rfl⟩
  | setOverride protocol =>
      simp only [call]
      split
      -- a pin says nothing about the chain
      case h_3 => exact ⟨valid.nodup, fun _ free => by cases free⟩
      all_goals
        refine ⟨valid.nodup, fun chain free stored => ?_⟩
        have known : o.candidateChain = some chain := stored
        exact ⟨0, at_first (valid.nodup chain stored).2 rfl stored (by rw [known]; rfl)⟩
  | reportFailure failed errorMsg cameraCodec =>
      simp only [call]
      split
      · exact valid
      · have good : ∀ chain, (o.candidateChain.filter (· ≠ [])).getD
            (buildCandidateChain caps cameraCodec) = chain → chain.Nodup ∧ chain ≠ [] := by
          rintro _ rfl
          cases known : o.candidateChain.filter (· ≠ []) with
          | none => exact built cameraCodec
          | some old => exact valid.nodup old (Option.filter_eq_some_iff.mp known).1
        refine ⟨fun chain stored => good chain (Option.some.inj stored), ?_⟩
        rintro _ free ⟨⟩
        dsimp only
        split
        · rename_i next found
          exact ⟨_, free, rfl, (List.getElem?_eq_some_iff.mp found).1, found.symm⟩
        · exact ⟨0, at_first (good _ rfl).2 free rfl rfl⟩
  | reportHealthy => exact valid

/-- A failure of the candidate in use passes its turn on. -/
theorem At.call {label : Capabilities × PlayerCall} (here : At chain i o) (nodup : chain.Nodup)
    (plays : o.Plays label) :
    At chain ((i + failures [label]) % chain.length) (o.call label.1 label.2).1 := by
  obtain ⟨override, known, inside, active⟩ := here
  rw [List.getElem?_eq_getElem inside] at active
  have unpinned : o.pinned = false := by simp [pinned, override]
  have stay : At chain ((i + 0) % chain.length) o := by
    rw [add_zero, Nat.mod_eq_of_lt inside]
    exact ⟨override, known, inside, active.trans (List.getElem?_eq_getElem inside).symm⟩
  obtain ⟨caps, request⟩ := label
  cases request with
  | getEffectiveProtocol cameraCodec =>
      simpa [PlayerOrchestrator.call, active, failures] using stay
  | setOverride protocol => cases plays
  | reportFailure failed errorMsg cameraCodec =>
      have failed_eq : chain[i] = failed := by
        simpa [Plays, effectiveProtocol, unpinned, active] using plays
      have nonempty : chain ≠ [] := List.ne_nil_of_length_pos (by omega)
      have position : chain.idxOf failed = i := failed_eq ▸ nodup.idxOf_getElem i inside
      have stored : (o.candidateChain.filter (· ≠ [])) = some chain := by
        simp [known, nonempty]
      simp only [PlayerOrchestrator.call, unpinned, Bool.false_eq_true, if_false, stored,
        Option.getD_some, position]
      change At chain ((i + 1) % chain.length) _
      split
      · rename_i next found
        obtain ⟨more, -⟩ := List.getElem?_eq_some_iff.mp found
        rw [Nat.mod_eq_of_lt more]
        exact ⟨override, rfl, more, found.symm⟩
      · rename_i last
        have whole : i + 1 = chain.length := by
          have := List.getElem?_eq_none_iff.mp last
          omega
        rw [whole, Nat.mod_self]
        exact at_first nonempty override rfl rfl
  | reportHealthy => exact stay

theorem At.run {labels : List (Capabilities × PlayerCall)} (here : At chain i o)
    (nodup : chain.Nodup) (plays : Meets step Plays o labels)
    (reached : run step o labels = some next) :
    At chain ((i + failures labels) % chain.length) next := by
  induction labels generalizing o i with
  | nil =>
      cases reached
      simpa [failures, Nat.mod_eq_of_lt here.inside] using here
  | cons label labels inductionHypothesis =>
      have later := inductionHypothesis (here.call nodup plays.1) (plays.2 _ rfl) reached
      rwa [Nat.mod_add_mod, Nat.add_assoc, failures, failures, ← List.countP_append] at later

theorem At.effectiveProtocol_eq (here : At chain i o) : o.effectiveProtocol = chain[i]? := by
  simp [effectiveProtocol, pinned, here.override, here.active]

/-- Whatever was chosen before: as long as the user leaves the choice to the
player, every failure of the protocol in use passes the turn to the next candidate
of the chain, and from the last one back to the first. -/
theorem failover_rotates {before later : List (Capabilities × PlayerCall)}
    (reached : Transition.run step start before = some o)
    (free : o.override = none)
    (known : o.candidateChain = some chain)
    (plays : Meets step Plays o later)
    (continued : Transition.run step o later = some next) :
    ∃ i < chain.length, o.effectiveProtocol = chain[i]? ∧
      next.effectiveProtocol = chain[(i + failures later) % chain.length]? := by
  have initial : start.Valid := ⟨by simp [start], by simp [start]⟩
  have valid := run_invariant valid_step initial reached
  obtain ⟨i, here⟩ := valid.placed chain free known
  have there := here.run (valid.nodup chain known).1 plays continued
  exact ⟨i, here.inside, here.effectiveProtocol_eq, there.effectiveProtocol_eq⟩

/-- Every candidate fails once. -/
theorem failover_rotates_h264 :
    let caps : Capabilities := ⟨true, false, false⟩
    let chain : List StreamingProtocol := [.webrtc, .hls, .snapshot]
    let o : PlayerOrchestrator := ⟨none, some .webrtc, some chain⟩
    Transition.run step start [(caps, .getEffectiveProtocol "h264")] = some o ∧
      ∃ i < 3, o.effectiveProtocol = chain[i]? ∧ o.effectiveProtocol = chain[(i + 3) % 3]? := by
  intro caps chain o
  have reached : Transition.run step start [(caps, .getEffectiveProtocol "h264")] = some o := by
    decide +kernel
  have plays : Meets step Plays o (chain.map fun p => (caps, .reportFailure p "" "h264")) := by
    refine ⟨rfl, fun _ first => ?_⟩
    cases first
    refine ⟨rfl, fun _ second => ?_⟩
    cases second
    exact ⟨rfl, fun _ _ => trivial⟩
  exact ⟨reached, failover_rotates reached rfl rfl plays rfl⟩

end Rotation
end PlayerOrchestrator
end Web
end RuseonCore
