import RuseonCore.Api.Cameras

/-!
# Adding one camera from several requests

`AddCamera` looks the camera up and saves it in separate store transactions.
Requests for one new camera are considered, in any interleaving and with a store
that may fail: a request is refused with a conflict only if it looks the camera
up after another one has saved it.
-/

namespace RuseonCore
namespace Api

open Storage Streaming Transition

/-- The step belongs to an `AddCamera` request for the camera. -/
def CameraStep.Adds (id : String) : CameraStep → Prop
  | .begin (.addCamera (some cam)) _ => trimSpace cam.id = id
  | .begin _ _ => False
  | .commit _ _ => True
  | .sync _ => True

instance (id : String) (label : CameraStep) : Decidable (label.Adds id) :=
  match label with
  | .begin (.addCamera (some cam)) _ =>
      inferInstanceAs (Decidable (trimSpace cam.id = id))
  | .begin (.addCamera none) _ => inferInstanceAs (Decidable False)
  | .begin (.editCamera _ _ _ _) _ => inferInstanceAs (Decidable False)
  | .begin (.deleteCamera _) _ => inferInstanceAs (Decidable False)
  | .commit _ _ => inferInstanceAs (Decidable True)
  | .sync _ => inferInstanceAs (Decidable True)

/-- Answer to a request that finds the camera. -/
def conflict (id : String) : Response :=
  .error 409 s!"Camera with ID '{id}' already exists"

namespace CameraState

/-- The steps of `AddCamera` requests for one camera. -/
def adds
    (id : String)
    (state : CameraState)
    (label : CameraStep) : Option CameraState :=
  if label.Adds id then state.step label else none

/-- A lookup is made only when no other request is between its own lookup and
its save, and it does not fail when the camera is stored; a save does not
fail. -/
def ChecksAlone (id : String) (state : CameraState) : CameraStep → Prop
  | .begin _ readFails => state.admitted = [] ∧
      (readFails = true → ∀ cam, state.db.get cameras id ≠ .ok cam)
  | .commit _ fails => fails = false
  | .sync _ => True

/-- One request has found the camera absent, and all later ones a conflict. -/
inductive Underway (id : String) (state : CameraState) : Prop
  | checked (cam : CameraConfig)
      (named : cam.id = id)
      (admitted : state.admitted = [.add cam])
      (committed : state.committed = [])
      (answered : state.answered = [])
      (refused : state.refused = [])
      (absent : ∀ cam, state.db.get cameras id ≠ .ok cam)
  | saved (cam : CameraConfig)
      (admitted : state.admitted = [])
      (committed : state.committed = [.add cam])
      (answered : state.answered = [])
      (refused : ∀ refusal ∈ state.refused, refusal.2 = conflict id)
      (stored : state.db.get cameras id = .ok cam)
  | done (cam : CameraConfig)
      (admitted : state.admitted = [])
      (committed : state.committed = [])
      (answered : state.answered = [(.add cam, .ok)])
      (refused : ∀ refusal ∈ state.refused, refusal.2 = conflict id)
      (stored : state.db.get cameras id = .ok cam)

/-- Number of requests that passed their checks. -/
def passed (state : CameraState) : Nat :=
  state.admitted.length + state.committed.length + state.answered.length

/-- Two requests were let through, or one was answered with a failure. -/
def Spoiled (state : CameraState) : Prop :=
  2 ≤ state.passed ∨ ∃ answer ∈ state.answered, answer.2 ≠ .ok

/-- One request was let through. -/
theorem Underway.passed_eq_one
    {id : String}
    {state : CameraState}
    (underway : state.Underway id) :
    state.passed = 1 := by
  cases underway with
  | checked cam _ admitted committed answered =>
      simp [passed, admitted, committed, answered]
  | saved cam admitted committed answered =>
      simp [passed, admitted, committed, answered]
  | done cam admitted committed answered =>
      simp [passed, admitted, committed, answered]

theorem Underway.not_spoiled
    {id : String}
    {state : CameraState}
    (underway : state.Underway id) :
    ¬ state.Spoiled := by
  have one := underway.passed_eq_one
  rintro (many | failed)
  · omega
  · cases underway with
    | checked cam _ _ _ answered => simp [answered] at failed
    | saved cam _ _ answered => simp [answered] at failed
    | done cam _ _ answered => simp [answered] at failed

/-- The steps of the requests: lookups of the camera, saves and manager
calls. -/
theorem adds_eq_some
    {id : String}
    {state next : CameraState}
    {label : CameraStep}
    (taken : state.adds id label = some next) :
    state.step label = some next ∧
      ((∃ cam readFails, label = .begin (.addCamera (some cam)) readFails ∧
        trimSpace cam.id = id) ∨
      (∃ position fails, label = .commit position fails) ∨
      ∃ position, label = .sync position) := by
  rw [adds, Option.ite_none_right_eq_some] at taken
  obtain ⟨allowed, enabled⟩ := taken
  refine ⟨enabled, ?_⟩
  unfold CameraStep.Adds at allowed
  split at allowed
  · exact .inl ⟨_, _, rfl, allowed⟩
  · exact allowed.elim
  · exact .inr (.inl ⟨_, _, rfl⟩)
  · exact .inr (.inr ⟨_, rfl⟩)

/-- A lookup that finds the camera, or does not. -/
theorem step_begin
    (state : CameraState)
    {id : String}
    (named : id ≠ "")
    {cam : CameraConfig}
    (same : trimSpace cam.id = id)
    (readFails : Bool) :
    (readFails = false ∧ (∃ found, state.db.get cameras id = .ok found) ∧
      state.step (.begin (.addCamera (some cam)) readFails) =
        some { state with
          refused := state.refused ++
            [(.addCamera (some cam), conflict id)] }) ∨
    ((readFails = true ∨ ∀ found, state.db.get cameras id ≠ .ok found) ∧
      state.step (.begin (.addCamera (some cam)) readFails) =
        some { state with
          admitted := state.admitted ++ [.add { cam with id := id }] }) := by
  subst same
  cases readFails with
  | true => exact .inr ⟨.inl rfl, by simp [step, checkRequest, named]⟩
  | false =>
      cases found : state.db.get cameras (trimSpace cam.id) with
      | ok stored =>
          exact .inl ⟨rfl, ⟨stored, rfl⟩,
            by simp [step, checkRequest, named, found, conflict]⟩
      | error error =>
          exact .inr ⟨.inr (by simp), by simp [step, checkRequest, named, found]⟩

/-- A save of a new camera succeeds unless the store fails. -/
theorem commitJob_add
    (state : CameraState)
    (position : Nat)
    (cam : CameraConfig)
    (fails : Bool) :
    state.commitJob position (.add cam) fails =
      if fails then
        { state with
          admitted := state.admitted.eraseIdx position
          answered := state.answered ++ [(.add cam, (Job.add cam).failure)] }
      else
        { state with
          db := state.db.set cameras cam.id cam
          admitted := state.admitted.eraseIdx position
          committed := state.committed ++ [.add cam] } := by
  cases fails <;> simp [commitJob, Job.txn, Txn.exec]

/-- A step neither loses a request that was let through nor an answer. -/
theorem passed_step
    {state next : CameraState}
    {label : CameraStep}
    (taken : state.step label = some next) :
    state.passed ≤ next.passed ∧ state.answered <+: next.answered := by
  cases label with
  | begin request readFails =>
      simp only [CameraState.step] at taken
      split at taken
      · rw [← Option.some.inj taken]
        exact ⟨le_rfl, List.prefix_refl _⟩
      · rw [← Option.some.inj taken]
        refine ⟨?_, List.prefix_refl _⟩
        simp only [passed, List.length_append, List.length_singleton]
        omega
  | commit position fails =>
      obtain ⟨job, present, rfl⟩ := Option.map_eq_some_iff.mp taken
      have bound := (List.getElem?_eq_some_iff.mp present).1
      have erased := List.length_eraseIdx_of_lt bound
      unfold commitJob
      split
      · refine ⟨?_, List.prefix_refl _⟩
        simp only [passed, List.length_append, List.length_singleton, erased]
        omega
      · refine ⟨?_, List.prefix_append _ _⟩
        simp only [passed, List.length_append, List.length_singleton, erased]
        omega
  | sync position =>
      obtain ⟨job, present, rfl⟩ := Option.map_eq_some_iff.mp taken
      have bound := (List.getElem?_eq_some_iff.mp present).1
      have erased := List.length_eraseIdx_of_lt bound
      refine ⟨?_, List.prefix_append _ _⟩
      simp only [passed, List.length_append, List.length_singleton, erased]
      omega

/-- What has gone wrong stays so. -/
theorem Spoiled.step
    {state next : CameraState}
    {label : CameraStep}
    (spoiled : state.Spoiled)
    (taken : state.step label = some next) :
    next.Spoiled := by
  obtain ⟨more, longer⟩ := passed_step taken
  rcases spoiled with many | ⟨answer, member, failed⟩
  · exact .inl (many.trans more)
  · exact .inr ⟨answer, longer.subset member, failed⟩

/-- A lookup keeps the requests under way exactly if it is made alone. -/
theorem underway_begin
    {id : String}
    (named : id ≠ "")
    {state next : CameraState}
    (underway : state.Underway id)
    {cam : CameraConfig}
    (same : trimSpace cam.id = id)
    {readFails : Bool}
    (taken : state.step (.begin (.addCamera (some cam)) readFails) = some next) :
    (state.ChecksAlone id (.begin (.addCamera (some cam)) readFails) ∧
      next.Underway id) ∨
    (¬ state.ChecksAlone id (.begin (.addCamera (some cam)) readFails) ∧
      next.Spoiled) := by
  rcases state.step_begin named same readFails with
    ⟨rfl, ⟨found, present⟩, refusing⟩ | ⟨unseen, admitting⟩
  · rw [refusing, Option.some.injEq] at taken
    subst next
    have conflicts : (∀ refusal ∈ state.refused, refusal.2 = conflict id) →
        ∀ refusal ∈ state.refused ++ [(CameraRequest.addCamera (some cam), conflict id)],
          refusal.2 = conflict id := by
      intro earlier refusal member
      rcases List.mem_append.mp member with old | new
      · exact earlier refusal old
      · rw [List.mem_singleton.mp new]
    left
    cases underway with
    | checked _ _ _ _ _ _ absent => exact absurd present (absent found)
    | saved winner admitted committed answered refused stored =>
        exact ⟨⟨admitted, by simp⟩,
          .saved winner admitted committed answered (conflicts refused) stored⟩
    | done winner admitted committed answered refused stored =>
        exact ⟨⟨admitted, by simp⟩,
          .done winner admitted committed answered (conflicts refused) stored⟩
  · rw [admitting, Option.some.injEq] at taken
    subst next
    have one := underway.passed_eq_one
    have second : Spoiled { state with
        admitted := state.admitted ++ [.add { cam with id := id }] } := by
      left
      simp only [passed, List.length_append, List.length_singleton] at one ⊢
      omega
    refine .inr ⟨fun alone => ?_, second⟩
    have uncertain : ∀ found, state.db.get cameras id ≠ .ok found := by
      rcases unseen with fails | absent
      · exact alone.2 fails
      · exact absent
    cases underway with
    | checked winner _ admitted _ _ _ _ =>
        have free := alone.1
        rw [admitted] at free
        cases free
    | saved winner _ _ _ _ stored => exact uncertain winner stored
    | done winner _ _ _ _ stored => exact uncertain winner stored

/-- Only the request that passed its lookup saves, and it keeps the requests
under way unless the store fails. -/
theorem underway_commit
    {id : String}
    {state next : CameraState}
    (underway : state.Underway id)
    {position : Nat}
    {fails : Bool}
    (taken : state.step (.commit position fails) = some next) :
    (state.ChecksAlone id (.commit position fails) ∧ next.Underway id) ∨
    (¬ state.ChecksAlone id (.commit position fails) ∧ next.Spoiled) := by
  obtain ⟨job, present, rfl⟩ := Option.map_eq_some_iff.mp taken
  cases underway with
  | checked cam named admitted committed answered refused absent =>
      obtain ⟨rfl, rfl⟩ : position = 0 ∧ .add cam = job := by
        simpa [admitted, List.getElem?_singleton] using present
      rw [commitJob_add]
      cases fails with
      | true =>
          right
          refine ⟨by simp [ChecksAlone], .inr ?_⟩
          exact ⟨(.add cam, (Job.add cam).failure), by simp, by simp [Job.failure]⟩
      | false =>
          left
          refine ⟨rfl, .saved cam ?_ ?_ answered ?_ ?_⟩
          · simp [admitted]
          · simp [committed]
          · simp [refused]
          · simp [← named]
  | saved _ admitted => simp [admitted] at present
  | done _ admitted => simp [admitted] at present

/-- The manager call of the request that saved answers it. -/
theorem underway_sync
    {id : String}
    {state next : CameraState}
    (underway : state.Underway id)
    {position : Nat}
    (taken : state.step (.sync position) = some next) :
    next.Underway id := by
  obtain ⟨job, present, rfl⟩ := Option.map_eq_some_iff.mp taken
  cases underway with
  | checked _ _ _ committed => simp [committed] at present
  | saved cam admitted committed answered refused stored =>
      obtain ⟨rfl, rfl⟩ : position = 0 ∧ .add cam = job := by
        simpa [committed, List.getElem?_singleton] using present
      exact .done cam admitted (by simp [committed]) (by simp [answered]) refused
        stored
  | done _ _ committed => simp [committed] at present

/-- A step keeps the requests under way exactly if it meets the condition. -/
theorem underway_step
    {id : String}
    (named : id ≠ "")
    {state next : CameraState}
    {label : CameraStep}
    (underway : state.Underway id)
    (taken : state.adds id label = some next) :
    (state.ChecksAlone id label ∧ next.Underway id) ∨
      (¬ state.ChecksAlone id label ∧ next.Spoiled) := by
  obtain ⟨enabled, kind⟩ := adds_eq_some taken
  rcases kind with ⟨cam, readFails, rfl, same⟩ | ⟨position, fails, rfl⟩ |
    ⟨position, rfl⟩
  · exact underway_begin named underway same enabled
  · exact underway_commit underway enabled
  · exact .inl ⟨trivial, underway_sync underway enabled⟩

/-- The first request for an absent camera passes its lookup. -/
theorem underway_first
    {id : String}
    (named : id ≠ "")
    {db : DB}
    {manager : Manager}
    (absent : ∀ cam, db.get cameras id ≠ .ok cam)
    {label : CameraStep}
    {next : CameraState}
    (taken : (idle db manager).adds id label = some next) :
    (idle db manager).ChecksAlone id label ∧ next.Underway id := by
  obtain ⟨enabled, kind⟩ := adds_eq_some taken
  rcases kind with ⟨cam, readFails, rfl, same⟩ | ⟨position, fails, rfl⟩ |
    ⟨position, rfl⟩
  · refine ⟨⟨rfl, fun _ => absent⟩, ?_⟩
    rcases (idle db manager).step_begin named same readFails with
      ⟨_, ⟨found, present⟩, _⟩ | ⟨_, admitting⟩
    · exact absurd present (absent found)
    · rw [admitting, Option.some.injEq] at enabled
      subst next
      exact .checked { cam with id := id } rfl rfl rfl rfl rfl absent
  · simp [step, idle] at enabled
  · simp [step, idle] at enabled

/-- When nothing is in flight any more, one request was answered with success,
the others with a conflict, and the camera is stored as that request gave it,
exactly if the requests are under way as they should. -/
theorem underway_iff_of_quiescent
    {id : String}
    {state : CameraState}
    (either : state.Underway id ∨ state.Spoiled)
    (quiescent : state.Quiescent) :
    (∃ cam, state.answered = [(.add cam, .ok)] ∧
      (∀ refusal ∈ state.refused, refusal.2 = conflict id) ∧
      state.db.get cameras id = .ok cam) ↔ state.Underway id := by
  constructor
  · rintro ⟨cam, answered, _, _⟩
    refine either.resolve_right ?_
    rintro (many | ⟨answer, member, failed⟩)
    · simp [passed, quiescent.1, quiescent.2, answered] at many
    · rw [answered, List.mem_singleton] at member
      exact failed (by rw [member])
  · intro underway
    cases underway with
    | checked cam _ admitted =>
        rw [quiescent.1] at admitted
        cases admitted
    | saved cam _ committed =>
        rw [quiescent.2] at committed
        cases committed
    | done cam _ _ answered refused stored =>
        exact ⟨cam, answered, refused, stored⟩

end CameraState

open CameraState

/-- In every interleaving of `AddCamera` requests for one camera that is not
stored, once none is in flight, exactly one was answered with success, all
others with a conflict, and the camera is stored as the successful request gave
it, exactly if no request looked the camera up while another one was between its
lookup and its save, and the store did not fail in between. -/
theorem one_added_iff_checksAlone
    (db : DB)
    (manager : Manager)
    (id : String)
    (named : id ≠ "")
    (absent : ∀ cam, db.get cameras id ≠ .ok cam)
    (labels : List CameraStep)
    (requested : labels ≠ [])
    {finish : CameraState}
    (reached : run (adds id) (idle db manager) labels = some finish)
    (quiescent : finish.Quiescent) :
    (∃ cam, finish.answered = [(.add cam, .ok)] ∧
      (∀ refusal ∈ finish.refused, refusal.2 =
        .error 409 s!"Camera with ID '{id}' already exists") ∧
      finish.db.get cameras id = .ok cam) ↔
    Meets (adds id) (ChecksAlone id) (idle db manager) labels := by
  obtain ⟨label, rest, rfl⟩ := List.exists_cons_of_ne_nil requested
  obtain ⟨next, taken, later⟩ := run_cons_eq_some.mp reached
  obtain ⟨alone, underway⟩ := underway_first named absent taken
  have invariantStep : ∀ state label next,
      state.Underway id ∨ state.Spoiled → adds id state label = some next →
      next.Underway id ∨ next.Spoiled := by
    rintro state label next (before | before) taken
    · exact (underway_step named before taken).imp And.right And.right
    · exact .inr (before.step (adds_eq_some taken).1)
  have exactStep : ∀ state label next,
      state.Underway id ∨ state.Spoiled → adds id state label = some next →
      (next.Underway id ↔ state.Underway id ∧ state.ChecksAlone id label) := by
    rintro state label next (before | before) taken
    · rcases underway_step named before taken with ⟨met, after⟩ | ⟨unmet, after⟩
      · simp [before, met, after]
      · refine iff_of_false (fun good => good.not_spoiled after) ?_
        exact fun both => unmet both.2
    · have after := before.step (adds_eq_some taken).1
      exact iff_of_false (fun good => good.not_spoiled after)
        fun both => both.1.not_spoiled before
  have either := run_invariant invariantStep (.inl underway) later
  have exactRun := holds_iff_meets invariantStep exactStep (.inl underway) later
  have rule := underway_iff_of_quiescent either quiescent
  rw [conflict] at rule
  rw [rule, exactRun, and_iff_right underway]
  simp [Meets, taken, alone]

/-- A request that looks the camera up after the first one has saved it. -/
def savedBetween : List CameraStep :=
  [.begin (.addCamera (some { id := "cam", url := "rtsp://a" })) false,
    .commit 0 false,
    .begin (.addCamera (some { id := " cam", url := "rtsp://b" })) false, .sync 0]

theorem one_added_iff_checksAlone_later :
    ∃ finish,
      run (adds "cam") (idle DB.empty Manager.empty) savedBetween = some finish ∧
      ∃ cam, finish.answered = [(.add cam, .ok)] ∧
        (∀ refusal ∈ finish.refused, refusal.2 = conflict "cam") ∧
        finish.db.get cameras "cam" = .ok cam := by
  refine ⟨_, rfl, ?_⟩
  refine (one_added_iff_checksAlone DB.empty Manager.empty "cam" (by decide)
    (by simp) savedBetween (by decide) rfl ⟨rfl, rfl⟩).mpr ?_
  refine ⟨⟨rfl, by simp⟩, fun _ checked => ⟨rfl, fun _ saved => ?_⟩⟩
  cases checked
  cases saved
  exact ⟨⟨rfl, by simp⟩, fun _ _ => ⟨trivial, fun _ _ => trivial⟩⟩

/-- Two requests that both look the camera up before either saves it are both
answered with success, and the camera is stored as the second gave it. -/
theorem both_added :
    let first : CameraConfig := { id := "cam", url := "rtsp://a" }
    let second : CameraConfig := { id := "cam", url := "rtsp://b" }
    (∀ cam, DB.empty.get cameras "cam" ≠ .ok cam) ∧
    ∃ finish, run (adds "cam") (idle DB.empty Manager.empty)
        [.begin (.addCamera (some first)) false,
          .begin (.addCamera (some second)) false, .commit 0 false, .sync 0,
          .commit 0 false, .sync 0] = some finish ∧
      finish.Quiescent ∧
      finish.answered = [(.add first, .ok), (.add second, .ok)] ∧
      finish.refused = [] ∧
      finish.db.get cameras "cam" = .ok second := by
  exact ⟨by simp, _, rfl, ⟨rfl, rfl⟩, rfl, rfl, rfl⟩

end Api
end RuseonCore
