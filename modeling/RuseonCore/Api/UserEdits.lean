import RuseonCore.Api.Users

/-!
# Concurrent edits of one account

`EditUser` reads the account in one transaction and saves the whole record in
another.  Two edits of the same account run call by call, one with only a new
password and one with only a new role.  When both are answered, the account has
the new password hash and the new role exactly if each edit saved while the
field that it does not supply was stored as the edit had read it.
-/

namespace RuseonCore
namespace Api

open Storage Transition

/-- The two edits. -/
inductive Edit
  | password
  | role
  deriving DecidableEq

/-- The other of the two edits. -/
def Edit.other : Edit → Edit
  | .password => .role
  | .role => .password

/-- What an edit has read, and whether it has saved. -/
@[ext] structure Progress where
  read : Option User
  saved : Bool

/-- Progress of an edit after a reply. -/
def learnProgress (progress : Progress) :
    (request : UserCall) → request.Reply → Progress
  | .getUser _, found => { progress with read := found }
  | .saveUser _, failure =>
      { progress with
        saved := progress.saved || (failure : Option String).isNone }
  | .listUsers, _ => progress
  | .deleteUser _, _ => progress

/-- User requests over the account store, with the progress of edits. -/
def editService : Service UserCall UserCall.Reply Response UserStore
    Progress (Option String) UserRequest where
  handler := UserRequest.handler
  perform := perform
  learn := learnProgress
  ignorant := ⟨none, false⟩

/-- The edited account, and what the two edits supply. -/
structure EditPair where
  username : String
  password : String
  hash : String
  role : Role
  passwordSupplied : password ≠ ""
  roleSupplied : role ≠ ""

namespace EditPair

variable (pair : EditPair)

/-- One edit supplies only a password, the other only a role. -/
def requests : Edit → UserRequest
  | .password => .editUser pair.username (.ok ⟨pair.password, ""⟩) (some pair.hash)
  | .role => .editUser pair.username (.ok ⟨"", pair.role⟩) none

/-- The record after an edit. -/
def applied : Edit → User → User
  | .password, user => { user with passwordHash := pair.hash }
  | .role, user => { user with role := pair.role }

/-- The record has what the edit supplies. -/
def Took : Edit → User → Prop
  | .password, user => user.passwordHash = pair.hash
  | .role, user => user.role = pair.role

end EditPair

/-- The records agree on the field that the edit does not supply. -/
def AgreesBeside : Edit → User → User → Prop
  | .password, first, second => first.role = second.role
  | .role, first, second => first.passwordHash = second.passwordHash

/-- An edit that saves still finds the field that it does not supply as it has
read it. -/
def SavesOverRead
    (pair : EditPair)
    (edit : Edit)
    (store : UserStore)
    (progress : Progress)
    (request : UserCall)
    (fault : Option String) : Prop :=
  match fault, request with
  | none, .saveUser _ =>
      ∀ read ∈ progress.read, ∀ current,
        store.getUser pair.username = .ok current →
        AgreesBeside edit current read
  | _, _ => True

/-! ## What the code of an edit does -/

/-- An edit reads its account, and saves once what it has read with its own
change. -/
def EditAllowed
    (pair : EditPair)
    (edit : Edit)
    (progress : Progress) : UserCall → Prop
  | .getUser username => username = pair.username
  | .listUsers => True
  | .saveUser user =>
      progress.saved = false ∧ ∃ read ∈ progress.read, user = pair.applied edit read
  | .deleteUser _ => False

/-- An edit that succeeds has saved. -/
def SavedIfOk (_ : Edit) (progress : Progress) (result : Response) : Prop :=
  result = .ok → progress.saved = true

/-- Both descriptions of the code of an edit. -/
def Behaves (pair : EditPair) (edit : Edit) (progress : Progress)
    (program : UserProgram) : Prop :=
  program.Obeys learnProgress (EditAllowed pair edit) progress ∧
    program.Ensures learnProgress (SavedIfOk edit) progress

variable {pair : EditPair}

theorem behaves_saveAndAnswer
    {edit : Edit}
    {user read : User}
    (change : user = pair.applied edit read) :
    Behaves pair edit ⟨some read, false⟩ (saveAndAnswer user .ok) := by
  refine ⟨⟨⟨rfl, read, rfl, change⟩, ?_⟩, ?_⟩
  · intro failure
    cases (failure : Option String) <;> trivial
  · intro failure
    cases (failure : Option String) with
    | none => exact fun _ => rfl
    | some text => exact fun answered => by cases answered

theorem behaves_checkAdmins
    {edit : Edit}
    {progress : Progress}
    {next : UserProgram}
    (refusal : String)
    (behaves : Behaves pair edit progress next) :
    Behaves pair edit progress (checkAdmins refusal next) := by
  constructor
  · refine ⟨trivial, fun listed => ?_⟩
    cases (listed : Option Accounts) with
    | none => exact behaves.1
    | some accounts =>
        dsimp only
        split
        · trivial
        · exact behaves.1
  · intro listed
    cases (listed : Option Accounts) with
    | none => exact behaves.2
    | some accounts =>
        dsimp only
        split
        · exact fun answered => by cases answered
        · exact behaves.2

theorem behaves_withUser
    {edit : Edit}
    {next : User → UserProgram}
    (behaves : ∀ read, Behaves pair edit ⟨some read, false⟩ (next read)) :
    Behaves pair edit ⟨none, false⟩ (withUser pair.username next) := by
  constructor
  · refine ⟨rfl, fun found => ?_⟩
    cases (found : Option User) with
    | none => trivial
    | some user => exact (behaves user).1
  · intro found
    cases (found : Option User) with
    | none => exact fun answered => by cases answered
    | some user => exact (behaves user).2

/-- The code of both edits behaves as described. -/
theorem behaves_handler (edit : Edit) :
    Behaves pair edit ⟨none, false⟩ (pair.requests edit).handler := by
  cases edit with
  | password =>
      refine behaves_withUser fun read => ?_
      simp only [ne_eq, pair.passwordSupplied, not_false_eq_true, if_true, editRole,
        not_true_eq_false, if_false]
      exact behaves_saveAndAnswer rfl
  | role =>
      refine behaves_withUser fun read => ?_
      simp only [ne_eq, pair.roleSupplied, not_false_eq_true, if_true, editRole,
        not_true_eq_false, if_false]
      split
      · exact behaves_checkAdmins _ (behaves_saveAndAnswer rfl)
      · exact behaves_saveAndAnswer rfl

/-! ## Steps of the two edits -/

/-- Both edits under way. -/
abbrev EditRace :=
  Race Edit UserCall UserCall.Reply Response UserStore Progress

/-- Progress of both edits. -/
def progressOf (state : EditRace) (edit : Edit) : Progress :=
  (state.threads edit).known

/-- What a step of an edit does to the stored record and to the progress of the
edits, and what the condition on its call amounts to. -/
inductive EditStep
    (pair : EditPair)
    (current : User)
    (known : Edit → Progress)
    (edit : Edit) : User → (Edit → Progress) → Prop → Prop
  | look
      {condition : Prop}
      (read : Option User)
      (genuine : read = (known edit).read ∨ read = some current ∨ read = none)
      (met : condition) :
      EditStep pair current known edit current
        (Function.update known edit ⟨read, (known edit).saved⟩) condition
  | save
      {condition : Prop}
      (read : User)
      (first : known edit = ⟨some read, false⟩)
      (exact : condition ↔ AgreesBeside edit current read) :
      EditStep pair current known edit (pair.applied edit read)
        (Function.update known edit ⟨some read, true⟩) condition

theorem progressOf_eq_update
    {state next : EditRace}
    {edit : Edit}
    {thread : Thread UserCall UserCall.Reply Response Progress}
    (threads : next.threads = Function.update state.threads edit thread) :
    progressOf next = Function.update (progressOf state) edit thread.known := by
  funext other
  by_cases same : other = edit
  · subst same
    simp [progressOf, threads]
  · simp [progressOf, threads, same]

theorem getUser_saveUser_applied
    {username : String}
    {read : User}
    (named : read.username = username)
    (store : UserStore)
    (edit : Edit) :
    (store.saveUser (pair.applied edit read)).getUser username =
      .ok (pair.applied edit read) := by
  subst named
  cases edit <;> simp [EditPair.applied, UserStore.getUser, UserStore.saveUser]

/-- Every call that an edit may make is one of these steps. -/
theorem editStep_of_call
    {store : UserStore}
    {known : Edit → Progress}
    {edit : Edit}
    {fault : Option String}
    {current : User}
    {request : UserCall}
    (allowed : EditAllowed pair edit (known edit) request)
    (stored : store.getUser pair.username = .ok current)
    (named : ∀ read ∈ (known edit).read, read.username = pair.username) :
    ∃ after,
      (perform store fault request).1.getUser pair.username = .ok after ∧
      EditStep pair current known edit after
        (Function.update known edit
          (learnProgress (known edit) request (perform store fault request).2))
        (SavesOverRead pair edit store (known edit) request fault) := by
  have unchanged : EditStep pair current known edit current
      (Function.update known edit (known edit)) True :=
    .look (known edit).read (.inl rfl) trivial
  cases request with
  | getUser username =>
      have own : username = pair.username := allowed
      subst own
      cases fault with
      | none =>
          have seen : (store.getUser pair.username).toOption = some current := by
            rw [stored]
            rfl
          exact ⟨current, stored, .look _ (.inr (.inl seen)) trivial⟩
      | some text =>
          exact ⟨current, stored, .look none (.inr (.inr rfl)) trivial⟩
  | listUsers =>
      refine ⟨current, ?_, ?_⟩
      · cases fault <;> exact stored
      · cases fault <;> exact unchanged
  | saveUser user =>
      obtain ⟨first, read, has, rfl⟩ := allowed
      have progress : known edit = ⟨some read, false⟩ :=
        Progress.ext has first
      cases fault with
      | some text =>
          refine ⟨current, stored, ?_⟩
          rw [progress] at unchanged ⊢
          exact unchanged
      | none =>
          have amounts : SavesOverRead pair edit store (known edit)
              (.saveUser (pair.applied edit read)) none ↔
              AgreesBeside edit current read := by
            simp [SavesOverRead, progress, stored]
          refine ⟨pair.applied edit read, ?_, ?_⟩
          · exact getUser_saveUser_applied (named read has) _ edit
          · rw [progress] at amounts ⊢
            exact .save read progress amounts
  | deleteUser username => exact allowed.elim

/-- Every step of orderly edits is one of these. -/
theorem editStep_of_raceStep
    {state next : EditRace}
    {edit : Edit}
    {fault : Option String}
    {current : User}
    (orderly : editService.RaceOrderly (EditAllowed pair) SavedIfOk state)
    (stored : state.shared.getUser pair.username = .ok current)
    (named : ∀ read ∈ (progressOf state edit).read, read.username = pair.username)
    (taken : editService.raceStep state (edit, fault) = some next) :
    ∃ after,
      next.shared.getUser pair.username = .ok after ∧
      EditStep pair current (progressOf state) edit after (progressOf next)
        (Service.OnRaceCalls (SavesOverRead pair) state (edit, fault)) := by
  obtain ⟨request, continuation, code, shared, threads⟩ :=
    Service.raceStep_eq_some taken
  have allowed := orderly.obeys edit
  rw [code] at allowed
  have condition : Service.OnRaceCalls (SavesOverRead pair) state (edit, fault) =
      SavesOverRead pair edit state.shared (progressOf state edit) request fault := by
    simp only [Service.OnRaceCalls, code]
    rfl
  have progress : progressOf next = Function.update (progressOf state) edit
      (learnProgress (progressOf state edit) request
        (perform state.shared fault request).2) :=
    progressOf_eq_update threads
  rw [progress, shared, condition]
  exact editStep_of_call allowed.1 stored named

/-! ## Lost edits -/

/-- An edit that has not saved has left its field as it was, in the store and
in what the other edit has read; and an edit that alone has saved is stored. -/
structure EditInvariant
    (pair : EditPair)
    (original current : User)
    (known : Edit → Progress) : Prop where
  named : current.username = pair.username
  namedRead : ∀ edit, ∀ read ∈ (known edit).read, read.username = pair.username
  untouched : ∀ edit, (known edit.other).saved = false →
    AgreesBeside edit current original ∧
      ∀ read ∈ (known edit).read, AgreesBeside edit read original
  alone : ∀ edit, (known edit).saved = true → (known edit.other).saved = false →
    pair.Took edit current

/-- Every edit that has saved is stored. -/
def SavedTook (pair : EditPair) (current : User) (known : Edit → Progress) : Prop :=
  ∀ edit, (known edit).saved = true → pair.Took edit current

@[simp] theorem Edit.other_other (edit : Edit) : edit.other.other = edit := by
  cases edit <;> rfl

theorem Edit.other_ne (edit : Edit) : edit.other ≠ edit := by
  cases edit <;> decide

theorem Edit.eq_or_eq_other (first second : Edit) :
    first = second ∨ first = second.other := by
  cases first <;> cases second <;> decide

@[simp] theorem username_applied (edit : Edit) (read : User) :
    (pair.applied edit read).username = read.username := by
  cases edit <;> rfl

@[simp] theorem took_applied (edit : Edit) (read : User) :
    pair.Took edit (pair.applied edit read) := by
  cases edit <;> rfl

@[simp] theorem took_applied_other (edit : Edit) (read : User) :
    pair.Took edit.other (pair.applied edit read) ↔ pair.Took edit.other read := by
  cases edit <;> rfl

@[simp] theorem agreesBeside_applied (edit : Edit) (read other : User) :
    AgreesBeside edit (pair.applied edit read) other ↔
      AgreesBeside edit read other := by
  cases edit <;> rfl

/-- If the other edit is stored, it is in what this edit has read exactly if
the stored field is as this edit has read it. -/
theorem took_other_iff
    {edit : Edit}
    {current : User}
    (took : pair.Took edit.other current)
    (read : User) :
    pair.Took edit.other read ↔ AgreesBeside edit current read := by
  cases edit <;> simp only [EditPair.Took, Edit.other] at took <;>
    simp [EditPair.Took, Edit.other, AgreesBeside, took, eq_comm]

theorem AgreesBeside.of_both
    {edit : Edit}
    {first second original : User}
    (left : AgreesBeside edit first original)
    (right : AgreesBeside edit second original) :
    AgreesBeside edit first second := by
  cases edit with
  | password => exact Eq.trans left (Eq.symm right)
  | role => exact Eq.trans left (Eq.symm right)

theorem saved_look
    (known : Edit → Progress)
    (edit other : Edit)
    (read : Option User) :
    (Function.update known edit ⟨read, (known edit).saved⟩ other).saved =
      (known other).saved := by
  by_cases same : other = edit
  · subst same
    simp
  · simp [same]

/-- What an edit may have read by looking is covered by the invariant. -/
theorem EditInvariant.look
    {original current : User}
    {known : Edit → Progress}
    {edit : Edit}
    (invariant : EditInvariant pair original current known)
    {found : Option User}
    (genuine : found = (known edit).read ∨ found = some current ∨ found = none) :
    EditInvariant pair original current
      (Function.update known edit ⟨found, (known edit).saved⟩) := by
  have reads : ∀ other, ∀ read ∈ (Function.update known edit
      ⟨found, (known edit).saved⟩ other).read,
      read ∈ (known other).read ∨ read = current := by
    intro other read has
    by_cases same : other = edit
    · subst same
      rw [Function.update_self] at has
      rcases genuine with old | new | none
      · exact .inl (old ▸ has)
      · exact .inr (Option.some.inj (new ▸ Option.mem_def.mp has)).symm
      · rw [none] at has
        cases has
    · rw [Function.update_of_ne same] at has
      exact .inl has
  constructor
  · exact invariant.named
  · intro other read has
    rcases reads other read has with old | rfl
    · exact invariant.namedRead other read old
    · exact invariant.named
  · intro other unsaved
    rw [saved_look] at unsaved
    obtain ⟨agrees, agreesRead⟩ := invariant.untouched other unsaved
    refine ⟨agrees, fun read has => ?_⟩
    rcases reads other read has with old | rfl
    · exact agreesRead read old
    · exact agrees
  · intro other saved unsaved
    rw [saved_look] at saved unsaved
    exact invariant.alone other saved unsaved

/-- The invariant is kept by the save of an edit. -/
theorem EditInvariant.save
    {original current read : User}
    {known : Edit → Progress}
    {edit : Edit}
    (invariant : EditInvariant pair original current known)
    (first : known edit = ⟨some read, false⟩) :
    EditInvariant pair original (pair.applied edit read)
      (Function.update known edit ⟨some read, true⟩) := by
  have has : read ∈ (known edit).read := by
    rw [first]
    rfl
  have named := invariant.namedRead edit read has
  constructor
  · rw [username_applied, named]
  · intro other record recorded
    by_cases same : other = edit
    · subst same
      rw [Function.update_self] at recorded
      rw [← Option.some.inj (Option.mem_def.mp recorded), named]
    · rw [Function.update_of_ne same] at recorded
      exact invariant.namedRead other record recorded
  · intro other unsaved
    rcases other.eq_or_eq_other edit with rfl | rfl
    · rw [Function.update_of_ne other.other_ne] at unsaved
      have agrees := (invariant.untouched other unsaved).2 read has
      refine ⟨(agreesBeside_applied other read original).mpr agrees, ?_⟩
      intro record recorded
      rw [Function.update_self] at recorded
      rwa [← Option.some.inj (Option.mem_def.mp recorded)]
    · simp at unsaved
  · intro other saved unsaved
    rcases other.eq_or_eq_other edit with rfl | rfl
    · exact took_applied other read
    · simp at unsaved

/-- A save keeps the saved edits stored exactly if the field that it does not
supply is stored as it was read. -/
theorem savedTook_save_iff
    {original current read : User}
    {known : Edit → Progress}
    {edit : Edit}
    (invariant : EditInvariant pair original current known)
    (first : known edit = ⟨some read, false⟩) :
    SavedTook pair (pair.applied edit read)
        (Function.update known edit ⟨some read, true⟩) ↔
      SavedTook pair current known ∧ AgreesBeside edit current read := by
  have has : read ∈ (known edit).read := by
    rw [first]
    rfl
  have unsaved : (known edit).saved = false := by
    rw [first]
  have others : SavedTook pair (pair.applied edit read)
      (Function.update known edit ⟨some read, true⟩) ↔
      ((known edit.other).saved = true → pair.Took edit.other read) := by
    constructor
    · intro took saved
      have other := took edit.other
      rw [Function.update_of_ne edit.other_ne] at other
      exact (took_applied_other edit read).mp (other saved)
    · intro took other saved
      rcases other.eq_or_eq_other edit with rfl | rfl
      · exact took_applied other read
      · rw [Function.update_of_ne edit.other_ne] at saved
        exact (took_applied_other edit read).mpr (took saved)
  have before : SavedTook pair current known := by
    intro other saved
    rcases other.eq_or_eq_other edit with rfl | rfl
    · rw [unsaved] at saved
      cases saved
    · exact invariant.alone edit.other saved (by rwa [Edit.other_other])
  rw [others, and_iff_right before]
  cases saved : (known edit.other).saved with
  | false =>
      have untouched := invariant.untouched edit saved
      have agrees := untouched.1.of_both (untouched.2 read has)
      simp [agrees]
  | true =>
      have took := before edit.other saved
      simpa using took_other_iff took read

/-- The invariant is kept. -/
theorem EditInvariant.step
    {original current after : User}
    {known next : Edit → Progress}
    {edit : Edit}
    {condition : Prop}
    (invariant : EditInvariant pair original current known)
    (step : EditStep pair current known edit after next condition) :
    EditInvariant pair original after next := by
  cases step with
  | look found genuine met => exact invariant.look genuine
  | save read first exact => exact invariant.save first

/-- A step keeps the saved edits stored exactly if its condition is met. -/
theorem savedTook_step
    {original current after : User}
    {known next : Edit → Progress}
    {edit : Edit}
    {condition : Prop}
    (invariant : EditInvariant pair original current known)
    (step : EditStep pair current known edit after next condition) :
    SavedTook pair after next ↔ SavedTook pair current known ∧ condition := by
  cases step with
  | look found genuine met => simp [SavedTook, saved_look, met]
  | save read first exact => rw [savedTook_save_iff invariant first, exact]

theorem editInvariant_start
    {original : User}
    (named : original.username = pair.username) :
    EditInvariant pair original original fun _ => ⟨none, false⟩ where
  named := named
  namedRead := fun _ _ has => by cases has
  untouched := by
    intro edit _
    refine ⟨?_, fun _ has => by cases has⟩
    cases edit <;> rfl
  alone := fun _ saved => by cases saved

/-- Invariant of the two edits under way. -/
def EditRace.Invariant (pair : EditPair) (original : User) (state : EditRace) :
    Prop :=
  editService.RaceOrderly (EditAllowed pair) SavedIfOk state ∧
    ∃ current, state.shared.getUser pair.username = .ok current ∧
      EditInvariant pair original current (progressOf state)

/-- Every edit that has saved is stored. -/
def EditRace.Kept (pair : EditPair) (state : EditRace) : Prop :=
  ∃ current, state.shared.getUser pair.username = .ok current ∧
    SavedTook pair current (progressOf state)

/-- One step of the race. -/
theorem EditRace.step
    {original : User}
    {state next : EditRace}
    {label : Edit × Option String}
    (invariant : state.Invariant pair original)
    (taken : editService.raceStep state label = some next) :
    next.Invariant pair original ∧
      (next.Kept pair ↔ state.Kept pair ∧
        Service.OnRaceCalls (SavesOverRead pair) state label) := by
  obtain ⟨edit, fault⟩ := label
  obtain ⟨orderly, current, stored, holds⟩ := invariant
  obtain ⟨after, storedAfter, step⟩ :=
    editStep_of_raceStep orderly stored (holds.namedRead edit) taken
  refine ⟨⟨Service.raceOrderly_step orderly taken, after, storedAfter,
    holds.step step⟩, ?_⟩
  simpa [Kept, stored, storedAfter] using savedTook_step holds step

/-- When both edits are answered with success, the account has the new password
hash and the new role exactly if every save of an edit found the field that the
edit does not supply as it had read it. -/
theorem both_edits_stored_iff
    (pair : EditPair)
    (store : UserStore)
    {original : User}
    (stored : store.getUser pair.username = .ok original)
    (labels : List (Edit × Option String))
    {finish : EditRace}
    (reached : run editService.raceStep
      (editService.race pair.requests store) labels = some finish)
    (answered : ∀ edit, (finish.threads edit).program = .done .ok) :
    (∃ user, finish.shared.getUser pair.username = .ok user ∧
        user.passwordHash = pair.hash ∧ user.role = pair.role) ↔
      Meets editService.raceStep (Service.OnRaceCalls (SavesOverRead pair))
        (editService.race pair.requests store) labels := by
  have initial : EditRace.Invariant pair original
      (editService.race pair.requests store) := by
    refine ⟨⟨fun edit => (behaves_handler edit).1,
      fun edit => (behaves_handler edit).2⟩, original, stored, ?_⟩
    exact editInvariant_start (store.keyed _ _ stored)
  have invariantStep : ∀ (state : EditRace) label (next : EditRace),
      state.Invariant pair original →
      editService.raceStep state label = some next →
      next.Invariant pair original :=
    fun _ _ _ invariant taken => (EditRace.step invariant taken).1
  have exactStep : ∀ (state : EditRace) label (next : EditRace),
      state.Invariant pair original →
      editService.raceStep state label = some next →
      (next.Kept pair ↔ state.Kept pair ∧
        Service.OnRaceCalls (SavesOverRead pair) state label) :=
    fun _ _ _ invariant taken => (EditRace.step invariant taken).2
  have keptStart : EditRace.Kept pair (editService.race pair.requests store) :=
    ⟨original, stored, fun _ saved => by cases saved⟩
  obtain ⟨orderly, _⟩ := run_invariant invariantStep initial reached
  have saved : ∀ edit, (progressOf finish edit).saved = true := by
    intro edit
    have promised := orderly.ensures edit
    rw [answered edit] at promised
    exact promised rfl
  have exact := holds_iff_meets invariantStep exactStep initial reached
  rw [and_iff_right keptStart] at exact
  rw [← exact]
  constructor
  · rintro ⟨user, found, hash, role⟩
    refine ⟨user, found, fun edit _ => ?_⟩
    cases edit with
    | password => exact hash
    | role => exact role
  · rintro ⟨user, found, took⟩
    exact ⟨user, found, took .password (saved .password), took .role (saved .role)⟩

/-- A store with an operator. -/
def oneOperator : UserStore :=
  UserStore.empty.saveUser
    { username := "op", passwordHash := "old", role := roleOperator }

/-- The operator gets a new password and is made a viewer. -/
def demotion : EditPair where
  username := "op"
  password := "secret"
  hash := "new"
  role := roleViewer
  passwordSupplied := by decide
  roleSupplied := by decide

/-- The role is edited after the password has been saved. -/
def editsInTurn : List (Edit × Option String) :=
  [(.password, none), (.password, none), (.role, none), (.role, none)]

/-- Both edits read before either saves, and the password is saved last. -/
def editsAtOnce : List (Edit × Option String) :=
  [(.password, none), (.role, none), (.role, none), (.password, none)]

/-- Edits in turn are both stored. -/
theorem both_edits_stored_iff_inTurn :
    ∃ finish : EditRace,
      run editService.raceStep
        (editService.race demotion.requests oneOperator) editsInTurn = some finish ∧
      (∃ user, finish.shared.getUser "op" = .ok user ∧
        user.passwordHash = "new" ∧ user.role = roleViewer) := by
  refine ⟨_, rfl, (both_edits_stored_iff demotion oneOperator rfl editsInTurn rfl
    ?_).mpr ?_⟩
  · intro edit
    cases edit <;> rfl
  · refine ⟨trivial, ?_⟩
    rintro _ ⟨⟩
    refine ⟨?_, ?_⟩
    · rintro _ ⟨⟩ _ ⟨⟩
      rfl
    rintro _ ⟨⟩
    refine ⟨trivial, ?_⟩
    rintro _ ⟨⟩
    refine ⟨?_, fun _ _ => trivial⟩
    rintro _ ⟨⟩ _ ⟨⟩
    rfl

/-- The save of the password brings back the role that was taken away. -/
theorem role_edit_lost :
    ∃ finish : EditRace,
      run editService.raceStep
        (editService.race demotion.requests oneOperator) editsAtOnce = some finish ∧
      (∀ edit, (finish.threads edit).program = .done .ok) ∧
      finish.shared.getUser "op" =
        .ok { username := "op", passwordHash := "new", role := roleOperator } ∧
      demotion.role ≠ roleOperator := by
  refine ⟨_, rfl, ?_, rfl, by decide⟩
  intro edit
  cases edit <;> rfl

end Api
end RuseonCore
