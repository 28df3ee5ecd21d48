import RuseonCore.Foundation.Transition

/-!
# Programs over a shared service

A program makes calls to a service, chooses its next call by the replies, and
ends with a result.  Alone it runs to its end in one go; several programs
interleave call by call.  What a program has learnt from its replies is recorded
beside it, so that one can state which calls its own code allows it to make.

The rule at the end carries a property of the shared state through every
interleaving: each call has to keep it, given that the code of the caller allows
the call and that the schedule meets a condition.
-/

namespace RuseonCore

/-- A program that makes calls and ends with a result. -/
inductive Program (Call : Type) (Reply : Call → Type) (Result : Type)
  | done (result : Result)
  | call (request : Call) (next : Reply request → Program Call Reply Result)

namespace Program

variable {Call Result Shared Known Fault Input : Type}
variable {Reply : Call → Type}

/-- Run a program alone to its end. -/
def exec (perform : Shared → (request : Call) → Shared × Reply request) :
    Program Call Reply Result → Shared → Shared × Result
  | .done result, shared => (shared, result)
  | .call request next, shared =>
      let (after, reply) := perform shared request
      (next reply).exec perform after

/-- Every call of the program is allowed by what the program has learnt when it
makes the call. -/
def Obeys
    (learn : Known → (request : Call) → Reply request → Known)
    (allowed : Known → Call → Prop) :
    Known → Program Call Reply Result → Prop
  | _, .done _ => True
  | known, .call request next =>
      allowed known request ∧
        ∀ reply, Obeys learn allowed (learn known request reply) (next reply)

/-- Whatever it is replied, the program ends with a result that meets the
postcondition for what it has learnt. -/
def Ensures
    (learn : Known → (request : Call) → Reply request → Known)
    (post : Known → Result → Prop) :
    Known → Program Call Reply Result → Prop
  | known, .done result => post known result
  | known, .call request next =>
      ∀ reply, Ensures learn post (learn known request reply) (next reply)

end Program

/-- How programs interact: the code of each input, the effect of a call under a
fault, and what is learnt from replies. -/
structure Service
    (Call : Type)
    (Reply : Call → Type)
    (Result Shared Known Fault Input : Type) where
  handler : Input → Program Call Reply Result
  perform : Shared → Fault → (request : Call) → Shared × Reply request
  learn : Known → (request : Call) → Reply request → Known
  ignorant : Known

/-- A program under way and what it has learnt. -/
structure Thread
    (Call : Type)
    (Reply : Call → Type)
    (Result Known : Type) where
  known : Known
  program : Program Call Reply Result

/-- Shared state, programs under way, and results of those that ended. -/
structure System
    (Call : Type)
    (Reply : Call → Type)
    (Result Shared Known : Type) where
  shared : Shared
  threads : List (Thread Call Reply Result Known)
  results : List Result

/-- Steps of an interleaving. -/
inductive Schedule (Fault Input : Type)
  | spawn (input : Input)
  | advance (thread : Nat) (fault : Fault)
  deriving DecidableEq

namespace Service

variable {Call Result Shared Known Fault Input : Type}
variable {Reply : Call → Type}
variable (service : Service Call Reply Result Shared Known Fault Input)

/-- No program is under way. -/
def idle (shared : Shared) : System Call Reply Result Shared Known where
  shared := shared
  threads := []
  results := []

/-- Next step of one program. -/
def advance
    (system : System Call Reply Result Shared Known)
    (position : Nat)
    (fault : Fault) :
    Thread Call Reply Result Known → System Call Reply Result Shared Known
  | ⟨_, .done result⟩ =>
      { system with
        threads := system.threads.eraseIdx position
        results := system.results ++ [result] }
  | ⟨known, .call request next⟩ =>
      let (after, reply) := service.perform system.shared fault request
      { system with
        shared := after
        threads := system.threads.set position
          ⟨service.learn known request reply, next reply⟩ }

/-- One step of an interleaving. -/
def step (system : System Call Reply Result Shared Known) :
    Schedule Fault Input → Option (System Call Reply Result Shared Known)
  | .spawn input =>
      some { system with
        threads := system.threads ++ [⟨service.ignorant, service.handler input⟩] }
  | .advance position fault =>
      system.threads[position]?.map (service.advance system position fault)

/-- The condition holds of the call that the step makes, if it makes one. -/
def OnCalls
    (condition : Shared → Known → Call → Fault → Prop)
    (system : System Call Reply Result Shared Known) :
    Schedule Fault Input → Prop
  | .spawn _ => True
  | .advance position fault =>
      match system.threads[position]? with
      | some ⟨known, .call request _⟩ =>
          condition system.shared known request fault
      | _ => True

/-- All programs under way are allowed to make the calls they may still make. -/
def Orderly
    (allowed : Known → Call → Prop)
    (system : System Call Reply Result Shared Known) : Prop :=
  ∀ thread ∈ system.threads,
    thread.program.Obeys service.learn allowed thread.known

variable {service}
variable {allowed : Known → Call → Prop}

/-- Programs stay orderly, whatever replies they get. -/
theorem orderly_step
    (obeys : ∀ input, (service.handler input).Obeys service.learn allowed
      service.ignorant)
    {system next : System Call Reply Result Shared Known}
    {label : Schedule Fault Input}
    (orderly : service.Orderly allowed system)
    (taken : service.step system label = some next) :
    service.Orderly allowed next := by
  cases label with
  | spawn input =>
      rw [← Option.some.inj taken]
      intro thread within
      rcases List.mem_append.mp within with old | new
      · exact orderly thread old
      · rw [List.mem_singleton.mp new]
        exact obeys input
  | advance position fault =>
      obtain ⟨⟨known, program⟩, present, rfl⟩ := Option.map_eq_some_iff.mp taken
      have member := List.mem_of_getElem? present
      cases program with
      | done result =>
          intro thread within
          exact orderly thread (List.mem_of_mem_eraseIdx within)
      | call request next =>
          intro thread within
          rcases List.mem_or_eq_of_mem_set within with old | rfl
          · exact orderly thread old
          · exact (orderly _ member).2 _

/-- One step keeps a property of the shared state, if an allowed call under the
condition does. -/
theorem shared_step
    {condition : Shared → Known → Call → Fault → Prop}
    {property : Shared → Prop}
    (kept : ∀ shared known request fault, property shared →
      allowed known request → condition shared known request fault →
      property (service.perform shared fault request).1)
    {system next : System Call Reply Result Shared Known}
    {label : Schedule Fault Input}
    (orderly : service.Orderly allowed system)
    (holds : property system.shared)
    (met : OnCalls condition system label)
    (taken : service.step system label = some next) :
    property next.shared := by
  cases label with
  | spawn input =>
      rw [← Option.some.inj taken]
      exact holds
  | advance position fault =>
      obtain ⟨⟨known, program⟩, present, rfl⟩ := Option.map_eq_some_iff.mp taken
      cases program with
      | done result => exact holds
      | call request next =>
          simp only [OnCalls, present] at met
          exact kept system.shared known request fault holds
            (orderly _ (List.mem_of_getElem? present)).1 met

/-- A property of the shared state that every allowed call under the condition
keeps holds at the end of every interleaving whose calls meet the condition. -/
theorem shared_invariant
    (obeys : ∀ input, (service.handler input).Obeys service.learn allowed
      service.ignorant)
    {condition : Shared → Known → Call → Fault → Prop}
    {property : Shared → Prop}
    (kept : ∀ shared known request fault, property shared →
      allowed known request → condition shared known request fault →
      property (service.perform shared fault request).1)
    {shared : Shared}
    (initial : property shared)
    {labels : List (Schedule Fault Input)}
    {finish : System Call Reply Result Shared Known}
    (reached : Transition.run service.step (idle shared) labels = some finish)
    (meets : Transition.Meets service.step (OnCalls condition) (idle shared)
      labels) :
    property finish.shared := by
  have preserved : ∀ system label next,
      service.Orderly allowed system ∧ property system.shared →
      OnCalls condition system label → service.step system label = some next →
      service.Orderly allowed next ∧ property next.shared := by
    rintro system label next ⟨orderly, holds⟩ met taken
    exact ⟨orderly_step obeys orderly taken,
      shared_step kept orderly holds met taken⟩
  have start : service.Orderly allowed (idle shared) ∧ property shared := by
    refine ⟨?_, initial⟩
    intro thread within
    cases within
  exact (meets.invariant preserved start reached).2

end Service

/-- A fixed family of programs over shared state.  Ended programs stay. -/
structure Race
    (Index Call : Type)
    (Reply : Call → Type)
    (Result Shared Known : Type) where
  shared : Shared
  threads : Index → Thread Call Reply Result Known

namespace Service

variable {Index Call Result Shared Known Fault Input : Type}
variable {Reply : Call → Type}
variable [DecidableEq Index]
variable (service : Service Call Reply Result Shared Known Fault Input)

/-- All programs of the family are about to start. -/
def race (inputs : Index → Input) (shared : Shared) :
    Race Index Call Reply Result Shared Known where
  shared := shared
  threads := fun index => ⟨service.ignorant, service.handler (inputs index)⟩

/-- The program of an index makes its next call under a fault. -/
def raceStep (state : Race Index Call Reply Result Shared Known) :
    Index × Fault → Option (Race Index Call Reply Result Shared Known)
  | (index, fault) =>
      match (state.threads index).program with
      | .done _ => none
      | .call request next =>
          let (after, reply) := service.perform state.shared fault request
          some
            { shared := after
              threads := Function.update state.threads index
                ⟨service.learn (state.threads index).known request reply,
                  next reply⟩ }

/-- The condition holds of the call that the step makes. -/
def OnRaceCalls
    (condition : Index → Shared → Known → Call → Fault → Prop)
    (state : Race Index Call Reply Result Shared Known) :
    Index × Fault → Prop
  | (index, fault) =>
      match (state.threads index).program with
      | .done _ => True
      | .call request _ =>
          condition index state.shared (state.threads index).known request fault

/-- Each program makes only calls that it is allowed to make, and ends as
promised. -/
structure RaceOrderly
    (allowed : Index → Known → Call → Prop)
    (post : Index → Known → Result → Prop)
    (state : Race Index Call Reply Result Shared Known) : Prop where
  obeys : ∀ index, (state.threads index).program.Obeys service.learn
    (allowed index) (state.threads index).known
  ensures : ∀ index, (state.threads index).program.Ensures service.learn
    (post index) (state.threads index).known

variable {service}

/-- A step of a race is a call by one of its programs. -/
theorem raceStep_eq_some
    {state next : Race Index Call Reply Result Shared Known}
    {index : Index}
    {fault : Fault}
    (taken : service.raceStep state (index, fault) = some next) :
    ∃ request continuation,
      (state.threads index).program = .call request continuation ∧
      next.shared = (service.perform state.shared fault request).1 ∧
      next.threads = Function.update state.threads index
        ⟨service.learn (state.threads index).known request
            (service.perform state.shared fault request).2,
          continuation (service.perform state.shared fault request).2⟩ := by
  cases code : (state.threads index).program with
  | done result => simp [raceStep, code] at taken
  | call request continuation =>
      simp only [raceStep, code, Option.some.injEq] at taken
      rw [← taken]
      exact ⟨request, continuation, rfl, rfl, rfl⟩

/-- Programs stay orderly, whatever they are replied. -/
theorem raceOrderly_step
    {allowed : Index → Known → Call → Prop}
    {post : Index → Known → Result → Prop}
    {state next : Race Index Call Reply Result Shared Known}
    {label : Index × Fault}
    (orderly : service.RaceOrderly allowed post state)
    (taken : service.raceStep state label = some next) :
    service.RaceOrderly allowed post next := by
  obtain ⟨index, fault⟩ := label
  obtain ⟨request, continuation, code, _, threads⟩ := raceStep_eq_some taken
  have obeys := orderly.obeys index
  have ensures := orderly.ensures index
  rw [code] at obeys ensures
  constructor
  · intro other
    rw [threads]
    by_cases same : other = index
    · subst same
      rw [Function.update_self]
      exact obeys.2 _
    · rw [Function.update_of_ne same]
      exact orderly.obeys other
  · intro other
    rw [threads]
    by_cases same : other = index
    · subst same
      rw [Function.update_self]
      exact ensures _
    · rw [Function.update_of_ne same]
      exact orderly.ensures other

end Service
end RuseonCore
