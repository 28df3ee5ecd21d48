import RuseonCore.Foundation.Transition

/-!
# Switching the model of the inference worker

Model of `web/src/v2/ai/inference-client.ts` and `inference-worker.ts`.  The client
asks its worker to load a model; it first waits for the hardware profile, and such
calls may continue in any order.  Messages reach the worker in the order in which
they were posted, and a load takes until some later step.  Loads succeed.

A worker that the client has replaced by another one is dropped.  Detections, the
answers of the worker and the readiness of the client are not modelled.
-/

namespace RuseonCore
namespace Inference

open Transition

/-! ## Preferences -/

inductive AiModelTier
  | nano
  | small
  | medium
  deriving DecidableEq

/-- Preference of the user; `none` is `auto`. -/
abbrev AiModelPreference := Option AiModelTier

/-- Model of a tier in `AI_MODELS_INFO`. -/
def AiModelTier.modelUrl : AiModelTier → String
  | .nano => "/models/yolo11n.onnx"
  | .small => "/models/yolo11s.onnx"
  | .medium => "/models/yolo11m.onnx"

/-- Answer of `getEffectiveModelUrl`. -/
structure Effective where
  modelUrl : String
  tier : AiModelTier
  isAuto : Bool
  deriving DecidableEq

/-- Model for a preference, on hardware with the recommended tier. -/
def effective (recommended : AiModelTier) : AiModelPreference → Effective
  | some tier => ⟨tier.modelUrl, tier, false⟩
  | none => ⟨recommended.modelUrl, recommended, true⟩

/-! ## The worker -/

/-- Messages of the client that reach `ensureRuntime`. -/
inductive Message
  | init (modelUrl : String) (forceReload : Bool)
  | register
  deriving DecidableEq

/-- Model that a message asks for. -/
def Message.modelUrl : Message → Option String
  | .init modelUrl _ => some modelUrl
  | .register => none

/-- Models that messages ask for, in order. -/
def urls (queue : List Message) : List String :=
  queue.filterMap Message.modelUrl

/-- State of a worker with the messages that it has not received yet.  A runtime,
and a load in progress, is represented by the model URL that it was given. -/
structure Worker where
  runtime : Option (Option String)
  currentModelUrl : Option String
  initPromise : Option (Option String)
  queue : List Message
  deriving DecidableEq

/-- A string that counts as true: neither undefined nor empty. -/
def truthy : Option String → Bool
  | none => false
  | some text => text != ""

namespace Worker

/-- A new worker with its first message. -/
def spawn (modelUrl : String) : Worker where
  runtime := none
  currentModelUrl := none
  initPromise := none
  queue := [.init modelUrl false]

/-- Start a load unless the runtime will do or a load is in progress. -/
def ensureRuntime (w : Worker) (modelUrl : Option String) (forceReload : Bool) : Worker :=
  let isUrlChanged :=
    truthy modelUrl && truthy w.currentModelUrl && modelUrl != w.currentModelUrl
  if w.runtime.isSome && !forceReload && !isUrlChanged then w
  else if w.initPromise.isSome then w
  else { w with runtime := none, initPromise := some modelUrl }

def onmessage (w : Worker) : Message → Worker
  | .init modelUrl forceReload => w.ensureRuntime (some modelUrl) forceReload
  | .register => w.ensureRuntime none false

/-- The load in progress is done. -/
def complete (w : Worker) : Option Worker :=
  w.initPromise.map fun modelUrl =>
    { w with
      runtime := some modelUrl
      currentModelUrl := modelUrl
      initPromise := none }

/-- The model that is being loaded, or else the one that is loaded. -/
def target (w : Worker) : Option (Option String) :=
  w.initPromise.or w.runtime

end Worker

/-! ## The client -/

/-- An asynchronous method that waits for the hardware profile. -/
inductive Method
  | init
  | switchModelPreference
  deriving DecidableEq

/-- A call in progress, with the preference that it has read. -/
structure PendingCall where
  method : Method
  pref : AiModelPreference
  deriving DecidableEq

/-- The saved preference, the fields of the client, its calls in progress and its
worker. -/
structure System where
  saved : AiModelPreference
  currentTier : AiModelTier
  currentModelUrl : String
  isAuto : Bool
  pending : List PendingCall
  worker : Option Worker
  deriving DecidableEq

/-- What happens; the flag of a switch tells whether the preference could be
saved, and calls continue by their position. -/
inductive Step
  | switchModelPreference (pref : AiModelPreference) (stored : Bool)
  | registerCamera
  | resume (call : Nat)
  | deliver
  | loaded
  deriving DecidableEq

namespace System

/-- The constructor has called `init`. -/
def start (saved : AiModelPreference) : System where
  saved := saved
  currentTier := .medium
  currentModelUrl := "/models/yolo11m.onnx"
  isAuto := true
  pending := [⟨.init, saved⟩]
  worker := none

section

variable (recommended : AiModelTier)

/-- A call continues with its model.  A switch posts it to the worker; `init`, and
a switch without a worker, create a new one. -/
def resumeCall (s : System) (call : PendingCall) : System :=
  let eff := effective recommended call.pref
  let s := { s with
    currentTier := eff.tier
    currentModelUrl := eff.modelUrl
    isAuto := eff.isAuto }
  match call.method, s.worker with
  | .switchModelPreference, some w =>
      { s with worker := some { w with queue := w.queue ++ [.init eff.modelUrl true] } }
  | _, _ => { s with worker := some (Worker.spawn eff.modelUrl) }

/-- Effect of one step. -/
def step (s : System) : Step → Option System
  | .switchModelPreference pref stored =>
      let saved := if stored then pref else s.saved
      some { s with
        saved := saved
        pending := s.pending ++ [⟨.switchModelPreference, saved⟩] }
  | .registerCamera =>
      match s.worker with
      | none => some { s with pending := s.pending ++ [⟨.init, s.saved⟩] }
      | some w => some { s with worker := some { w with queue := w.queue ++ [.register] } }
  | .resume call =>
      s.pending[call]?.map fun found =>
        { s with pending := s.pending.eraseIdx call }.resumeCall recommended found
  | .deliver =>
      s.worker.bind fun w =>
        match w.queue with
        | [] => none
        | message :: rest =>
            some { s with worker := some ({ w with queue := rest }.onmessage message) }
  | .loaded =>
      s.worker.bind fun w => w.complete.map fun next => { s with worker := some next }

end

/-- No call, message or load is pending. -/
def Quiescent (s : System) : Prop :=
  s.pending = [] ∧ ∀ w ∈ s.worker, w.queue = [] ∧ w.initPromise = none

/-- When nothing is pending, the worker has loaded the model of the client. -/
def Agrees (s : System) : Prop :=
  s.Quiescent → ∃ w, s.worker = some w ∧
    w.runtime = some (some s.currentModelUrl) ∧ w.currentModelUrl = some s.currentModelUrl

/-- Once no call and no request for a model is pending, the worker has loaded or is
loading the model of the client. -/
def Settled (s : System) : Prop :=
  ∀ w ∈ s.worker, s.pending = [] → urls w.queue = [] →
    w.target = some (some s.currentModelUrl)

/-- A request that no other will follow does not reach the worker while it loads
another model. -/
def Heeded (s : System) : Step → Prop
  | .deliver =>
      ∀ w ∈ s.worker, ∀ loading ∈ w.initPromise,
        ∀ modelUrl ∈ w.queue.head?.bind Message.modelUrl,
          s.pending = [] → urls w.queue.tail = [] → loading = some modelUrl
  | _ => True

instance (s : System) (label : Step) : Decidable (s.Heeded label) := by
  unfold Heeded
  split <;> infer_instance

end System

/-! ## Invariants -/

@[simp] theorem urls_append (first second : List Message) :
    urls (first ++ second) = urls first ++ urls second :=
  List.filterMap_append

@[simp] theorem urls_cons_init (modelUrl : String) (forceReload : Bool) (rest : List Message) :
    urls (.init modelUrl forceReload :: rest) = modelUrl :: urls rest := rfl

theorem effective_ne_empty (recommended : AiModelTier) (pref : AiModelPreference) :
    (effective recommended pref).modelUrl ≠ "" := by
  cases pref with
  | none => cases recommended <;> simp [effective, AiModelTier.modelUrl]
  | some tier => cases tier <;> simp [effective, AiModelTier.modelUrl]

/-- A worker without a runtime is loading one, or will do so at its next message;
its variable names the model of the runtime; and all models have names. -/
structure Worker.Sound (w : Worker) : Prop where
  fresh : w.runtime = none → w.initPromise = none →
    ∃ modelUrl forceReload rest, w.queue = .init modelUrl forceReload :: rest
  exclusive : w.initPromise.isSome = true → w.runtime = none
  current : ∀ modelUrl ∈ w.runtime, w.currentModelUrl = modelUrl
  named : ∀ modelUrl ∈ w.target, truthy modelUrl = true
  asked : ∀ modelUrl ∈ urls w.queue, modelUrl ≠ ""

theorem Worker.sound_spawn
    {modelUrl : String}
    (named : modelUrl ≠ "") :
    (Worker.spawn modelUrl).Sound where
  fresh := fun _ _ => ⟨modelUrl, false, [], rfl⟩
  exclusive := fun loading => by cases loading
  current := fun _ absent => by cases absent
  named := fun _ absent => by cases absent
  asked := by simpa [Worker.spawn, urls, Message.modelUrl] using named

/-- Posting a message. -/
theorem Worker.Sound.post
    {w : Worker}
    (sound : w.Sound)
    {message : Message}
    (named : ∀ modelUrl ∈ message.modelUrl, modelUrl ≠ "") :
    { w with queue := w.queue ++ [message] }.Sound where
  fresh := fun unready idle => by
    obtain ⟨modelUrl, forceReload, rest, first⟩ := sound.fresh unready idle
    exact ⟨modelUrl, forceReload, rest ++ [message], by rw [first]; rfl⟩
  exclusive := sound.exclusive
  current := sound.current
  named := sound.named
  asked := by
    intro modelUrl member
    rw [urls_append, List.mem_append] at member
    rcases member with before | new
    · exact sound.asked modelUrl before
    · cases message with
      | register => cases new
      | init url forceReload =>
          rw [urls_cons_init, List.mem_cons] at new
          rcases new with rfl | absent
          · exact named modelUrl rfl
          · cases absent

theorem Worker.Sound.complete
    {w next : Worker}
    (sound : w.Sound)
    (done : w.complete = some next) :
    next.Sound ∧ next.target = w.target ∧ next.queue = w.queue := by
  obtain ⟨modelUrl, loading, rfl⟩ := Option.map_eq_some_iff.mp done
  have same : w.target = some modelUrl := by
    rw [Worker.target, loading]
    rfl
  refine ⟨?_, same.symm, rfl⟩
  exact
    { fresh := fun unready => by cases unready
      exclusive := fun busy => by cases busy
      current := fun url loaded => by
        rw [← Option.some.inj loaded]
      named := fun url loaded => by
        apply sound.named
        rw [same]
        exact loaded
      asked := sound.asked }

/-- What a message does to a worker. -/
inductive Worker.Reacts (w : Worker) : Message → Worker → Prop
  | registered (ready : w.target ≠ none) : w.Reacts .register w
  | ignored (modelUrl : String) (forceReload : Bool) (loading : Option String)
      (busy : w.initPromise = some loading) :
      w.Reacts (.init modelUrl forceReload) w
  | known (modelUrl : String) (idle : w.initPromise = none)
      (loaded : w.runtime = some (some modelUrl)) :
      w.Reacts (.init modelUrl false) w
  | starts (modelUrl : String) (forceReload : Bool) (idle : w.initPromise = none) :
      w.Reacts (.init modelUrl forceReload)
        { w with runtime := none, initPromise := some (some modelUrl) }

section

variable {w : Worker}

/-- A load in progress is shared by all messages. -/
theorem Worker.ensureRuntime_busy
    (busy : w.initPromise.isSome = true)
    (modelUrl : Option String)
    (forceReload : Bool) :
    w.ensureRuntime modelUrl forceReload = w := by
  unfold Worker.ensureRuntime
  rw [if_pos busy]
  exact ite_self w

/-- A runtime is good for messages that name no model. -/
theorem Worker.ensureRuntime_ready (ready : w.runtime.isSome = true) :
    w.ensureRuntime none false = w := by
  simp [Worker.ensureRuntime, truthy, ready]

/-- A runtime is kept for a message that names its model, and a load is started
otherwise. -/
theorem Worker.ensureRuntime_idle
    (idle : w.initPromise = none)
    (current : ∀ modelUrl ∈ w.runtime, w.currentModelUrl = modelUrl)
    (named : ∀ modelUrl ∈ w.runtime, truthy modelUrl = true)
    {modelUrl : String}
    (asked : modelUrl ≠ "")
    (forceReload : Bool) :
    (forceReload = false ∧ w.runtime = some (some modelUrl) ∧
        w.ensureRuntime (some modelUrl) forceReload = w) ∨
      w.ensureRuntime (some modelUrl) forceReload =
        { w with runtime := none, initPromise := some (some modelUrl) } := by
  unfold Worker.ensureRuntime
  dsimp only
  split
  · rename_i enough
    simp only [Bool.and_eq_true, Bool.not_eq_true'] at enough
    obtain ⟨⟨ready, unforced⟩, unchanged⟩ := enough
    obtain ⟨loaded, isLoaded⟩ := Option.isSome_iff_exists.mp ready
    rw [current loaded isLoaded] at unchanged
    have isName : truthy (some modelUrl) = true := by simpa [truthy] using asked
    have same : some modelUrl = loaded := by
      simpa [isName, named loaded isLoaded] using unchanged
    exact .inl ⟨unforced, by rw [isLoaded, same], rfl⟩
  · rw [idle]
    exact .inr rfl

end

/-- The message is the first of a sound worker. -/
theorem Worker.Sound.reacts
    {w : Worker}
    {message : Message}
    {rest : List Message}
    (sound : w.Sound)
    (first : w.queue = message :: rest) :
    { w with queue := rest }.Reacts message ({ w with queue := rest }.onmessage message) := by
  obtain ⟨runtime, currentModelUrl, initPromise, queue⟩ := w
  dsimp only at first ⊢
  subst first
  cases initPromise with
  | some loading =>
      cases message with
      | register =>
          rw [Worker.onmessage, Worker.ensureRuntime_busy rfl]
          exact .registered (by simp [Worker.target])
      | init url forceReload =>
          rw [Worker.onmessage, Worker.ensureRuntime_busy rfl]
          exact .ignored url forceReload loading rfl
  | none =>
      cases message with
      | register =>
          cases runtime with
          | none =>
              obtain ⟨_, _, _, other⟩ := sound.fresh rfl rfl
              cases other
          | some loaded =>
              rw [Worker.onmessage, Worker.ensureRuntime_ready rfl]
              exact .registered (by simp [Worker.target])
      | init url forceReload =>
          have asked := sound.asked url (by simp)
          rcases Worker.ensureRuntime_idle (w := ⟨runtime, currentModelUrl, none, rest⟩) rfl
            sound.current sound.named asked forceReload with ⟨rfl, loaded, kept⟩ | started
          · rw [Worker.onmessage, kept]
            exact .known url rfl loaded
          · rw [Worker.onmessage, started]
            exact .starts url forceReload rfl

/-- A worker that has a runtime or a load in progress can take its first message
without a change. -/
theorem Worker.Sound.tail
    {w : Worker}
    {message : Message}
    {rest : List Message}
    (sound : w.Sound)
    (first : w.queue = message :: rest)
    (ready : w.target ≠ none) :
    { w with queue := rest }.Sound where
  fresh := fun unready idle => by
    refine absurd ?_ ready
    rw [Worker.target]
    exact Option.or_eq_none_iff.mpr ⟨idle, unready⟩
  exclusive := sound.exclusive
  current := sound.current
  named := sound.named
  asked := fun modelUrl member => by
    apply sound.asked
    rw [first]
    cases message with
    | register => exact member
    | init url forceReload => exact List.mem_cons_of_mem url member

/-- A worker stays sound when it takes its first message. -/
theorem Worker.Sound.onmessage
    {w : Worker}
    {message : Message}
    {rest : List Message}
    (sound : w.Sound)
    (first : w.queue = message :: rest) :
    ({ w with queue := rest }.onmessage message).Sound ∧
      ({ w with queue := rest }.onmessage message).queue = rest := by
  have reacts := sound.reacts first
  generalize { w with queue := rest }.onmessage message = next at reacts
  cases reacts with
  | registered ready => exact ⟨sound.tail first ready, rfl⟩
  | ignored modelUrl forceReload loading busy =>
      refine ⟨sound.tail first ?_, rfl⟩
      rw [Worker.target, busy]
      exact Option.some_ne_none _
  | known modelUrl idle loaded =>
      refine ⟨sound.tail first ?_, rfl⟩
      rw [Worker.target, idle, loaded]
      exact Option.some_ne_none _
  | starts modelUrl forceReload idle =>
      refine ⟨?_, rfl⟩
      have asked : ∀ url ∈ modelUrl :: urls rest, url ≠ "" := by
        intro url member
        apply sound.asked
        rw [first]
        exact member
      exact
        { fresh := fun _ busy => by cases busy
          exclusive := fun _ => rfl
          current := fun _ absent => by cases absent
          named := fun url loading => by
            rw [← Option.some.inj loading]
            simpa [truthy] using asked modelUrl List.mem_cons_self
          asked := fun url member => asked url (List.mem_cons_of_mem modelUrl member) }

/-! ## Runs -/

namespace System

/-- The worker is sound and was last asked for the model of the client; without a
worker, a call is pending that will create one. -/
structure Sound (s : System) : Prop where
  spawned : s.worker = none → s.pending ≠ []
  sound : ∀ w ∈ s.worker, w.Sound
  posted : ∀ w ∈ s.worker, ∀ modelUrl ∈ (urls w.queue).getLast?,
    modelUrl = s.currentModelUrl

theorem sound_start (saved : AiModelPreference) : (start saved).Sound where
  spawned := fun _ => List.cons_ne_nil _ _
  sound := fun _ absent => by cases absent
  posted := fun _ absent => by cases absent

/-- What a step can do. -/
inductive Moves (s : System) : Step → System → Prop
  | waits (label : Step) (next : System) (call : PendingCall)
      (isCall : label ≠ .deliver)
      (pending : next.pending = s.pending ++ [call])
      (worker : next.worker = s.worker)
      (currentModelUrl : next.currentModelUrl = s.currentModelUrl) :
      s.Moves label next
  | asks (call : Nat) (next : System) (w : Worker)
      (worker : next.worker = some w)
      (sound : w.Sound)
      (last : (urls w.queue).getLast? = some next.currentModelUrl) :
      s.Moves (.resume call) next
  | registers (w : Worker)
      (worker : s.worker = some w) :
      s.Moves .registerCamera
        { s with worker := some { w with queue := w.queue ++ [.register] } }
  | delivers (w : Worker) (message : Message) (rest : List Message)
      (worker : s.worker = some w)
      (first : w.queue = message :: rest) :
      s.Moves .deliver
        { s with worker := some ({ w with queue := rest }.onmessage message) }
  | completes (w done : Worker)
      (worker : s.worker = some w)
      (completed : w.complete = some done) :
      s.Moves .loaded { s with worker := some done }

variable {recommended : AiModelTier} {s next : System} {label : Step}

/-- A call that continues creates a worker for its model, or posts its model. -/
theorem moves_resume
    (sound : s.Sound)
    (call : Nat)
    (found : PendingCall) :
    s.Moves (.resume call)
      ({ s with pending := s.pending.eraseIdx call }.resumeCall recommended found) := by
  have named := effective_ne_empty recommended found.pref
  have created : (Worker.spawn (effective recommended found.pref).modelUrl).Sound :=
    Worker.sound_spawn named
  obtain ⟨method, pref⟩ := found
  unfold resumeCall
  dsimp only at named created ⊢
  split
  · rename_i w worker
    refine .asks call _ _ rfl ?_ ?_
    · exact (sound.sound w worker).post fun _ same => Option.some.inj same ▸ named
    · simp [urls, Message.modelUrl]
  · exact .asks call _ _ rfl created rfl

theorem moves_of_step
    (sound : s.Sound)
    (taken : s.step recommended label = some next) :
    s.Moves label next := by
  cases label with
  | switchModelPreference pref stored =>
      rw [← Option.some.inj taken]
      refine .waits _ _ _ ?_ rfl rfl rfl
      exact Step.noConfusion
  | registerCamera =>
      simp only [step] at taken
      split at taken
      · rw [← Option.some.inj taken]
        refine .waits _ _ _ ?_ rfl rfl rfl
        exact Step.noConfusion
      · rename_i w worker
        rw [← Option.some.inj taken]
        exact .registers w worker
  | resume call =>
      obtain ⟨found, _, rfl⟩ := Option.map_eq_some_iff.mp taken
      exact moves_resume sound call found
  | deliver =>
      obtain ⟨w, worker, delivered⟩ := Option.bind_eq_some_iff.mp taken
      split at delivered
      · cases delivered
      · rename_i message rest first
        rw [← Option.some.inj delivered]
        exact .delivers w message rest worker first
  | loaded =>
      obtain ⟨w, worker, completed⟩ := Option.bind_eq_some_iff.mp taken
      obtain ⟨done, isDone, rfl⟩ := Option.map_eq_some_iff.mp completed
      exact .completes w done worker isDone

theorem getLast?_urls_tail
    {message : Message}
    {rest : List Message}
    {modelUrl : String}
    (last : modelUrl ∈ (urls rest).getLast?) :
    modelUrl ∈ (urls (message :: rest)).getLast? := by
  cases message with
  | register => exact last
  | init url forceReload =>
      rw [urls_cons_init]
      exact List.mem_getLast?_cons last

theorem Sound.moves
    (sound : s.Sound)
    (moves : s.Moves label next) :
    next.Sound := by
  cases moves with
  | waits _ _ call isCall pending worker currentModelUrl =>
      constructor
      · intro _
        rw [pending]
        simp
      · rw [worker]
        exact sound.sound
      · rw [worker, currentModelUrl]
        exact sound.posted
  | asks call _ w worker workerSound last =>
      constructor
      · rw [worker]
        exact fun absent => by cases absent
      · rw [worker]
        rintro _ ⟨⟩
        exact workerSound
      · rw [worker]
        rintro _ ⟨⟩ modelUrl isLast
        rw [last] at isLast
        exact (Option.some.inj isLast).symm
  | registers w worker =>
      constructor
      · exact fun absent => by cases absent
      · rintro _ ⟨⟩
        exact (sound.sound w worker).post fun _ absent => by cases absent
      · rintro _ ⟨⟩ modelUrl isLast
        rw [urls_append] at isLast
        exact sound.posted w worker modelUrl (by simpa [urls, Message.modelUrl] using isLast)
  | delivers w message rest worker first =>
      have onmessage := (sound.sound w worker).onmessage first
      constructor
      · exact fun absent => by cases absent
      · rintro _ ⟨⟩
        exact onmessage.1
      · rintro _ ⟨⟩ modelUrl isLast
        rw [onmessage.2] at isLast
        refine sound.posted w worker modelUrl ?_
        rw [first]
        exact getLast?_urls_tail isLast
  | completes w done worker completed =>
      have kept := (sound.sound w worker).complete completed
      constructor
      · exact fun absent => by cases absent
      · rintro _ ⟨⟩
        exact kept.1
      · rintro _ ⟨⟩
        rw [kept.2.2]
        exact sound.posted w worker

/-- Only a load in progress can make a worker miss a request. -/
theorem heeded_iff
    {w : Worker}
    {message : Message}
    {rest : List Message}
    (worker : s.worker = some w)
    (first : w.queue = message :: rest) :
    s.Heeded .deliver ↔
      ∀ loading ∈ w.initPromise, ∀ modelUrl ∈ message.modelUrl,
        s.pending = [] → urls rest = [] → loading = some modelUrl := by
  simp only [Heeded, worker, first, Option.mem_def, Option.some.injEq, forall_eq',
    List.head?_cons, Option.bind_some, List.tail_cons]

/-- The last request asks for the model of the client. -/
theorem Sound.asked
    (sound : s.Sound)
    {w : Worker}
    {message : Message}
    {rest : List Message}
    (worker : s.worker = some w)
    (first : w.queue = message :: rest)
    (none : urls rest = [])
    (modelUrl : String)
    (isAsked : message.modelUrl = some modelUrl) :
    modelUrl = s.currentModelUrl := by
  apply sound.posted w worker
  rw [first, urls, List.filterMap_cons, isAsked]
  dsimp only
  rw [← urls, none]
  rfl

/-- A worker that takes the last request has the model of the client as its target
exactly if the request is heeded. -/
theorem target_onmessage_iff
    (sound : s.Sound)
    (settled : s.Settled)
    {w : Worker}
    {message : Message}
    {rest : List Message}
    (worker : s.worker = some w)
    (first : w.queue = message :: rest)
    (idle : s.pending = [])
    (none : urls rest = []) :
    ({ w with queue := rest }.onmessage message).target = some (some s.currentModelUrl) ↔
      s.Heeded .deliver := by
  rw [heeded_iff worker first]
  have asked := sound.asked worker first none
  have reacts := (sound.sound w worker).reacts first
  generalize { w with queue := rest }.onmessage message = reached at reacts ⊢
  cases reacts with
  | registered ready =>
      refine iff_of_true ?_ (fun _ _ _ absent => by cases absent)
      refine settled w worker idle ?_
      rw [first]
      exact none
  | ignored modelUrl forceReload loading busy =>
      have target : { w with queue := rest }.target = some loading := by
        rw [Worker.target, busy]
        rfl
      rw [target, ← asked modelUrl rfl, Option.some.injEq]
      constructor
      · rintro rfl loading isLoading url isUrl _ _
        cases isUrl
        exact Option.some.inj (isLoading.symm.trans busy)
      · intro heeded
        exact heeded loading busy modelUrl rfl idle none
  | known modelUrl unloading loaded =>
      have target : { w with queue := rest }.target = some (some modelUrl) := by
        rw [Worker.target, unloading, loaded]
        rfl
      rw [target, asked modelUrl rfl]
      refine iff_of_true rfl fun loading isLoading => ?_
      cases isLoading.symm.trans unloading
  | starts modelUrl forceReload unloading =>
      rw [← asked modelUrl rfl]
      refine iff_of_true rfl fun loading isLoading => ?_
      cases isLoading.symm.trans unloading

/-- A step leaves the system settled exactly if it is heeded. -/
theorem settled_step_iff
    (sound : s.Sound)
    (settled : s.Settled)
    (taken : s.step recommended label = some next) :
    next.Settled ↔ s.Heeded label := by
  cases moves_of_step sound taken with
  | waits _ _ call isCall pending worker currentModelUrl =>
      refine iff_of_true ?_ ?_
      · intro w _ idle
        simp [pending] at idle
      · cases label with
        | deliver => exact absurd rfl isCall
        | _ => trivial
  | asks call _ w worker workerSound last =>
      refine iff_of_true ?_ trivial
      intro other isWorker _ none
      rw [worker, Option.mem_def, Option.some.injEq] at isWorker
      rw [isWorker, none] at last
      cases last
  | registers w worker =>
      refine iff_of_true ?_ trivial
      rintro _ ⟨⟩ idle none
      exact settled w worker idle (by simpa [urls, Message.modelUrl] using none)
  | delivers w message rest worker first =>
      have queue := ((sound.sound w worker).onmessage first).2
      constructor
      · intro settledNext
        rw [heeded_iff worker first]
        intro loading isLoading modelUrl isUrl idle none
        have target := settledNext _ rfl idle (by rw [queue]; exact none)
        have heeded := (target_onmessage_iff sound settled worker first idle none).mp target
        exact (heeded_iff worker first).mp heeded loading isLoading modelUrl isUrl idle none
      · rintro heeded _ ⟨⟩ idle none
        rw [queue] at none
        exact (target_onmessage_iff sound settled worker first idle none).mpr heeded
  | completes w done worker completed =>
      have kept := (sound.sound w worker).complete completed
      refine iff_of_true ?_ trivial
      rintro _ ⟨⟩ idle none
      rw [kept.2.1]
      exact settled w worker idle (by rw [← kept.2.2]; exact none)

/-- A settled system agrees with its worker when nothing is pending. -/
theorem agrees_of_settled
    (sound : s.Sound)
    (settled : s.Settled) :
    s.Agrees := by
  rintro ⟨idle, drained⟩
  cases worker : s.worker with
  | none => exact absurd idle (sound.spawned worker)
  | some w =>
      obtain ⟨empty, unloading⟩ := drained w worker
      have target := settled w worker idle (by rw [empty]; rfl)
      rw [Worker.target, unloading, Option.none_or] at target
      exact ⟨w, rfl, target, (sound.sound w worker).current _ target⟩

end System

/-- In every run, the worker is set on the model of the client whenever no call and
no request is pending, exactly if no last request reaches a worker that is loading
another model.  In such a run, the worker has loaded the model of the client whenever
nothing is pending. -/
theorem model_switches_settle
    (recommended : AiModelTier)
    (saved : AiModelPreference)
    (labels : List Step)
    {finish : System}
    (reached : run (System.step recommended) (System.start saved) labels = some finish) :
    (Always (System.step recommended) System.Settled (System.start saved) labels ↔
      Meets (System.step recommended) System.Heeded (System.start saved) labels) ∧
    (Meets (System.step recommended) System.Heeded (System.start saved) labels →
      Always (System.step recommended) System.Agrees (System.start saved) labels) := by
  have soundStep : ∀ (s : System) label next, s.Sound →
      s.step recommended label = some next → next.Sound :=
    fun _ _ _ sound taken => sound.moves (System.moves_of_step sound taken)
  have settledStart : (System.start saved).Settled := fun _ absent => by cases absent
  have exact := always_iff_meets soundStep
    (fun _ _ _ sound settled taken => System.settled_step_iff sound settled taken)
    (System.sound_start saved) settledStart reached
  refine ⟨exact, fun heeded => ?_⟩
  exact Always.imp soundStep (fun _ => System.agrees_of_settled) (System.sound_start saved)
    (exact.mpr heeded)

/-- A switch after the first model was loaded. -/
def switched : List Step :=
  [.resume 0, .deliver, .loaded, .switchModelPreference (some .nano) true, .resume 0,
    .deliver, .loaded]

theorem model_switches_settle_switched :
    ∃ finish, run (System.step .medium) (System.start none) switched = some finish ∧
      Always (System.step .medium) System.Agrees (System.start none) switched :=
  ⟨_, rfl, (model_switches_settle .medium none switched rfl).2 (by decide)⟩

/-- A switch that reaches the worker during the first load. -/
def switchedEarly : List Step :=
  [.resume 0, .deliver, .switchModelPreference (some .nano) true, .resume 0, .deliver,
    .loaded]

/-- What is reached. -/
def misled : System where
  saved := some .nano
  currentTier := .nano
  currentModelUrl := "/models/yolo11n.onnx"
  isAuto := false
  pending := []
  worker := some
    { runtime := some (some "/models/yolo11m.onnx")
      currentModelUrl := some "/models/yolo11m.onnx"
      initPromise := none
      queue := [] }

/-- Nothing is pending, and the worker has not loaded the model of the client. -/
theorem model_switch_lost :
    run (System.step .medium) (System.start none) switchedEarly = some misled ∧
      misled.Quiescent ∧ ¬misled.Agrees := by
  have idle : misled.Quiescent := by
    refine ⟨rfl, ?_⟩
    rintro _ ⟨⟩
    exact ⟨rfl, rfl⟩
  refine ⟨by decide, idle, fun agrees => ?_⟩
  obtain ⟨w, worker, _, current⟩ := agrees idle
  cases worker
  revert current
  decide

end Inference
end RuseonCore
