import RuseonCore.Api.Cameras
import RuseonCore.Auth.Local

/-!
# Guarded media routes

The optional token check of `internal/api/router.go`.  Whether a request has to
present a stream token is decided by the stream that the manager holds, while
the flag that asks for tokens belongs to the stored camera.  The check is in
force exactly if a stream with that flag is registered; once camera requests
have settled, these are the enabled cameras.
-/

namespace RuseonCore
namespace Api

open Storage Streaming Auth Transition CameraState

/-- Routes behind the optional token check. -/
inductive MediaRoute
  | getHLSPlaylist
  | getHLSVideoPlaylist
  | getHLSSubsPlaylist
  | getHLSSegment
  | postWHEP
  | streamWS
  | getArchiveHLSPlaylist
  | getArchiveHLSSegment
  deriving DecidableEq

/-- The routes `/hls/:id/archive.m3u8` and `/hls/:id/segment.ts`. -/
def MediaRoute.IsArchive (route : MediaRoute) : Prop :=
  route = .getArchiveHLSPlaylist ∨ route = .getArchiveHLSSegment

/-- A media request; a token that is not given is empty. -/
structure MediaRequest where
  route : MediaRoute
  id : String
  token : String := ""
  deriving DecidableEq

/-- The optional token check; `none` means that the handler of the route is
reached. -/
def streamAuth
    (a : LocalAuthenticator)
    (m : Manager)
    (now : Rat)
    (request : MediaRequest) : Option Response :=
  match m.getStream request.id with
  | some st =>
      if st.pipeline.tokenAuth then
        a.streamMiddleware now request.token request.id
      else none
  | none => none

/-- Requests for the archive of a camera reach their handlers only with a valid
stream token of this camera. -/
def ArchiveGuarded
    (a : LocalAuthenticator)
    (m : Manager)
    (id : String) : Prop :=
  ∀ now (request : MediaRequest), request.route.IsArchive → request.id = id →
    streamAuth a m now request = none → a.IsStreamToken now request.token id

/-- The check is in force exactly for streams that ask for tokens. -/
theorem archiveGuarded_iff
    (a : LocalAuthenticator)
    (m : Manager)
    (id : String) :
    ArchiveGuarded a m id ↔
      ∃ st, m.getStream id = some st ∧ st.pipeline.tokenAuth = true := by
  constructor
  · intro guarded
    by_contra unguarded
    -- Without such a stream even a request that has no token is let through.
    have passed : streamAuth a m 0 { route := .getArchiveHLSPlaylist, id := id } =
        none := by
      unfold streamAuth
      split
      · rename_i st registered
        rw [if_neg fun asks => unguarded ⟨st, registered, asks⟩]
      · rfl
    exact (guarded 0 { route := .getArchiveHLSPlaylist, id := id } (.inl rfl) rfl
      passed).1 rfl
  · rintro ⟨st, registered, asks⟩ now request _ rfl passed
    simp only [streamAuth, registered, asks, if_true] at passed
    exact LocalAuthenticator.isStreamToken_of_streamMiddleware passed

/-- Where store and manager agree, the archive of a camera that asks for tokens
is guarded exactly while the camera is enabled. -/
theorem archiveGuarded_iff_enabled
    (a : LocalAuthenticator)
    {db : DB}
    {m : Manager}
    (synced : Synced db m)
    {id : String}
    {cam : CameraConfig}
    (stored : db.get cameras id = .ok cam)
    (asks : cam.tokenAuth = true) :
    ArchiveGuarded a m id ↔ cam.disabled = false := by
  rw [archiveGuarded_iff]
  obtain ⟨present, settings⟩ := synced_iff.mp synced
  constructor
  · rintro ⟨st, registered, _⟩
    obtain ⟨cam', stored', enabled⟩ := (present id).mp ⟨st, registered⟩
    rw [stored, Except.ok.injEq] at stored'
    exact stored' ▸ enabled
  · intro enabled
    obtain ⟨st, registered⟩ := (present id).mpr ⟨cam, stored, enabled⟩
    refine ⟨st, registered, ?_⟩
    rw [settings id st cam registered stored]
    exact asks

/-- The archive of every camera stored with the flag is guarded. -/
def ArchivesGuarded (a : LocalAuthenticator) (db : DB) (m : Manager) : Prop :=
  ∀ id cam, db.get cameras id = .ok cam → cam.tokenAuth = true →
    ArchiveGuarded a m id

/-- In every state that camera requests reach, the archives of the cameras
stored with the flag are all guarded exactly if the manager holds, for each of
them, a stream that was started with the flag.  Once the requests have settled
in commit order, this means that none of these cameras is disabled. -/
theorem archives_guarded_iff
    (a : LocalAuthenticator)
    (db : DB)
    (manager : Manager)
    (synced : Synced db manager)
    (labels : List CameraStep)
    {state : CameraState}
    (reached : run step (idle db manager) labels = some state) :
    (ArchivesGuarded a state.db state.manager ↔
      ∀ id cam, state.db.get cameras id = .ok cam → cam.tokenAuth = true →
        ∃ st, state.manager.getStream id = some st ∧
          st.pipeline.tokenAuth = true) ∧
    (Meets step OldestFirst (idle db manager) labels → state.Quiescent →
      (ArchivesGuarded a state.db state.manager ↔
        ∀ id cam, state.db.get cameras id = .ok cam → cam.tokenAuth = true →
          cam.disabled = false)) := by
  constructor
  · unfold ArchivesGuarded
    simp only [archiveGuarded_iff]
  · intro ordered quiescent
    have agree := synced_of_oldestFirst synced reached ordered quiescent
    refine forall_congr' fun id => forall_congr' fun cam => ?_
    refine forall_congr' fun stored => forall_congr' fun asks => ?_
    exact archiveGuarded_iff_enabled a agree stored asks

/-- Stream token of the camera `cam`, issued at time 0 with the secret
`secret`. -/
def sampleToken : String :=
  "eyJhbGciOiJIUzI1NiIsInR5cCI6IkpXVCJ9." ++
    "eyJleHAiOjYwLCJpYXQiOjAsIm5iZiI6MCwic3RyZWFtX2lkIjoiY2FtIn0." ++
    "qGSiGc5n4JUg--2OD6imtFP5yRtswBnA-M9CkqGPxPA"

/-- The sample token decoded. -/
def sampleDecoded : Token where
  method := .hmac "HS256"
  claims
    | "exp" => some (.number 60)
    | "iat" => some (.number 0)
    | "nbf" => some (.number 0)
    | "stream_id" => some (.text "cam")
    | _ => none

theorem expiry_sampleDecoded :
    numericDate (sampleDecoded.claims "exp") = some 60 := by
  decide +kernel

/-- A library that knows the sample token only. -/
def sampleJwt : Jwt where
  decode tokenString :=
    if tokenString = sampleToken then some sampleDecoded else none
  verify tokenString key := tokenString = sampleToken ∧ key = "secret"
  parse keyFunc now tokenString :=
    if tokenString = sampleToken ∧
        (keyFunc sampleDecoded).toOption = some "secret" ∧ now < 60 then
      some sampleDecoded
    else none
  parse_sound := by
    intro keyFunc now tokenString token parsed
    rw [Option.ite_none_right_eq_some, Option.some.injEq] at parsed
    obtain ⟨⟨rfl, keyed, early⟩, rfl⟩ := parsed
    refine ⟨if_pos rfl, ⟨"secret", ?_, by simp⟩, ?_, ?_⟩
    · cases returned : keyFunc sampleDecoded with
      | error text => simp [returned, Except.toOption] at keyed
      | ok key => simpa [returned, Except.toOption] using keyed
    · intro exp dated
      have expiry : exp = 60 :=
        Option.some.inj (dated.symm.trans expiry_sampleDecoded)
      rw [expiry]
      exact_mod_cast early
    · intro nbf dated
      simp [sampleDecoded, numericDate] at dated

/-- Authenticator with the secret of the sample token. -/
def sampleAuth : LocalAuthenticator where
  jwt := sampleJwt
  secret := "secret"

/-- The archive of an enabled camera that was added alone is guarded, and its
stream token opens it. -/
theorem archives_guarded_iff_add :
    ∃ state,
      run step (idle DB.empty Manager.empty)
        [.begin (.addCamera (some { id := "cam", tokenAuth := true })) false,
          .commit 0 false, .sync 0] = some state ∧
      state.db.get cameras "cam" = .ok { id := "cam", tokenAuth := true } ∧
      streamAuth sampleAuth state.manager 0
        { route := .getArchiveHLSPlaylist, id := "cam", token := sampleToken } =
          none ∧
      ArchivesGuarded sampleAuth state.db state.manager := by
  refine ⟨_, rfl, rfl, by decide +kernel, ?_⟩
  refine (archives_guarded_iff sampleAuth DB.empty Manager.empty synced_empty
    [.begin (.addCamera (some { id := "cam", tokenAuth := true })) false,
      .commit 0 false, .sync 0] rfl).1.mpr ?_
  intro id cam stored _
  change (DB.empty.set cameras "cam" { id := "cam", tokenAuth := true }).get
    cameras id = .ok cam at stored
  by_cases same : "cam" = id
  · subst same
    exact ⟨_, rfl, rfl⟩
  · rw [DB.get_set_of_ne _ _ same, DB.get_empty] at stored
    cases stored

/-- The archive of a disabled camera is served without a token. -/
theorem disabled_archive_unguarded :
    ∃ state,
      run step (idle DB.empty Manager.empty)
        [.begin (.addCamera (some
            { id := "cam", tokenAuth := true, disabled := true })) false,
          .commit 0 false, .sync 0] = some state ∧
      state.Quiescent ∧
      state.db.get cameras "cam" =
        .ok { id := "cam", tokenAuth := true, disabled := true } ∧
      streamAuth sampleAuth state.manager 0
        { route := .getArchiveHLSPlaylist, id := "cam" } = none ∧
      ¬ sampleAuth.IsStreamToken 0 "" "cam" := by
  exact ⟨_, rfl, ⟨rfl, rfl⟩, rfl, rfl, fun token => token.1 rfl⟩

end Api
end RuseonCore
