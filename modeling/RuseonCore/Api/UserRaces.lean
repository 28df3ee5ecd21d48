import RuseonCore.Api.Users

/-!
# Concurrent user requests

Interleavings of the account calls that concurrent user requests make.  The
check for the last administrator and the write that follows are separate calls.
An administrator remains in every state reached, provided that whenever a write
takes the role from an administrator, the administrators which the request
counted are still administrators.
-/

namespace RuseonCore
namespace Api

open Storage Transition

/-- The listing that a request works with, after a reply. -/
def learn (listed : Option Accounts) :
    (request : UserCall) → request.Reply → Option Accounts
  | .listUsers, reply => reply
  | .getUser _, _ => listed
  | .saveUser _, _ => listed
  | .deleteUser _, _ => listed

/-- A request that has a listing writes only if the listing has several
administrators. -/
def Allowed (listed : Option Accounts) : UserCall → Prop
  | .saveUser _ => ∀ accounts ∈ listed, 1 < accounts.adminCount
  | .deleteUser _ => ∀ accounts ∈ listed, 1 < accounts.adminCount
  | _ => True

/-- User requests over the account store. -/
def userService : Service UserCall UserCall.Reply Response UserStore
    (Option Accounts) (Option String) UserRequest where
  handler := UserRequest.handler
  perform := perform
  learn := learn
  ignorant := none

/-- The call takes the role from an administrator. -/
def TakesRole (store : UserStore) : UserCall → Prop
  | .saveUser user => user.role ≠ roleAdmin ∧ store.IsAdmin user.username
  | .deleteUser username => store.IsAdmin username
  | _ => False

/-- A successful write that takes the role from an administrator comes from a
request that has listed the accounts, and all administrators of its listing
still are. -/
def CountStillHolds
    (store : UserStore)
    (listed : Option Accounts)
    (request : UserCall)
    (fault : Option String) : Prop :=
  fault = none → TakesRole store request →
    ∃ accounts ∈ listed, ∀ user ∈ accounts.list, user.role = roleAdmin →
      store.IsAdmin user.username

/-! ## What the code checks -/

theorem obeys_saveAndAnswer
    {listed : Option Accounts}
    (several : ∀ accounts ∈ listed, 1 < accounts.adminCount)
    (user : User)
    (success : Response) :
    (saveAndAnswer user success).Obeys learn Allowed listed := by
  refine ⟨several, fun failure => ?_⟩
  cases (failure : Option String) <;> trivial

theorem obeys_deleteAndAnswer
    {listed : Option Accounts}
    (several : ∀ accounts ∈ listed, 1 < accounts.adminCount)
    (username : String) :
    (deleteAndAnswer username).Obeys learn Allowed listed := by
  refine ⟨several, fun failure => ?_⟩
  cases (failure : Option String) <;> trivial

/-- What follows the check has to be allowed for every listing that it lets
through. -/
theorem obeys_checkAdmins
    {next : UserProgram}
    (passed : ∀ listed : Option Accounts,
      (∀ accounts ∈ listed, 1 < accounts.adminCount) →
      next.Obeys learn Allowed listed)
    (refusal : String)
    (listed : Option Accounts) :
    (checkAdmins refusal next).Obeys learn Allowed listed := by
  refine ⟨trivial, fun reply => ?_⟩
  cases (reply : Option Accounts) with
  | none => exact passed none (by simp)
  | some accounts =>
      dsimp only
      split
      · trivial
      · rename_i several
        refine passed (some accounts) ?_
        rintro _ ⟨⟩
        exact Nat.lt_of_not_le several

/-- Reading an account teaches nothing about the listing. -/
theorem obeys_withUser
    {listed : Option Accounts}
    {next : User → UserProgram}
    (found : ∀ user, (next user).Obeys learn Allowed listed)
    (username : String) :
    (withUser username next).Obeys learn Allowed listed := by
  refine ⟨trivial, fun reply => ?_⟩
  cases (reply : Option User) with
  | none => trivial
  | some user => exact found user

theorem obeys_addUser (input : Except String NewUser) (hash : Option String) :
    (addUser input hash).Obeys learn Allowed none := by
  unfold addUser
  split
  · trivial
  · split
    · trivial
    · split
      · trivial
      · exact obeys_saveAndAnswer (by simp) _ _

theorem obeys_editRole (user : User) (role : Role) :
    (editRole user role).Obeys learn Allowed none := by
  unfold editRole
  split
  · split
    · exact obeys_checkAdmins
        (fun _ several => obeys_saveAndAnswer several _ _) _ _
    · exact obeys_saveAndAnswer (by simp) _ _
  · exact obeys_saveAndAnswer (by simp) _ _

theorem obeys_editUser
    (username : String)
    (input : Except String UserEdit)
    (hash : Option String) :
    (editUser username input hash).Obeys learn Allowed none := by
  unfold editUser
  split
  · trivial
  · refine obeys_withUser (fun user => ?_) username
    split
    · split
      · trivial
      · exact obeys_editRole _ _
    · exact obeys_editRole _ _

theorem obeys_deleteUser (username : String) :
    (deleteUser username).Obeys learn Allowed none := by
  refine obeys_withUser (fun user => ?_) username
  split
  · exact obeys_checkAdmins
      (fun _ several => obeys_deleteAndAnswer several _) _ _
  · exact obeys_deleteAndAnswer (by simp) _

/-- The code of every request with a listing writes only after counting several
administrators in it. -/
theorem obeys_handler (request : UserRequest) :
    request.handler.Obeys learn Allowed none := by
  cases request with
  | addUser input hash => exact obeys_addUser input hash
  | editUser username input hash => exact obeys_editUser username input hash
  | deleteUser username => exact obeys_deleteUser username

/-! ## Interleavings -/

/-- Every allowed call keeps an administrator while the count holds. -/
theorem hasAdmin_perform
    {store : UserStore}
    {listed : Option Accounts}
    {request : UserCall}
    {fault : Option String}
    (hasAdmin : store.HasAdmin)
    (allowed : Allowed listed request)
    (counted : CountStillHolds store listed request fault) :
    (perform store fault request).1.HasAdmin := by
  cases fault with
  | some text => cases request <;> exact hasAdmin
  | none =>
      cases request with
      | getUser username => exact hasAdmin
      | listUsers => exact hasAdmin
      | saveUser user =>
          refine (store.hasAdmin_saveUser_iff user).mpr ?_
          by_cases admin : user.role = roleAdmin
          · exact .inl admin
          · refine .inr ?_
            by_cases target : store.IsAdmin user.username
            · obtain ⟨accounts, known, still⟩ := counted rfl ⟨admin, target⟩
              exact UserStore.exists_other_of_counted (allowed accounts known) still _
            · exact UserStore.exists_other_of_not_admin hasAdmin target
      | deleteUser username =>
          refine (store.hasAdmin_deleteUser_iff username).mpr ?_
          by_cases target : store.IsAdmin username
          · obtain ⟨accounts, known, still⟩ := counted rfl target
            exact UserStore.exists_other_of_counted (allowed accounts known) still _
          · exact UserStore.exists_other_of_not_admin hasAdmin target

/-- In every interleaving of user requests in which the administrators that a
request counted still are when it takes the role from one, an administrator
remains in every state reached. -/
theorem admin_remains_of_countStillHolds
    (store : UserStore)
    (hasAdmin : store.HasAdmin)
    (labels : List (Schedule (Option String) UserRequest))
    {finish : System UserCall UserCall.Reply Response UserStore
      (Option Accounts)}
    (reached : run userService.step (Service.idle store) labels = some finish)
    (counted : Meets userService.step (Service.OnCalls CountStillHolds)
      (Service.idle store) labels) :
    finish.shared.HasAdmin := by
  have kept : ∀ store listed request fault, UserStore.HasAdmin store →
      Allowed listed request → CountStillHolds store listed request fault →
      (perform store fault request).1.HasAdmin :=
    fun _ _ _ _ holds allowed met => hasAdmin_perform holds allowed met
  exact Service.shared_invariant obeys_handler kept hasAdmin reached counted

/-- Two administrators. -/
def twoAdmins : UserStore :=
  oneAdmin.saveUser
    { username := "root", passwordHash := "", role := roleAdmin }

theorem hasAdmin_twoAdmins : twoAdmins.HasAdmin :=
  ⟨"root", (UserStore.isAdmin_saveUser_self _ _).mpr rfl⟩

/-- Two administrators are deleted by interleaved requests; the second one counts
after the first deletion. -/
def deletedInTurn : List (Schedule (Option String) UserRequest) :=
  [.spawn (.deleteUser "admin"), .spawn (.deleteUser "root"), .advance 0 none,
    .advance 1 none, .advance 0 none, .advance 0 none, .advance 1 none,
    .advance 0 none, .advance 0 none]

theorem admin_remains_of_countStillHolds_deletedInTurn :
    ∃ finish,
      run userService.step (Service.idle twoAdmins) deletedInTurn = some finish ∧
      finish.results.length = 2 ∧ finish.shared.HasAdmin := by
  refine ⟨_, rfl, rfl, admin_remains_of_countStillHolds twoAdmins
    hasAdmin_twoAdmins deletedInTurn rfl ?_⟩
  refine ⟨trivial, ?_⟩
  rintro _ ⟨⟩
  refine ⟨trivial, ?_⟩
  rintro _ ⟨⟩
  refine ⟨fun _ takes => takes.elim, ?_⟩
  rintro _ ⟨⟩
  refine ⟨fun _ takes => takes.elim, ?_⟩
  rintro _ ⟨⟩
  refine ⟨fun _ takes => takes.elim, ?_⟩
  rintro _ ⟨⟩
  refine ⟨fun _ _ => ⟨twoAdmins.listUsers, rfl, ?_⟩, ?_⟩
  · intro user listed admin
    exact ⟨user, twoAdmins.mem_listUsers.mp listed, admin⟩
  · rintro _ ⟨⟩
    refine ⟨fun _ takes => takes.elim, ?_⟩
    rintro _ ⟨⟩
    refine ⟨trivial, ?_⟩
    rintro _ ⟨⟩
    exact ⟨trivial, fun _ _ => trivial⟩

/-- Both administrators are deleted at the same time: each request counts two
before either deletes. -/
def bothDeleted : List (Schedule (Option String) UserRequest) :=
  [.spawn (.deleteUser "admin"), .spawn (.deleteUser "root"),
    .advance 0 none, .advance 1 none, .advance 0 none, .advance 1 none,
    .advance 0 none, .advance 1 none, .advance 0 none, .advance 0 none]

/-- No administrator remains after the two deletions. -/
theorem admins_deleted_together :
    twoAdmins.HasAdmin ∧
    ∃ finish,
      run userService.step (Service.idle twoAdmins) bothDeleted = some finish ∧
      finish.threads = [] ∧ finish.results = [.ok, .ok] ∧
      ¬ finish.shared.HasAdmin := by
  refine ⟨hasAdmin_twoAdmins, _, rfl, rfl, rfl, ?_⟩
  change ¬ ((twoAdmins.deleteUser "admin").deleteUser "root").HasAdmin
  rw [UserStore.hasAdmin_deleteUser_iff]
  rintro ⟨other, notRoot, admin⟩
  by_cases first : "admin" = other
  · subst first
    exact UserStore.not_isAdmin_deleteUser_self _ _ admin
  · rw [UserStore.isAdmin_deleteUser_of_ne _ first, twoAdmins,
      UserStore.isAdmin_saveUser_of_ne _ notRoot.symm, oneAdmin,
      UserStore.isAdmin_saveUser_of_ne _ first] at admin
    exact UserStore.not_isAdmin_empty other admin

end Api
end RuseonCore
