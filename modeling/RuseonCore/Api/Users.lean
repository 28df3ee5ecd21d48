import RuseonCore.Api.Http
import RuseonCore.Foundation.Program
import RuseonCore.Storage.Users

/-!
# User requests

`AddUser`, `EditUser` and `DeleteUser` of `internal/api/handler.go` as programs
over the account calls of the store.  Edits and deletions count the
administrators before they take the role from one; additions write without
looking.  Handled one at a time, the requests therefore keep an administrator
exactly as long as no addition overwrites the last one.

The outcome of hashing a password is part of a request, as it involves a random
salt.  Audit logs and the bodies of successful answers are not modelled.
-/

namespace RuseonCore
namespace Api

open Storage Transition

/-- Calls to the account store. -/
inductive UserCall
  | getUser (username : String)
  | listUsers
  | saveUser (user : User)
  | deleteUser (username : String)

/-- Replies of the store; a read that fails gives `none`, a write that fails
gives the text of its error. -/
def UserCall.Reply : UserCall → Type
  | .getUser _ => Option User
  | .listUsers => Option Accounts
  | .saveUser _ => Option String
  | .deleteUser _ => Option String

/-- Effect of a call.  A fault is a failure of the store with an error text; a
failed transaction changes nothing. -/
def perform (store : UserStore) :
    Option String → (request : UserCall) → UserStore × request.Reply
  | none, .getUser username => (store, (store.getUser username).toOption)
  | none, .listUsers => (store, some store.listUsers)
  | none, .saveUser user => (store.saveUser user, none)
  | none, .deleteUser username => (store.deleteUser username, none)
  | some _, .getUser _ => (store, none)
  | some _, .listUsers => (store, none)
  | some text, .saveUser _ => (store, some text)
  | some text, .deleteUser _ => (store, some text)

/-- Code of a request. -/
abbrev UserProgram := Program UserCall UserCall.Reply Response

/-- Body of `AddUser`. -/
structure NewUser where
  username : String
  password : String
  role : Role
  deriving DecidableEq

/-- Body of `EditUser`; empty fields are left as they are. -/
structure UserEdit where
  password : String
  role : Role
  deriving DecidableEq

/-- A body that does not bind is given by its error text.  The last field of an
addition or an edit is the hash of its password, if it can be hashed. -/
inductive UserRequest
  | addUser (input : Except String NewUser) (hash : Option String)
  | editUser (username : String) (input : Except String UserEdit)
      (hash : Option String)
  | deleteUser (username : String)

/-- Read an account and go on with it. -/
def withUser (username : String) (next : User → UserProgram) : UserProgram :=
  .call (.getUser username) fun found =>
    match (found : Option User) with
    | none => .done (.error 404 "User not found")
    | some user => next user

/-- Save an account and answer. -/
def saveAndAnswer (user : User) (success : Response) : UserProgram :=
  .call (.saveUser user) fun failure =>
    match (failure : Option String) with
    | some text => .done (.error 500 text)
    | none => .done success

/-- Delete an account and answer. -/
def deleteAndAnswer (username : String) : UserProgram :=
  .call (.deleteUser username) fun failure =>
    match (failure : Option String) with
    | some text => .done (.error 500 text)
    | none => .done .ok

/-- Go on only if there are several administrators, or if they cannot be
listed. -/
def checkAdmins (refusal : String) (next : UserProgram) : UserProgram :=
  .call .listUsers fun listed =>
    match (listed : Option Accounts) with
    | none => next
    | some accounts =>
        if accounts.adminCount ≤ 1 then .done (.error 400 refusal) else next

def addUser (input : Except String NewUser) (hash : Option String) :
    UserProgram :=
  match input with
  | .error text => .done (.error 400 text)
  | .ok input =>
      if input.username = "" ∨ input.password = "" ∨ input.role = "" then
        .done (.error 400 "Username, password and role are required")
      else
        match hash with
        | none => .done (.error 500 "Failed to hash password")
        | some hash =>
            saveAndAnswer
              { username := input.username
                passwordHash := hash
                role := input.role }
              .created

/-- Role change and save of `EditUser`, after the password. -/
def editRole (user : User) (role : Role) : UserProgram :=
  if role ≠ "" then
    if role ≠ user.role ∧ user.role = roleAdmin then
      checkAdmins "Cannot demote the last remaining administrator"
        (saveAndAnswer { user with role := role } .ok)
    else saveAndAnswer { user with role := role } .ok
  else saveAndAnswer user .ok

def editUser
    (username : String)
    (input : Except String UserEdit)
    (hash : Option String) : UserProgram :=
  match input with
  | .error text => .done (.error 400 text)
  | .ok input =>
      withUser username fun user =>
        if input.password ≠ "" then
          match hash with
          | none => .done (.error 500 "Failed to hash password")
          | some hash => editRole { user with passwordHash := hash } input.role
        else editRole user input.role

def deleteUser (username : String) : UserProgram :=
  withUser username fun user =>
    if user.role = roleAdmin then
      checkAdmins "Cannot delete the last remaining administrator"
        (deleteAndAnswer username)
    else deleteAndAnswer username

/-- Code of a request. -/
def UserRequest.handler : UserRequest → UserProgram
  | .addUser input hash => Api.addUser input hash
  | .editUser username input hash => Api.editUser username input hash
  | .deleteUser username => Api.deleteUser username

/-- Handle a request alone, with no failure of the store. -/
def handle (store : UserStore) (request : UserRequest) : UserStore × Response :=
  request.handler.exec (fun store => perform store none) store

/-! ## Requests handled one at a time -/

/-- The store after a request. -/
def handleNext (store : UserStore) (request : UserRequest) : Option UserStore :=
  some (handle store request).1

/-- The request is not an addition that overwrites the only administrator with
another role. -/
def SparesLastAdmin (store : UserStore) : UserRequest → Prop
  | .addUser (.ok input) (some _) =>
      input.username ≠ "" → input.password ≠ "" → input.role ≠ "" →
        input.role = roleAdmin ∨
          ∃ other, other ≠ input.username ∧ store.IsAdmin other
  | _ => True

theorem exec_withUser
    (store : UserStore)
    (username : String)
    (next : User → UserProgram) :
    (withUser username next).exec (fun store => perform store none) store =
      match store.getUser username with
      | .error _ => (store, .error 404 "User not found")
      | .ok user => (next user).exec (fun store => perform store none) store := by
  cases found : store.getUser username with
  | error error =>
      simp [withUser, Program.exec, perform, found, Except.toOption]
  | ok user =>
      simp [withUser, Program.exec, perform, found, Except.toOption]

theorem exec_saveAndAnswer (store : UserStore) (user : User) (success : Response) :
    (saveAndAnswer user success).exec (fun store => perform store none) store =
      (store.saveUser user, success) := rfl

theorem exec_deleteAndAnswer (store : UserStore) (username : String) :
    (deleteAndAnswer username).exec (fun store => perform store none) store =
      (store.deleteUser username, .ok) := rfl

theorem exec_checkAdmins
    (store : UserStore)
    (refusal : String)
    (next : UserProgram) :
    (checkAdmins refusal next).exec (fun store => perform store none) store =
      if store.listUsers.adminCount ≤ 1 then (store, .error 400 refusal)
      else next.exec (fun store => perform store none) store := by
  change Program.exec _ (if store.listUsers.adminCount ≤ 1 then
    Program.done (.error 400 refusal) else next) store = _
  split <;> rfl

/-- An addition keeps an administrator exactly if it spares the last one. -/
theorem hasAdmin_addUser_iff
    {store : UserStore}
    (hasAdmin : store.HasAdmin)
    (input : Except String NewUser)
    (hash : Option String) :
    (handle store (.addUser input hash)).1.HasAdmin ↔
      SparesLastAdmin store (.addUser input hash) := by
  unfold handle UserRequest.handler addUser
  cases input with
  | error text => simpa [SparesLastAdmin, Program.exec] using hasAdmin
  | ok input =>
      dsimp only
      split
      · rename_i missing
        cases hash with
        | none => simpa [SparesLastAdmin, Program.exec] using hasAdmin
        | some hash =>
            simp only [Program.exec, hasAdmin, SparesLastAdmin, true_iff]
            intro named password role
            rcases missing with empty | empty | empty
            · exact absurd empty named
            · exact absurd empty password
            · exact absurd empty role
      · rename_i complete
        cases hash with
        | none => simpa [SparesLastAdmin, Program.exec] using hasAdmin
        | some hash =>
            simp only [not_or] at complete
            simp only [exec_saveAndAnswer, UserStore.hasAdmin_saveUser_iff,
              SparesLastAdmin, ne_eq, complete, not_false_eq_true,
              forall_const]

/-- A role change keeps an administrator, if the account has the role that was
read. -/
theorem hasAdmin_editRole
    {store : UserStore}
    (hasAdmin : store.HasAdmin)
    {user : User}
    (current : store.IsAdmin user.username ↔ user.role = roleAdmin)
    (role : Role) :
    ((editRole user role).exec (fun store => perform store none)
      store).1.HasAdmin := by
  unfold editRole
  split
  · split
    · rw [exec_checkAdmins]
      split
      · exact hasAdmin
      · rename_i several
        rw [exec_saveAndAnswer, UserStore.hasAdmin_saveUser_iff]
        exact .inr (UserStore.exists_other_of_several (Nat.lt_of_not_le several) _)
    · rename_i keeps
      rw [exec_saveAndAnswer, UserStore.hasAdmin_saveUser_iff]
      by_cases admin : user.role = roleAdmin
      · refine .inl ?_
        by_contra demoted
        exact keeps ⟨fun same => demoted (same.trans admin), admin⟩
      · exact .inr (UserStore.exists_other_of_not_admin hasAdmin
          fun isAdmin => admin (current.mp isAdmin))
  · rw [exec_saveAndAnswer, UserStore.hasAdmin_saveUser_iff]
    by_cases admin : user.role = roleAdmin
    · exact .inl admin
    · exact .inr (UserStore.exists_other_of_not_admin hasAdmin
        fun isAdmin => admin (current.mp isAdmin))

/-- An edit keeps an administrator. -/
theorem hasAdmin_editUser
    {store : UserStore}
    (hasAdmin : store.HasAdmin)
    (username : String)
    (input : Except String UserEdit)
    (hash : Option String) :
    (handle store (.editUser username input hash)).1.HasAdmin := by
  unfold handle UserRequest.handler editUser
  cases input with
  | error text => exact hasAdmin
  | ok input =>
      dsimp only
      rw [exec_withUser]
      cases found : store.getUser username with
      | error error => exact hasAdmin
      | ok user =>
          have named := store.keyed username user found
          have current : store.IsAdmin user.username ↔ user.role = roleAdmin := by
            rw [named]
            exact UserStore.isAdmin_iff_of_getUser found
          dsimp only
          split
          · cases hash with
            | none => exact hasAdmin
            | some hash =>
                have rehashed : store.IsAdmin
                    { user with passwordHash := hash }.username ↔
                    { user with passwordHash := hash }.role = roleAdmin := current
                exact hasAdmin_editRole hasAdmin rehashed input.role
          · exact hasAdmin_editRole hasAdmin current input.role

/-- A deletion keeps an administrator. -/
theorem hasAdmin_deleteUser
    {store : UserStore}
    (hasAdmin : store.HasAdmin)
    (username : String) :
    (handle store (.deleteUser username)).1.HasAdmin := by
  unfold handle UserRequest.handler deleteUser
  dsimp only
  rw [exec_withUser]
  cases found : store.getUser username with
  | error error => exact hasAdmin
  | ok user =>
      dsimp only
      split
      · rw [exec_checkAdmins]
        split
        · exact hasAdmin
        · rename_i several
          rw [exec_deleteAndAnswer, UserStore.hasAdmin_deleteUser_iff]
          exact UserStore.exists_other_of_several (Nat.lt_of_not_le several) _
      · rename_i notAdmin
        rw [exec_deleteAndAnswer, UserStore.hasAdmin_deleteUser_iff]
        exact UserStore.exists_other_of_not_admin hasAdmin fun isAdmin =>
          notAdmin ((UserStore.isAdmin_iff_of_getUser found).mp isAdmin)

/-- A request keeps an administrator exactly if it spares the last one. -/
theorem hasAdmin_handle_iff
    {store : UserStore}
    (hasAdmin : store.HasAdmin)
    (request : UserRequest) :
    (handle store request).1.HasAdmin ↔ SparesLastAdmin store request := by
  cases request with
  | addUser input hash => exact hasAdmin_addUser_iff hasAdmin input hash
  | editUser username input hash =>
      simp [SparesLastAdmin, hasAdmin_editUser hasAdmin username input hash]
  | deleteUser username =>
      simp [SparesLastAdmin, hasAdmin_deleteUser hasAdmin username]

/-- From a store with an administrator, an administrator remains after every
request of a sequence exactly if no addition overwrites the only one with
another role. -/
theorem admin_remains_iff
    (store : UserStore)
    (hasAdmin : store.HasAdmin)
    (requests : List UserRequest) :
    Always handleNext UserStore.HasAdmin store requests ↔
      Meets handleNext SparesLastAdmin store requests := by
  have exactStep : ∀ store request next, store.HasAdmin →
      handleNext store request = some next →
      (next.HasAdmin ↔ SparesLastAdmin store request) := by
    intro store request next holds taken
    rw [← Option.some.inj taken]
    exact hasAdmin_handle_iff holds request
  exact always_iff_meets_of_exact exactStep hasAdmin (run_total _ store requests)

/-- A store with one administrator. -/
def oneAdmin : UserStore :=
  UserStore.empty.saveUser
    { username := "admin", passwordHash := "", role := roleAdmin }

theorem hasAdmin_oneAdmin : oneAdmin.HasAdmin := by
  refine ⟨"admin", ?_⟩
  exact (UserStore.isAdmin_saveUser_self _ _).mpr rfl

/-- The only administrator cannot be deleted or demoted, and stays one under a
new password. -/
theorem admin_remains_iff_protected :
    Always handleNext UserStore.HasAdmin oneAdmin
      [.deleteUser "admin",
        .editUser "admin" (.ok ⟨"", roleViewer⟩) none,
        .addUser (.ok ⟨"admin", "x", roleAdmin⟩) (some "hash")] := by
  refine (admin_remains_iff oneAdmin hasAdmin_oneAdmin _).mpr ?_
  refine ⟨trivial, fun _ _ => ⟨trivial, fun _ _ => ⟨?_, fun _ _ => trivial⟩⟩⟩
  exact fun _ _ _ => .inl rfl

/-- An addition under the name of the only administrator leaves none. -/
theorem last_admin_overwritten :
    oneAdmin.HasAdmin ∧
      (handle oneAdmin (.addUser
        (.ok ⟨"admin", "x", roleViewer⟩)
        (some "hash"))).2 = .created ∧
      ¬ (handle oneAdmin (.addUser
        (.ok ⟨"admin", "x", roleViewer⟩)
        (some "hash"))).1.HasAdmin := by
  refine ⟨hasAdmin_oneAdmin, rfl, ?_⟩
  rw [hasAdmin_handle_iff hasAdmin_oneAdmin]
  intro spares
  obtain admin | ⟨other, different, admin⟩ :=
    spares (by decide) (by decide) (by decide)
  · exact absurd admin (by decide)
  · rw [oneAdmin, UserStore.isAdmin_saveUser_of_ne _ different.symm] at admin
    exact UserStore.not_isAdmin_empty other admin

end Api
end RuseonCore
