import RuseonCore.Storage.Records

/-!
# User accounts

The account calls of `pkg/storage/storage.go`.  Accounts are only written by
`SaveUser`, so every record stands under its own username, and a listing has
each username once.
-/

namespace RuseonCore
namespace Storage

/-- A listing of accounts. -/
structure Accounts where
  list : List User
  distinct : (list.map User.username).Nodup

namespace Accounts

/-- Number of administrators in a listing. -/
def adminCount (accounts : Accounts) : Nat :=
  accounts.list.countP fun user => user.role == roleAdmin

/-- A listing with more than one administrator has one besides any given
account. -/
theorem exists_other_admin
    {accounts : Accounts}
    (several : 1 < accounts.adminCount)
    (username : String) :
    ∃ user ∈ accounts.list, user.role = roleAdmin ∧
      user.username ≠ username := by
  by_contra none
  have same : ∀ user ∈ accounts.list.filter fun user => user.role == roleAdmin,
      user.username = username := by
    intro user within
    rw [List.mem_filter, beq_iff_eq] at within
    by_contra different
    exact none ⟨user, within.1, within.2, different⟩
  have distinct : ((accounts.list.filter fun user =>
      user.role == roleAdmin).map User.username).Nodup :=
    accounts.distinct.sublist (List.filter_sublist.map _)
  rw [List.map_eq_replicate_iff.mpr same, List.nodup_replicate,
    ← List.countP_eq_length_filter] at distinct
  exact absurd several (Nat.not_lt.mpr distinct)

end Accounts

/-- A database in which every account stands under its own username. -/
structure UserStore where
  db : DB
  keyed : ∀ username user, db.get users username = .ok user →
    user.username = username

namespace UserStore

/-- The database without accounts. -/
def empty : UserStore where
  db := DB.empty
  keyed := by simp

/-- Read an account. -/
def getUser (store : UserStore) (username : String) : Except ReadError User :=
  store.db.get users username

/-- List all accounts; every stored account decodes, so this does not fail. -/
def listUsers (store : UserStore) : Accounts where
  list := (store.db.list users).1
  distinct := store.db.list_nodup users store.keyed

/-- Create or replace an account. -/
def saveUser (store : UserStore) (user : User) : UserStore where
  db := store.db.set users user.username user
  keyed := by
    intro username found stored
    by_cases same : user.username = username
    · subst same
      rw [DB.get_set_self, Except.ok.injEq] at stored
      rw [stored]
    · rw [store.db.get_set_of_ne users same] at stored
      exact store.keyed username found stored

/-- Delete an account, if it is there. -/
def deleteUser (store : UserStore) (username : String) : UserStore where
  db := store.db.delete users username
  keyed := by
    intro other found stored
    by_cases same : username = other
    · subst same
      rw [DB.get_delete_self] at stored
      cases stored
    · rw [store.db.get_delete_of_ne users same] at stored
      exact store.keyed other found stored

/-- The account exists and is an administrator. -/
def IsAdmin (store : UserStore) (username : String) : Prop :=
  ∃ user, store.getUser username = .ok user ∧ user.role = roleAdmin

/-- Some account is an administrator. -/
def HasAdmin (store : UserStore) : Prop :=
  ∃ username, store.IsAdmin username

variable (store : UserStore)

theorem mem_listUsers {user : User} :
    user ∈ store.listUsers.list ↔ store.getUser user.username = .ok user := by
  rw [listUsers, DB.mem_list_iff]
  constructor
  · rintro ⟨username, stored⟩
    rw [getUser, store.keyed username user stored, stored]
  · intro stored
    exact ⟨user.username, stored⟩

@[simp] theorem not_isAdmin_empty (username : String) :
    ¬ empty.IsAdmin username := by
  simp [IsAdmin, getUser, empty]

@[simp] theorem isAdmin_saveUser_self (user : User) :
    (store.saveUser user).IsAdmin user.username ↔ user.role = roleAdmin := by
  simp [IsAdmin, getUser, saveUser]

@[simp] theorem not_isAdmin_deleteUser_self (username : String) :
    ¬ (store.deleteUser username).IsAdmin username := by
  simp [IsAdmin, getUser, deleteUser]

theorem isAdmin_saveUser_of_ne
    {user : User}
    {other : String}
    (different : user.username ≠ other) :
    (store.saveUser user).IsAdmin other ↔ store.IsAdmin other := by
  simp [IsAdmin, getUser, saveUser, store.db.get_set_of_ne users different]

theorem isAdmin_deleteUser_of_ne
    {username other : String}
    (different : username ≠ other) :
    (store.deleteUser username).IsAdmin other ↔ store.IsAdmin other := by
  simp [IsAdmin, getUser, deleteUser,
    store.db.get_delete_of_ne users different]

/-- An administrator remains after a save exactly if it writes one or leaves
one. -/
theorem hasAdmin_saveUser_iff (user : User) :
    (store.saveUser user).HasAdmin ↔
      user.role = roleAdmin ∨
        ∃ other, other ≠ user.username ∧ store.IsAdmin other := by
  constructor
  · rintro ⟨username, admin⟩
    by_cases same : user.username = username
    · subst same
      exact .inl ((store.isAdmin_saveUser_self user).mp admin)
    · exact .inr ⟨username, fun equal => same equal.symm,
        (store.isAdmin_saveUser_of_ne same).mp admin⟩
  · rintro (admin | ⟨other, different, admin⟩)
    · exact ⟨user.username, (store.isAdmin_saveUser_self user).mpr admin⟩
    · exact ⟨other, (store.isAdmin_saveUser_of_ne different.symm).mpr admin⟩

/-- An administrator that is left alone by a write is another one. -/
theorem exists_other_of_not_admin
    {store : UserStore}
    (hasAdmin : store.HasAdmin)
    {username : String}
    (notAdmin : ¬ store.IsAdmin username) :
    ∃ other, other ≠ username ∧ store.IsAdmin other := by
  obtain ⟨other, admin⟩ := hasAdmin
  refine ⟨other, ?_, admin⟩
  rintro rfl
  exact notAdmin admin

/-- Counted administrators that still are leave one besides any account. -/
theorem exists_other_of_counted
    {store : UserStore}
    {accounts : Accounts}
    (several : 1 < accounts.adminCount)
    (still : ∀ user ∈ accounts.list, user.role = roleAdmin →
      store.IsAdmin user.username)
    (username : String) :
    ∃ other, other ≠ username ∧ store.IsAdmin other := by
  obtain ⟨user, listed, admin, different⟩ :=
    Accounts.exists_other_admin several username
  exact ⟨user.username, different, still user listed admin⟩

/-- Several listed administrators leave one besides any account. -/
theorem exists_other_of_several
    {store : UserStore}
    (several : 1 < store.listUsers.adminCount)
    (username : String) :
    ∃ other, other ≠ username ∧ store.IsAdmin other := by
  refine exists_other_of_counted several ?_ username
  intro user listed admin
  exact ⟨user, store.mem_listUsers.mp listed, admin⟩

theorem isAdmin_iff_of_getUser
    {store : UserStore}
    {username : String}
    {user : User}
    (stored : store.getUser username = .ok user) :
    store.IsAdmin username ↔ user.role = roleAdmin := by
  simp [IsAdmin, stored]

/-- An administrator remains after a deletion exactly if it leaves one. -/
theorem hasAdmin_deleteUser_iff (username : String) :
    (store.deleteUser username).HasAdmin ↔
      ∃ other, other ≠ username ∧ store.IsAdmin other := by
  constructor
  · rintro ⟨other, admin⟩
    by_cases same : username = other
    · subst same
      exact absurd admin (store.not_isAdmin_deleteUser_self username)
    · exact ⟨other, fun equal => same equal.symm,
        (store.isAdmin_deleteUser_of_ne same).mp admin⟩
  · rintro ⟨other, different, admin⟩
    exact ⟨other, (store.isAdmin_deleteUser_of_ne different.symm).mpr admin⟩

end UserStore

end Storage
end RuseonCore
