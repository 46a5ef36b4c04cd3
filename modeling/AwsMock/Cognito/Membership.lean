import AwsMock.Cognito.Service
import AwsMock.Foundation.Runs
import AwsMock.Foundation.Traverse

/-! # The members of groups

A ledger notes who was added to a group and not removed since. It says who is listed as long as
groups are made in pools that are there, pools are empty when they are deleted, and the users of
a deleted group are gone when another of its name is made.
-/

namespace AwsMock.Cognito

open Foundation

section Definitions

/-- Whether a user of the pool was added to a group and not removed since. -/
abbrev Ledger := Group → String → Bool

structure Account where
  world : World
  ledger : Ledger

def Ledger.note (ledger : Ledger) (group : Group) (userName : String) (isMember : Bool) : Ledger :=
  fun other name => if other = group ∧ name = userName then isMember else ledger other name

/-- With a group or a pool, and with a user, their memberships end. -/
def Operation.note (ledger : Ledger) : Operation → Ledger
  | .adminAddUserToGroup key groupName =>
    ledger.note ⟨key.region, key.userPoolId, groupName⟩ key.userName true
  | .adminRemoveUserFromGroup key groupName =>
    ledger.note ⟨key.region, key.userPoolId, groupName⟩ key.userName false
  | .deleteUserPool userPoolId => fun group userName =>
    group.userPoolId ≠ userPoolId && ledger group userName
  | .deleteGroup group => fun other userName => other ≠ group && ledger other userName
  | .adminDeleteUser key => fun group userName =>
    (⟨group.region, group.userPoolId, userName⟩ : UserKey) ≠ key && ledger group userName
  | .createUserPool _ _ _ _ | .createGroup _ _ | .adminCreateUser _ _ | .signUp _ _ _ _ => ledger

def Account.step (account : Account) (operation : Operation) : Account :=
  match operation.perform account.world with
  | .ok world => ⟨world, operation.note account.ledger⟩
  | .error _ => account

def Lists (account : Account) (group : Group) : Prop :=
  ∃ users, listUsersInGroup account.world group = .ok users ∧ (users.map User.userName).Nodup ∧
    ∀ userName, userName ∈ users.map User.userName ↔ account.ledger group userName = true

structure KeepsMembers (account : Account) : Prop where
  usersBelong : ∀ user ∈ account.world.users, account.world.userPoolExists user.userPoolId = true
  groupsBelong : ∀ group ∈ account.world.groups,
    account.world.userPoolExists group.userPoolId = true
  users : (account.world.users.map User.key).Nodup
  groups : account.world.groups.Nodup
  lists : ∀ group ∈ account.world.groups, Lists account group

/-- A pool can hold a group whatever groups other pools hold. -/
def CreatesIndependently (account : Account) : Operation → Prop
  | .createGroup group place =>
    account.world.userPoolExists group.userPoolId = true → group ∉ account.world.groups →
      (createGroup account.world group place).isOk = true
  | _ => True

def Heeds (account : Account) : Operation → Prop
  | .deleteUserPool userPoolId => account.world.userPoolExists userPoolId = true →
      (∀ user ∈ account.world.users, user.userPoolId ≠ userPoolId) ∧
        ∀ group ∈ account.world.groups, group.userPoolId ≠ userPoolId
  | .createGroup group _ =>
    if account.world.groupExists group.region group.groupName = true then
      account.world.userPoolExists group.userPoolId = true → group ∈ account.world.groups
    else
      account.world.userPoolExists group.userPoolId = true ∧
        ∀ user ∈ account.world.users, group ∉ user.groups
  | _ => True

instance decidableHeeds (account : Account) : ∀ operation, Decidable (Heeds account operation)
  | .deleteUserPool _ => inferInstanceAs (Decidable (_ → _))
  | .createGroup _ _ => inferInstanceAs (Decidable (ite _ _ _))
  | .createUserPool _ _ _ _ | .deleteGroup _ | .adminCreateUser _ _ | .signUp _ _ _ _
  | .adminDeleteUser _ | .adminAddUserToGroup _ _ | .adminRemoveUserFromGroup _ _ =>
    isTrue trivial

def Account.start (userPools : List UserPool) : Account :=
  ⟨{ userPools := userPools }, fun _ _ => false⟩

def Holds (users : List User) (group : Group) (userName : String) : Prop :=
  ∃ user ∈ users, user.key = ⟨group.region, group.userPoolId, userName⟩ ∧ group ∈ user.groups

/-- Users have copies of groups of their own pools, and what the ledger notes are the copies of
groups that are there. -/
structure Account.IsValid (account : Account) : Prop where
  usersBelong : ∀ user ∈ account.world.users, account.world.userPoolExists user.userPoolId = true
  groupsBelong : ∀ group ∈ account.world.groups,
    account.world.userPoolExists group.userPoolId = true
  users : (account.world.users.map User.key).Nodup
  groups : account.world.groups.Nodup
  copies : ∀ user ∈ account.world.users, ∀ group ∈ user.groups,
    group.region = user.region ∧ group.userPoolId = user.userPoolId
  members : ∀ group userName, account.ledger group userName = true ↔
    group ∈ account.world.groups ∧ Holds account.world.users group userName

end Definitions

/-! ## Listings -/

section Listings

variable {account : Account} {user : User} {group : Group} {userName : String}

theorem hasCopy_iff {region userPoolId groupName : String}
    (hcopies : ∀ g ∈ user.groups, g.region = user.region ∧ g.userPoolId = user.userPoolId)
    (hregion : user.region = region) (hpool : user.userPoolId = userPoolId) :
    (∃ g ∈ user.groups, g.groupName = groupName) ↔
      (⟨region, userPoolId, groupName⟩ : Group) ∈ user.groups := by
  constructor
  · rintro ⟨g, hmem, rfl⟩
    obtain ⟨hr, hp⟩ := hcopies g hmem
    rw [← hregion, ← hpool, ← hr, ← hp]
    exact hmem
  · exact fun hmem => ⟨_, hmem, rfl⟩

theorem mem_listUsersInGroup : user ∈ account.world.listUsersInGroup group ↔
    user ∈ account.world.users ∧ (user.region = group.region ∧
      user.userPoolId = group.userPoolId) ∧ ∃ g ∈ user.groups, g.groupName = group.groupName := by
  rw [World.listUsersInGroup, List.mem_filter, Bool.and_eq_true, Bool.and_eq_true,
    decide_eq_true_eq, decide_eq_true_eq, List.any_eq_true]
  simp only [decide_eq_true_eq]

variable (hvalid : account.IsValid)
include hvalid

theorem mem_names_iff_holds :
    userName ∈ (account.world.listUsersInGroup group).map User.userName ↔
      Holds account.world.users group userName := by
  rw [List.mem_map]
  constructor
  · rintro ⟨user, hlisted, rfl⟩
    obtain ⟨hmem, ⟨hregion, hpool⟩, hcopy⟩ := mem_listUsersInGroup.mp hlisted
    refine ⟨user, hmem, ?_, (hasCopy_iff (hvalid.copies user hmem) hregion hpool).mp hcopy⟩
    rw [User.key, hregion, hpool]
  · rintro ⟨user, hmem, hkey, hcopy⟩
    obtain ⟨hregion, hpool, hname⟩ := UserKey.mk.inj hkey
    exact ⟨user, mem_listUsersInGroup.mpr ⟨hmem, ⟨hregion, hpool⟩, group, hcopy, rfl⟩, hname⟩

theorem nodup_names :
    ((account.world.listUsersInGroup group).map User.userName).Nodup := by
  have hkeys : (account.world.listUsersInGroup group).Pairwise fun first second =>
      first.key ≠ second.key := (List.pairwise_map.mp hvalid.users).filter _
  refine List.pairwise_map.mpr (hkeys.imp_of_mem ?_)
  intro first second hfirst hsecond hne heq
  obtain ⟨_, ⟨hregion, hpool⟩, _⟩ := mem_listUsersInGroup.mp hfirst
  obtain ⟨_, ⟨hregion', hpool'⟩, _⟩ := mem_listUsersInGroup.mp hsecond
  apply hne
  rw [User.key, User.key, hregion, hpool, hregion', hpool', heq]

theorem Account.IsValid.lists (hgroup : group ∈ account.world.groups) :
    Lists account group := by
  have hexists : account.world.groupExists group.region group.groupName = true :=
    List.any_eq_true.mpr ⟨group, hgroup, by simp⟩
  refine ⟨account.world.listUsersInGroup group, ?_, nodup_names hvalid, fun userName => ?_⟩
  · rw [listUsersInGroup, hvalid.groupsBelong group hgroup, hexists]
    rfl
  · rw [mem_names_iff_holds hvalid, hvalid.members]
    exact (and_iff_right hgroup).symm

theorem Account.IsValid.keepsMembers : KeepsMembers account :=
  ⟨hvalid.usersBelong, hvalid.groupsBelong, hvalid.users, hvalid.groups,
    fun _ hgroup => hvalid.lists hgroup⟩

end Listings

/-! ## Entities that come and go -/

section Entities

variable {account : Account} {group : Group} {key : UserKey}

theorem holds_insertAt {users : List User} {user : User} (hgroups : user.groups = []) (place : Nat)
    (group : Group) (userName : String) :
    Holds (insertAt place user users) group userName ↔ Holds users group userName := by
  constructor
  · rintro ⟨other, hmem, hkey, hcopy⟩
    rcases mem_insertAt.mp hmem with rfl | hold
    · rw [hgroups] at hcopy
      cases hcopy
    · exact ⟨other, hold, hkey, hcopy⟩
  · rintro ⟨other, hold, hfound⟩
    exact ⟨other, mem_insertAt.mpr (Or.inr hold), hfound⟩

theorem isValid_createUser (hvalid : account.IsValid) {user : User} (hgroups : user.groups = [])
    (hpool : account.world.userPoolExists user.userPoolId = true)
    (hnew : ∀ other ∈ account.world.users, other.key ≠ user.key) (place : Nat) :
    Account.IsValid ⟨{ account.world with users := insertAt place user account.world.users },
      account.ledger⟩ where
  usersBelong := by
    intro other hmem
    rcases mem_insertAt.mp hmem with rfl | hold
    · exact hpool
    · exact hvalid.usersBelong other hold
  groupsBelong := hvalid.groupsBelong
  users := nodup_map_insertAt hvalid.users hnew place
  groups := hvalid.groups
  copies := by
    intro other hmem
    rcases mem_insertAt.mp hmem with rfl | hold
    · rw [hgroups]
      exact fun _ hcopy => absurd hcopy List.not_mem_nil
    · exact hvalid.copies other hold
  members := by
    intro group userName
    rw [holds_insertAt hgroups]
    exact hvalid.members group userName

theorem isValid_createUserPool (hvalid : account.IsValid) (userPool : UserPool) (place : Nat) :
    Account.IsValid ⟨{ account.world with
      userPools := insertAt place userPool account.world.userPools }, account.ledger⟩ := by
  have hkept {userPoolId : String} (hexists : account.world.userPoolExists userPoolId = true) :
      (insertAt place userPool account.world.userPools).any
        (fun other => other.userPoolId = userPoolId) = true := by
    obtain ⟨other, hother, hid⟩ := List.any_eq_true.mp hexists
    exact List.any_eq_true.mpr ⟨other, mem_insertAt.mpr (Or.inr hother), hid⟩
  exact ⟨fun user hmem => hkept (hvalid.usersBelong user hmem),
    fun group hmem => hkept (hvalid.groupsBelong group hmem), hvalid.users, hvalid.groups,
    hvalid.copies, hvalid.members⟩

theorem userPoolExists_deleteUserPool {world : World} {userPoolId other : String}
    (hne : other ≠ userPoolId) (hexists : world.userPoolExists other = true) :
    (world.deleteUserPool userPoolId).userPoolExists other = true := by
  obtain ⟨userPool, hmem, hid⟩ := List.any_eq_true.mp hexists
  refine List.any_eq_true.mpr ⟨userPool, List.mem_filter.mpr ⟨hmem, decide_eq_true ?_⟩, hid⟩
  rw [of_decide_eq_true hid]
  exact hne

variable (hvalid : account.IsValid)
include hvalid

theorem isValid_deleteUserPool {userPoolId : String}
    (husers : ∀ user ∈ account.world.users, user.userPoolId ≠ userPoolId)
    (hgroups : ∀ group ∈ account.world.groups, group.userPoolId ≠ userPoolId) :
    Account.IsValid ⟨account.world.deleteUserPool userPoolId,
      (Operation.deleteUserPool userPoolId).note account.ledger⟩ where
  usersBelong := fun user hmem =>
    userPoolExists_deleteUserPool (husers user hmem) (hvalid.usersBelong user hmem)
  groupsBelong := fun group hmem =>
    userPoolExists_deleteUserPool (hgroups group hmem) (hvalid.groupsBelong group hmem)
  users := hvalid.users
  groups := hvalid.groups
  copies := hvalid.copies
  members := by
    intro group userName
    change (decide (group.userPoolId ≠ userPoolId) && account.ledger group userName) = true ↔ _
    rw [Bool.and_eq_true, hvalid.members, decide_eq_true_eq]
    exact and_iff_right_of_imp fun hmember => hgroups group hmember.1

theorem isValid_createGroup (hpool : account.world.userPoolExists group.userPoolId = true)
    (hnew : group ∉ account.world.groups)
    (hleft : ∀ user ∈ account.world.users, group ∉ user.groups) (place : Nat) :
    Account.IsValid ⟨{ account.world with groups := insertAt place group account.world.groups },
      account.ledger⟩ where
  usersBelong := hvalid.usersBelong
  groupsBelong := by
    intro other hmem
    rcases mem_insertAt.mp hmem with rfl | hold
    · exact hpool
    · exact hvalid.groupsBelong other hold
  users := hvalid.users
  groups := (perm_insertAt place group account.world.groups).nodup_iff.mpr
    (List.nodup_cons.mpr ⟨hnew, hvalid.groups⟩)
  copies := hvalid.copies
  members := by
    intro other userName
    change account.ledger other userName = true ↔
      other ∈ insertAt place group account.world.groups ∧ _
    rw [hvalid.members, mem_insertAt]
    refine ⟨fun hmember => ⟨Or.inr hmember.1, hmember.2⟩, ?_⟩
    rintro ⟨rfl | hold, hholds⟩
    · obtain ⟨user, hmem, _, hcopy⟩ := hholds
      exact absurd hcopy (hleft user hmem)
    · exact ⟨hold, hholds⟩

theorem isValid_deleteGroup (group : Group) :
    Account.IsValid ⟨account.world.deleteGroup group,
      (Operation.deleteGroup group).note account.ledger⟩ where
  usersBelong := hvalid.usersBelong
  groupsBelong := fun other hmem => hvalid.groupsBelong other (List.mem_of_mem_filter hmem)
  users := hvalid.users
  groups := hvalid.groups.filter _
  copies := hvalid.copies
  members := by
    intro other userName
    change (decide (other ≠ group) && account.ledger other userName) = true ↔
      other ∈ account.world.groups.filter (fun other => other ≠ group) ∧ _
    rw [Bool.and_eq_true, hvalid.members, List.mem_filter]
    exact ⟨fun hmember => ⟨⟨hmember.2.1, hmember.1⟩, hmember.2.2⟩,
      fun hmember => ⟨hmember.1.2, hmember.1.1, hmember.2⟩⟩

theorem isValid_deleteUser (user : User) (hkey : user.key = key) :
    Account.IsValid ⟨account.world.deleteUser user,
      (Operation.adminDeleteUser key).note account.ledger⟩ := by
  have hmem {other : User} : other ∈ (account.world.deleteUser user).users ↔
      other ∈ account.world.users ∧ other.key ≠ key := by
    rw [World.deleteUser, removeKey, List.mem_filter, hkey, decide_eq_true_eq]
  refine ⟨fun other hother => hvalid.usersBelong other (hmem.mp hother).1, hvalid.groupsBelong,
    nodup_removeKey hvalid.users, hvalid.groups,
    fun other hother => hvalid.copies other (hmem.mp hother).1, ?_⟩
  intro group userName
  change (decide ((⟨group.region, group.userPoolId, userName⟩ : UserKey) ≠ key) &&
    account.ledger group userName) = true ↔ _
  rw [Bool.and_eq_true, hvalid.members, decide_eq_true_eq]
  constructor
  · rintro ⟨hne, hgroup, other, hother, hotherKey, hcopy⟩
    exact ⟨hgroup, other, hmem.mpr ⟨hother, hotherKey.symm ▸ hne⟩, hotherKey, hcopy⟩
  · rintro ⟨hgroup, other, hother, hotherKey, hcopy⟩
    exact ⟨hotherKey ▸ (hmem.mp hother).2, hgroup, other, (hmem.mp hother).1, hotherKey, hcopy⟩

end Entities

/-! ## Memberships -/

section Memberships

variable {account : Account} {user : User} {group : Group} {key : UserKey} {groupName : String}
  {isMember : Bool}

theorem hasGroup_iff (hvalid : account.IsValid) (hmem : user ∈ account.world.users)
    (hkey : user.key = key) : user.hasGroup key.userPoolId groupName = true ↔
      (⟨key.region, key.userPoolId, groupName⟩ : Group) ∈ user.groups := by
  subst hkey
  change _ ↔ (⟨user.region, user.userPoolId, groupName⟩ : Group) ∈ user.groups
  rw [← hasCopy_iff (hvalid.copies user hmem) rfl rfl, User.hasGroup, List.any_eq_true]
  refine exists_congr fun g => and_congr_right fun hcopy => ?_
  rw [Bool.and_eq_true, decide_eq_true_eq, decide_eq_true_eq]
  exact and_iff_right (hvalid.copies user hmem g hcopy).2

theorem holds_iff_of_key (hvalid : account.IsValid) (hmem : user ∈ account.world.users)
    {userName : String} (hkey : user.key = ⟨group.region, group.userPoolId, userName⟩) :
    Holds account.world.users group userName ↔ group ∈ user.groups := by
  constructor
  · rintro ⟨other, hother, hotherKey, hcopy⟩
    rwa [← List.inj_on_of_nodup_map hvalid.users hother hmem (hotherKey.trans hkey.symm)]
  · exact fun hcopy => ⟨user, hmem, hkey, hcopy⟩

theorem note_eq_self {ledger : Ledger} {userName : String}
    (hsame : ledger group userName = isMember) : ledger.note group userName isMember = ledger := by
  funext other name
  rw [Ledger.note]
  split
  · next heq => rw [heq.1, heq.2, hsame]
  · rfl

variable (hvalid : account.IsValid)
include hvalid

theorem isValid_updateUser (hmem : user ∈ account.world.users) (hkey : user.key = key)
    (hgroup : (⟨key.region, key.userPoolId, groupName⟩ : Group) ∈ account.world.groups)
    {groups : List Group}
    (hgroups : ∀ g, g ∈ groups ↔
      if g = ⟨key.region, key.userPoolId, groupName⟩ then isMember = true else g ∈ user.groups) :
    Account.IsValid ⟨account.world.updateUser { user with groups := groups },
      account.ledger.note ⟨key.region, key.userPoolId, groupName⟩ key.userName isMember⟩ := by
  subst hkey
  have hfind : findKey User.key user.key account.world.users = some user :=
    findKey_of_mem hvalid.users hmem
  have hupsert : (account.world.updateUser { user with groups := groups }).users =
      upsert User.key { user with groups := groups } account.world.users :=
    (@upsert_of_findKey_some _ _ _ User.key { user with groups := groups } user _ hfind).symm
  have hnext {other : User} : other ∈ (account.world.updateUser { user with groups := groups }).users ↔
      other = { user with groups := groups } ∨
        (other ∈ account.world.users ∧ other.key ≠ user.key) := by
    rw [hupsert, mem_upsert_iff hvalid.users]
    rfl
  refine ⟨?_, hvalid.groupsBelong, hupsert.symm ▸ nodup_upsert hvalid.users, hvalid.groups, ?_, ?_⟩
  · intro other hother
    rcases hnext.mp hother with rfl | ⟨hold, _⟩
    · exact hvalid.usersBelong user hmem
    · exact hvalid.usersBelong other hold
  · intro other hother g hcopy
    rcases hnext.mp hother with rfl | ⟨hold, _⟩
    · rw [hgroups] at hcopy
      split at hcopy
      · next heq =>
        rw [heq]
        exact ⟨rfl, rfl⟩
      · exact hvalid.copies user hmem g hcopy
    · exact hvalid.copies other hold g hcopy
  · intro other userName
    by_cases hplace : (⟨other.region, other.userPoolId, userName⟩ : UserKey) = user.key
    · have hafter : Holds (account.world.updateUser { user with groups := groups }).users other
          userName ↔ other ∈ groups := by
        constructor
        · rintro ⟨found, hfound, hfoundKey, hcopy⟩
          rcases hnext.mp hfound with rfl | ⟨_, hne⟩
          · exact hcopy
          · exact absurd (hfoundKey.trans hplace) hne
        · exact fun hcopy => ⟨_, hnext.mpr (Or.inl rfl), hplace.symm, hcopy⟩
      change Ledger.note _ _ _ _ _ _ = true ↔ other ∈ account.world.groups ∧ _
      rw [hafter, hgroups, Ledger.note]
      have hname : userName = user.userName := (UserKey.mk.inj hplace).2.2
      by_cases hother : other = ⟨user.key.region, user.key.userPoolId, groupName⟩
      · rw [if_pos ⟨hother, hname⟩, if_pos hother]
        exact (and_iff_right (hother ▸ hgroup)).symm
      · rw [if_neg fun hsame => hother hsame.1, if_neg hother, hvalid.members,
          holds_iff_of_key hvalid hmem hplace.symm]
    · have hafter : Holds (account.world.updateUser { user with groups := groups }).users other
          userName ↔ Holds account.world.users other userName := by
        constructor
        · rintro ⟨found, hfound, hfoundKey, hcopy⟩
          rcases hnext.mp hfound with rfl | ⟨hold, _⟩
          · exact absurd hfoundKey.symm hplace
          · exact ⟨found, hold, hfoundKey, hcopy⟩
        · rintro ⟨found, hold, hfoundKey, hcopy⟩
          exact ⟨found, hnext.mpr (Or.inr ⟨hold, hfoundKey.symm ▸ hplace⟩), hfoundKey, hcopy⟩
      change Ledger.note _ _ _ _ _ _ = true ↔ other ∈ account.world.groups ∧ _
      rw [hafter, Ledger.note, if_neg, hvalid.members]
      rintro ⟨rfl, rfl⟩
      exact hplace rfl

theorem isValid_addUserToGroup (hmem : user ∈ account.world.users) (hkey : user.key = key)
    (hgroup : (⟨key.region, key.userPoolId, groupName⟩ : Group) ∈ account.world.groups) :
    Account.IsValid ⟨if !user.hasGroup key.userPoolId groupName then
        account.world.updateUser { user with
          groups := user.groups ++ [⟨key.region, key.userPoolId, groupName⟩] }
      else account.world,
      account.ledger.note ⟨key.region, key.userPoolId, groupName⟩ key.userName true⟩ := by
  split
  · refine isValid_updateUser hvalid hmem hkey hgroup fun g => ?_
    rw [List.mem_append, List.mem_singleton]
    split
    · next heq => exact iff_of_true (Or.inr heq) rfl
    · next hne => exact or_iff_left hne
  · next hhas =>
    rw [Bool.not_eq_true', Bool.not_eq_false, hasGroup_iff hvalid hmem hkey] at hhas
    rw [note_eq_self]
    · exact hvalid
    · rw [hvalid.members, holds_iff_of_key hvalid hmem (hkey.trans rfl)]
      exact ⟨hgroup, hhas⟩

theorem isValid_removeUserFromGroup (hmem : user ∈ account.world.users) (hkey : user.key = key)
    (hgroup : (⟨key.region, key.userPoolId, groupName⟩ : Group) ∈ account.world.groups) :
    Account.IsValid ⟨if user.hasGroup key.userPoolId groupName then
        account.world.updateUser { user with
          groups := removeKey Group.groupName groupName user.groups }
      else account.world,
      account.ledger.note ⟨key.region, key.userPoolId, groupName⟩ key.userName false⟩ := by
  split
  · refine isValid_updateUser hvalid hmem hkey hgroup fun g => ?_
    rw [removeKey, List.mem_filter, decide_eq_true_eq]
    split
    · next heq => exact iff_of_false (fun hkept => hkept.2 (heq ▸ rfl)) Bool.false_ne_true
    · next hne =>
      refine and_iff_left_of_imp fun hcopy hname => hne ?_
      obtain ⟨hregion, hpool⟩ := hvalid.copies user hmem g hcopy
      rw [← hkey, ← hname]
      exact Group.mk.injEq .. ▸ ⟨hregion, hpool, rfl⟩
  · next hnot =>
    rw [hasGroup_iff hvalid hmem hkey] at hnot
    rw [note_eq_self]
    · exact hvalid
    · rw [Bool.eq_false_iff, Ne, hvalid.members, holds_iff_of_key hvalid hmem (hkey.trans rfl)]
      exact fun hmember => hnot hmember.2

end Memberships

/-! ## Steps -/

section Steps

variable {account : Account} {world : World} {key : UserKey}

theorem of_checkUser {message : String} {user : User}
    (hok : checkUser world key message = .ok user) : user ∈ world.users ∧ user.key = key := by
  rw [checkUser] at hok
  split at hok
  · cases hok
  · split at hok
    · cases hok
    · next found hfound =>
      cases hok
      exact ⟨mem_of_findKey hfound, key_of_findKey hfound⟩

theorem of_checkGroup {group found : Group} (hok : checkGroup world group = .ok found) :
    found = group ∧ group ∈ world.groups := by
  rw [checkGroup] at hok
  split at hok
  · cases hok
  · split at hok
    · cases hok
    · next hfound =>
      cases hok
      have heq : found = group := of_decide_eq_true (List.find?_some
        (p := fun other : Group => decide (other = group)) hfound)
      exact ⟨heq, heq ▸ List.mem_of_find?_eq_some hfound⟩

variable {operation : Operation}

theorem isValid_of_ok (hvalid : account.IsValid)
    (hheeds : Heeds account operation) (hok : operation.perform account.world = .ok world) :
    Account.IsValid ⟨world, operation.note account.ledger⟩ := by
  cases operation with
  | createUserPool region name userPoolId place =>
    change createUserPool account.world region name userPoolId place = .ok world at hok
    rw [createUserPool] at hok
    split at hok
    · cases hok
    · cases hok
      exact isValid_createUserPool hvalid _ place
  | deleteUserPool userPoolId =>
    change deleteUserPool account.world userPoolId = .ok world at hok
    rw [deleteUserPool] at hok
    split at hok
    · cases hok
    · next hexists =>
      cases hok
      obtain ⟨husers, hgroups⟩ := hheeds (by simpa using hexists)
      exact isValid_deleteUserPool hvalid husers hgroups
  | createGroup group place =>
    change createGroup account.world group place = .ok world at hok
    rw [createGroup] at hok
    split at hok
    · cases hok
    · next hnew =>
      cases hok
      rw [Heeds, if_neg hnew] at hheeds
      refine isValid_createGroup hvalid hheeds.1 (fun hmem => hnew ?_) hheeds.2 place
      exact List.any_eq_true.mpr ⟨group, hmem, by simp⟩
  | deleteGroup group =>
    change deleteGroup account.world group = .ok world at hok
    rw [deleteGroup] at hok
    split at hok
    · cases hok
    · cases hok
      exact isValid_deleteGroup hvalid group
  | adminCreateUser key place =>
    change adminCreateUser account.world key place = .ok world at hok
    rw [adminCreateUser] at hok
    split at hok
    · cases hok
    · next hpool =>
      split at hok
      · cases hok
      · next hnew =>
        cases hok
        refine isValid_createUser hvalid rfl (by simpa using hpool) (fun other hother => ?_) place
        rw [World.userExists, Bool.not_eq_true, Option.isSome_eq_false_iff,
          Option.isNone_iff_eq_none] at hnew
        exact findKey_eq_none.mp hnew other hother
  | signUp region userName clientId place =>
    change signUp account.world region userName clientId place = .ok world at hok
    rw [signUp] at hok
    split at hok
    · cases hok
    · next hnew =>
      split at hok
      · cases hok
      · next userPool hfound =>
        cases hok
        refine isValid_createUser hvalid rfl ?_ (fun other hother heq => hnew ?_) place
        · exact List.any_eq_true.mpr
            ⟨userPool, List.mem_of_find?_eq_some hfound, decide_eq_true rfl⟩
        · obtain ⟨hregion, _, hname⟩ := UserKey.mk.inj heq
          exact List.any_eq_true.mpr ⟨other, hother, by simp [hregion, hname]⟩
  | adminDeleteUser key =>
    obtain ⟨user, huser, hdelete⟩ := bind_eq_ok.mp hok
    cases hdelete
    exact isValid_deleteUser hvalid user (of_checkUser huser).2
  | adminAddUserToGroup key groupName =>
    obtain ⟨user, huser, hrest⟩ := bind_eq_ok.mp hok
    obtain ⟨group, hgroup, hadd⟩ := bind_eq_ok.mp hrest
    obtain ⟨hmem, hkey⟩ := of_checkUser huser
    obtain ⟨rfl, hexists⟩ := of_checkGroup hgroup
    have hnext := isValid_addUserToGroup hvalid hmem hkey hexists
    split at hadd
    · next hhas =>
      cases hadd
      rw [if_pos hhas] at hnext
      exact hnext
    · next hhas =>
      cases hadd
      rw [if_neg hhas] at hnext
      exact hnext
  | adminRemoveUserFromGroup key groupName =>
    obtain ⟨user, huser, hrest⟩ := bind_eq_ok.mp hok
    obtain ⟨group, hgroup, hremove⟩ := bind_eq_ok.mp hrest
    obtain ⟨hmem, hkey⟩ := of_checkUser huser
    obtain ⟨rfl, hexists⟩ := of_checkGroup hgroup
    have hnext := isValid_removeUserFromGroup hvalid hmem hkey hexists
    split at hremove
    · next hhas =>
      cases hremove
      rw [if_pos hhas] at hnext
      exact hnext
    · next hhas =>
      cases hremove
      rw [if_neg hhas] at hnext
      exact hnext

theorem isValid_step (hvalid : account.IsValid)
    (hheeds : Heeds account operation) : (account.step operation).IsValid := by
  rw [Account.step]
  split
  · next world hok => exact isValid_of_ok hvalid hheeds hok
  · exact hvalid

theorem createsIndependently_of_heeds
    (hheeds : Heeds account operation) : CreatesIndependently account operation := by
  cases operation with
  | createGroup group place =>
    intro hpool hnew
    rw [createGroup]
    split
    · next hexists =>
      rw [Heeds, if_pos hexists] at hheeds
      exact absurd (hheeds hpool) hnew
    · rfl
  | _ => trivial

end Steps

theorem isValid_start (userPools : List UserPool) : (Account.start userPools).IsValid where
  usersBelong := fun _ hmem => absurd hmem List.not_mem_nil
  groupsBelong := fun _ hmem => absurd hmem List.not_mem_nil
  users := List.nodup_nil
  groups := List.nodup_nil
  copies := fun _ hmem => absurd hmem List.not_mem_nil
  members := fun _ _ => iff_of_false Bool.false_ne_true fun hmember =>
    absurd hmember.1 List.not_mem_nil

/-- In a run in which pools are empty when they are deleted, and groups are made where there is
neither such a group in the region nor a user left of one, users and groups belong to pools and
groups list their members. -/
theorem keepsMembers_of_heeded (userPools : List UserPool) (operations : List Operation)
    (hheeded : Runs.Heeded Account.step Heeds operations (Account.start userPools)) :
    Runs.Always Account.step KeepsMembers operations (Account.start userPools) ∧
      Runs.Heeded Account.step CreatesIndependently operations (Account.start userPools) := by
  have hstart := isValid_start userPools
  have hstep (account : Account) (operation : Operation) (hvalid : account.IsValid)
      (hheeds : Heeds account operation) :
      (account.step operation).IsValid ∧ CreatesIndependently account operation :=
    ⟨isValid_step hvalid hheeds, createsIndependently_of_heeds hheeds⟩
  refine ⟨?_, hheeded.imp_of_step hstep hstart⟩
  exact (Runs.always_of_heeded (fun account operation hvalid hheeds =>
    (hstep account operation hvalid hheeds).1) operations hstart hheeded).imp
      fun _ hvalid => hvalid.keepsMembers

def readerRun : List Operation :=
  [.createUserPool "eu" "shop" "p" 0, .createGroup ⟨"eu", "p", "readers"⟩ 0,
    .adminCreateUser ⟨"eu", "p", "jo"⟩ 0, .adminAddUserToGroup ⟨"eu", "p", "jo"⟩ "readers",
    .adminRemoveUserFromGroup ⟨"eu", "p", "jo"⟩ "readers", .deleteGroup ⟨"eu", "p", "readers"⟩,
    .adminDeleteUser ⟨"eu", "p", "jo"⟩, .deleteUserPool "p"]

theorem keepsMembers_of_heeded_reader :
    Runs.Always Account.step KeepsMembers readerRun (Account.start []) ∧
      Runs.Heeded Account.step CreatesIndependently readerRun (Account.start []) :=
  keepsMembers_of_heeded [] readerRun (by decide)

/-- A pool is deleted, and its group stays. -/
theorem not_keepsMembers_deleteUserPool :
    ¬ ∀ userPools operations,
      Runs.Always Account.step KeepsMembers operations (Account.start userPools) := by
  intro hclaim
  have hkeeps := (hclaim [] [.createUserPool "eu" "shop" "p" 0,
    .createGroup ⟨"eu", "p", "readers"⟩ 0, .deleteUserPool "p"]).last
  exact absurd (hkeeps.groupsBelong ⟨"eu", "p", "readers"⟩ (by decide))
    (by decide)

end AwsMock.Cognito
