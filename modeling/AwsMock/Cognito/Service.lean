import AwsMock.Foundation.KeyedList

/-! # User pools, users and groups

Users and groups name the pool that they are in. A user carries copies of the groups that it was
added to. Whether a group exists is asked with its region and name only.
-/

namespace AwsMock.Cognito

open Foundation

structure UserPool where
  region : String
  userPoolId : String
  name : String
  /-- The identifiers of the clients. -/
  userPoolClients : List String := []
deriving DecidableEq, Repr

structure Group where
  region : String
  userPoolId : String
  groupName : String
deriving DecidableEq, Repr

structure User where
  region : String
  userPoolId : String
  userName : String
  groups : List Group := []
deriving DecidableEq, Repr

structure UserKey where
  region : String
  userPoolId : String
  userName : String
deriving DecidableEq, Repr

namespace User

variable (user : User)

def key : UserKey := ⟨user.region, user.userPoolId, user.userName⟩

def hasGroup (userPoolId groupName : String) : Bool :=
  user.groups.any fun g => g.userPoolId = userPoolId && g.groupName = groupName

end User

/-- The entities in the order in which the store searches them. -/
structure World where
  userPools : List UserPool := []
  users : List User := []
  groups : List Group := []

/-! ## The store -/

namespace World

variable (world : World)

def userPoolNameExists (region name : String) : Bool :=
  world.userPools.any fun userPool => userPool.region = region && userPool.name = name

def userPoolExists (userPoolId : String) : Bool :=
  world.userPools.any fun userPool => userPool.userPoolId = userPoolId

def getUserPoolByClientId (clientId : String) : Option UserPool :=
  world.userPools.find? fun userPool => clientId ∈ userPool.userPoolClients

def deleteUserPool (userPoolId : String) : World :=
  { world with userPools := removeKey UserPool.userPoolId userPoolId world.userPools }

def getUserByUserName (key : UserKey) : Option User := findKey User.key key world.users

def userExists (key : UserKey) : Bool := (world.getUserByUserName key).isSome

def userNameExists (region userName : String) : Bool :=
  world.users.any fun user => user.region = region && user.userName = userName

def updateUser (user : User) : World :=
  { world with
    users := rewriteFirst (fun other => other.key = user.key) (fun _ => user) world.users }

def deleteUser (user : User) : World :=
  { world with users := removeKey User.key user.key world.users }

def groupExists (region groupName : String) : Bool :=
  world.groups.any fun group => group.region = region && group.groupName = groupName

def getGroupByGroupName (group : Group) : Option Group :=
  world.groups.find? fun other => other = group

def deleteGroup (group : Group) : World :=
  { world with groups := world.groups.filter fun other => other ≠ group }

def listUsersInGroup (group : Group) : List User :=
  world.users.filter fun user =>
    user.region = group.region && user.userPoolId = group.userPoolId &&
      user.groups.any fun g => g.groupName = group.groupName

end World

/-! ## The service -/

section Service

variable (world : World)

/-- The identifier of the pool and the places of new entities are drawn. -/
def createUserPool (region name userPoolId : String) (place : Nat) : Except String World :=
  if world.userPoolNameExists region name then
    .error ("User pool exists already, region: " ++ region ++ " name: " ++ name)
  else
    .ok { world with
      userPools := insertAt place
        { region := region, userPoolId := userPoolId, name := name } world.userPools }

def deleteUserPool (userPoolId : String) : Except String World :=
  if !world.userPoolExists userPoolId then
    .error ("User pool does not exists, userPoolId: " ++ userPoolId)
  else .ok (world.deleteUserPool userPoolId)

def createGroup (group : Group) (place : Nat) : Except String World :=
  if world.groupExists group.region group.groupName then
    .error ("User group exists already, region: " ++ group.region ++ " name: " ++ group.groupName)
  else .ok { world with groups := insertAt place group world.groups }

def deleteGroup (group : Group) : Except String World :=
  if !world.groupExists group.region group.groupName then
    .error ("Group does not exist, region: " ++ group.region ++ " name: " ++ group.groupName)
  else .ok (world.deleteGroup group)

def adminCreateUser (key : UserKey) (place : Nat) : Except String World :=
  if !world.userPoolExists key.userPoolId then
    .error ("User pool does not exists, userPoolId: " ++ key.userPoolId)
  else if world.userExists key then
    .error ("User exists exists already, userPoolId: " ++ key.userPoolId ++ " userName: " ++
      key.userName)
  else
    .ok { world with
      users := insertAt place
        { region := key.region, userPoolId := key.userPoolId, userName := key.userName }
        world.users }

def signUp (region userName clientId : String) (place : Nat) : Except String World :=
  if world.userNameExists region userName then
    .error ("User exists exists already, userName: " ++ userName)
  else
    match world.getUserPoolByClientId clientId with
    | none => .error ("Get cognito user pool by clientId failed, clientId: " ++ clientId)
    | some userPool =>
      .ok { world with
        users := insertAt place
          { region := region, userPoolId := userPool.userPoolId, userName := userName }
          world.users }

def checkUser (key : UserKey) (message : String) : Except String User :=
  if !world.userPoolExists key.userPoolId then
    .error ("User pool does not exists, userPoolId: " ++ key.userPoolId)
  else
    match world.getUserByUserName key with
    | none => .error message
    | some user => .ok user

def adminDeleteUser (key : UserKey) : Except String World := do
  let user ← checkUser world key
    ("User does not exists, userPoolId: " ++ key.userPoolId ++ " userName: " ++ key.userName)
  return world.deleteUser user

/-- The group is searched with its pool after it was looked for without one. -/
def checkGroup (group : Group) : Except String Group :=
  if !world.groupExists group.region group.groupName then
    .error ("Group does not exist, groupName: " ++ group.groupName ++ " userPoolId: " ++
      group.userPoolId)
  else
    match world.getGroupByGroupName group with
    | none => .error ("Get cognito group by group name failed, groupName: " ++ group.groupName)
    | some found => .ok found

def adminAddUserToGroup (key : UserKey) (groupName : String) : Except String World := do
  let user ← checkUser world key
    ("User does not exists, userName: " ++ key.userName ++ " userPoolId: " ++ key.userPoolId)
  let group ← checkGroup world ⟨key.region, key.userPoolId, groupName⟩
  if !user.hasGroup key.userPoolId groupName then
    return world.updateUser { user with groups := user.groups ++ [group] }
  else return world

def adminRemoveUserFromGroup (key : UserKey) (groupName : String) : Except String World := do
  let user ← checkUser world key
    ("User does not exists, userName: " ++ key.userName ++ " userPoolId: " ++ key.userPoolId)
  let group ← checkGroup world ⟨key.region, key.userPoolId, groupName⟩
  if user.hasGroup key.userPoolId groupName then
    return world.updateUser { user with
      groups := removeKey Group.groupName group.groupName user.groups }
  else return world

def listUsersInGroup (group : Group) : Except String (List User) :=
  if !world.userPoolExists group.userPoolId then
    .error ("User pool does not exists, userPoolId: " ++ group.userPoolId)
  else if !world.groupExists group.region group.groupName then
    .error ("Group does not exist, groupName: " ++ group.groupName ++ " userPoolId: " ++
      group.userPoolId)
  else .ok (world.listUsersInGroup group)

inductive Operation where
  | createUserPool (region name userPoolId : String) (place : Nat)
  | deleteUserPool (userPoolId : String)
  | createGroup (group : Group) (place : Nat)
  | deleteGroup (group : Group)
  | adminCreateUser (key : UserKey) (place : Nat)
  | signUp (region userName clientId : String) (place : Nat)
  | adminDeleteUser (key : UserKey)
  | adminAddUserToGroup (key : UserKey) (groupName : String)
  | adminRemoveUserFromGroup (key : UserKey) (groupName : String)

def Operation.perform : Operation → Except String World
  | .createUserPool region name userPoolId place =>
    Cognito.createUserPool world region name userPoolId place
  | .deleteUserPool userPoolId => Cognito.deleteUserPool world userPoolId
  | .createGroup group place => Cognito.createGroup world group place
  | .deleteGroup group => Cognito.deleteGroup world group
  | .adminCreateUser key place => Cognito.adminCreateUser world key place
  | .signUp region userName clientId place => Cognito.signUp world region userName clientId place
  | .adminDeleteUser key => Cognito.adminDeleteUser world key
  | .adminAddUserToGroup key groupName => Cognito.adminAddUserToGroup world key groupName
  | .adminRemoveUserFromGroup key groupName =>
    Cognito.adminRemoveUserFromGroup world key groupName

end Service

end AwsMock.Cognito
