import AwsMock.Foundation.Threads
import AwsMock.Kms.Repository

/-! # The key management service

The operations of the service, the task that creates the material of a key and the one that
deletes old keys, as threads that make one call of the repository after the other.
-/

namespace AwsMock.Kms

open Foundation

inductive Call where
  | keyExists (keyId : String)
  | getKeyByKeyId (keyId : String)
  | listKeys
  | createKey (oid : String) (key : Key)
  | updateKey (read : Key) (edit : Edit)
  | deleteKey (key : Key)

def Call.Reply : Call → Type
  | keyExists _ => Bool
  | getKeyByKeyId _ => Except Exn Key
  | listKeys => List Key
  | createKey _ _ => Unit
  | updateKey _ _ => Unit
  | deleteKey _ => Unit

inductive Response where
  | done
  | keyMetadata (key : Key)
  | scheduledDeletion (keyId : String) (keyState : Option KeyState) (deletionDate : Int)
      (pendingWindowInDays : Int)
deriving DecidableEq, Repr

abbrev Thread := Foundation.Thread Call Call.Reply (Except Exn Response)

section Execution

variable (repository : Repository)

def execute : (call : Call) → Store → call.Reply × Store
  | .keyExists keyId, store => (store.keyExists keyId, store)
  | .getKeyByKeyId keyId, store => (repository.getKeyByKeyId keyId store, store)
  | .listKeys, store => (store.listKeys, store)
  | .createKey oid key, store => ((), repository.createKey oid key store)
  | .updateKey read edit, store => ((), store.updateKey (edit.apply read))
  | .deleteKey key, store => ((), repository.deleteKey key store)

end Execution

/-! ## Calls -/

namespace Thread

def finish (response : Response) : Thread := .done (.ok response)

def raise (exn : Exn) : Thread := .done (.error exn)

def keyExists (keyId : String) (next : Bool → Thread) : Thread := .call (.keyExists keyId) next

/-- An exception of the store ends the operation, as `translate` turns it. -/
def getKeyByKeyId (translate : Exn → Exn) (keyId : String) (next : Key → Thread) : Thread :=
  .call (.getKeyByKeyId keyId) fun (reply : Except Exn Key) =>
    match reply with
    | .error exn => raise (translate exn)
    | .ok key => next key

def listKeys (next : List Key → Thread) : Thread := .call .listKeys next

def updateKey (read : Key) (edit : Edit) (next : Thread) : Thread :=
  .call (.updateKey read edit) fun _ => next

section Running

variable {repository : Repository} {store : Store} {keyId : String}

@[simp] theorem run_keyExists (next : Bool → Thread) :
    (keyExists keyId next).run (execute repository) store =
      (next (store.keyExists keyId)).run (execute repository) store := rfl

theorem run_getKeyByKeyId (translate : Exn → Exn) (next : Key → Thread) :
    (getKeyByKeyId translate keyId next).run (execute repository) store =
      (match repository.getKeyByKeyId keyId store with
        | .error exn => raise (translate exn)
        | .ok key => next key).run (execute repository) store := rfl

@[simp] theorem run_listKeys (next : List Key → Thread) :
    (listKeys next).run (execute repository) store =
      (next store.listKeys).run (execute repository) store := rfl

@[simp] theorem run_updateKey (read : Key) (edit : Edit) (next : Thread) :
    (updateKey read edit next).run (execute repository) store =
      next.run (execute repository) (store.updateKey (edit.apply read)) := rfl

end Running

end Thread

open Thread

/-- The `catch (DatabaseException)` blocks of the service. -/
def Exn.toService : Exn → Exn
  | .database message => .service message
  | .service message => .service message

/-! ## Operations -/

structure CreateKeyRequest where
  region : String
  keyUsage : String
  keySpec : KeySpec
  description : String
  policy : String
  tags : List (String × String)

def CreateKeyRequest.key (request : CreateKeyRequest) (accountId keyId : String) : Key :=
  { region := request.region
    keyId := keyId
    keyUsage := request.keyUsage
    keySpec := request.keySpec
    arn := "arn:aws:kms:" ++ request.region ++ ":" ++ accountId ++ ":key/" ++ keyId
    description := request.description
    policy := request.policy
    tags := request.tags }

/-- Both identifiers are random; the material is left to a task of the scheduler. -/
def createKey (request : CreateKeyRequest) (accountId keyId oid : String) : Thread :=
  .call (.createKey oid (request.key accountId keyId)) fun _ =>
    finish (.keyMetadata (request.key accountId keyId))

def createKmsKey (keyId : String) (draw : Draw) : Thread :=
  getKeyByKeyId id keyId fun key => updateKey key (.create draw) (finish .done)

def scheduleKeyDeletion (keyId : String) (pendingWindowInDays now : Int) : Thread :=
  keyExists keyId fun found =>
    if found then
      getKeyByKeyId Exn.toService keyId fun key =>
        updateKey key (.scheduleDeletion pendingWindowInDays now)
          (finish (.scheduledDeletion keyId (some .pendingDeletion)
            (now + pendingWindowInDays * day) pendingWindowInDays))
    else raise (.service ("Key not found, keyId: " ++ keyId))

def putKeyPolicy (keyId policy : String) (now : Int) : Thread :=
  getKeyByKeyId id keyId fun key => updateKey key (.putPolicy policy now) (finish .done)

def tagResource (keyId : String) (tags : List (String × String)) (now : Int) : Thread :=
  getKeyByKeyId id keyId fun key => updateKey key (.tag tags now) (finish .done)

def untagResource (keyId : String) (tagKeys : List String) (now : Int) : Thread :=
  getKeyByKeyId id keyId fun key => updateKey key (.untag tagKeys now) (finish .done)

/-- The loop of `CreateAlias` over the keys that were listed: the alias is removed wherever it
is found, unless it is found at the target. -/
def releaseAlias (aliasName targetKeyId : String) (now : Int) (next : Thread) :
    List Key → Thread
  | [] => next
  | existingKey :: keys =>
    if aliasName ∈ existingKey.aliases then
      if existingKey.keyId = targetKeyId then finish .done
      else
        updateKey existingKey (.eraseAlias aliasName now)
          (releaseAlias aliasName targetKeyId now next keys)
    else releaseAlias aliasName targetKeyId now next keys

/-- The last part of `CreateAlias` and of `UpdateAlias`. -/
def attachAlias (aliasName targetKeyId : String) (now : Int) : Thread :=
  getKeyByKeyId id targetKeyId fun key => updateKey key (.pushAlias aliasName now) (finish .done)

def createAlias (aliasName targetKeyId : String) (now : Int) : Thread :=
  listKeys (releaseAlias aliasName targetKeyId now (attachAlias aliasName targetKeyId now))

/-- The loop of `DeleteAlias` and of `UpdateAlias`, which ends at the first key that has the
alias. -/
def eraseFirstAlias (aliasName : String) (now : Int) (next : Thread) (keys : List Key) : Thread :=
  match keys.find? fun key => aliasName ∈ key.aliases with
  | some key => updateKey key (.eraseAlias aliasName now) next
  | none => next

def deleteAlias (aliasName : String) (now : Int) : Thread :=
  listKeys (eraseFirstAlias aliasName now (finish .done))

def updateAlias (aliasName targetKeyId : String) (now : Int) : Thread :=
  listKeys (eraseFirstAlias aliasName now (attachAlias aliasName targetKeyId now))

def deleteKey (keyId : String) : Thread :=
  keyExists keyId fun found =>
    if found then
      getKeyByKeyId Exn.toService keyId fun key =>
        .call (.deleteKey key) fun _ => finish .done
    else raise (.service ("Key not found, keyId: " ++ keyId))

/-- The loop of `deleteKeys` over the keys that were listed. -/
def deleteExpired (now : Int) : List Key → Thread
  | [] => finish .done
  | key :: keys =>
    if key.keyState = some .pendingDeletion ∧ key.scheduledDeletion < now then
      .call (.deleteKey key) fun _ => deleteExpired now keys
    else deleteExpired now keys

def deleteKeys (now : Int) : Thread := listKeys (deleteExpired now)

inductive Operation where
  | createKey (request : CreateKeyRequest) (accountId keyId oid : String)
  | createKmsKey (keyId : String) (draw : Draw)
  | scheduleKeyDeletion (keyId : String) (pendingWindowInDays now : Int)
  | putKeyPolicy (keyId policy : String) (now : Int)
  | tagResource (keyId : String) (tags : List (String × String)) (now : Int)
  | untagResource (keyId : String) (tagKeys : List String) (now : Int)
  | createAlias (aliasName targetKeyId : String) (now : Int)
  | updateAlias (aliasName targetKeyId : String) (now : Int)
  | deleteAlias (aliasName : String) (now : Int)
  | deleteKey (keyId : String)
  | deleteKeys (now : Int)

def Operation.thread : Operation → Thread
  | createKey request accountId keyId oid => Kms.createKey request accountId keyId oid
  | createKmsKey keyId draw => Kms.createKmsKey keyId draw
  | scheduleKeyDeletion keyId pendingWindowInDays now =>
    Kms.scheduleKeyDeletion keyId pendingWindowInDays now
  | putKeyPolicy keyId policy now => Kms.putKeyPolicy keyId policy now
  | tagResource keyId tags now => Kms.tagResource keyId tags now
  | untagResource keyId tagKeys now => Kms.untagResource keyId tagKeys now
  | createAlias aliasName targetKeyId now => Kms.createAlias aliasName targetKeyId now
  | updateAlias aliasName targetKeyId now => Kms.updateAlias aliasName targetKeyId now
  | deleteAlias aliasName now => Kms.deleteAlias aliasName now
  | deleteKey keyId => Kms.deleteKey keyId
  | deleteKeys now => Kms.deleteKeys now

def step (backend : Backend) (store : Store) (operation : Operation) : Store :=
  (operation.thread.run (execute backend.repository) store).2

end AwsMock.Kms
