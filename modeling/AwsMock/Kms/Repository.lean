import Mathlib.Data.List.Basic
import AwsMock.Foundation.KeyedList

/-! # Keys and their stores

A key of the key management service, the edits that the operations make in it, and the two
stores. An operation reads a key, edits its copy and writes the whole copy back, so that the
call that writes names the copy and the edit.
-/

namespace AwsMock.Kms

open Foundation

inductive KeyState where
  | creating | enabled | disabled | pendingDeletion | pendingImport
  | pendingReplicationDeletion | unavailable | updating
deriving DecidableEq, Repr

inductive KeySpec where
  | rsa2048 | rsa3072 | rsa4096 | eccNistP256 | eccNistP384 | eccNistP521 | eccSecgP256k1
  | symmetricDefault | hmac224 | hmac256 | hmac384 | hmac512
deriving DecidableEq, Repr

structure Key where
  region : String := ""
  keyId : String := ""
  keyUsage : String := ""
  keySpec : KeySpec := .symmetricDefault
  /-- The state has no name before the key material is there. -/
  keyState : Option KeyState := none
  arn : String := ""
  description : String := ""
  aes256Key : String := ""
  aes256Iv : String := ""
  rsaPrivateKey : String := ""
  rsaPublicKey : String := ""
  hmac224Key : String := ""
  hmac256Key : String := ""
  hmac384Key : String := ""
  hmac512Key : String := ""
  policy : String := ""
  aliases : List String := []
  tags : List (String × String) := []
  pendingWindowInDays : Int := 0
  scheduledDeletion : Int := 0
  modified : Int := 0
deriving DecidableEq, Repr

/-! ## Key material -/

structure Draw where
  aes256Key : String
  aes256Iv : String
  rsaKeys : Nat → String × String
  hmacKey : Nat → String

namespace Key

variable (draw : Draw) (key : Key)

def generateAes256Key : Key :=
  { key with aes256Key := draw.aes256Key, aes256Iv := draw.aes256Iv }

def generateRsaKeyPair (length : Nat) : Key :=
  { key with
    rsaPublicKey := (draw.rsaKeys length).1
    rsaPrivateKey := (draw.rsaKeys length).2 }

def createHmacKey (length : Nat) : Key :=
  if length = 224 then { key with hmac224Key := draw.hmacKey length }
  else if length = 256 then { key with hmac256Key := draw.hmacKey length }
  else if length = 384 then { key with hmac384Key := draw.hmacKey length }
  else if length = 512 then { key with hmac512Key := draw.hmacKey length }
  else key

def generate : Key :=
  match key.keySpec with
  | .symmetricDefault => key.generateAes256Key draw
  | .rsa2048 => key.generateRsaKeyPair draw 2048
  | .rsa3072 => key.generateRsaKeyPair draw 3072
  | .rsa4096 => key.generateRsaKeyPair draw 4096
  | .hmac224 => key.createHmacKey draw 224
  | .hmac256 => key.createHmacKey draw 256
  | .hmac384 => key.createHmacKey draw 384
  | .hmac512 => key.createHmacKey draw 512
  -- only a warning: there is no material for elliptic curves
  | .eccNistP256 | .eccNistP384 | .eccNistP521 | .eccSecgP256k1 => key

end Key

/-! ## Edits -/

inductive Edit where
  | create (draw : Draw)
  | scheduleDeletion (pendingWindowInDays : Int) (now : Int)
  | putPolicy (policy : String) (now : Int)
  | tag (tags : List (String × String)) (now : Int)
  | untag (tagKeys : List String) (now : Int)
  | pushAlias (aliasName : String) (now : Int)
  | eraseAlias (aliasName : String) (now : Int)

def day : Int := 86400000

namespace Edit

def apply : Edit → Key → Key
  | create draw, key => { key.generate draw with keyState := some .enabled }
  | scheduleDeletion pendingWindowInDays now, key =>
    { key with
      pendingWindowInDays := pendingWindowInDays
      scheduledDeletion := now + pendingWindowInDays * day
      keyState := some .pendingDeletion }
  | putPolicy policy now, key => { key with policy := policy, modified := now }
  | tag tags now, key =>
    { key with
      tags := tags.foldl (fun tags tag => upsert Prod.fst tag tags) key.tags
      modified := now }
  | untag tagKeys now, key =>
    { key with
      tags := tagKeys.foldl (fun tags tagKey => removeKey Prod.fst tagKey tags) key.tags
      modified := now }
  | pushAlias aliasName now, key =>
    { key with aliases := key.aliases ++ [aliasName], modified := now }
  | eraseAlias aliasName now, key =>
    { key with aliases := key.aliases.erase aliasName, modified := now }

theorem keyId_generate (draw : Draw) (key : Key) : (key.generate draw).keyId = key.keyId := by
  rw [Key.generate]
  split <;> rfl

theorem aliases_generate (draw : Draw) (key : Key) :
    (key.generate draw).aliases = key.aliases := by
  rw [Key.generate]
  split <;> rfl

@[simp] theorem keyId_apply (edit : Edit) (key : Key) : (edit.apply key).keyId = key.keyId := by
  cases edit with
  | create draw => exact keyId_generate draw key
  | _ => rfl

def KeepsAliases : Edit → Prop
  | pushAlias _ _ => False
  | eraseAlias _ _ => False
  | _ => True

theorem aliases_apply {edit : Edit} (hedit : edit.KeepsAliases) (key : Key) :
    (edit.apply key).aliases = key.aliases := by
  cases edit with
  | create draw => exact aliases_generate draw key
  | pushAlias aliasName now => exact hedit.elim
  | eraseAlias aliasName now => exact hedit.elim
  | _ => rfl

end Edit

/-! ## Stores -/

structure Entry where
  oid : String
  key : Key

def Entry.keyId (entry : Entry) : String := entry.key.keyId

abbrev Store := List Entry

inductive Exn where
  | database (message : String)
  | service (message : String)
deriving DecidableEq, Repr

structure Repository where
  getKeyByKeyId : String → Store → Except Exn Key
  createKey : String → Key → Store → Store
  deleteKey : Key → Store → Store

namespace Store

variable (keyId : String) (store : Store)

def keyExists : Bool := (findKey Entry.keyId keyId store).isSome

def listKeys : List Key := store.map Entry.key

/-- The first document with the identifier of the key is replaced. -/
def updateKey (key : Key) : Store :=
  rewriteFirst (fun entry => entry.keyId = key.keyId) (fun entry => { entry with key := key }) store

end Store

namespace MemoryRepository

def getKeyByKeyId (keyId : String) (store : Store) : Except Exn Key :=
  match findKey Entry.keyId keyId store with
  | some entry => .ok entry.key
  | none => .ok {}

def createKey (oid : String) (key : Key) : Store → Store
  | [] => [⟨oid, key⟩]
  | entry :: store =>
    if entry.oid = oid then ⟨oid, key⟩ :: store
    else if oid < entry.oid then ⟨oid, key⟩ :: entry :: store
    else entry :: createKey oid key store

def deleteKey (key : Key) (store : Store) : Store := removeKey Entry.keyId key.keyId store

def repository : Repository := { getKeyByKeyId, createKey, deleteKey }

end MemoryRepository

namespace MongoRepository

def getKeyByKeyId (keyId : String) (store : Store) : Except Exn Key :=
  match findKey Entry.keyId keyId store with
  | some entry => .ok entry.key
  | none => .error (.database ("KMS key not found, keyId" ++ keyId))

def createKey (oid : String) (key : Key) (store : Store) : Store := store ++ [⟨oid, key⟩]

def deleteKey (key : Key) (store : Store) : Store :=
  store.eraseP fun entry => entry.keyId = key.keyId

def repository : Repository := { getKeyByKeyId, createKey, deleteKey }

end MongoRepository

inductive Backend where
  | memory | mongo
deriving DecidableEq, Repr

def Backend.repository : Backend → Repository
  | memory => MemoryRepository.repository
  | mongo => MongoRepository.repository

/-! ## Laws of the stores -/

structure Repository.IsLawful (repository : Repository) : Prop where
  getKeyByKeyId_of_some : ∀ {keyId store entry}, findKey Entry.keyId keyId store = some entry →
    repository.getKeyByKeyId keyId store = .ok entry.key
  getKeyByKeyId_of_none : ∀ {keyId store}, findKey Entry.keyId keyId store = none →
    repository.getKeyByKeyId keyId store = .ok {} ∨
      ∃ message, repository.getKeyByKeyId keyId store = .error (.database message)
  createKey_perm : ∀ {oid key} {store : Store}, (∀ entry ∈ store, entry.oid ≠ oid) →
    (repository.createKey oid key store).Perm (⟨oid, key⟩ :: store)
  deleteKey_sublist : ∀ key store, (repository.deleteKey key store).Sublist store

theorem MemoryRepository.createKey_perm {oid : String} {key : Key} {store : Store}
    (hnew : ∀ entry ∈ store, entry.oid ≠ oid) :
    (MemoryRepository.createKey oid key store).Perm (⟨oid, key⟩ :: store) := by
  induction store with
  | nil => exact List.Perm.refl _
  | cons entry store ih =>
    rw [MemoryRepository.createKey, if_neg (hnew entry List.mem_cons_self)]
    split
    · exact List.Perm.refl _
    · exact ((ih fun other hother => hnew other (List.mem_cons_of_mem _ hother)).cons entry).trans
        (List.Perm.swap _ _ _)

theorem Backend.isLawful (backend : Backend) : backend.repository.IsLawful := by
  cases backend with
  | memory =>
    refine ⟨?_, ?_, MemoryRepository.createKey_perm, fun key store => List.filter_sublist⟩
    · intro keyId store entry hfind
      change MemoryRepository.getKeyByKeyId keyId store = _
      rw [MemoryRepository.getKeyByKeyId, hfind]
    · intro keyId store hfind
      change MemoryRepository.getKeyByKeyId keyId store = _ ∨ _
      rw [MemoryRepository.getKeyByKeyId, hfind]
      exact Or.inl rfl
  | mongo =>
    refine ⟨?_, ?_, ?_, fun key store => List.eraseP_sublist⟩
    · intro keyId store entry hfind
      change MongoRepository.getKeyByKeyId keyId store = _
      rw [MongoRepository.getKeyByKeyId, hfind]
    · intro keyId store hfind
      refine Or.inr ⟨"KMS key not found, keyId" ++ keyId, ?_⟩
      change MongoRepository.getKeyByKeyId keyId store = _
      rw [MongoRepository.getKeyByKeyId, hfind]
    · exact fun _ => List.perm_append_singleton _ _

end AwsMock.Kms
