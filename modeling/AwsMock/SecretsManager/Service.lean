import AwsMock.Core.Base64
import AwsMock.Foundation.Threads
import AwsMock.Kms.Repository
import AwsMock.SecretsManager.Entity

/-! # The secrets service

The operations of the service, the check for due rotations and the thread that rotates a
secret, as threads that make one call of the repository or of the key service after the other.
-/

namespace AwsMock.SecretsManager

open Foundation Crypto

/-! ## Keys -/

structure Cipher where
  aesEncrypt : String → Bytes → Bytes
  aesDecrypt : String → Bytes → Bytes
  rsaEncrypt : String → Bytes → Bytes
  rsaDecrypt : String → Bytes → Bytes
  hmac : Nat → String → Bytes → Bytes

namespace Cipher

variable (cipher : Cipher) (key : Kms.Key)

/-- The encoding of texts is taken off first, and put on again at the end. -/
def encryptPlaintext (plainText : Bytes) : Bytes :=
  match key.keySpec with
  | .symmetricDefault =>
    base64Encode (cipher.aesEncrypt key.aes256Key (base64Decode plainText))
  | .rsa2048 | .rsa3072 | .rsa4096 =>
    base64Encode (cipher.rsaEncrypt key.rsaPublicKey (base64Decode plainText))
  | .hmac224 => base64Encode (cipher.hmac 224 key.hmac224Key (base64Decode plainText))
  | .hmac256 => base64Encode (cipher.hmac 256 key.hmac256Key (base64Decode plainText))
  | .hmac384 => base64Encode (cipher.hmac 384 key.hmac384Key (base64Decode plainText))
  | .hmac512 => base64Encode (cipher.hmac 512 key.hmac512Key (base64Decode plainText))
  | .eccNistP256 | .eccNistP384 | .eccNistP521 | .eccSecgP256k1 => []

def decryptPlaintext (ciphertext : Bytes) : Bytes :=
  match key.keySpec with
  | .symmetricDefault =>
    base64Encode (cipher.aesDecrypt key.aes256Key (base64Decode ciphertext))
  | .rsa2048 | .rsa3072 | .rsa4096 =>
    base64Encode (cipher.rsaDecrypt key.rsaPrivateKey (base64Decode ciphertext))
  | _ => []

end Cipher

/-! ## Calls -/

/-- The secrets in the order in which the store searches them, and the keys. -/
structure World where
  secrets : List Secret := []
  keys : List Kms.Key := []

inductive Exn where
  | service (message : String)
  | notFound (message : String)
deriving DecidableEq, Repr

inductive Call where
  | secretExists (region name : String)
  | secretExistsByArn (arn : String)
  | secretExistsById (secretId : String)
  | getSecretByArn (arn : String)
  | getSecretBySecretId (secretId : String)
  | listSecrets
  | createSecret (place : Nat) (secret : Secret)
  | updateSecret (read : Secret) (edit : Edit)
  | createKey (key : Kms.Key)
  | encrypt (keyId : String) (plaintext : Bytes)
  | decrypt (keyId : String) (ciphertext : Bytes)

def Call.Reply : Call → Type
  | secretExists _ _ => Bool
  | secretExistsByArn _ => Bool
  | secretExistsById _ => Bool
  | getSecretByArn _ => Secret
  | getSecretBySecretId _ => Secret
  | listSecrets => List Secret
  | createSecret _ _ => Unit
  | updateSecret _ _ => Unit
  | createKey _ => Unit
  | encrypt _ _ => Except Exn Bytes
  | decrypt _ _ => Except Exn Bytes

namespace World

variable (cipher : Cipher) (world : World)

def findByArn (arn : String) : Option Secret := findKey Secret.arn arn world.secrets

def findById (secretId : String) : Option Secret := findKey Secret.secretId secretId world.secrets

/-- A new secret may get any place: the map is ordered by random identifiers. -/
def createSecret (place : Nat) (secret : Secret) : World :=
  { world with secrets := world.secrets.take place ++ secret :: world.secrets.drop place }

def updateSecret (secret : Secret) : World :=
  { world with
    secrets := rewriteFirst (fun other => other.secretId = secret.secretId) (fun _ => secret)
      world.secrets }

def findKey (keyId : String) : Option Kms.Key := Foundation.findKey Kms.Key.keyId keyId world.keys

def encrypt (keyId : String) (plaintext : Bytes) : Except Exn Bytes :=
  match world.findKey keyId with
  | some key => .ok (cipher.encryptPlaintext key plaintext)
  | none => .error (.service ("Key not found, keyId: " ++ keyId))

def decrypt (keyId : String) (ciphertext : Bytes) : Except Exn Bytes :=
  match world.findKey keyId with
  | some key => .ok (cipher.decryptPlaintext key ciphertext)
  | none => .error (.service ("Key not found, keyId: " ++ keyId))

end World

def execute (cipher : Cipher) : (call : Call) → World → call.Reply × World
  | .secretExists region name, world =>
    (world.secrets.any fun secret => secret.region = region ∧ secret.name = name, world)
  | .secretExistsByArn arn, world => ((world.findByArn arn).isSome, world)
  | .secretExistsById secretId, world => ((world.findById secretId).isSome, world)
  | .getSecretByArn arn, world => ((world.findByArn arn).getD {}, world)
  | .getSecretBySecretId secretId, world => ((world.findById secretId).getD {}, world)
  | .listSecrets, world => (world.secrets, world)
  | .createSecret place secret, world => ((), world.createSecret place secret)
  | .updateSecret read edit, world => ((), world.updateSecret (edit.apply read))
  | .createKey key, world => ((), { world with keys := world.keys ++ [key] })
  | .encrypt keyId plaintext, world => (world.encrypt cipher keyId plaintext, world)
  | .decrypt keyId ciphertext, world => (world.decrypt cipher keyId ciphertext, world)

inductive Response where
  | done
  | version (arn name versionId : String) (versionStages : List String)
  | value (arn name versionId : String) (secretString secretBinary : Bytes)
      (versionStages : List String)
deriving DecidableEq, Repr

abbrev Thread := Foundation.Thread Call Call.Reply (Except Exn Response)

namespace Thread

def finish (response : Response) : Thread := .done (.ok response)

def raise (exn : Exn) : Thread := .done (.error exn)

def secretByArn (missing : Exn) (arn : String) (next : Secret → Thread) : Thread :=
  .call (.secretExistsByArn arn) fun (found : Bool) =>
    if found then .call (.getSecretByArn arn) next else raise missing

def secretBySecretId (secretId : String) (next : Secret → Thread) : Thread :=
  .call (.secretExistsById secretId) fun (found : Bool) =>
    if found then .call (.getSecretBySecretId secretId) next
    else raise (.service ("Secret does not exist, secretId: " ++ secretId))

def listSecrets (next : List Secret → Thread) : Thread := .call .listSecrets next

def createSecret (place : Nat) (secret : Secret) (next : Thread) : Thread :=
  .call (.createSecret place secret) fun _ => next

def updateSecret (read : Secret) (edit : Edit) (next : Thread) : Thread :=
  .call (.updateSecret read edit) fun _ => next

def createKey (key : Kms.Key) (next : Thread) : Thread := .call (.createKey key) fun _ => next

def encrypt (keyId : String) (plaintext : Bytes) (next : Bytes → Thread) : Thread :=
  .call (.encrypt keyId plaintext) fun (reply : Except Exn Bytes) =>
    match reply with
    | .error exn => raise exn
    | .ok ciphertext => next ciphertext

def decrypt (keyId : String) (ciphertext : Bytes) (next : Bytes → Thread) : Thread :=
  .call (.decrypt keyId ciphertext) fun (reply : Except Exn Bytes) =>
    match reply with
    | .error exn => raise exn
    | .ok plaintext => next plaintext

/-- `EncryptSecret` encodes the string before it is encrypted. -/
def encryptSecret (keyId : String) (secretString : Bytes) (next : Bytes → Thread) : Thread :=
  encrypt keyId (base64Encode secretString) next

/-- `DecryptSecret` takes the encoding off again. -/
def decryptSecret (keyId : String) (secretString : Bytes) (next : Bytes → Thread) : Thread :=
  decrypt keyId secretString fun plaintext => next (base64Decode plaintext)

end Thread

open Thread

/-! ## Operations -/

def createSecretArn (region accountId secretId : String) : String :=
  "arn:aws:secretsmanager:" ++ region ++ ":" ++ accountId ++ ":secret:" ++ secretId

def resolveArn (region accountId secretId : String) : String :=
  if StringUtils.contains secretId ":" then secretId else createSecretArn region accountId secretId

structure CreateSecretRequest where
  region : String
  name : String
  kmsKeyId : String
  secretString : Bytes
  secretBinary : Bytes
  description : String

structure CreateSecretDraw where
  versionId : String
  suffix : String
  keyId : String
  key : Kms.Draw
  place : Nat
  now : Int

/-- The symmetric key that is made for a secret, with its material. -/
def CreateSecretRequest.key (request : CreateSecretRequest) (draw : CreateSecretDraw) : Kms.Key :=
  (Kms.Edit.create draw.key).apply
    { keyId := draw.keyId
      keyUsage := "ENCRYPT_DECRYPT"
      description := "KMS key for secret " ++ request.name }

def CreateSecretRequest.secret (request : CreateSecretRequest) (accountId : String)
    (draw : CreateSecretDraw) (kmsKeyId : String) (secretString : Bytes) : Secret :=
  { region := request.region
    name := request.name
    kmsKeyId := kmsKeyId
    secretId := request.name ++ "-" ++ draw.suffix
    arn := createSecretArn request.region accountId (request.name ++ "-" ++ draw.suffix)
    createdDate := draw.now
    description := request.description
    versions :=
      [(draw.versionId,
        { secretString := secretString
          secretBinary := if request.secretString = [] then request.secretBinary else []
          stages := [awsCurrent] })] }

def createSecret (request : CreateSecretRequest) (accountId : String) (draw : CreateSecretDraw) :
    Thread :=
  .call (.secretExists request.region request.name) fun (found : Bool) =>
    if found then raise (.service "Secret exists already")
    else if request.secretString ≠ [] ∧ request.secretBinary ≠ [] then
      raise (.service "Secret must not have secretString and secretBinary")
    else if request.secretString = [] ∧ request.secretBinary = [] then
      raise (.service "Secret must have either secretString or secretBinary")
    else
      let store := fun kmsKeyId secretString =>
        let secret := request.secret accountId draw kmsKeyId secretString
        Thread.createSecret draw.place secret
          (finish (.version secret.arn secret.name draw.versionId [awsCurrent]))
      let encryptAndStore := fun kmsKeyId =>
        if request.secretString ≠ [] then
          encryptSecret kmsKeyId request.secretString (store kmsKeyId)
        else store kmsKeyId []
      if request.kmsKeyId = "" then createKey (request.key draw) (encryptAndStore draw.keyId)
      else encryptAndStore request.kmsKeyId

structure GetSecretValueRequest where
  region : String
  secretId : String
  versionId : String
  versionStage : String

def GetSecretValueRequest.resolve (request : GetSecretValueRequest) (secret : Secret) : String :=
  if request.versionId ≠ "" then request.versionId
  else if request.versionStage ≠ "" then
    secret.versions.getVersionIdByStage request.versionStage
  else secret.versions.getCurrentVersionId

/-- The answer is put together first, and then the date of the access is written. -/
def getSecretValue (request : GetSecretValueRequest) (accountId : String) (now : Int) : Thread :=
  let arn := resolveArn request.region accountId request.secretId
  secretByArn (.service ("Secret does not exist, arn: " ++ arn)) arn fun secret =>
    if request.versionId ≠ "" ∧ secret.versions.hasVersion request.versionId = false then
      raise (.notFound ("Secrets Manager can't find the specified secret value for VersionId: " ++
        request.versionId))
    else if request.resolve secret = "" then
      raise (.notFound
        ("Secrets Manager can't find the specified secret value for staging label: " ++
          request.versionStage))
    else
      let version := secret.versions.getVersion (request.resolve secret)
      let answer := fun secretString secretBinary =>
        updateSecret secret (.access now)
          (finish (.value secret.arn secret.name (request.resolve secret) secretString
            secretBinary version.stages))
      if version.secretString = [] ∧ version.secretBinary = [] then
        raise (.notFound
          ("Secrets Manager can't find the specified secret value for staging label: " ++
            request.versionStage))
      else if secret.kmsKeyId ≠ "" then
        decryptSecret secret.kmsKeyId version.secretString fun secretString =>
          answer secretString []
      else if version.secretString ≠ [] then answer [] (base64Decode version.secretBinary)
      else answer [] []

structure PutSecretValueRequest where
  region : String
  secretId : String
  clientRequestToken : String
  versionStage : List String
  secretString : Bytes
  secretBinary : Bytes

/-- The version that is written: the token, or what is drawn. -/
def PutSecretValueRequest.versionId (request : PutSecretValueRequest) (uuid : String) : String :=
  if request.clientRequestToken = "" then uuid else request.clientRequestToken

def PutSecretValueRequest.stages (request : PutSecretValueRequest) : List String :=
  if request.versionStage = [] then [awsCurrent] else request.versionStage

/-- Where the secret has a key, its string is encrypted and a binary value is left out. Where it
has none, the binary value of the new version is encrypted before it has one. -/
def putSecretValue (request : PutSecretValueRequest) (accountId uuid : String) (now : Int) :
    Thread :=
  let arn := resolveArn request.region accountId request.secretId
  secretByArn (.service ("Secret does not exist, arn: " ++ arn)) arn fun secret =>
    let write := fun secretString secretBinary =>
      updateSecret secret
        (.put (request.versionId uuid) request.versionStage secretString secretBinary now)
        (finish (.version secret.arn secret.name (request.versionId uuid) request.stages))
    if secret.kmsKeyId ≠ "" then
      encryptSecret secret.kmsKeyId request.secretString fun secretString =>
        write secretString []
    else if request.secretBinary ≠ [] then
      encrypt secret.kmsKeyId [] fun secretBinary => write [] secretBinary
    else write [] []

structure UpdateSecretRequest where
  secretId : String
  description : String
  secretString : Bytes
  secretBinary : Bytes
  rotationEnabled : Bool

def updateSecret (request : UpdateSecretRequest) (uuid : String) (now : Int) : Thread :=
  secretBySecretId request.secretId fun secret =>
    let write := fun secretString =>
      Thread.updateSecret secret (.update uuid secretString request.secretBinary request.description
          request.rotationEnabled now)
        (finish (.version secret.arn secret.name uuid [awsCurrent]))
    if secret.kmsKeyId ≠ "" then encrypt secret.kmsKeyId request.secretString write
    else write request.secretString

structure UpdateSecretDetailsRequest where
  secretId : String
  rotationEnabled : Bool
  rotationRules : RotationRules
  rotationLambdaARN : String
  secretString : Bytes

/-- The answer shows the string of the current version, which is decrypted after the write. -/
def updateSecretDetails (request : UpdateSecretDetailsRequest) (now : Int) : Thread :=
  secretBySecretId request.secretId fun secret =>
    let write := fun secretString =>
      let edit := Edit.details request.rotationEnabled request.rotationRules
        request.rotationLambdaARN secretString now
      let written := edit.apply secret
      Thread.updateSecret secret edit (decryptSecret secret.kmsKeyId
          (written.versions.getVersion written.versions.getCurrentVersionId).secretString
          fun secretString =>
            finish (.value written.arn written.name written.versions.getCurrentVersionId
              secretString [] []))
    if request.secretString ≠ [] then
      encryptSecret secret.kmsKeyId request.secretString fun secretString =>
        write (some secretString)
    else write none

structure RotateSecretRequest where
  region : String
  secretId : String
  clientRequestToken : String
  rotationLambdaARN : String

def rotateSecret (request : RotateSecretRequest) (accountId : String) (now : Int) : Thread :=
  let arn := resolveArn request.region accountId request.secretId
  secretByArn (.notFound ("Secret does not exist, arn: " ++ arn)) arn fun secret =>
    let edit := Edit.rotate request.clientRequestToken request.rotationLambdaARN now
    Thread.updateSecret secret edit
      (finish (.version secret.arn secret.name (edit.apply secret).versions.getCurrentVersionId []))

/-- The last part of the thread that rotates a secret, after the steps of the lambda function:
the secret is read again. -/
def secretRotation (arn : String) (now : Int) : Thread :=
  .call (.getSecretByArn arn) fun (secret : Secret) =>
    Thread.updateSecret secret (.nextRotation now) (finish .done)

structure UpdateSecretVersionStageRequest where
  region : String
  secretId : String
  moveToVersionId : String
  versionStage : String
  removeFromVersionId : String

def updateSecretVersionStage (request : UpdateSecretVersionStageRequest) (accountId : String)
    (now : Int) : Thread :=
  let arn := resolveArn request.region accountId request.secretId
  secretByArn (.notFound ("Secret does not exist, arn: " ++ arn)) arn fun secret =>
    if secret.versions.hasVersion request.moveToVersionId then
      Thread.updateSecret secret
        (.moveStage request.moveToVersionId request.versionStage request.removeFromVersionId now)
        (finish .done)
    else
      raise (.service
        ("Secret version does not exist, versionId: " ++ request.moveToVersionId))

def Secret.IsDue (secret : Secret) (now : Int) : Prop :=
  secret.rotationEnabled = true ∧ secret.rotationLambdaARN ≠ "" ∧ secret.nextRotatedDate ≤ now

instance (secret : Secret) (now : Int) : Decidable (secret.IsDue now) :=
  inferInstanceAs (Decidable (_ ∧ _ ∧ _))

/-- The loop over the secrets that were listed; `tokens` draws a version for each of them. -/
def rotateDue (tokens : Secret → String) (now : Int) : List Secret → Thread
  | [] => finish .done
  | secret :: secrets =>
    if secret.IsDue now then
      Thread.updateSecret secret (.checkRotation (tokens secret) now) (rotateDue tokens now secrets)
    else rotateDue tokens now secrets

def checkRotations (tokens : Secret → String) (now : Int) : Thread :=
  listSecrets (rotateDue tokens now)

inductive Operation where
  | createSecret (request : CreateSecretRequest) (draw : CreateSecretDraw)
  | getSecretValue (request : GetSecretValueRequest) (now : Int)
  | putSecretValue (request : PutSecretValueRequest) (uuid : String) (now : Int)
  | updateSecret (request : UpdateSecretRequest) (uuid : String) (now : Int)
  | updateSecretDetails (request : UpdateSecretDetailsRequest) (now : Int)
  | rotateSecret (request : RotateSecretRequest) (now : Int)
  | secretRotation (arn : String) (now : Int)
  | updateSecretVersionStage (request : UpdateSecretVersionStageRequest) (now : Int)
  | checkRotations (tokens : Secret → String) (now : Int)

def Operation.thread (accountId : String) : Operation → Thread
  | createSecret request draw => SecretsManager.createSecret request accountId draw
  | getSecretValue request now => SecretsManager.getSecretValue request accountId now
  | putSecretValue request uuid now => SecretsManager.putSecretValue request accountId uuid now
  | updateSecret request uuid now => SecretsManager.updateSecret request uuid now
  | updateSecretDetails request now => SecretsManager.updateSecretDetails request now
  | rotateSecret request now => SecretsManager.rotateSecret request accountId now
  | secretRotation arn now => SecretsManager.secretRotation arn now
  | updateSecretVersionStage request now =>
    SecretsManager.updateSecretVersionStage request accountId now
  | checkRotations tokens now => SecretsManager.checkRotations tokens now

end AwsMock.SecretsManager
