import AwsMock.Foundation.Traverse
import AwsMock.SecretsManager.Service

/-! # The parameters of the systems manager

The value of a parameter with a KMS key is stored encrypted. The three writers and the three
readers put encodings on and take them off on the way to the key service and back.
-/

namespace AwsMock.Ssm

open Foundation Crypto SecretsManager

inductive ParameterType where
  | string | stringList | secureString
deriving DecidableEq, Repr

namespace ParameterType

def toName : ParameterType → String
  | .string => "String"
  | .stringList => "StringList"
  | .secureString => "SecureString"

def ofName (name : String) : ParameterType :=
  if name = "String" then .string
  else if name = "StringList" then .stringList
  else if name = "SecureString" then .secureString
  else .string

@[simp] theorem ofName_toName (type : ParameterType) : ofName type.toName = type := by
  cases type <;> rfl

end ParameterType

structure Parameter where
  region : String
  parameterName : String
  parameterValue : Bytes
  type : String
  version : Nat
  kmsKeyArn : String
deriving DecidableEq, Repr

def KeyStore : Type := { keys : List Kms.Key // ∀ key ∈ keys, key.keyId ≠ "" }

namespace KeyStore

variable (cipher : Cipher) (keys : KeyStore) (keyId : String)

def find : Option Kms.Key := findKey Kms.Key.keyId keyId keys.val

def encrypt (plaintext : Bytes) : Except String Bytes :=
  match keys.find keyId with
  | some key => .ok (cipher.encryptPlaintext key plaintext)
  | none => .error ("Key not found, keyId: " ++ keyId)

def decrypt (ciphertext : Bytes) : Except String Bytes :=
  match keys.find keyId with
  | some key => .ok (cipher.decryptPlaintext key ciphertext)
  | none => .error ("Key not found, keyId: " ++ keyId)

end KeyStore

/-- The parameters in the order in which the store searches them, and the keys. -/
structure World where
  parameters : List Parameter := []
  keys : KeyStore := ⟨[], fun _ hkey => absurd hkey List.not_mem_nil⟩

/-! ## The store -/

namespace World

variable (world : World)

def parameterExists (name : String) : Bool :=
  world.parameters.any fun parameter => parameter.parameterName = name

def getParameterByName (name : String) : Option Parameter :=
  findKey Parameter.parameterName name world.parameters

def listParameters (region namePrefix : String) : List Parameter :=
  world.parameters.filter fun parameter =>
    (region = "" || parameter.region = region) &&
      (namePrefix = "" || StringUtils.startsWith parameter.parameterName namePrefix)

def createParameter (place : Nat) (parameter : Parameter) : World :=
  { world with parameters := insertAt place parameter world.parameters }

def updateParameter (parameter : Parameter) : World :=
  { world with
    parameters := rewriteFirst (fun other => other.parameterName = parameter.parameterName)
      (fun _ => parameter) world.parameters }

end World

/-! ## The service -/

structure ParameterRequest where
  region : String := ""
  name : String
  value : Bytes
  type : ParameterType := .string
  kmsKeyArn : String := ""

section Writers

variable (cipher : Cipher) (world : World)

def keyIdOf (kmsKeyArn : String) : String := StringUtils.afterLast kmsKeyArn '/'

/-- What is stored for a value that is sent to the key service as the plaintext. -/
def encryptValue (request : ParameterRequest) (plaintext : Bytes) : Except String Bytes :=
  if request.kmsKeyArn ≠ "" then world.keys.encrypt cipher (keyIdOf request.kmsKeyArn) plaintext
  else .ok request.value

def storeNew (request : ParameterRequest) (place : Nat) : Except String World :=
  if world.parameterExists request.name then
    .error ("Parameter exists already, name: " ++ request.name)
  else do
    let parameterValue ← encryptValue cipher world request (base64Encode request.value)
    return world.createParameter place
      { region := request.region
        parameterName := request.name
        parameterValue := parameterValue
        type := request.type.toName
        version := 1
        kmsKeyArn := request.kmsKeyArn }

def storeAgain (request : ParameterRequest) : Except String World :=
  match world.getParameterByName request.name with
  | none => .error ("Parameter does not exist, name: " ++ request.name)
  | some parameter => do
      let parameterValue ← encryptValue cipher world request request.value
      return world.updateParameter
        { parameter with
          type := request.type.toName
          version := parameter.version + 1
          kmsKeyArn := request.kmsKeyArn
          parameterValue := parameterValue }

end Writers

section Readers

variable (cipher : Cipher) (world : World)

def decrypted (parameter : Parameter) (read : Bytes → Bytes) : Except String Parameter := do
  let plaintext ← world.keys.decrypt cipher (keyIdOf parameter.kmsKeyArn) parameter.parameterValue
  return { parameter with parameterValue := read plaintext }

def readParameter (withDecryption : Bool) (parameter : Parameter) : Except String Parameter :=
  if withDecryption then decrypted cipher world parameter base64Decode else .ok parameter

def getParameter (name : String) (withDecryption : Bool) : Except String Parameter :=
  match world.getParameterByName name with
  | none => .error ("Parameter does not exist, name: " ++ name)
  | some parameter => readParameter cipher world withDecryption parameter

def readCounter (parameter : Parameter) : Except String Parameter :=
  if parameter.kmsKeyArn ≠ "" then decrypted cipher world parameter id else .ok parameter

def getParameterCounter (name : String) : Except String Parameter :=
  match world.getParameterByName name with
  | none => .error ("Parameter does not exist, name: " ++ name)
  | some parameter => readCounter cipher world parameter

/-- It is the type that tells whether the value is decrypted. -/
def readListed (parameter : Parameter) : Except String Parameter :=
  if ParameterType.ofName parameter.type = .secureString then
    decrypted cipher world parameter base64Encode
  else .ok parameter

def listParameterCounters (region namePrefix : String) : Except String (List Parameter) :=
  (world.listParameters region namePrefix).mapM (readListed cipher world)

end Readers

section Requests

variable (cipher : Cipher) (world : World)

def putParameter (request : ParameterRequest) (place : Nat) : Except String Nat × World :=
  match storeNew cipher world request place with
  | .ok next => (.ok 1, next)
  | .error message => (.error message, world)

def createParameter (request : ParameterRequest) (place : Nat) (namePrefix : String) :
    Except String (List Parameter) × World :=
  match storeNew cipher world request place with
  | .ok next => (listParameterCounters cipher next request.region namePrefix, next)
  | .error message => (.error message, world)

def updateParameter (request : ParameterRequest) (namePrefix : String) :
    Except String (List Parameter) × World :=
  match storeAgain cipher world request with
  | .ok next => (listParameterCounters cipher next request.region namePrefix, next)
  | .error message => (.error message, world)

inductive Operation where
  | putParameter (request : ParameterRequest) (place : Nat)
  | createParameter (request : ParameterRequest) (place : Nat) (namePrefix : String)
  | updateParameter (request : ParameterRequest) (namePrefix : String)
  /-- Keys are made, changed and deleted by others. -/
  | changeKeys (keys : KeyStore)

def step : Operation → World
  | .putParameter request place => (putParameter cipher world request place).2
  | .createParameter request place namePrefix =>
    (createParameter cipher world request place namePrefix).2
  | .updateParameter request namePrefix => (updateParameter cipher world request namePrefix).2
  | .changeKeys keys => { world with keys := keys }

end Requests

end AwsMock.Ssm
