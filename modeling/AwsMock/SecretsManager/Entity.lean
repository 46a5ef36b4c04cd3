import AwsMock.Core.Http
import AwsMock.Foundation.KeyedList

/-! # Secrets and their versions

A secret keeps its versions under their identifiers, and every version has a list of staging
labels. The operations edit a copy of the secret and write it back whole.
-/

namespace AwsMock.SecretsManager

open Foundation

structure SecretVersion where
  secretString : Bytes := []
  secretBinary : Bytes := []
  stages : List String := []
deriving DecidableEq, Repr

abbrev Versions := List (String × SecretVersion)

structure RotationRules where
  automaticallyAfterDays : Int := 0
  duration : String := ""
  scheduleExpression : String := ""
deriving DecidableEq, Repr

structure Secret where
  region : String := ""
  name : String := ""
  arn : String := ""
  secretId : String := ""
  kmsKeyId : String := ""
  versions : Versions := []
  description : String := ""
  rotationRules : RotationRules := {}
  createdDate : Int := 0
  lastAccessedDate : Int := 0
  lastChangedDate : Int := 0
  lastRotatedDate : Int := 0
  nextRotatedDate : Int := 0
  rotationEnabled : Bool := false
  rotationLambdaARN : String := ""
  modified : Int := 0
deriving DecidableEq, Repr

def awsCurrent : String := "AWSCURRENT"
def awsPending : String := "AWSPENDING"
def awsPrevious : String := "AWSPREVIOUS"

/-! ## Versions -/

namespace Versions

variable (versions : Versions)

def find (versionId : String) : Option SecretVersion :=
  (findKey Prod.fst versionId versions).map Prod.snd

def hasVersion (versionId : String) : Bool := (versions.find versionId).isSome

def getVersion (versionId : String) : SecretVersion := (versions.find versionId).getD {}

def put (versionId : String) (version : SecretVersion) : Versions :=
  upsert Prod.fst (versionId, version) versions

/-- Work on what is under an identifier; a blank version is added if there is none. -/
def modify (versionId : String) (change : SecretVersion → SecretVersion) : Versions :=
  versions.put versionId (change (versions.getVersion versionId))

def carriers (stage : String) : List String :=
  (versions.filter fun entry => stage ∈ entry.2.stages).map Prod.fst

def firstId (versionIds : List String) : String :=
  (versionIds.foldl (fun (least : Option String) versionId =>
    match least with
    | some least => if versionId < least then some versionId else some least
    | none => some versionId) none).getD ""

def getVersionIdByStage (stage : String) : String := firstId (versions.carriers stage)

def getCurrentVersionId : String := versions.getVersionIdByStage awsCurrent

def resetVersions (versionId : String) : Versions :=
  versions.map fun entry =>
    if entry.1 ≠ versionId then (entry.1, { entry.2 with stages := [awsPrevious] }) else entry

end Versions

/-! ## Edits -/

def day : Int := 86400000

def RotationRules.nextRotationDate (rules : RotationRules) (now : Int) : Int :=
  if 0 < rules.automaticallyAfterDays then now + rules.automaticallyAfterDays * day else now

inductive Edit where
  | access (now : Int)
  | put (versionId : String) (versionStage : List String) (secretString secretBinary : Bytes)
      (now : Int)
  | update (versionId : String) (secretString secretBinary : Bytes) (description : String)
      (rotationEnabled : Bool) (now : Int)
  | details (rotationEnabled : Bool) (rotationRules : RotationRules) (rotationLambdaARN : String)
      (secretString : Option Bytes) (now : Int)
  | rotate (clientRequestToken : String) (rotationLambdaARN : String) (now : Int)
  | checkRotation (clientRequestToken : String) (now : Int)
  | moveStage (moveToVersionId versionStage removeFromVersionId : String) (now : Int)
  | nextRotation (now : Int)
deriving DecidableEq, Repr

namespace Edit

/-- Without stages, the version that was current becomes the previous one. -/
def putVersions (versionId : String) (versionStage : List String)
    (secretString secretBinary : Bytes) (versions : Versions) : Versions :=
  if versionStage = [] then
    (versions.modify versions.getCurrentVersionId fun version =>
      { version with stages := [awsPrevious] }).put versionId
        { secretString := secretString, secretBinary := secretBinary, stages := [awsCurrent] }
  else
    versions.put versionId
      { secretString := secretString, secretBinary := secretBinary, stages := versionStage }

/-- The current label is moved as at the end of a rotation, any other by itself. -/
def moveVersions (moveToVersionId versionStage removeFromVersionId : String)
    (versions : Versions) : Versions :=
  if versionStage = awsCurrent then
    (versions.resetVersions moveToVersionId).modify moveToVersionId fun version =>
      { version with stages := [awsCurrent] }
  else
    let versions := versions.modify moveToVersionId fun version =>
      if versionStage ∈ version.stages then version
      else { version with stages := version.stages ++ [versionStage] }
    if removeFromVersionId ≠ "" ∧ versions.hasVersion removeFromVersionId = true then
      versions.modify removeFromVersionId fun version =>
        { version with stages := version.stages.filter (· ≠ versionStage) }
    else versions

def pendVersion (clientRequestToken : String) (versions : Versions) : Versions :=
  versions.modify clientRequestToken fun version => { version with stages := [awsPending] }

def versions : Edit → Versions → Versions
  | put versionId versionStage secretString secretBinary _, versions =>
    putVersions versionId versionStage secretString secretBinary versions
  | update versionId secretString secretBinary _ _ _, versions =>
    (versions.put versionId
      { secretString := secretString, secretBinary := secretBinary
        stages := [awsCurrent] }).resetVersions versionId
  | details _ _ _ (some secretString) _, versions =>
    versions.modify versions.getCurrentVersionId fun version =>
      { version with secretString := secretString }
  | rotate clientRequestToken _ _, versions => pendVersion clientRequestToken versions
  | checkRotation clientRequestToken _, versions => pendVersion clientRequestToken versions
  | moveStage moveToVersionId versionStage removeFromVersionId _, versions =>
    moveVersions moveToVersionId versionStage removeFromVersionId versions
  | _, versions => versions

def apply (edit : Edit) (secret : Secret) : Secret :=
  let secret := { secret with versions := edit.versions secret.versions }
  match edit with
  | access now => { secret with lastAccessedDate := now }
  | put _ _ _ _ now => { secret with lastAccessedDate := now }
  | update _ _ _ description rotationEnabled now =>
    { secret with
      description := description
      lastChangedDate := now
      rotationEnabled := rotationEnabled }
  | details rotationEnabled rotationRules rotationLambdaARN _ now =>
    { secret with
      rotationEnabled := rotationEnabled
      rotationRules := rotationRules
      rotationLambdaARN := rotationLambdaARN
      nextRotatedDate :=
        if rotationRules ≠ secret.rotationRules ∧ rotationEnabled = true then
          rotationRules.nextRotationDate now
        else secret.nextRotatedDate }
  | rotate _ rotationLambdaARN now =>
    { secret with
      lastRotatedDate := now
      rotationLambdaARN := rotationLambdaARN
      rotationEnabled := true }
  | checkRotation _ now => { secret with lastRotatedDate := now }
  | moveStage _ _ _ now => { secret with modified := now }
  | nextRotation now =>
    { secret with nextRotatedDate := secret.rotationRules.nextRotationDate now }

section Laws

variable (edit : Edit) (secret : Secret)

@[simp] theorem secretId_apply : (edit.apply secret).secretId = secret.secretId := by
  cases edit <;> rfl

@[simp] theorem arn_apply : (edit.apply secret).arn = secret.arn := by
  cases edit <;> rfl

@[simp] theorem kmsKeyId_apply : (edit.apply secret).kmsKeyId = secret.kmsKeyId := by
  cases edit <;> rfl

@[simp] theorem versions_apply :
    (edit.apply secret).versions = edit.versions secret.versions := by
  cases edit <;> rfl

end Laws

end Edit

end AwsMock.SecretsManager
