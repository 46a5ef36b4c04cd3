import AwsMock.SecretsManager.Operations

/-! # Staging labels along a run

The operations keep the labels of all secrets in their places as long as every edit that they
make keeps those of its secret.
-/

namespace AwsMock.SecretsManager

open Foundation

section Definitions

variable (cipher : Cipher) (accountId : String) (world : World)

def World.IsStaged : Prop := ∀ secret ∈ world.secrets, secret.versions.IsStaged

def World.HasKeyOf (secret : Secret) : Prop := (world.findKey secret.kmsKeyId).isSome = true

instance (secret : Secret) : Decidable (world.HasKeyOf secret) :=
  inferInstanceAs (Decidable (_ = _))

def Operation.HeedsStages : Operation → Prop
  | putSecretValue request uuid _ =>
    ∀ secret ∈ world.findByArn (resolveArn request.region accountId request.secretId),
      (world.HasKeyOf secret ∨ secret.kmsKeyId = "" ∧ request.secretBinary = []) →
        if request.versionStage = [] then secret.versions.MayPut (request.versionId uuid)
        else secret.versions.MayPutStages (request.versionId uuid) request.versionStage
  | updateSecret request uuid _ =>
    ∀ secret ∈ world.findById request.secretId,
      (world.HasKeyOf secret ∨ secret.kmsKeyId = "") → secret.versions.MayReplace uuid
  | rotateSecret request _ =>
    ∀ secret ∈ world.findByArn (resolveArn request.region accountId request.secretId),
      request.clientRequestToken ≠ "" ∧ secret.versions.MayPend request.clientRequestToken
  | updateSecretVersionStage request _ =>
    ∀ secret ∈ world.findByArn (resolveArn request.region accountId request.secretId),
      secret.versions.hasVersion request.moveToVersionId = true →
        secret.versions.MayMove request.moveToVersionId request.versionStage
          request.removeFromVersionId
  | checkRotations tokens now =>
    ∀ secret ∈ world.secrets, secret.IsDue now → secret.versions.MayPend (tokens secret)
  | _ => True

end Definitions

section Operations

variable {cipher : Cipher} {accountId : String} {world : World} {operation : Operation}

theorem isOk_encrypt {keyId : String} {plaintext : Bytes} :
    (∃ ciphertext, world.encrypt cipher keyId plaintext = .ok ciphertext) ↔
      (world.findKey keyId).isSome = true := by
  rw [World.encrypt]
  cases world.findKey keyId with
  | none => simp
  | some key => simp

theorem isOk_map {ε α β : Type} {result : Except ε α} {f : α → β} :
    (∃ b, result.map f = .ok b) ↔ ∃ a, result = .ok a := by
  cases result with
  | error exn => simp [Except.map]
  | ok a => simp [Except.map]

theorem forall_ok_map_iff {ε α β : Type} {result : Except ε α} {f : α → β} {Q : β → Prop}
    {C : Prop} (hvalue : ∀ a, Q (f a) ↔ C) :
    (∀ b, result.map f = .ok b → Q b) ↔ ((∃ a, result = .ok a) → C) := by
  constructor
  · rintro hall ⟨a, rfl⟩
    exact (hvalue a).mp (hall (f a) rfl)
  · intro himp b hb
    obtain ⟨a, ha⟩ := isOk_map.mp ⟨b, hb⟩
    rw [ha] at hb
    obtain rfl := Except.ok.inj hb
    exact (hvalue a).mpr (himp ⟨a, ha⟩)

variable {request : CreateSecretRequest} {secret : Secret}

theorem isOk_put {request : PutSecretValueRequest} :
    (∃ stored, request.stored cipher world secret = .ok stored) ↔
      world.HasKeyOf secret ∨ secret.kmsKeyId = "" ∧ request.secretBinary = [] := by
  rw [PutSecretValueRequest.stored]
  by_cases hkey : secret.kmsKeyId = ""
  · rw [if_neg (not_not.mpr hkey)]
    by_cases hbinary : request.secretBinary = []
    · rw [if_neg (not_not.mpr hbinary)]
      simp [hkey, hbinary]
    · rw [if_pos hbinary, isOk_map, isOk_encrypt, World.HasKeyOf]
      simp [hbinary]
  · rw [if_pos hkey, isOk_map, isOk_encrypt, World.HasKeyOf]
    simp [hkey]

theorem isOk_update {request : UpdateSecretRequest} :
    (∃ secretString, request.stored cipher world secret = .ok secretString) ↔
      world.HasKeyOf secret ∨ secret.kmsKeyId = "" := by
  rw [UpdateSecretRequest.stored]
  by_cases hkey : secret.kmsKeyId = ""
  · rw [if_neg (not_not.mpr hkey)]
    simp [hkey]
  · rw [if_pos hkey, isOk_encrypt, World.HasKeyOf]
    simp [hkey]

theorem isStaged_edit (hvalid : world.IsValid) (hmem : secret ∈ world.secrets) (edit : Edit) :
    (edit.versions secret.versions).IsStaged ↔ (edit.versions secret.versions).IsLabelled :=
  ((hvalid.versions secret hmem).edit edit).isStaged_iff

theorem isStaged_write (hstaged : world.IsStaged) {found : Option Secret}
    (hfound : ∀ secret ∈ found, secret ∈ world.secrets) {edit : Secret → Except Exn Edit} :
    (world.write found edit).IsStaged ↔ ∀ secret ∈ found, ∀ made, edit secret = .ok made →
        (made.versions secret.versions).IsStaged := by
  rw [World.write.eq_def]
  split
  · simp [hstaged]
  next secret =>
    have hmem := hfound secret rfl
    cases hedit : edit secret with
    | error exn => simp [hstaged, hedit]
    | ok made =>
      dsimp only
      rw [World.IsStaged, forall_updateSecret (P := fun other => other.versions.IsStaged) hmem
        hstaged made, Edit.versions_apply]
      simp [hedit]

theorem isStaged_secret {draw : CreateSecretDraw}
    (hdraw : draw.versionId ≠ "") (kmsKeyId : String) (secretString : Bytes) :
    (request.secret accountId draw kmsKeyId secretString).versions.IsStaged := by
  have hdistinct : (request.secret accountId draw kmsKeyId secretString).versions.HasDistinctIds :=
    List.nodup_singleton _
  have hstages : ∀ versionId,
      (request.secret accountId draw kmsKeyId secretString).versions.stagesOf versionId =
        if draw.versionId = versionId then [awsCurrent] else [] := by
    intro versionId
    rw [Versions.stagesOf, Versions.getVersion, Versions.find, CreateSecretRequest.secret,
      findKey_cons]
    by_cases hid : draw.versionId = versionId
    · rw [if_pos hid, if_pos hid]
      rfl
    · rw [if_neg hid, if_neg hid]
      rfl
  rw [hdistinct.isStaged_iff]
  refine ⟨⟨draw.versionId, ?_⟩, ?_, ?_⟩
  · rw [hstages, if_pos rfl]
    exact List.mem_singleton_self _
  · intro stage first second hfirst hsecond
    rw [hstages] at hfirst hsecond
    grind
  · rw [Versions.hasVersion, Versions.find, CreateSecretRequest.secret, findKey_cons, if_neg hdraw]
    rfl

theorem isStaged_createSecret {draw : CreateSecretDraw} (hstaged : world.IsStaged)
    (hdraws : (Operation.createSecret request draw).DrawsNewIds world) :
    (step cipher accountId world (.createSecret request draw)).IsStaged := by
  have hkeyed : (request.keyed world draw).2.IsStaged :=
    fun secret hmem => hstaged secret (secrets_keyed request draw ▸ hmem)
  rw [step_createSecret]
  split
  · exact hstaged
  · dsimp only
    split
    · exact hkeyed
    next secretString hstored =>
      intro secret hmem
      rcases mem_createSecret.mp hmem with rfl | hold
      · exact isStaged_secret hdraws.1 _ _
      · exact hkeyed secret hold

theorem isStaged_checkRotations {tokens : Secret → String} {now : Int}
    (hvalid : world.IsValid) (hstaged : world.IsStaged)
    (hdraws : (Operation.checkRotations tokens now).DrawsNewIds world) :
    (step cipher accountId world (.checkRotations tokens now)).IsStaged ↔
      (Operation.checkRotations tokens now).HeedsStages accountId world := by
  rw [World.IsStaged, step_checkRotations tokens now hvalid.distinct]
  simp only [List.forall_mem_map]
  refine forall₂_congr fun secret hmem => ?_
  have hdistinct := hvalid.versions secret hmem
  split
  next hdue =>
    rw [Edit.versions_apply, isStaged_edit hvalid hmem]
    change (Edit.pendVersion (tokens secret) secret.versions).IsLabelled ↔ _
    rw [Versions.isLabelled_pendVersion hdistinct (hdistinct.isStaged_iff.mp
      (hstaged secret hmem)), and_iff_right (hdraws secret)]
    exact ⟨fun hmay _ => hmay, fun himp => himp hdue⟩
  next hdue => exact ⟨fun _ hother => absurd hother hdue, fun _ => hstaged secret hmem⟩

theorem isStaged_step (hvalid : world.IsValid) (hstaged : world.IsStaged)
    (hdraws : operation.DrawsNewIds world) :
    (step cipher accountId world operation).IsStaged ↔
      operation.HeedsStages accountId world := by
  -- an operation that edits one stored secret
  have hedit : ∀ (found : Option Secret) (edit : Secret → Except Exn Edit),
      (∀ secret ∈ found, secret ∈ world.secrets) →
      step cipher accountId world operation = world.write found edit →
      ((∀ secret ∈ found, ∀ made, edit secret = .ok made →
          (made.versions secret.versions).IsStaged) ↔ operation.HeedsStages accountId world) →
        ((step cipher accountId world operation).IsStaged ↔
          operation.HeedsStages accountId world) := by
    intro found edit hfound hstep hiff
    rw [hstep]
    exact (isStaged_write hstaged hfound).trans hiff
  have hlabelled : ∀ secret ∈ world.secrets, secret.versions.IsLabelled := fun secret hmem =>
    (hvalid.versions secret hmem).isStaged_iff.mp (hstaged secret hmem)
  cases operation with
  | createSecret request draw =>
    exact iff_of_true (isStaged_createSecret hstaged hdraws) trivial
  | checkRotations tokens now => exact isStaged_checkRotations hvalid hstaged hdraws
  | secretRotation arn now =>
    refine hedit _ _ (fun secret hfound => mem_of_findByArn hfound)
      (step_secretRotation hvalid arn now) ⟨fun _ => trivial, fun _ secret hfound made hmade => ?_⟩
    obtain rfl := Except.ok.inj hmade
    exact hstaged secret (mem_of_findByArn hfound)
  | getSecretValue request now =>
    refine hedit _ _ (fun secret hfound => mem_of_findByArn hfound)
      (step_getSecretValue request now) ⟨fun _ => trivial, fun _ secret hfound => ?_⟩
    rw [Operation.edit, forall_ok_map_iff (C := True)]
    · exact fun _ => trivial
    · exact fun _ => iff_of_true (hstaged secret (mem_of_findByArn hfound)) trivial
  | putSecretValue request uuid now =>
    refine hedit _ _ (fun secret hfound => mem_of_findByArn hfound)
      (step_putSecretValue request uuid now) (forall₂_congr fun secret hfound => ?_)
    have hmem := mem_of_findByArn hfound
    have hne : request.versionId uuid ≠ "" := by
      rw [PutSecretValueRequest.versionId]
      split
      · exact hdraws
      next htoken => exact htoken
    rw [Operation.edit, ← @isOk_put cipher]
    refine forall_ok_map_iff fun stored => ?_
    rw [isStaged_edit hvalid hmem, Edit.versions]
    split
    next hstage =>
      rw [hstage]
      exact Versions.isLabelled_putVersions (hvalid.versions secret hmem) (hlabelled secret hmem)
        hne
    next hstage =>
      exact Versions.isLabelled_putStages (hvalid.versions secret hmem) (hlabelled secret hmem)
        hne hstage
  | updateSecret request uuid now =>
    refine hedit _ _ (fun secret hfound => mem_of_findById hfound)
      (step_updateSecret request uuid now) (forall₂_congr fun secret hfound => ?_)
    have hmem := mem_of_findById hfound
    rw [Operation.edit, ← @isOk_update cipher]
    refine forall_ok_map_iff fun secretString => ?_
    rw [isStaged_edit hvalid hmem]
    exact Versions.isLabelled_update (hvalid.versions secret hmem) (hlabelled secret hmem)
      hdraws rfl
  | updateSecretDetails request now =>
    refine hedit _ _ (fun secret hfound => mem_of_findById hfound)
      (step_updateSecretDetails request now) ⟨fun _ => trivial, fun _ secret hfound => ?_⟩
    have hmem := mem_of_findById hfound
    rw [Operation.edit, forall_ok_map_iff (C := True)]
    · exact fun _ => trivial
    · intro secretString
      rw [isStaged_edit hvalid hmem, iff_true]
      cases secretString with
      | none => exact hlabelled secret hmem
      | some secretString =>
        exact Versions.isLabelled_details (hvalid.versions secret hmem) (hlabelled secret hmem)
  | rotateSecret request now =>
    refine hedit _ _ (fun secret hfound => mem_of_findByArn hfound)
      (step_rotateSecret request now) (forall₂_congr fun secret hfound => ?_)
    have hmem := mem_of_findByArn hfound
    rw [← Versions.isLabelled_pendVersion (hvalid.versions secret hmem) (hlabelled secret hmem)]
    rw [Operation.edit]
    simp only [Except.ok.injEq, forall_eq']
    exact isStaged_edit hvalid hmem _
  | updateSecretVersionStage request now =>
    refine hedit _ _ (fun secret hfound => mem_of_findByArn hfound)
      (step_updateSecretVersionStage request now) (forall₂_congr fun secret hfound => ?_)
    have hmem := mem_of_findByArn hfound
    rw [Operation.edit]
    split
    next hmoved =>
      simp only [Except.ok.injEq, forall_eq', hmoved, true_implies]
      rw [isStaged_edit hvalid hmem]
      exact Versions.isLabelled_moveVersions (hvalid.versions secret hmem)
        (hlabelled secret hmem) hmoved
    next hmissing => simp [hmissing]

/-- Every secret has its labels in their places after each of the operations. -/
def KeepsStages (cipher : Cipher) (accountId : String) (operations : List Operation)
    (world : World) : Prop :=
  Runs.Always (step cipher accountId) World.IsStaged operations world

/-- From a store without secrets, all labels stay in their places just when every operation heeds
them. -/
theorem keepsStages_iff_heeded (cipher : Cipher) (accountId : String) (keys : List Kms.Key)
    (operations : List Operation)
    (hdraws : Runs.Heeded (step cipher accountId) (fun world operation =>
      operation.DrawsNewIds world) operations { keys := keys }) :
    KeepsStages cipher accountId operations { keys := keys } ↔ Runs.Heeded (step cipher accountId)
        (fun world operation => operation.HeedsStages accountId world) operations
        { keys := keys } :=
  Runs.always_iff_heeded_of_promised (I := World.IsValid)
    (fun _ _ hvalid hstaged hdraws =>
      ⟨isValid_step hvalid hdraws, isStaged_step hvalid hstaged hdraws⟩) operations
    ⟨List.nodup_nil, fun _ hmem => absurd hmem List.not_mem_nil,
      fun _ hmem => absurd hmem List.not_mem_nil⟩ (fun _ hmem => absurd hmem List.not_mem_nil)
    hdraws

end Operations

/-! ## Runs on one secret -/

def sampleRotation : List Operation :=
  [sampleSecret, .rotateSecret
      { region := "eu-central-1"
        secretId := "db-aB3dE6"
        clientRequestToken := "v2"
        rotationLambdaARN := "arn:lambda" } 1,
    .updateSecretVersionStage
      { region := "eu-central-1"
        secretId := "db-aB3dE6"
        moveToVersionId := "v2"
        versionStage := awsCurrent
        removeFromVersionId := "v1" } 2]

theorem keepsStages_iff_heeded_rotation :
    KeepsStages sampleCipher "000000000000" sampleRotation {} := by
  refine (keepsStages_iff_heeded sampleCipher "000000000000" [] sampleRotation ?_).mpr ?_
  · exact ⟨⟨by decide, fun _ hmem => absurd hmem List.not_mem_nil⟩, trivial, trivial, trivial⟩
  · refine ⟨trivial, ?_, ?_, trivial⟩
    · simp only [Operation.HeedsStages]
      decide +kernel
    · simp only [Operation.HeedsStages]
      decide +kernel

/-- With the second new value, two versions are previous ones. -/
theorem not_keepsStages_secondPut :
    ¬ ∀ cipher accountId keys operations,
      Runs.Heeded (step cipher accountId) (fun world operation =>
        operation.DrawsNewIds world) operations { keys := keys } →
          KeepsStages cipher accountId operations { keys := keys } := by
  intro hkeeps
  have hdraw : "uuid" ≠ "" := by decide
  have hlast := (hkeeps sampleCipher "000000000000" [] [sampleSecret, samplePut "v2", samplePut "v3"]
    ⟨⟨by decide, fun _ hmem => absurd hmem List.not_mem_nil⟩, hdraw, hdraw, trivial⟩).last
  have hprevious := fun secret hmem => (hlast secret hmem).previous
  revert hprevious
  decide +kernel

end AwsMock.SecretsManager
