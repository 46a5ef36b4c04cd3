import AwsMock.SecretsManager.Labels
import AwsMock.SecretsManager.Service

/-! # Operations that run alone

What an operation makes of the store when no other operation runs at the same time: it fails,
or it makes one edit in the secret that it has found. Creating a secret adds one, and the check
for due rotations goes through all of them.
-/

namespace AwsMock.SecretsManager

open Foundation Crypto

section Definitions

variable (cipher : Cipher) (accountId : String) (world : World) (secret : Secret)

def step (world : World) (operation : Operation) : World :=
  ((operation.thread accountId).run (execute cipher) world).2

/-- One edit in the secret that was found, if it is made at all. -/
def World.write (found : Option Secret) (edit : Secret → Except Exn Edit) : World :=
  match found with
  | none => world
  | some secret =>
    match edit secret with
    | .error _ => world
    | .ok edit => world.updateSecret (edit.apply secret)

/-- A secret under the name is there, or there is not exactly one value. -/
def CreateSecretRequest.IsRefused (request : CreateSecretRequest) : Prop :=
  (world.secrets.any fun secret => secret.region = request.region ∧ secret.name = request.name) =
      true ∨
    request.secretString ≠ [] ∧ request.secretBinary ≠ [] ∨
    request.secretString = [] ∧ request.secretBinary = []

instance (request : CreateSecretRequest) : Decidable (request.IsRefused world) :=
  inferInstanceAs (Decidable (_ ∨ _ ∨ _))

/-- The key that encrypts the secret, which is made if the request names none. -/
def CreateSecretRequest.keyed (request : CreateSecretRequest) (draw : CreateSecretDraw) :
    String × World :=
  if request.kmsKeyId = "" then
    (draw.keyId, { world with keys := world.keys ++ [request.key draw] })
  else (request.kmsKeyId, world)

def CreateSecretRequest.stored (request : CreateSecretRequest) (kmsKeyId : String) :
    Except Exn Bytes :=
  if request.secretString ≠ [] then
    world.encrypt cipher kmsKeyId (base64Encode request.secretString)
  else .ok []

def GetSecretValueRequest.answer (request : GetSecretValueRequest) : Except Exn Response :=
  let versionId := request.resolve secret
  let version := secret.versions.getVersion versionId
  let value := fun secretString secretBinary =>
    Response.value secret.arn secret.name versionId secretString secretBinary version.stages
  if request.versionId ≠ "" ∧ secret.versions.hasVersion request.versionId = false then
    .error (.notFound ("Secrets Manager can't find the specified secret value for VersionId: " ++
      request.versionId))
  else if versionId = "" ∨ version.secretString = [] ∧ version.secretBinary = [] then
    .error (.notFound
      ("Secrets Manager can't find the specified secret value for staging label: " ++
        request.versionStage))
  else if secret.kmsKeyId ≠ "" then
    (world.decrypt cipher secret.kmsKeyId version.secretString).map fun plaintext =>
      value (base64Decode plaintext) []
  else if version.secretString ≠ [] then .ok (value [] (base64Decode version.secretBinary))
  else .ok (value [] [])

def PutSecretValueRequest.stored (request : PutSecretValueRequest) :
    Except Exn (Bytes × Bytes) :=
  if secret.kmsKeyId ≠ "" then
    (world.encrypt cipher secret.kmsKeyId (base64Encode request.secretString)).map (·, [])
  else if request.secretBinary ≠ [] then
    (world.encrypt cipher secret.kmsKeyId []).map ([], ·)
  else .ok ([], [])

def UpdateSecretRequest.stored (request : UpdateSecretRequest) : Except Exn Bytes :=
  if secret.kmsKeyId ≠ "" then world.encrypt cipher secret.kmsKeyId request.secretString
  else .ok request.secretString

def UpdateSecretDetailsRequest.stored (request : UpdateSecretDetailsRequest) :
    Except Exn (Option Bytes) :=
  if request.secretString ≠ [] then
    (world.encrypt cipher secret.kmsKeyId (base64Encode request.secretString)).map some
  else .ok none

def Operation.target : Operation → Option Secret
  | getSecretValue request _ =>
    world.findByArn (resolveArn request.region accountId request.secretId)
  | putSecretValue request _ _ =>
    world.findByArn (resolveArn request.region accountId request.secretId)
  | updateSecret request _ _ => world.findById request.secretId
  | updateSecretDetails request _ => world.findById request.secretId
  | rotateSecret request _ =>
    world.findByArn (resolveArn request.region accountId request.secretId)
  | updateSecretVersionStage request _ =>
    world.findByArn (resolveArn request.region accountId request.secretId)
  | secretRotation arn _ => some ((world.findByArn arn).getD {})
  | createSecret _ _ => none
  | checkRotations _ _ => none

def Operation.edit : Operation → Except Exn Edit
  | getSecretValue request now =>
    (request.answer cipher world secret).map fun _ => .access now
  | putSecretValue request uuid now =>
    (request.stored cipher world secret).map fun stored =>
      .put (request.versionId uuid) request.versionStage stored.1 stored.2 now
  | updateSecret request uuid now =>
    (request.stored cipher world secret).map fun secretString =>
      .update uuid secretString request.secretBinary request.description request.rotationEnabled now
  | updateSecretDetails request now =>
    (request.stored cipher world secret).map fun secretString =>
      .details request.rotationEnabled request.rotationRules request.rotationLambdaARN
        secretString now
  | rotateSecret request now =>
    .ok (.rotate request.clientRequestToken request.rotationLambdaARN now)
  | updateSecretVersionStage request now =>
    if secret.versions.hasVersion request.moveToVersionId then
      .ok (.moveStage request.moveToVersionId request.versionStage request.removeFromVersionId now)
    else
      .error (.service
        ("Secret version does not exist, versionId: " ++ request.moveToVersionId))
  | secretRotation _ now => .ok (.nextRotation now)
  | createSecret _ _ => .error (.service "")
  | checkRotations _ _ => .error (.service "")

def Operation.IsEdit : Operation → Prop
  | createSecret _ _ => False
  | checkRotations _ _ => False
  | _ => True

end Definitions

/-! ## Writes -/

section Writes

variable {world : World} {secret : Secret} {P : Secret → Prop}

theorem mem_of_findByArn {arn : String} (hfind : world.findByArn arn = some secret) :
    secret ∈ world.secrets := mem_of_findKey hfind

theorem mem_of_findById {secretId : String} (hfind : world.findById secretId = some secret) :
    secret ∈ world.secrets := mem_of_findKey hfind

theorem mem_updateSecret (hmem : secret ∈ world.secrets) (edit : Edit) :
    edit.apply secret ∈ (world.updateSecret (edit.apply secret)).secrets := by
  obtain ⟨_, _, _, hwritten⟩ := @exists_mem_rewriteFirst Secret
    (fun other => other.secretId = (edit.apply secret).secretId) (fun _ => edit.apply secret)
    world.secrets secret hmem (decide_eq_true (Edit.secretId_apply edit secret).symm)
  exact hwritten

theorem of_mem_updateSecret {other : Secret} (hmem : other ∈ (world.updateSecret secret).secrets) :
    other ∈ world.secrets ∨ other = secret :=
  (of_mem_rewriteFirst hmem).imp_right fun ⟨_, _, _, heq⟩ => heq

theorem forall_updateSecret (hmem : secret ∈ world.secrets) (hall : ∀ secret ∈ world.secrets, P secret)
    (edit : Edit) :
    (∀ other ∈ (world.updateSecret (edit.apply secret)).secrets, P other) ↔
      P (edit.apply secret) := by
  constructor
  · exact fun hafter => hafter _ (mem_updateSecret hmem edit)
  · intro hedited other hother
    rcases of_mem_updateSecret hother with hkept | rfl
    · exact hall other hkept
    · exact hedited

theorem secretIds_updateSecret (secret : Secret) :
    (world.updateSecret secret).secrets.map Secret.secretId =
      world.secrets.map Secret.secretId := by
  rw [World.updateSecret, map_rewriteFirst_of_preserved]
  intro other _ hother
  exact (of_decide_eq_true hother).symm

theorem mem_createSecret {place : Nat} {other : Secret} :
    other ∈ (world.createSecret place secret).secrets ↔ other = secret ∨ other ∈ world.secrets := by
  rw [World.createSecret, List.mem_append, List.mem_cons]
  constructor
  · rintro (htake | hsame | hdrop)
    · exact Or.inr (List.mem_of_mem_take htake)
    · exact Or.inl hsame
    · exact Or.inr (List.mem_of_mem_drop hdrop)
  · rintro (hsame | hmem)
    · exact Or.inr (Or.inl hsame)
    · rw [← List.take_append_drop place world.secrets, List.mem_append] at hmem
      exact hmem.imp_right Or.inr

theorem secretIds_createSecret (place : Nat) (secret : Secret) :
    ((world.createSecret place secret).secrets.map Secret.secretId).Perm
      (secret.secretId :: world.secrets.map Secret.secretId) := by
  rw [← List.map_cons, World.createSecret]
  refine List.Perm.map _ (List.perm_middle.trans ?_)
  rw [List.take_append_drop]

end Writes

/-! ## Runs of threads -/

section Threads

variable {cipher : Cipher} {world : World}

theorem run_secretByArn (missing : Exn) (arn : String) (next : Secret → Thread) :
    (Thread.secretByArn missing arn next).run (execute cipher) world =
      match world.findByArn arn with
      | none => (.error missing, world)
      | some secret => (next secret).run (execute cipher) world := by
  change (if (world.findByArn arn).isSome = true then _ else _ : Thread).run _ _ = _
  cases hfind : world.findByArn arn with
  | none => rfl
  | some secret =>
    change (next ((world.findByArn arn).getD {})).run _ _ = _
    rw [hfind]
    rfl

theorem run_secretBySecretId (secretId : String) (next : Secret → Thread) :
    (Thread.secretBySecretId secretId next).run (execute cipher) world =
      match world.findById secretId with
      | none => (.error (.service ("Secret does not exist, secretId: " ++ secretId)), world)
      | some secret => (next secret).run (execute cipher) world := by
  change (if (world.findById secretId).isSome = true then _ else _ : Thread).run _ _ = _
  cases hfind : world.findById secretId with
  | none => rfl
  | some secret =>
    change (next ((world.findById secretId).getD {})).run _ _ = _
    rw [hfind]
    rfl

theorem run_updateSecret (read : Secret) (edit : Edit) (next : Thread) :
    (Thread.updateSecret read edit next).run (execute cipher) world =
      next.run (execute cipher) (world.updateSecret (edit.apply read)) := rfl

theorem run_encrypt (keyId : String) (plaintext : Bytes) (next : Bytes → Thread) :
    (Thread.encrypt keyId plaintext next).run (execute cipher) world =
      match world.encrypt cipher keyId plaintext with
      | .error exn => (.error exn, world)
      | .ok ciphertext => (next ciphertext).run (execute cipher) world := by
  change (match world.encrypt cipher keyId plaintext with
    | .error exn => Thread.raise exn
    | .ok ciphertext => next ciphertext : Thread).run (execute cipher) world = _
  split <;> rfl

theorem run_decrypt (keyId : String) (ciphertext : Bytes) (next : Bytes → Thread) :
    (Thread.decrypt keyId ciphertext next).run (execute cipher) world =
      match world.decrypt cipher keyId ciphertext with
      | .error exn => (.error exn, world)
      | .ok plaintext => (next plaintext).run (execute cipher) world := by
  change (match world.decrypt cipher keyId ciphertext with
    | .error exn => Thread.raise exn
    | .ok plaintext => next plaintext : Thread).run (execute cipher) world = _
  split <;> rfl

end Threads

/-! ## Operations -/

section Operations

variable {cipher : Cipher} {accountId : String} {world : World}

variable (request : GetSecretValueRequest)

theorem run_getSecretValue (now : Int) :
    (getSecretValue request accountId now).run (execute cipher) world =
      let arn := resolveArn request.region accountId request.secretId
      match world.findByArn arn with
      | none => (.error (.service ("Secret does not exist, arn: " ++ arn)), world)
      | some secret =>
        match request.answer cipher world secret with
        | .error exn => (.error exn, world)
        | .ok response => (.ok response, world.updateSecret ((Edit.access now).apply secret)) := by
  rw [getSecretValue]
  dsimp only
  rw [run_secretByArn]
  split
  · rfl
  next secret hfind =>
    rw [GetSecretValueRequest.answer]
    by_cases hmissing : request.versionId ≠ "" ∧
        secret.versions.hasVersion request.versionId = false
    · rw [if_pos hmissing, if_pos hmissing]
      rfl
    · rw [if_neg hmissing, if_neg hmissing]
      by_cases hempty : request.resolve secret = ""
      · rw [if_pos hempty, if_pos (Or.inl hempty)]
        rfl
      · rw [if_neg hempty]
        dsimp only
        by_cases hblank : (secret.versions.getVersion (request.resolve secret)).secretString = [] ∧
            (secret.versions.getVersion (request.resolve secret)).secretBinary = []
        · rw [if_pos hblank, if_pos (Or.inr hblank)]
          rfl
        · rw [if_neg hblank, if_neg (not_or.mpr ⟨hempty, hblank⟩)]
          by_cases hkey : secret.kmsKeyId ≠ ""
          · rw [if_pos hkey, if_pos hkey, Thread.decryptSecret, run_decrypt]
            cases world.decrypt cipher secret.kmsKeyId
              (secret.versions.getVersion (request.resolve secret)).secretString <;> rfl
          · rw [if_neg hkey, if_neg hkey]
            split <;> rfl

theorem step_putSecretValue (request : PutSecretValueRequest) (uuid : String) (now : Int) :
    step cipher accountId world (.putSecretValue request uuid now) =
      world.write (world.findByArn (resolveArn request.region accountId request.secretId))
        fun secret => (Operation.putSecretValue request uuid now).edit cipher world secret := by
  rw [step, Operation.thread, putSecretValue]
  dsimp only
  rw [run_secretByArn, World.write.eq_def]
  split
  · rfl
  next secret hfind =>
    rw [Operation.edit, PutSecretValueRequest.stored]
    split
    · rw [Thread.encryptSecret, run_encrypt]
      cases world.encrypt cipher secret.kmsKeyId (base64Encode request.secretString) <;> rfl
    · split
      · rw [run_encrypt]
        cases world.encrypt cipher secret.kmsKeyId [] <;> rfl
      · rfl

theorem step_updateSecret (request : UpdateSecretRequest) (uuid : String) (now : Int) :
    step cipher accountId world (.updateSecret request uuid now) =
      world.write (world.findById request.secretId)
        fun secret => (Operation.updateSecret request uuid now).edit cipher world secret := by
  rw [step, Operation.thread, SecretsManager.updateSecret, run_secretBySecretId, World.write.eq_def]
  split
  · rfl
  next secret hfind =>
    dsimp only
    rw [Operation.edit, UpdateSecretRequest.stored]
    split
    · rw [run_encrypt]
      cases world.encrypt cipher secret.kmsKeyId request.secretString <;> rfl
    · rfl

theorem step_updateSecretDetails (request : UpdateSecretDetailsRequest) (now : Int) :
    step cipher accountId world (.updateSecretDetails request now) =
      world.write (world.findById request.secretId)
        fun secret => (Operation.updateSecretDetails request now).edit cipher world secret := by
  rw [step, Operation.thread, updateSecretDetails, run_secretBySecretId, World.write.eq_def]
  split
  · rfl
  next secret hfind =>
    -- the answer is decrypted after the write, and may fail then
    have hshow : ∀ (world' : World) keyId ciphertext (response : Bytes → Response),
        ((Thread.decryptSecret keyId ciphertext fun secretString =>
          Thread.finish (response secretString)).run (execute cipher) world').2 = world' := by
      intro world' keyId ciphertext response
      rw [Thread.decryptSecret, run_decrypt]
      cases world'.decrypt cipher keyId ciphertext <;> rfl
    dsimp only
    rw [Operation.edit, UpdateSecretDetailsRequest.stored]
    split
    · rw [Thread.encryptSecret, run_encrypt]
      cases world.encrypt cipher secret.kmsKeyId (base64Encode request.secretString) with
      | error exn => rfl
      | ok ciphertext =>
        dsimp only [Except.map]
        rw [run_updateSecret, hshow]
    · dsimp only [Except.map]
      rw [run_updateSecret, hshow]

theorem step_rotateSecret (request : RotateSecretRequest) (now : Int) :
    step cipher accountId world (.rotateSecret request now) =
      world.write (world.findByArn (resolveArn request.region accountId request.secretId))
        fun secret => (Operation.rotateSecret request now).edit cipher world secret := by
  rw [step, Operation.thread, rotateSecret]
  rw [run_secretByArn, World.write.eq_def]
  split <;> rfl

theorem step_updateSecretVersionStage (request : UpdateSecretVersionStageRequest) (now : Int) :
    step cipher accountId world (.updateSecretVersionStage request now) =
      world.write (world.findByArn (resolveArn request.region accountId request.secretId))
        fun secret => (Operation.updateSecretVersionStage request now).edit cipher world
          secret := by
  rw [step, Operation.thread, updateSecretVersionStage]
  rw [run_secretByArn, World.write.eq_def]
  split
  · rfl
  next secret hfind =>
    rw [Operation.edit]
    split <;> rfl

theorem step_getSecretValue (now : Int) :
    step cipher accountId world (.getSecretValue request now) =
      world.write (world.findByArn (resolveArn request.region accountId request.secretId))
        fun secret => (Operation.getSecretValue request now).edit cipher world secret := by
  rw [step, Operation.thread, run_getSecretValue, World.write.eq_def]
  dsimp only
  split
  · rfl
  next secret hfind =>
    rw [Operation.edit]
    cases request.answer cipher world secret <;> rfl

theorem step_of_isEdit {operation : Operation} (hedit : operation.IsEdit) :
    step cipher accountId world operation = world.write (operation.target accountId world)
        fun secret => operation.edit cipher world secret := by
  cases operation with
  | createSecret request draw => exact hedit.elim
  | checkRotations tokens now => exact hedit.elim
  | getSecretValue request now => exact step_getSecretValue request now
  | putSecretValue request uuid now => exact step_putSecretValue request uuid now
  | updateSecret request uuid now => exact step_updateSecret request uuid now
  | updateSecretDetails request now => exact step_updateSecretDetails request now
  | rotateSecret request now => exact step_rotateSecret request now
  | secretRotation arn now => rfl
  | updateSecretVersionStage request now => exact step_updateSecretVersionStage request now

theorem step_createSecret (request : CreateSecretRequest) (draw : CreateSecretDraw) :
    step cipher accountId world (.createSecret request draw) =
      if request.IsRefused world then world
      else
        let keyed := request.keyed world draw
        match request.stored cipher keyed.2 keyed.1 with
        | .error _ => keyed.2
        | .ok secretString =>
          keyed.2.createSecret draw.place (request.secret accountId draw keyed.1 secretString) := by
  have hstore : ∀ (world' : World) kmsKeyId, ((if request.secretString ≠ [] then
          Thread.encryptSecret kmsKeyId request.secretString fun secretString =>
            Thread.createSecret draw.place (request.secret accountId draw kmsKeyId secretString)
              (Thread.finish (.version (request.secret accountId draw kmsKeyId secretString).arn
                (request.secret accountId draw kmsKeyId secretString).name draw.versionId
                [awsCurrent]))
        else
          Thread.createSecret draw.place (request.secret accountId draw kmsKeyId [])
            (Thread.finish (.version (request.secret accountId draw kmsKeyId []).arn
              (request.secret accountId draw kmsKeyId []).name draw.versionId
              [awsCurrent]))).run (execute cipher) world').2 =
        match request.stored cipher world' kmsKeyId with
        | .error _ => world'
        | .ok secretString =>
          world'.createSecret draw.place (request.secret accountId draw kmsKeyId secretString) := by
    intro world' kmsKeyId
    rw [CreateSecretRequest.stored]
    split
    · rw [Thread.encryptSecret, run_encrypt]
      split <;> rfl
    · rfl
  change ((if (world.secrets.any fun secret => secret.region = request.region ∧
    secret.name = request.name) = true then _ else _ : Thread).run _ _).2 = _
  by_cases hexists : (world.secrets.any fun secret => secret.region = request.region ∧
      secret.name = request.name) = true
  · have hrefused : request.IsRefused world := Or.inl hexists
    rw [if_pos hexists, if_pos hrefused]
    rfl
  · rw [if_neg hexists]
    by_cases hboth : request.secretString ≠ [] ∧ request.secretBinary ≠ []
    · have hrefused : request.IsRefused world := Or.inr (Or.inl hboth)
      rw [if_pos hboth, if_pos hrefused]
      rfl
    · rw [if_neg hboth]
      by_cases hneither : request.secretString = [] ∧ request.secretBinary = []
      · have hrefused : request.IsRefused world := Or.inr (Or.inr hneither)
        rw [if_pos hneither, if_pos hrefused]
        rfl
      · have hrefused : ¬request.IsRefused world :=
          not_or.mpr ⟨hexists, not_or.mpr ⟨hboth, hneither⟩⟩
        rw [if_neg hneither, if_neg hrefused, CreateSecretRequest.keyed]
        dsimp only
        by_cases hkey : request.kmsKeyId = ""
        · rw [if_pos hkey, if_pos hkey]
          exact hstore _ _
        · rw [if_neg hkey, if_neg hkey]
          exact hstore _ _

theorem secrets_rotateDue (tokens : Secret → String) (now : Int) {before after : List Secret}
    (hsecrets : world.secrets = before ++ after)
    (hdistinct : (world.secrets.map Secret.secretId).Nodup) :
    ((rotateDue tokens now after).run (execute cipher) world).2.secrets =
      before ++ after.map fun secret =>
        if secret.IsDue now then (Edit.checkRotation (tokens secret) now).apply secret
        else secret := by
  induction after generalizing before world with
  | nil => exact hsecrets
  | cons secret after ih =>
    rw [rotateDue, List.map_cons]
    split
    · rw [run_updateSecret, @ih _ (before ++
        [(Edit.checkRotation (tokens secret) now).apply secret])]
      · rw [List.append_assoc, List.singleton_append]
      · rw [World.updateSecret, hsecrets, rewriteFirst_append, List.append_assoc,
          List.singleton_append]
        · intro other hother
          rw [hsecrets, List.map_append, List.map_cons] at hdistinct
          refine decide_eq_false fun heq => ?_
          rw [Edit.secretId_apply] at heq
          exact (List.nodup_append.mp hdistinct).2.2 _ (List.mem_map_of_mem hother) _
            List.mem_cons_self heq
        · rw [Edit.secretId_apply]
          exact decide_eq_true rfl
      · rw [secretIds_updateSecret]
        exact hdistinct
    · rw [@ih _ (before ++ [secret])]
      · rw [List.append_assoc, List.singleton_append]
      · rw [List.append_assoc, List.singleton_append]
        exact hsecrets
      · exact hdistinct

theorem step_checkRotations (tokens : Secret → String) (now : Int)
    (hdistinct : (world.secrets.map Secret.secretId).Nodup) :
    (step cipher accountId world (.checkRotations tokens now)).secrets =
      world.secrets.map fun secret =>
        if secret.IsDue now then (Edit.checkRotation (tokens secret) now).apply secret
        else secret :=
  @secrets_rotateDue cipher world tokens now [] _ rfl hdistinct

end Operations

/-! ## Valid stores -/

section Valid

structure World.IsValid (world : World) : Prop where
  distinct : (world.secrets.map Secret.secretId).Nodup
  named : ∀ secret ∈ world.secrets, secret.secretId ≠ ""
  versions : ∀ secret ∈ world.secrets, secret.versions.HasDistinctIds

/-- What is drawn is not empty, and a new secret does not get the identifier of another one. -/
def Operation.DrawsNewIds (world : World) : Operation → Prop
  | createSecret request draw => draw.versionId ≠ "" ∧
      ∀ secret ∈ world.secrets, secret.secretId ≠ request.name ++ "-" ++ draw.suffix
  | putSecretValue _ uuid _ => uuid ≠ ""
  | updateSecret _ uuid _ => uuid ≠ ""
  | checkRotations tokens _ => ∀ secret, tokens secret ≠ ""
  | _ => True

variable {cipher : Cipher} {accountId : String} {world : World} {operation : Operation}

theorem isValid_write (hvalid : world.IsValid) {found : Option Secret}
    (hfound : ∀ secret ∈ found, secret ∈ world.secrets) {edit : Secret → Except Exn Edit} :
    (world.write found edit).IsValid := by
  rw [World.write.eq_def]
  split
  · exact hvalid
  next secret =>
    have hmem := hfound secret rfl
    split
    · exact hvalid
    next made hedit =>
      refine ⟨?_, ?_, ?_⟩
      · rw [secretIds_updateSecret]
        exact hvalid.distinct
      · rw [forall_updateSecret (P := fun other => other.secretId ≠ "") hmem hvalid.named made,
          Edit.secretId_apply]
        exact hvalid.named secret hmem
      · rw [forall_updateSecret (P := fun other => other.versions.HasDistinctIds) hmem
          hvalid.versions made, Edit.versions_apply]
        exact (hvalid.versions secret hmem).edit made

theorem step_secretRotation (hvalid : world.IsValid) (arn : String) (now : Int) :
    step cipher accountId world (.secretRotation arn now) =
      world.write (world.findByArn arn) fun _ => .ok (.nextRotation now) := by
  rw [@step_of_isEdit cipher accountId world (.secretRotation arn now) trivial, Operation.target,
    World.write.eq_def, World.write.eq_def]
  cases hfind : world.findByArn arn with
  | some secret => rfl
  | none =>
    change world.updateSecret ((Edit.nextRotation now).apply {}) = world
    rw [World.updateSecret, rewriteFirst_of_none]
    intro secret hmem
    exact decide_eq_false (hvalid.named secret hmem)

theorem secretId_ne_empty (name suffix : String) : name ++ "-" ++ suffix ≠ "" := by
  intro heq
  have hlength := congrArg String.length heq
  rw [String.length_append, String.length_append] at hlength
  have hdash : "-".length = 1 := rfl
  have hempty : "".length = 0 := rfl
  omega

theorem secrets_keyed (request : CreateSecretRequest) (draw : CreateSecretDraw) :
    (request.keyed world draw).2.secrets = world.secrets := by
  rw [CreateSecretRequest.keyed]
  split <;> rfl

theorem isValid_createSecret {request : CreateSecretRequest} {draw : CreateSecretDraw}
    (hvalid : world.IsValid)
    (hdraws : (Operation.createSecret request draw).DrawsNewIds world) :
    (step cipher accountId world (.createSecret request draw)).IsValid := by
  have hsecrets := @secrets_keyed world request draw
  have hkeyed : (request.keyed world draw).2.IsValid :=
    ⟨hsecrets ▸ hvalid.distinct, hsecrets ▸ hvalid.named, hsecrets ▸ hvalid.versions⟩
  rw [step_createSecret]
  split
  · exact hvalid
  · dsimp only
    split
    · exact hkeyed
    next secretString hstored =>
      refine ⟨?_, ?_, ?_⟩
      · rw [(secretIds_createSecret _ _).nodup_iff, List.nodup_cons, hsecrets]
        refine ⟨fun hmem => ?_, hvalid.distinct⟩
        obtain ⟨other, hother, heq⟩ := List.mem_map.mp hmem
        exact hdraws.2 other hother heq
      · intro secret hmem
        rcases mem_createSecret.mp hmem with rfl | hold
        · exact secretId_ne_empty _ _
        · exact hkeyed.named secret hold
      · intro secret hmem
        rcases mem_createSecret.mp hmem with rfl | hold
        · exact List.nodup_singleton _
        · exact hkeyed.versions secret hold

theorem isValid_checkRotations {tokens : Secret → String} {now : Int} (hvalid : world.IsValid) :
    (step cipher accountId world (.checkRotations tokens now)).IsValid := by
  have hsecrets := @step_checkRotations cipher accountId world tokens now hvalid.distinct
  refine ⟨?_, ?_, ?_⟩
  · rw [hsecrets, List.map_map]
    convert hvalid.distinct using 1
    refine List.map_congr_left fun secret _ => ?_
    rw [Function.comp_apply]
    split
    · exact Edit.secretId_apply _ _
    · rfl
  · rw [hsecrets]
    simp only [List.forall_mem_map]
    intro secret hmem
    split
    · rw [Edit.secretId_apply]
      exact hvalid.named secret hmem
    · exact hvalid.named secret hmem
  · rw [hsecrets]
    simp only [List.forall_mem_map]
    intro secret hmem
    split
    · rw [Edit.versions_apply]
      exact (hvalid.versions secret hmem).edit _
    · exact hvalid.versions secret hmem

/-- The stored secret that an operation edits; a rotation that is over finds one or none. -/
def Operation.found (accountId : String) (world : World) : Operation → Option Secret
  | secretRotation arn _ => world.findByArn arn
  | operation => operation.target accountId world

theorem mem_of_found {secret : Secret}
    (hfound : secret ∈ operation.found accountId world) : secret ∈ world.secrets := by
  cases operation with
  | createSecret request draw => cases hfound
  | checkRotations tokens now => cases hfound
  | updateSecret request uuid now => exact mem_of_findById hfound
  | updateSecretDetails request now => exact mem_of_findById hfound
  | _ => exact mem_of_findByArn hfound

theorem step_eq_write (hvalid : world.IsValid) (hedit : operation.IsEdit) :
    step cipher accountId world operation = world.write (operation.found accountId world)
        fun secret => operation.edit cipher world secret := by
  cases operation with
  | secretRotation arn now => exact step_secretRotation hvalid arn now
  | _ => exact step_of_isEdit hedit

theorem isValid_step (hvalid : world.IsValid) (hdraws : operation.DrawsNewIds world) :
    (step cipher accountId world operation).IsValid := by
  by_cases hedit : operation.IsEdit
  · rw [step_eq_write hvalid hedit]
    exact isValid_write hvalid fun secret hfound => mem_of_found hfound
  · cases operation with
    | createSecret request draw => exact isValid_createSecret hvalid hdraws
    | checkRotations tokens now => exact isValid_checkRotations hvalid
    | _ => exact absurd trivial hedit

end Valid

/-! ## A store with one secret -/

def sampleCipher : Cipher where
  aesEncrypt := fun _ text => 42 :: text
  aesDecrypt := fun _ text => text.tail
  rsaEncrypt := fun _ text => 42 :: text
  rsaDecrypt := fun _ text => text.tail
  hmac := fun _ _ text => 42 :: text

def sampleSecret : Operation :=
  .createSecret
    { region := "eu-central-1"
      name := "db"
      kmsKeyId := ""
      secretString := ascii "first"
      secretBinary := []
      description := "" }
    { versionId := "v1"
      suffix := "aB3dE6"
      keyId := "key"
      key := ⟨"aa", "bb", fun _ => ("cc", "dd"), fun _ => "ee"⟩
      place := 0
      now := 0 }

def samplePut (clientRequestToken : String) : Operation :=
  .putSecretValue
    { region := "eu-central-1"
      secretId := "db-aB3dE6"
      clientRequestToken := clientRequestToken
      versionStage := []
      secretString := ascii "next"
      secretBinary := [] } "uuid" 1

end AwsMock.SecretsManager
