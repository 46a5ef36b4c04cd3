import AwsMock.SecretsManager.Operations

/-! # The values of secrets

What was stored last in a version should be what is read from it. A ledger notes for every
version what the operations were asked to store; the values are read as they were stored where
the encoders and decoders on the way cancel.
-/

namespace AwsMock.SecretsManager

open Foundation Crypto

section Definitions

structure Cipher.IsLawful (cipher : Cipher) : Prop where
  aes : ∀ key text, cipher.aesDecrypt key (cipher.aesEncrypt key text) = text
  /-- The padding fills at least one block. -/
  aesBlock : ∀ key text, cipher.aesEncrypt key text ≠ []
  rsaBlock : ∀ key text, cipher.rsaEncrypt key text ≠ []
  hmacBlock : ∀ length key text, cipher.hmac length key text ≠ []

/-- A key gives back a text, where another text was handed to the crypto library for it. -/
def Cipher.Recovers (cipher : Cipher) (key : Kms.Key) (sent text : Bytes) : Prop :=
  match key.keySpec with
  | .symmetricDefault => sent = text
  | .rsa2048 | .rsa3072 | .rsa4096 =>
    cipher.rsaDecrypt key.rsaPrivateKey (cipher.rsaEncrypt key.rsaPublicKey sent) = text
  | .hmac224 | .hmac256 | .hmac384 | .hmac512 => text = []
  | .eccNistP256 | .eccNistP384 | .eccNistP521 | .eccSecgP256k1 => False

structure Value where
  secretString : Bytes
  secretBinary : Bytes
deriving DecidableEq, Repr

structure Stored where
  secretId : String
  versionId : String
  value : Value
deriving DecidableEq

abbrev Ledger := String → String → Option Value

def Ledger.note (ledger : Ledger) : Option Stored → Ledger
  | none => ledger
  | some stored => fun secretId versionId =>
    if stored.secretId = secretId ∧ stored.versionId = versionId then some stored.value
    else ledger secretId versionId

variable (cipher : Cipher) (accountId : String) (world : World)

def Operation.stores (operation : Operation) : Option Stored :=
  match operation with
  | createSecret request draw =>
    if request.IsRefused world then none
    else
      match request.stored cipher (request.keyed world draw).2 (request.keyed world draw).1 with
      | .error _ => none
      | .ok _ =>
        some ⟨request.name ++ "-" ++ draw.suffix, draw.versionId,
          ⟨request.secretString, request.secretBinary⟩⟩
  | putSecretValue request uuid _ =>
    (operation.found accountId world).bind fun secret =>
      match request.stored cipher world secret with
      | .error _ => none
      | .ok _ =>
        some ⟨secret.secretId, request.versionId uuid, ⟨request.secretString, request.secretBinary⟩⟩
  | updateSecret request uuid _ =>
    (operation.found accountId world).bind fun secret =>
      match request.stored cipher world secret with
      | .error _ => none
      | .ok _ =>
        some ⟨secret.secretId, uuid, ⟨request.secretString, request.secretBinary⟩⟩
  | updateSecretDetails request _ =>
    (operation.found accountId world).bind fun secret =>
      match request.stored cipher world secret with
      | .ok (some _) =>
        some ⟨secret.secretId, secret.versions.getCurrentVersionId, ⟨request.secretString, []⟩⟩
      | _ => none
  | _ => none

def Operation.key (operation : Operation) : Option Kms.Key :=
  match operation with
  | createSecret request draw =>
    (request.keyed world draw).2.findKey (request.keyed world draw).1
  | _ => (operation.found accountId world).bind fun secret => world.findKey secret.kmsKeyId

/-- What the key service makes of the string before it is encrypted: all operations but one
encode the string first. -/
def Operation.sent : Operation → Bytes → Bytes
  | updateSecret _ _ _, secretString => base64Decode secretString
  | _, secretString => secretString

/-- Reading the version gives the value, whichever way the version is asked for. -/
def Returns (secret : Secret) (versionId : String) (value : Value) : Prop :=
  ∀ (request : GetSecretValueRequest) (now : Int),
    world.findByArn (resolveArn request.region accountId request.secretId) = some secret →
      request.resolve secret = versionId →
        ((getSecretValue request accountId now).run (execute cipher) world).1 =
          .ok (.value secret.arn secret.name versionId value.secretString value.secretBinary
            (secret.versions.getVersion versionId).stages)

structure Account where
  world : World
  ledger : Ledger

def Account.step (account : Account) (operation : Operation) : Account where
  world := SecretsManager.step cipher accountId account.world operation
  ledger := account.ledger.note (operation.stores cipher accountId account.world)

def Account.ReturnsStored (account : Account) : Prop :=
  ∀ secret ∈ account.world.secrets, ∀ versionId value, versionId ≠ "" →
    account.ledger secret.secretId versionId = some value →
      Returns cipher accountId account.world secret versionId value

/-- What is drawn is new, also as a part of the name of a secret. -/
def Operation.DrawsNewNames (world : World) (operation : Operation) : Prop :=
  operation.DrawsNewIds world ∧
    match operation with
    | createSecret request draw =>
      draw.keyId ≠ "" ∧ world.findKey draw.keyId = none ∧ ∀ secret ∈ world.secrets,
          secret.arn ≠ createSecretArn request.region accountId (request.name ++ "-" ++ draw.suffix)
    | _ => True

def Operation.HeedsEncoding (operation : Operation) : Prop :=
  ∀ stored ∈ operation.stores cipher accountId world, stored.versionId ≠ "" →
    stored.value.secretBinary = [] ∧ ∃ key ∈ operation.key accountId world,
        cipher.Recovers key (operation.sent stored.value.secretString) stored.value.secretString

def Versions.valueOf (versions : Versions) (versionId : String) : Option Value :=
  (versions.find versionId).map fun version => ⟨version.secretString, version.secretBinary⟩

def Edit.target (versions : Versions) : Edit → Option String
  | put versionId _ _ _ _ => some versionId
  | update versionId _ _ _ _ _ => some versionId
  | details _ _ _ (some _) _ => some versions.getCurrentVersionId
  | _ => none

structure Readable (secret : Secret) (versionId : String) (value : Value) : Prop where
  string : ∃ key version, world.findKey secret.kmsKeyId = some key ∧
    secret.versions.valueOf versionId = some version ∧
      (version.secretString ≠ [] ∨ version.secretBinary ≠ []) ∧
        base64Decode (cipher.decryptPlaintext key version.secretString) = value.secretString
  binary : value.secretBinary = []

structure Account.IsValid (account : Account) : Prop where
  world : account.world.IsValid
  arns : (account.world.secrets.map Secret.arn).Nodup
  named : ∀ secret ∈ account.world.secrets, ∃ region,
    secret.arn = createSecretArn region accountId secret.secretId
  keyed : ∀ secret ∈ account.world.secrets, secret.kmsKeyId ≠ ""
  known : ∀ secretId versionId value, account.ledger secretId versionId = some value →
    ∃ secret ∈ account.world.secrets, secret.secretId = secretId

end Definitions

/-! ## Encoders and decoders -/

section Encoding

variable {cipher : Cipher} {key : Kms.Key} {text sent secretString : Bytes}

theorem base64Decode_eq_self_iff : base64Decode text = text ↔ text = [] := by
  constructor
  · intro heq
    have hlength := congrArg List.length heq
    rw [base64Decode] at hlength
    simp only [List.length_take] at hlength
    have hle : (text.takeWhile (· ≠ 0)).length ≤ text.length := (List.takeWhile_sublist _).length_le
    rw [← List.length_eq_zero_iff]
    omega
  · rintro rfl
    rfl

theorem base64Encode_ne_nil (hne : text ≠ []) : base64Encode text ≠ [] := by
  intro heq
  have hdecoded := base64Decode_base64Encode text
  rw [heq] at hdecoded
  exact hne hdecoded.symm

theorem recovers_iff {encoded binary : Bytes} (hlawful : cipher.IsLawful)
    (hsent : base64Decode encoded = sent) (hbinary : binary = [] ∨ text ≠ []) :
    ((cipher.encryptPlaintext key encoded ≠ [] ∨ binary ≠ []) ∧
        base64Decode (cipher.decryptPlaintext key (cipher.encryptPlaintext key encoded)) = text) ↔
      cipher.Recovers key sent text := by
  have hblank : base64Decode [] = [] := rfl
  rw [Cipher.encryptPlaintext, Cipher.decryptPlaintext, Cipher.Recovers, hsent]
  cases key.keySpec with
  | symmetricDefault =>
    dsimp only
    rw [base64Decode_base64Encode, base64Decode_base64Encode, hlawful.aes]
    exact and_iff_right (Or.inl (base64Encode_ne_nil (hlawful.aesBlock _ _)))
  | rsa2048 | rsa3072 | rsa4096 =>
    dsimp only
    rw [base64Decode_base64Encode, base64Decode_base64Encode]
    exact and_iff_right (Or.inl (base64Encode_ne_nil (hlawful.rsaBlock _ _)))
  | hmac224 | hmac256 | hmac384 | hmac512 =>
    dsimp only
    rw [hblank, eq_comm (a := [])]
    exact and_iff_right (Or.inl (base64Encode_ne_nil (hlawful.hmacBlock _ _ _)))
  | eccNistP256 | eccNistP384 | eccNistP521 | eccSecgP256k1 =>
    dsimp only
    rw [hblank, iff_false]
    rintro ⟨hvalue, rfl⟩
    rcases hbinary with rfl | hne
    · exact hvalue.elim (fun hne => hne rfl) fun hne => hne rfl
    · exact hne rfl

end Encoding

/-! ## What an edit leaves -/

section Frames

variable {versions : Versions} {versionId other : String} {value : Value}
  {change : SecretVersion → SecretVersion}

theorem valueOf_put (version : SecretVersion) :
    (versions.put versionId version).valueOf other =
      if versionId = other then some ⟨version.secretString, version.secretBinary⟩
      else versions.valueOf other := by
  rw [Versions.valueOf, Versions.find_put]
  split <;> rfl

theorem valueOf_resetVersions :
    (versions.resetVersions versionId).valueOf other = versions.valueOf other := by
  rw [Versions.valueOf, Versions.find_resetVersions, Option.map_map, Versions.valueOf]
  refine congrArg (fun f => Option.map f (versions.find other)) ?_
  funext version
  rw [Function.comp_apply]
  split <;> rfl

theorem valueOf_modify (hchange : ∀ version, (change version).secretString = version.secretString ∧
      (change version).secretBinary = version.secretBinary)
    (hvalue : versions.valueOf other = some value) :
    (versions.modify versionId change).valueOf other = some value := by
  rw [Versions.modify, valueOf_put]
  split
  next heq =>
    subst heq
    rw [Versions.valueOf] at hvalue
    obtain ⟨version, hfind, rfl⟩ := Option.map_eq_some_iff.mp hvalue
    rw [Versions.getVersion, hfind, Option.getD_some, (hchange version).1, (hchange version).2]
  next => exact hvalue

theorem valueOf_versions (edit : Edit) (hother : edit.target versions ≠ some other)
    (hvalue : versions.valueOf other = some value) :
    (edit.versions versions).valueOf other = some value := by
  cases edit with
  | access now => exact hvalue
  | nextRotation now => exact hvalue
  | put versionId versionStage secretString secretBinary now =>
    have hne : versionId ≠ other := fun heq => hother (congrArg some heq)
    rw [Edit.versions, Edit.putVersions]
    split
    · rw [valueOf_put, if_neg hne]
      exact valueOf_modify (fun _ => ⟨rfl, rfl⟩) hvalue
    · rw [valueOf_put, if_neg hne]
      exact hvalue
  | update versionId secretString secretBinary description rotationEnabled now =>
    have hne : versionId ≠ other := fun heq => hother (congrArg some heq)
    rw [Edit.versions, valueOf_resetVersions, valueOf_put, if_neg hne]
    exact hvalue
  | details rotationEnabled rotationRules rotationLambdaARN secretString now =>
    cases secretString with
    | none => exact hvalue
    | some secretString =>
      have hne : versions.getCurrentVersionId ≠ other := fun heq => hother (congrArg some heq)
      rw [Edit.versions, Versions.modify, valueOf_put, if_neg hne]
      exact hvalue
  | rotate clientRequestToken rotationLambdaARN now =>
    rw [Edit.versions, Edit.pendVersion]
    exact valueOf_modify (fun _ => ⟨rfl, rfl⟩) hvalue
  | checkRotation clientRequestToken now =>
    rw [Edit.versions, Edit.pendVersion]
    exact valueOf_modify (fun _ => ⟨rfl, rfl⟩) hvalue
  | moveStage moveToVersionId versionStage removeFromVersionId now =>
    rw [Edit.versions, Edit.moveVersions]
    split
    · refine valueOf_modify (fun _ => ⟨rfl, rfl⟩) ?_
      rw [valueOf_resetVersions]
      exact hvalue
    · have hmoved : (versions.modify moveToVersionId fun version =>
          if versionStage ∈ version.stages then version
          else { version with stages := version.stages ++ [versionStage] }).valueOf other =
            some value := by
        refine valueOf_modify (fun version => ?_) hvalue
        split <;> exact ⟨rfl, rfl⟩
      dsimp only
      split
      · exact valueOf_modify (fun _ => ⟨rfl, rfl⟩) hmoved
      · exact hmoved

end Frames

/-! ## Reading -/

section Reading

variable {cipher : Cipher} {accountId : String} {world : World} {secret : Secret}
  {versionId : String} {value : Value}

theorem contains_append {first marker : String} (hcontains : StringUtils.contains first marker = true)
    (second : String) : StringUtils.contains (first ++ second) marker = true := by
  rw [StringUtils.contains, decide_eq_true_iff] at hcontains ⊢
  rw [String.toList_append]
  exact hcontains.trans (List.prefix_append _ _).isInfix

theorem contains_createSecretArn (region secretId : String) :
    StringUtils.contains (createSecretArn region accountId secretId) ":" = true := by
  have hcolon : StringUtils.contains "arn:aws:secretsmanager:" ":" = true := by decide +kernel
  unfold createSecretArn
  exact contains_append (contains_append (contains_append (contains_append
    (contains_append hcolon _) _) _) _) _

theorem hasVersion_of_valueOf {version : Value}
    (hvalue : secret.versions.valueOf versionId = some version) :
    secret.versions.hasVersion versionId = true ∧
      (secret.versions.getVersion versionId).secretString = version.secretString ∧
      (secret.versions.getVersion versionId).secretBinary = version.secretBinary := by
  rw [Versions.valueOf] at hvalue
  obtain ⟨found, hfind, rfl⟩ := Option.map_eq_some_iff.mp hvalue
  rw [Versions.hasVersion, Versions.getVersion, hfind]
  exact ⟨rfl, rfl, rfl⟩

variable (request : GetSecretValueRequest)

theorem answer_of_readable (hkeyed : secret.kmsKeyId ≠ "")
    (hne : versionId ≠ "") (hresolve : request.resolve secret = versionId)
    (hreadable : Readable cipher world secret versionId value) :
    request.answer cipher world secret =
      .ok (.value secret.arn secret.name versionId value.secretString value.secretBinary
        (secret.versions.getVersion versionId).stages) := by
  obtain ⟨⟨key, version, hkey, hvalue, hblank, hdecode⟩, hbinary⟩ := hreadable
  obtain ⟨hversion, hstring, hother⟩ := hasVersion_of_valueOf hvalue
  have hfound : ¬(request.versionId ≠ "" ∧
      secret.versions.hasVersion request.versionId = false) := by
    rintro ⟨hid, hmissing⟩
    rw [GetSecretValueRequest.resolve, if_pos hid] at hresolve
    rw [hresolve, hversion] at hmissing
    cases hmissing
  rw [GetSecretValueRequest.answer, if_neg hfound, hresolve]
  dsimp only
  rw [hstring, hother, if_neg, if_pos hkeyed, World.decrypt, hkey]
  · dsimp only [Except.map]
    rw [hdecode, hbinary]
  · rintro (hempty | ⟨hempty, hnone⟩)
    · exact hne hempty
    · exact hblank.elim (fun hstring => hstring hempty) fun hbinary => hbinary hnone

theorem readable_of_answer (hkeyed : secret.kmsKeyId ≠ "")
    (hid : request.versionId = versionId) (hne : versionId ≠ "") {stages : List String}
    (hanswer : request.answer cipher world secret =
      .ok (.value secret.arn secret.name versionId value.secretString value.secretBinary stages)) :
    Readable cipher world secret versionId value := by
  have hresolve : request.resolve secret = versionId := by
    rw [GetSecretValueRequest.resolve, hid, if_pos hne]
  rw [GetSecretValueRequest.answer, hresolve, hid] at hanswer
  dsimp only at hanswer
  split at hanswer
  · cases hanswer
  next hfound =>
    split at hanswer
    · cases hanswer
    next hblank =>
      rw [World.decrypt] at hanswer
      cases hversion : secret.versions.find versionId with
      | none =>
        rw [Versions.hasVersion, hversion] at hfound
        exact absurd ⟨hne, rfl⟩ hfound
      | some version =>
        rw [Versions.getVersion, hversion, Option.getD_some] at hblank hanswer
        cases hkey : world.findKey secret.kmsKeyId with
        | none =>
          rw [hkey] at hanswer
          cases hanswer
        | some key =>
          rw [hkey] at hanswer
          have hresponse := Except.ok.inj hanswer
          injection hresponse with _ _ _ hstring hbinary
          refine ⟨⟨key, ⟨version.secretString, version.secretBinary⟩, hkey, ?_, ?_, hstring⟩,
            hbinary.symm⟩
          · rw [Versions.valueOf, hversion]
            rfl
          · rw [not_or, not_and_or] at hblank
            exact hblank.2

variable {account : Account}

theorem returns_iff_readable (hvalid : account.IsValid accountId)
    (hmem : secret ∈ account.world.secrets) (hne : versionId ≠ "") :
    Returns cipher accountId account.world secret versionId value ↔
      Readable cipher account.world secret versionId value := by
  have hkeyed := hvalid.keyed secret hmem
  constructor
  · intro hreturns
    obtain ⟨region, harn⟩ := hvalid.named secret hmem
    have hresolve : resolveArn "" accountId secret.arn = secret.arn := by
      rw [resolveArn, harn, contains_createSecretArn, if_pos rfl]
    have hfind : account.world.findByArn secret.arn = some secret :=
      findKey_of_mem hvalid.arns hmem
    have hrun := hreturns ⟨"", secret.arn, versionId, ""⟩ 0 (hresolve.symm ▸ hfind) (if_pos hne)
    rw [run_getSecretValue] at hrun
    dsimp only at hrun
    rw [hresolve, hfind] at hrun
    dsimp only at hrun
    refine @readable_of_answer cipher account.world secret versionId value
      ⟨"", secret.arn, versionId, ""⟩ hkeyed rfl hne
      (secret.versions.getVersion versionId).stages ?_
    split at hrun
    · cases hrun
    next response hanswer =>
      rw [hanswer]
      exact hrun
  · intro hreadable request now hfind hresolve
    rw [run_getSecretValue]
    dsimp only
    rw [hfind]
    dsimp only
    rw [answer_of_readable request hkeyed hne hresolve hreadable]

end Reading

end AwsMock.SecretsManager
