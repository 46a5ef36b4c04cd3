import AwsMock.Foundation.Traverse
import AwsMock.SecretsManager.Values

/-! # Reading what was stored last

The ledger and the store go through a run together: what an operation leaves of the other
values, what it stores itself, and from both what a whole run returns.
-/

namespace AwsMock.SecretsManager

open Foundation Crypto

/-! ## What an operation leaves -/

section Steps

variable {cipher : Cipher} {accountId : String} {world : World} {operation : Operation}
  {secret : Secret} {keyId : String} {key : Kms.Key}

/-- Where a secret comes from that is there after an operation. -/
inductive Origin (cipher : Cipher) (accountId : String) (world : World) (operation : Operation)
    (secret : Secret) : Prop
  | kept (hmem : secret ∈ world.secrets)
  | edited (before : Secret) (edit : Edit) (hmem : before ∈ world.secrets)
      (heq : secret = edit.apply before)
      (htarget : ∀ versionId, edit.target before.versions = some versionId → ∃ value,
        operation.stores cipher accountId world = some ⟨before.secretId, versionId, value⟩)
  | created (request : CreateSecretRequest) (draw : CreateSecretDraw) (secretString : Bytes)
      (hoperation : operation = .createSecret request draw)
      (heq : secret = request.secret accountId draw (request.keyed world draw).1 secretString)
      (hstores : operation.stores cipher accountId world =
        some ⟨request.name ++ "-" ++ draw.suffix, draw.versionId,
          ⟨request.secretString, request.secretBinary⟩⟩)

theorem encrypt_eq_ok {plaintext ciphertext : Bytes} :
    world.encrypt cipher keyId plaintext = .ok ciphertext ↔
      ∃ key, world.findKey keyId = some key ∧ ciphertext = cipher.encryptPlaintext key plaintext := by
  rw [World.encrypt]
  cases world.findKey keyId with
  | none => simp
  | some key => simp [eq_comm]

variable {stored : Stored} {versionId : String} {value : Value}

theorem target_edit {edit : Edit} (hfound : operation.found accountId world = some secret)
    (hedit : operation.edit cipher world secret = .ok edit)
    (htarget : edit.target secret.versions = some versionId) :
    ∃ value, operation.stores cipher accountId world =
      some ⟨secret.secretId, versionId, value⟩ := by
  cases operation with
  | createSecret request draw => cases hfound
  | checkRotations tokens now => cases hfound
  | getSecretValue request now =>
    obtain ⟨response, -, rfl⟩ := map_eq_ok.mp hedit
    cases htarget
  | putSecretValue request uuid now =>
    obtain ⟨stored, hstored, rfl⟩ := map_eq_ok.mp hedit
    rw [Operation.stores, hfound, Option.bind_some, hstored]
    cases htarget
    exact ⟨_, rfl⟩
  | updateSecret request uuid now =>
    obtain ⟨stored, hstored, rfl⟩ := map_eq_ok.mp hedit
    rw [Operation.stores, hfound, Option.bind_some, hstored]
    cases htarget
    exact ⟨_, rfl⟩
  | updateSecretDetails request now =>
    obtain ⟨stored, hstored, rfl⟩ := map_eq_ok.mp hedit
    rw [Operation.stores, hfound, Option.bind_some, hstored]
    cases stored with
    | none => cases htarget
    | some secretString =>
      cases htarget
      exact ⟨_, rfl⟩
  | rotateSecret request now =>
    cases hedit
    cases htarget
  | secretRotation arn now =>
    cases hedit
    cases htarget
  | updateSecretVersionStage request now =>
    rw [Operation.edit] at hedit
    split at hedit
    · cases hedit
      cases htarget
    · cases hedit

theorem origin_of_mem (hvalid : world.IsValid)
    (hmem : secret ∈ (step cipher accountId world operation).secrets) :
    Origin cipher accountId world operation secret := by
  by_cases hisEdit : operation.IsEdit
  · rw [step_eq_write hvalid hisEdit, World.write.eq_def] at hmem
    split at hmem
    · exact .kept hmem
    next before hfound =>
      split at hmem
      · exact .kept hmem
      next edit hedit =>
        rcases of_mem_updateSecret hmem with hkept | heq
        · exact .kept hkept
        · exact .edited before edit (mem_of_found hfound) heq
            fun versionId htarget => target_edit hfound hedit htarget
  · cases operation with
    | createSecret request draw =>
      rw [step_createSecret] at hmem
      split at hmem
      · exact .kept hmem
      next hrefused =>
        dsimp only at hmem
        split at hmem
        · rw [secrets_keyed] at hmem
          exact .kept hmem
        next secretString hstored =>
          rcases mem_createSecret.mp hmem with heq | hkept
          · refine .created request draw secretString rfl heq ?_
            rw [Operation.stores, if_neg hrefused, hstored]
          · rw [secrets_keyed] at hkept
            exact .kept hkept
    | checkRotations tokens now =>
      rw [step_checkRotations tokens now hvalid.distinct] at hmem
      obtain ⟨before, hbefore, heq⟩ := List.mem_map.mp hmem
      split at heq
      · refine .edited before _ hbefore heq.symm ?_
        rintro versionId ⟨⟩
      · exact .kept (heq ▸ hbefore)
    | _ => exact absurd trivial hisEdit

theorem keys_rotateDue (tokens : Secret → String) (now : Int) (secrets : List Secret) :
    ((rotateDue tokens now secrets).run (execute cipher) world).2.keys = world.keys := by
  induction secrets generalizing world with
  | nil => rfl
  | cons secret secrets ih =>
    rw [rotateDue]
    split
    · rw [run_updateSecret, ih]
      rfl
    · exact ih

theorem findKey_keyed (request : CreateSecretRequest) (draw : CreateSecretDraw)
    (hfind : world.findKey keyId = some key) :
    (request.keyed world draw).2.findKey keyId = some key := by
  rw [CreateSecretRequest.keyed]
  split
  · rw [World.findKey, findKey, List.find?_append]
    rw [World.findKey, findKey] at hfind
    rw [hfind]
    rfl
  · exact hfind

theorem findKey_step (hvalid : world.IsValid) (hfind : world.findKey keyId = some key) :
    (step cipher accountId world operation).findKey keyId = some key := by
  by_cases hisEdit : operation.IsEdit
  · rw [step_eq_write hvalid hisEdit, World.write.eq_def]
    split
    · exact hfind
    · split
      · exact hfind
      · exact hfind
  · cases operation with
    | createSecret request draw =>
      have hkeyed := findKey_keyed request draw hfind
      rw [step_createSecret]
      split
      · exact hfind
      · dsimp only
        split
        · exact hkeyed
        · exact hkeyed
    | checkRotations tokens now =>
      have hkeys := @keys_rotateDue cipher world tokens now world.secrets
      rw [World.findKey] at hfind ⊢
      rw [← hfind]
      exact congrArg (findKey Kms.Key.keyId keyId) hkeys
    | _ => exact absurd trivial hisEdit

theorem readable_iff_recovers (hlawful : cipher.IsLawful)
    {encoded sent binary : Bytes} (hkey : world.findKey secret.kmsKeyId = some key)
    (hvalue : secret.versions.valueOf versionId =
      some ⟨cipher.encryptPlaintext key encoded, binary⟩)
    (hsent : base64Decode encoded = sent) (hbinary : binary = [] ∨ value.secretString ≠ []) :
    Readable cipher world secret versionId value ↔
      value.secretBinary = [] ∧ cipher.Recovers key sent value.secretString := by
  rw [← recovers_iff hlawful hsent hbinary]
  constructor
  · rintro ⟨⟨other, version, hother, hversion, hblank, hdecode⟩, hnone⟩
    rw [hkey] at hother
    rw [hvalue] at hversion
    obtain rfl := Option.some.inj hother
    obtain rfl := Option.some.inj hversion
    exact ⟨hnone, hblank, hdecode⟩
  · rintro ⟨hnone, hblank, hdecode⟩
    exact ⟨⟨key, _, hkey, hvalue, hblank, hdecode⟩, hnone⟩

theorem readable_iff_of_binary {P : Prop} (hbinary : value.secretBinary ≠ []) :
    Readable cipher world secret versionId value ↔ value.secretBinary = [] ∧ P :=
  ⟨fun hreadable => absurd hreadable.binary hbinary, fun hboth => absurd hboth.1 hbinary⟩

structure IsStoredIn (cipher : Cipher) (accountId : String) (world : World)
    (operation : Operation) (stored : Stored) (secret : Secret) : Prop where
  mem : secret ∈ (step cipher accountId world operation).secrets
  secretId : secret.secretId = stored.secretId
  readable : Readable cipher (step cipher accountId world operation) secret stored.versionId
    stored.value ↔ stored.value.secretBinary = [] ∧ ∃ key ∈ operation.key accountId world,
      cipher.Recovers key (operation.sent stored.value.secretString) stored.value.secretString

theorem key_of_isEdit (hisEdit : operation.IsEdit)
    (hfound : operation.found accountId world = some secret) :
    operation.key accountId world = world.findKey secret.kmsKeyId := by
  cases operation with
  | createSecret request draw => exact hisEdit.elim
  | checkRotations tokens now => exact hisEdit.elim
  | _ =>
    change Option.bind (Operation.found accountId world _) _ = _
    rw [hfound, Option.bind_some]

variable (hlawful : cipher.IsLawful)
include hlawful

section

variable (hvalid : world.IsValid)
include hvalid

theorem isStoredIn_edit
    (hisEdit : operation.IsEdit) (hfound : operation.found accountId world = some secret)
    {edit : Edit} (hedit : operation.edit cipher world secret = .ok edit)
    {encoded binary : Bytes} (hkey : world.findKey secret.kmsKeyId = some key)
    (hvalue : (edit.versions secret.versions).valueOf versionId =
      some ⟨cipher.encryptPlaintext key encoded, binary⟩)
    (hsent : base64Decode encoded = operation.sent value.secretString)
    (hbinary : value.secretBinary = [] → binary = [] ∨ value.secretString ≠ []) :
    IsStoredIn cipher accountId world operation ⟨secret.secretId, versionId, value⟩
      (edit.apply secret) := by
  have hstep : step cipher accountId world operation = world.updateSecret (edit.apply secret) := by
    rw [step_eq_write hvalid hisEdit, hfound, World.write.eq_def]
    dsimp only
    rw [hedit]
  refine ⟨?_, Edit.secretId_apply edit secret, ?_⟩
  · rw [hstep]
    exact mem_updateSecret (mem_of_found hfound) edit
  · dsimp only
    by_cases hnone : value.secretBinary = []
    · have hafter := @findKey_step cipher accountId world operation _ _ hvalid hkey
      rw [← Edit.kmsKeyId_apply edit secret] at hafter
      rw [readable_iff_recovers hlawful hafter (by rw [Edit.versions_apply]; exact hvalue) hsent
        (hbinary hnone), key_of_isEdit hisEdit hfound, hkey]
      simp
    · exact readable_iff_of_binary hnone

theorem isStoredIn_put
    (hkeyed : ∀ secret ∈ world.secrets, secret.kmsKeyId ≠ "") {request : PutSecretValueRequest}
    {uuid : String} {now : Int}
    (hstores : (Operation.putSecretValue request uuid now).stores cipher accountId world =
      some stored) :
    ∃ secret, IsStoredIn cipher accountId world (.putSecretValue request uuid now) stored
      secret := by
  rw [Operation.stores] at hstores
  obtain ⟨secret, hfound, hstores⟩ := Option.bind_eq_some_iff.mp hstores
  split at hstores
  · cases hstores
  next written hencrypted =>
    obtain rfl := Option.some.inj hstores
    have hedit : (Operation.putSecretValue request uuid now).edit cipher world secret =
        .ok (.put (request.versionId uuid) request.versionStage written.1 written.2 now) :=
      map_eq_ok.mpr ⟨written, hencrypted, rfl⟩
    rw [PutSecretValueRequest.stored, if_pos (hkeyed secret (mem_of_found hfound))] at hencrypted
    obtain ⟨ciphertext, hcipher, rfl⟩ := map_eq_ok.mp hencrypted
    obtain ⟨key, hkey, rfl⟩ := encrypt_eq_ok.mp hcipher
    have hvalue : ((Edit.put (request.versionId uuid) request.versionStage
        (cipher.encryptPlaintext key (base64Encode request.secretString)) []
        now).versions secret.versions).valueOf (request.versionId uuid) =
          some ⟨cipher.encryptPlaintext key (base64Encode request.secretString), []⟩ := by
      rw [Edit.versions, Edit.putVersions]
      split
      · rw [valueOf_put, if_pos rfl]
      · rw [valueOf_put, if_pos rfl]
    exact ⟨_, isStoredIn_edit hlawful hvalid (by trivial) hfound hedit hkey hvalue
      (base64Decode_base64Encode _) fun _ => Or.inl rfl⟩

theorem isStoredIn_update
    (hkeyed : ∀ secret ∈ world.secrets, secret.kmsKeyId ≠ "") {request : UpdateSecretRequest}
    {uuid : String} {now : Int}
    (hstores : (Operation.updateSecret request uuid now).stores cipher accountId world =
      some stored) :
    ∃ secret, IsStoredIn cipher accountId world (.updateSecret request uuid now) stored
      secret := by
  rw [Operation.stores] at hstores
  obtain ⟨secret, hfound, hstores⟩ := Option.bind_eq_some_iff.mp hstores
  split at hstores
  · cases hstores
  next written hencrypted =>
    obtain rfl := Option.some.inj hstores
    have hedit : (Operation.updateSecret request uuid now).edit cipher world secret =
        .ok (.update uuid written request.secretBinary request.description
          request.rotationEnabled now) := map_eq_ok.mpr ⟨written, hencrypted, rfl⟩
    rw [UpdateSecretRequest.stored, if_pos (hkeyed secret (mem_of_found hfound))] at hencrypted
    obtain ⟨key, hkey, rfl⟩ := encrypt_eq_ok.mp hencrypted
    have hvalue : ((Edit.update uuid (cipher.encryptPlaintext key request.secretString)
        request.secretBinary request.description request.rotationEnabled now).versions
        secret.versions).valueOf uuid =
          some ⟨cipher.encryptPlaintext key request.secretString, request.secretBinary⟩ := by
      rw [Edit.versions, valueOf_resetVersions, valueOf_put, if_pos rfl]
    exact ⟨_, isStoredIn_edit hlawful hvalid (by trivial) hfound hedit hkey hvalue rfl
      fun hnone => Or.inl hnone⟩

theorem isStoredIn_details
    {request : UpdateSecretDetailsRequest} {now : Int}
    (hstores : (Operation.updateSecretDetails request now).stores cipher accountId world =
      some stored) :
    ∃ secret, IsStoredIn cipher accountId world (.updateSecretDetails request now) stored
      secret := by
  rw [Operation.stores] at hstores
  obtain ⟨secret, hfound, hstores⟩ := Option.bind_eq_some_iff.mp hstores
  split at hstores
  next ciphertext hencrypted =>
    obtain rfl := Option.some.inj hstores
    have hedit : (Operation.updateSecretDetails request now).edit cipher world secret =
        .ok (.details request.rotationEnabled request.rotationRules
          request.rotationLambdaARN (some ciphertext) now) :=
      map_eq_ok.mpr ⟨_, hencrypted, rfl⟩
    rw [UpdateSecretDetailsRequest.stored] at hencrypted
    split at hencrypted
    next hstring =>
      obtain ⟨encoded, hcipher, hencoded⟩ := map_eq_ok.mp hencrypted
      obtain rfl := Option.some.inj hencoded
      obtain ⟨key, hkey, rfl⟩ := encrypt_eq_ok.mp hcipher
      have hvalue : ((Edit.details request.rotationEnabled request.rotationRules
          request.rotationLambdaARN
          (some (cipher.encryptPlaintext key (base64Encode request.secretString)))
          now).versions secret.versions).valueOf secret.versions.getCurrentVersionId =
            some ⟨cipher.encryptPlaintext key (base64Encode request.secretString),
              (secret.versions.getVersion
                secret.versions.getCurrentVersionId).secretBinary⟩ := by
        rw [Edit.versions, Versions.modify, valueOf_put, if_pos rfl]
      exact ⟨_, isStoredIn_edit hlawful hvalid (by trivial) hfound hedit hkey hvalue
        (base64Decode_base64Encode _) fun _ => Or.inr hstring⟩
    next => cases Except.ok.inj hencrypted
  · cases hstores

end

theorem isStoredIn_create {request : CreateSecretRequest}
    {draw : CreateSecretDraw}
    (hstores : (Operation.createSecret request draw).stores cipher accountId world = some stored) :
    ∃ secret, IsStoredIn cipher accountId world (.createSecret request draw) stored secret := by
  rw [Operation.stores] at hstores
  split at hstores
  · cases hstores
  next hrefused =>
    cases hencrypted : request.stored cipher (request.keyed world draw).2
      (request.keyed world draw).1 with
    | error exn =>
      rw [hencrypted] at hstores
      cases hstores
    | ok secretString =>
      rw [hencrypted] at hstores
      obtain rfl := Option.some.inj hstores
      have hstep : step cipher accountId world (.createSecret request draw) =
          (request.keyed world draw).2.createSecret draw.place
            (request.secret accountId draw (request.keyed world draw).1 secretString) := by
        rw [step_createSecret, if_neg hrefused]
        dsimp only
        rw [hencrypted]
      refine ⟨request.secret accountId draw (request.keyed world draw).1 secretString, ?_, rfl, ?_⟩
      · rw [hstep]
        exact mem_createSecret.mpr (Or.inl rfl)
      · dsimp only
        by_cases hnone : request.secretBinary = []
        · have hstring : request.secretString ≠ [] := by
            intro hempty
            exact hrefused (Or.inr (Or.inr ⟨hempty, hnone⟩))
          rw [CreateSecretRequest.stored, if_pos hstring] at hencrypted
          obtain ⟨key, hkey, rfl⟩ := encrypt_eq_ok.mp hencrypted
          have hvalue : (request.secret accountId draw (request.keyed world draw).1
              (cipher.encryptPlaintext key (base64Encode request.secretString))).versions.valueOf
                draw.versionId =
                  some ⟨cipher.encryptPlaintext key (base64Encode request.secretString), []⟩ := by
            rw [Versions.valueOf, Versions.find, CreateSecretRequest.secret, findKey_cons,
              if_pos rfl, if_neg hstring]
            rfl
          have hafter : (step cipher accountId world (.createSecret request draw)).findKey
              (request.keyed world draw).1 = some key := by
            rw [hstep]
            exact hkey
          rw [readable_iff_recovers hlawful hafter hvalue (base64Decode_base64Encode _)
            (Or.inl rfl), Operation.key, hkey]
          simp [Operation.sent]
        · exact readable_iff_of_binary hnone

theorem exists_isStoredIn (hvalid : world.IsValid)
    (hkeyed : ∀ secret ∈ world.secrets, secret.kmsKeyId ≠ "")
    (hstores : operation.stores cipher accountId world = some stored) :
    ∃ secret, IsStoredIn cipher accountId world operation stored secret := by
  cases operation with
  | createSecret request draw => exact isStoredIn_create hlawful hstores
  | putSecretValue request uuid now => exact isStoredIn_put hlawful hvalid hkeyed hstores
  | updateSecret request uuid now => exact isStoredIn_update hlawful hvalid hkeyed hstores
  | updateSecretDetails request now => exact isStoredIn_details hlawful hvalid hstores
  | _ => cases hstores

end Steps

/-! ## Runs -/

section Runs

variable {cipher : Cipher} {accountId : String} {account : Account} {operation : Operation}

theorem note_of_some {ledger : Ledger} {stored : Stored} {secretId versionId : String}
    {value : Value} (hnote : ledger.note (some stored) secretId versionId = some value) :
    stored = ⟨secretId, versionId, value⟩ ∨ ledger secretId versionId = some value := by
  rw [Ledger.note] at hnote
  dsimp only at hnote
  split at hnote
  next hsame =>
    obtain ⟨rfl, rfl⟩ := hsame
    obtain rfl := Option.some.inj hnote
    exact Or.inl rfl
  next => exact Or.inr hnote

theorem arns_updateSecret {world : World} {secret : Secret} (hvalid : world.IsValid)
    (hmem : secret ∈ world.secrets) (edit : Edit) :
    (world.updateSecret (edit.apply secret)).secrets.map Secret.arn =
      world.secrets.map Secret.arn := by
  rw [World.updateSecret, map_rewriteFirst_of_preserved]
  intro other hother hsame
  have hid := of_decide_eq_true hsame
  rw [Edit.secretId_apply] at hid
  rw [Edit.arn_apply, List.inj_on_of_nodup_map hvalid.distinct hother hmem hid]

theorem arns_step {world : World} (hvalid : world.IsValid)
    (harns : (world.secrets.map Secret.arn).Nodup)
    (hdraws : operation.DrawsNewNames accountId world) :
    ((step cipher accountId world operation).secrets.map Secret.arn).Nodup := by
  by_cases hisEdit : operation.IsEdit
  · rw [step_eq_write hvalid hisEdit, World.write.eq_def]
    split
    · exact harns
    next secret hfound =>
      split
      · exact harns
      next edit hedit =>
        rw [arns_updateSecret hvalid (mem_of_found hfound)]
        exact harns
  · cases operation with
    | createSecret request draw =>
      have hkeyed : ((request.keyed world draw).2.secrets.map Secret.arn).Nodup := by
        rw [secrets_keyed]
        exact harns
      rw [step_createSecret]
      split
      · exact harns
      · dsimp only
        split
        · exact hkeyed
        · rw [World.createSecret, (List.Perm.map Secret.arn List.perm_middle).nodup_iff,
            List.take_append_drop, List.map_cons, List.nodup_cons]
          refine ⟨fun hmem => ?_, hkeyed⟩
          rw [secrets_keyed] at hmem
          obtain ⟨other, hother, heq⟩ := List.mem_map.mp hmem
          exact hdraws.2.2.2 other hother heq
    | checkRotations tokens now =>
      rw [step_checkRotations tokens now hvalid.distinct, List.map_map]
      convert harns using 1
      refine List.map_congr_left fun secret _ => ?_
      rw [Function.comp_apply]
      split
      · exact Edit.arn_apply _ _
      · rfl
    | _ => exact absurd trivial hisEdit

theorem exists_secret_step {world : World} (hvalid : world.IsValid) {secret : Secret}
    (hmem : secret ∈ world.secrets) :
    ∃ after ∈ (step cipher accountId world operation).secrets,
      after.secretId = secret.secretId := by
  by_cases hisEdit : operation.IsEdit
  · rw [step_eq_write hvalid hisEdit, World.write.eq_def]
    split
    · exact ⟨secret, hmem, rfl⟩
    next before hfound =>
      split
      · exact ⟨secret, hmem, rfl⟩
      next edit hedit =>
        have hid := List.mem_map_of_mem (f := Secret.secretId) hmem
        rw [← secretIds_updateSecret (edit.apply before)] at hid
        exact List.mem_map.mp hid
  · cases operation with
    | createSecret request draw =>
      rw [step_createSecret]
      split
      · exact ⟨secret, hmem, rfl⟩
      · dsimp only
        split
        · exact ⟨secret, @secrets_keyed world request draw ▸ hmem, rfl⟩
        · refine ⟨secret, mem_createSecret.mpr (Or.inr ?_), rfl⟩
          rw [secrets_keyed]
          exact hmem
    | checkRotations tokens now =>
      rw [step_checkRotations tokens now hvalid.distinct]
      refine ⟨_, List.mem_map_of_mem hmem, ?_⟩
      split
      · exact Edit.secretId_apply _ _
      · rfl
    | _ => exact absurd trivial hisEdit

theorem isValid_account_step (hlawful : cipher.IsLawful) (hvalid : account.IsValid accountId)
    (hdraws : operation.DrawsNewNames accountId account.world) :
    (account.step cipher accountId operation).IsValid accountId := by
  refine ⟨isValid_step hvalid.world hdraws.1, arns_step hvalid.world hvalid.arns hdraws, ?_, ?_, ?_⟩
  · intro secret hmem
    cases origin_of_mem hvalid.world hmem with
    | kept hkept => exact hvalid.named secret hkept
    | edited before edit hbefore heq htarget =>
      rw [heq, Edit.arn_apply, Edit.secretId_apply]
      exact hvalid.named before hbefore
    | created request draw secretString hoperation heq hstores =>
      rw [heq]
      exact ⟨request.region, rfl⟩
  · intro secret hmem
    cases origin_of_mem hvalid.world hmem with
    | kept hkept => exact hvalid.keyed secret hkept
    | edited before edit hbefore heq htarget =>
      rw [heq, Edit.kmsKeyId_apply]
      exact hvalid.keyed before hbefore
    | created request draw secretString hoperation heq hstores =>
      subst hoperation heq
      change (request.keyed account.world draw).1 ≠ ""
      rw [CreateSecretRequest.keyed]
      split
      · exact hdraws.2.1
      next hkey => exact hkey
  · intro secretId versionId value hledger
    rw [Account.step] at hledger
    dsimp only at hledger
    have hold : account.ledger secretId versionId = some value →
        ∃ secret ∈ (step cipher accountId account.world operation).secrets,
          secret.secretId = secretId := by
      intro hknown
      obtain ⟨secret, hmem, rfl⟩ := hvalid.known secretId versionId value hknown
      exact exists_secret_step hvalid.world hmem
    cases hstores : operation.stores cipher accountId account.world with
    | none =>
      rw [hstores] at hledger
      exact hold hledger
    | some stored =>
      rw [hstores] at hledger
      rcases note_of_some hledger with rfl | hknown
      · obtain ⟨secret, hin⟩ := exists_isStoredIn hlawful hvalid.world hvalid.keyed hstores
        exact ⟨secret, hin.mem, hin.secretId⟩
      · exact hold hknown

theorem Readable.step {before after : Secret} {versionId : String} {value : Value}
    (hvalid : account.IsValid accountId) (hkey : after.kmsKeyId = before.kmsKeyId)
    (hvalue : ∀ version, before.versions.valueOf versionId = some version →
      after.versions.valueOf versionId = some version)
    (hreadable : Readable cipher account.world before versionId value) :
    Readable cipher (SecretsManager.step cipher accountId account.world operation) after versionId
      value := by
  obtain ⟨⟨key, version, hfind, hversion, hblank, hdecode⟩, hbinary⟩ := hreadable
  refine ⟨⟨key, version, ?_, hvalue version hversion, hblank, hdecode⟩, hbinary⟩
  rw [hkey]
  exact findKey_step hvalid.world hfind

theorem returnsStored_step (hlawful : cipher.IsLawful) (hvalid : account.IsValid accountId)
    (hreturns : account.ReturnsStored cipher accountId)
    (hdraws : operation.DrawsNewNames accountId account.world) :
    (account.step cipher accountId operation).ReturnsStored cipher accountId ↔
      operation.HeedsEncoding cipher accountId account.world := by
  have hafter := @isValid_account_step cipher accountId account operation hlawful hvalid hdraws
  constructor
  · intro hall stored hstores hne
    have hstores := Option.mem_def.mp hstores
    obtain ⟨secret, hin⟩ := exists_isStoredIn hlawful hvalid.world hvalid.keyed hstores
    refine hin.readable.mp ?_
    refine (returns_iff_readable hafter hin.mem hne).mp
      (hall secret hin.mem stored.versionId stored.value hne ?_)
    rw [Account.step, hstores, hin.secretId, Ledger.note]
    exact if_pos ⟨rfl, rfl⟩
  · intro hheeds secret hmem versionId value hne hledger
    rw [returns_iff_readable hafter hmem hne]
    rw [Account.step] at hledger
    dsimp only at hledger
    -- what was known before, and is not stored anew
    have hold : account.ledger secret.secretId versionId = some value →
        (∀ stored, operation.stores cipher accountId account.world = some stored →
          ¬(stored.secretId = secret.secretId ∧ stored.versionId = versionId)) →
          Readable cipher (SecretsManager.step cipher accountId account.world operation) secret
            versionId value := by
      intro hknown hother
      cases origin_of_mem hvalid.world hmem with
      | kept hkept =>
        have hreadable := (returns_iff_readable hvalid hkept hne).mp
          (hreturns secret hkept versionId value hne hknown)
        exact hreadable.step hvalid rfl fun _ hversion => hversion
      | edited before edit hbefore heq htarget =>
        subst heq
        rw [Edit.secretId_apply] at hknown hother
        have hreadable := (returns_iff_readable hvalid hbefore hne).mp
          (hreturns before hbefore versionId value hne hknown)
        refine hreadable.step hvalid (Edit.kmsKeyId_apply _ _) fun version hversion => ?_
        rw [Edit.versions_apply]
        refine valueOf_versions edit (fun hsame => ?_) hversion
        obtain ⟨written, hstores⟩ := htarget versionId hsame
        exact hother _ hstores ⟨rfl, rfl⟩
      | created request draw secretString hoperation heq hstores =>
        obtain ⟨known, hstored, hid⟩ := hvalid.known _ _ _ hknown
        subst hoperation heq
        exact absurd hid (hdraws.1.2 known hstored)
    cases hstores : operation.stores cipher accountId account.world with
    | none =>
      rw [hstores] at hledger
      refine hold hledger ?_
      rintro stored hsome
      rw [hstores] at hsome
      cases hsome
    | some stored =>
      rw [hstores] at hledger
      by_cases hsame : stored.secretId = secret.secretId ∧ stored.versionId = versionId
      · obtain ⟨hid, rfl⟩ := hsame
        have hvalue : stored.value = value := by
          rw [Ledger.note] at hledger
          exact Option.some.inj ((if_pos ⟨hid, rfl⟩).symm.trans hledger)
        subst hvalue
        obtain ⟨other, hin⟩ := exists_isStoredIn hlawful hvalid.world hvalid.keyed hstores
        have heq : other = secret :=
          List.inj_on_of_nodup_map hafter.world.distinct hin.mem hmem (hin.secretId.trans hid)
        rw [← heq]
        exact hin.readable.mpr (hheeds stored hstores hne)
      · refine hold ?_ ?_
        · rw [Ledger.note] at hledger
          exact (if_neg hsame).symm.trans hledger
        · intro other hother
          rw [hstores] at hother
          obtain rfl := Option.some.inj hother
          exact hsame

def Account.start (keys : List Kms.Key) : Account := ⟨{ keys := keys }, fun _ _ => none⟩

/-- Reading gives the value that was stored last, after each of the operations. -/
def ReturnsLastStored (cipher : Cipher) (accountId : String) (keys : List Kms.Key)
    (operations : List Operation) : Prop :=
  Runs.Always (Account.step cipher accountId) (Account.ReturnsStored cipher accountId) operations
    (Account.start keys)

def DrawsNewNames (cipher : Cipher) (accountId : String) (keys : List Kms.Key)
    (operations : List Operation) : Prop :=
  Runs.Heeded (Account.step cipher accountId)
    (fun account operation => operation.DrawsNewNames accountId account.world) operations
    (Account.start keys)

theorem returnsLastStored_iff_heeded (cipher : Cipher) (accountId : String) (keys : List Kms.Key)
    (operations : List Operation) (hlawful : cipher.IsLawful)
    (hdraws : DrawsNewNames cipher accountId keys operations) :
    ReturnsLastStored cipher accountId keys operations ↔ Runs.Heeded (Account.step cipher accountId)
        (fun account operation => operation.HeedsEncoding cipher accountId account.world)
        operations (Account.start keys) := by
  refine Runs.always_iff_heeded_of_promised (I := Account.IsValid accountId)
    (fun account operation hvalid hreturns hdraws =>
      ⟨isValid_account_step hlawful hvalid hdraws,
        returnsStored_step hlawful hvalid hreturns hdraws⟩) operations ?_ ?_ hdraws
  · refine ⟨⟨List.nodup_nil, ?_, ?_⟩, List.nodup_nil, ?_, ?_, ?_⟩
    · exact fun _ hmem => absurd hmem List.not_mem_nil
    · exact fun _ hmem => absurd hmem List.not_mem_nil
    · exact fun _ hmem => absurd hmem List.not_mem_nil
    · exact fun _ hmem => absurd hmem List.not_mem_nil
    · rintro secretId versionId value ⟨⟩
  · exact fun _ hmem => absurd hmem List.not_mem_nil

theorem isLawful_sampleCipher : sampleCipher.IsLawful where
  aes := fun _ _ => rfl
  aesBlock := fun _ _ => List.cons_ne_nil _ _
  rsaBlock := fun _ _ => List.cons_ne_nil _ _
  hmacBlock := fun _ _ _ => List.cons_ne_nil _ _

theorem drawsNewNames_sampleSecret (operations : List Operation)
    (hdraws : ∀ operation ∈ operations, ∀ world, operation.DrawsNewNames "000000000000" world) :
    DrawsNewNames sampleCipher "000000000000" [] (sampleSecret :: operations) := by
  refine ⟨⟨⟨by decide, fun _ hmem => absurd hmem List.not_mem_nil⟩, by decide, rfl,
    fun _ hmem => absurd hmem List.not_mem_nil⟩, ?_⟩
  exact Runs.heeded_of_forall (fun operation hmem account => hdraws operation hmem account.world) _

def sampleKey : Kms.Key where
  keyId := "key"
  keyUsage := "ENCRYPT_DECRYPT"
  keyState := some .enabled
  description := "KMS key for secret db"
  aes256Key := "aa"
  aes256Iv := "bb"

theorem returnsLastStored_iff_heeded_put :
    ReturnsLastStored sampleCipher "000000000000" [] [sampleSecret, samplePut "v2"] := by
  refine (returnsLastStored_iff_heeded sampleCipher "000000000000" [] _ isLawful_sampleCipher
    (drawsNewNames_sampleSecret _ ?_)).mpr ⟨?_, ?_, trivial⟩
  · intro operation hmem world
    obtain rfl := List.mem_singleton.mp hmem
    exact ⟨by change "uuid" ≠ ""; decide, trivial⟩
  · have hstored : sampleSecret.stores sampleCipher "000000000000" {} =
        some ⟨"db-aB3dE6", "v1", ⟨ascii "first", []⟩⟩ := by decide +kernel
    have hkey : sampleSecret.key "000000000000" {} = some sampleKey := by decide +kernel
    intro stored hstores _
    obtain rfl := Option.some.inj (hstored.symm.trans hstores)
    exact ⟨rfl, sampleKey, hkey, rfl⟩
  · have hstored : (samplePut "v2").stores sampleCipher "000000000000"
        (step sampleCipher "000000000000" {} sampleSecret) =
          some ⟨"db-aB3dE6", "v2", ⟨ascii "next", []⟩⟩ := by decide +kernel
    have hkey : (samplePut "v2").key "000000000000"
        (step sampleCipher "000000000000" {} sampleSecret) = some sampleKey := by decide +kernel
    intro stored hstores _
    obtain rfl := Option.some.inj (hstored.symm.trans hstores)
    exact ⟨rfl, sampleKey, hkey, rfl⟩

def sampleUpdate : Operation :=
  .updateSecret
    { secretId := "db-aB3dE6"
      description := ""
      secretString := ascii "next"
      secretBinary := []
      rotationEnabled := false } "v2" 1

/-- The string of an update is decoded on its way to the key service. -/
theorem not_returnsLastStored_update :
    ¬ ∀ cipher accountId keys operations, Cipher.IsLawful cipher →
      DrawsNewNames cipher accountId keys operations →
        ReturnsLastStored cipher accountId keys operations := by
  intro hreturns
  have hdraws := drawsNewNames_sampleSecret [sampleUpdate] fun operation hmem world => by
    obtain rfl := List.mem_singleton.mp hmem
    exact ⟨by change "v2" ≠ ""; decide, trivial⟩
  have hlast := (hreturns sampleCipher "000000000000" [] [sampleSecret, sampleUpdate]
    isLawful_sampleCipher hdraws).last
  let account := [sampleSecret, sampleUpdate].foldl (Account.step sampleCipher "000000000000")
    (Account.start [])
  let request : GetSecretValueRequest := ⟨"eu-central-1", "db-aB3dE6", "v2", ""⟩
  have hledger : ∀ secret ∈ account.world.secrets,
      account.ledger secret.secretId "v2" = some ⟨ascii "next", []⟩ := by decide +kernel
  have hfind : ∀ secret ∈ account.world.secrets,
      account.world.findByArn (resolveArn "eu-central-1" "000000000000" "db-aB3dE6") =
        some secret := by decide +kernel
  have hread : ∀ secret ∈ account.world.secrets,
      ((getSecretValue request "000000000000" 2).run (execute sampleCipher) account.world).1 =
        .ok (.value secret.arn secret.name "v2" (ascii "next") []
          (secret.versions.getVersion "v2").stages) :=
    fun secret hmem => hlast secret hmem "v2" ⟨ascii "next", []⟩ (by decide)
      (hledger secret hmem) request 2 (hfind secret hmem) rfl
  revert hread
  decide +kernel

end Runs

end AwsMock.SecretsManager
