import AwsMock.SecretsManager.Operations

/-! # Operations on one secret at the same time

Every operation reads the secret, edits its copy and writes the whole copy back. What the
operations have made of the versions stays, if the copies that are written back are not
outdated.
-/

namespace AwsMock.SecretsManager

open Foundation

abbrev Pool := Foundation.Pool World Call Call.Reply (Except Exn Response)

section Definitions

/-! ## What the versions should become -/

def Edit.Changes (versions : Versions) (versionId : String) : Edit → Prop
  | put written [] _ _ _ => versionId = written ∨ versionId = versions.getCurrentVersionId
  | put written _ _ _ _ => versionId = written
  | update _ _ _ _ _ _ => True
  | details _ _ _ (some _) _ => versionId = versions.getCurrentVersionId
  | rotate clientRequestToken _ _ => versionId = clientRequestToken
  | checkRotation clientRequestToken _ => versionId = clientRequestToken
  | moveStage moveToVersionId versionStage removeFromVersionId _ =>
    versionStage = awsCurrent ∨ versionId = moveToVersionId ∨ versionId = removeFromVersionId
  | _ => False

/-- All edits, each made in the versions that the one before it has left. -/
def replay (initial : Versions) (edits : List Edit) : Versions :=
  edits.foldl (fun versions edit => edit.versions versions) initial

/-- None of the edits, made one after the other, changes the version. -/
def LeaveVersion (versionId : String) (edits : List Edit) (versions : Versions) : Prop :=
  Runs.Heeded (fun versions edit => edit.versions versions)
    (fun versions edit => ¬edit.Changes versions versionId) edits versions

/-- What an edit has made of a version is there until another edit changes the version. -/
structure Carries (initial : Versions) (edits : List Edit) (versions : Versions) : Prop where
  /-- Nothing of what the secret had is gone but what an edit has changed. -/
  replayed : versions = replay initial edits
  kept : ∀ before after versionId, edits = before ++ after →
    LeaveVersion versionId after (replay initial before) →
      versions.find versionId = (replay initial before).find versionId
  value : ∀ before versionId versionStage secretString secretBinary now after,
    edits = before ++ .put versionId versionStage secretString secretBinary now :: after →
      LeaveVersion versionId after
        (replay initial (before ++ [.put versionId versionStage secretString secretBinary now])) →
        versions.find versionId = some ⟨secretString, secretBinary,
            if versionStage = [] then [awsCurrent] else versionStage⟩
  movedTo : ∀ before moveToVersionId versionStage removeFromVersionId now after,
    edits = before ++ .moveStage moveToVersionId versionStage removeFromVersionId now :: after →
      moveToVersionId ≠ removeFromVersionId →
      LeaveVersion moveToVersionId after (replay initial
        (before ++ [.moveStage moveToVersionId versionStage removeFromVersionId now])) →
        versionStage ∈ versions.stagesOf moveToVersionId
  movedFrom : ∀ before moveToVersionId versionStage removeFromVersionId now after,
    edits = before ++ .moveStage moveToVersionId versionStage removeFromVersionId now :: after →
      moveToVersionId ≠ removeFromVersionId → removeFromVersionId ≠ "" →
      LeaveVersion removeFromVersionId after (replay initial
        (before ++ [.moveStage moveToVersionId versionStage removeFromVersionId now])) →
        versionStage ∉ versions.stagesOf removeFromVersionId

/-! ## Runs -/

variable (cipher : Cipher) (accountId : String)

def start (world : World) (operations : List Operation) : Pool :=
  ⟨world, operations.map (Operation.thread accountId)⟩

def move : Pool → Nat → Pool := Foundation.Pool.move (execute cipher)

def Call.edits (secretId : String) : Call → List Edit
  | updateSecret read edit => if read.secretId = secretId then [edit] else []
  | _ => []

/-- The edits that a run makes in the secret, in the order of the writes. -/
def written (secretId : String) : List Nat → Pool → List Edit
  | [], _ => []
  | position :: schedule, pool =>
    (pool.request position).elim [] (Call.edits secretId) ++
      written secretId schedule (move cipher pool position)

/-- Where the next call of the thread writes the secret, it makes of the versions in its copy
what it would make of those that are stored. -/
def HeedsVersions (secretId : String) (pool : Pool) (position : Nat) : Prop :=
  ∀ read edit stored, pool.request position = some (.updateSecret read edit) →
    read.secretId = secretId → pool.state.findById secretId = some stored →
      edit.versions read.versions = edit.versions stored.versions

instance (secretId : String) (pool : Pool) (position : Nat) :
    Decidable (HeedsVersions secretId pool position) :=
  match hrequest : pool.request position with
  | some (.updateSecret read edit) =>
    decidable_of_iff (read.secretId = secretId → ∀ stored ∈ pool.state.findById secretId,
      edit.versions read.versions = edit.versions stored.versions) (by
        rw [HeedsVersions, hrequest]
        constructor
        · rintro hall _ _ stored ⟨⟩ hid hfind
          exact hall hid stored hfind
        · exact fun hall hid stored hfind => hall read edit stored rfl hid hfind)
  | none => isTrue (by rintro read edit stored hsome; cases hrequest.symm.trans hsome)
  | some (.secretExists _ _) | some (.secretExistsByArn _) | some (.secretExistsById _)
  | some (.getSecretByArn _) | some (.getSecretBySecretId _) | some .listSecrets
  | some (.createSecret _ _) | some (.createKey _) | some (.encrypt _ _)
  | some (.decrypt _ _) =>
    isTrue (by rintro read edit stored hsome; cases hrequest.symm.trans hsome)

def Operation.IsGoal (world : World) (secret : Secret) (edit : Edit) : Operation → Prop
  | putSecretValue request uuid now => ∃ stored, request.stored cipher world secret = .ok stored ∧
        edit = .put (request.versionId uuid) request.versionStage stored.1 stored.2 now
  | updateSecret request uuid now => ∃ secretString,
      request.stored cipher world secret = .ok secretString ∧
        edit = .update uuid secretString request.secretBinary request.description
          request.rotationEnabled now
  | updateSecretDetails request now => ∃ secretString,
      request.stored cipher world secret = .ok secretString ∧
        edit = .details request.rotationEnabled request.rotationRules request.rotationLambdaARN
          secretString now
  | rotateSecret request now =>
    edit = .rotate request.clientRequestToken request.rotationLambdaARN now
  | updateSecretVersionStage request now =>
    edit = .moveStage request.moveToVersionId request.versionStage request.removeFromVersionId now
  | getSecretValue _ now => edit = .access now
  | secretRotation _ now => edit = .nextRotation now
  | createSecret _ _ => False
  | checkRotations _ _ => False

structure KeepsVersions (secretId : String) (initial : Secret) (operations : List Operation)
    (schedule : List Nat) (pool : Pool) : Prop where
  stored : ∃ secret, (schedule.foldl (move cipher) pool).state.findById secretId = some secret ∧
    Carries initial.versions (written cipher secretId schedule pool) secret.versions
  acknowledged : ∀ (index : Nat) operation response, operations[index]? = some operation →
    operation.found accountId pool.state = some initial →
      (schedule.foldl (move cipher) pool).threads[index]? = some (.done (.ok response)) →
        ∃ edit ∈ written cipher secretId schedule pool,
          operation.IsGoal cipher pool.state initial edit

end Definitions

/-! ## Edits made one after the other -/

section Replay

variable {initial versions : Versions} {edits after : List Edit} {edit : Edit}
  {versionId : String}

theorem find_versions (hchanges : ¬edit.Changes versions versionId) :
    (edit.versions versions).find versionId = versions.find versionId := by
  cases edit with
  | access now => rfl
  | nextRotation now => rfl
  | put written versionStage secretString secretBinary now =>
    rw [Edit.versions, Edit.putVersions]
    cases versionStage with
    | nil =>
      rw [Edit.Changes, not_or] at hchanges
      rw [if_pos rfl, Versions.find_put, if_neg (Ne.symm hchanges.1), Versions.modify,
        Versions.find_put, if_neg (Ne.symm hchanges.2)]
    | cons stage stages =>
      rw [if_neg (List.cons_ne_nil _ _), Versions.find_put, if_neg (Ne.symm hchanges)]
  | update written secretString secretBinary description rotationEnabled now =>
    exact absurd trivial hchanges
  | details rotationEnabled rotationRules rotationLambdaARN secretString now =>
    cases secretString with
    | none => rfl
    | some secretString =>
      rw [Edit.versions, Versions.modify, Versions.find_put, if_neg (Ne.symm hchanges)]
  | rotate clientRequestToken rotationLambdaARN now =>
    rw [Edit.versions, Edit.pendVersion, Versions.modify, Versions.find_put,
      if_neg (Ne.symm hchanges)]
  | checkRotation clientRequestToken now =>
    rw [Edit.versions, Edit.pendVersion, Versions.modify, Versions.find_put,
      if_neg (Ne.symm hchanges)]
  | moveStage moveToVersionId versionStage removeFromVersionId now =>
    rw [Edit.Changes, not_or, not_or] at hchanges
    obtain ⟨hstage, hto, hfrom⟩ := hchanges
    rw [Edit.versions, Edit.moveVersions, if_neg hstage]
    dsimp only
    split
    · rw [Versions.modify, Versions.find_put, if_neg (Ne.symm hfrom), Versions.modify,
        Versions.find_put, if_neg (Ne.symm hto)]
    · rw [Versions.modify, Versions.find_put, if_neg (Ne.symm hto)]

theorem replay_append (first second : List Edit) :
    replay initial (first ++ second) = replay (replay initial first) second :=
  List.foldl_append

theorem replay_cons (edit : Edit) (edits : List Edit) :
    replay initial (edit :: edits) = replay (edit.versions initial) edits := rfl

theorem find_replay (hleave : LeaveVersion versionId edits versions) :
    (replay versions edits).find versionId = versions.find versionId := by
  induction edits generalizing versions with
  | nil => rfl
  | cons edit edits ih =>
    rw [replay_cons, ih hleave.2]
    exact find_versions hleave.1

theorem find_replay_of_last {before : List Edit} (hsplit : edits = before ++ edit :: after)
    (hleave : LeaveVersion versionId after (replay initial (before ++ [edit]))) :
    (replay initial edits).find versionId =
      (edit.versions (replay initial before)).find versionId := by
  have hedits : edits = (before ++ [edit]) ++ after := by
    rw [hsplit, List.append_assoc, List.singleton_append]
  rw [hedits, replay_append, find_replay hleave, replay_append]
  rfl

theorem find_putVersions (versionStage : List String) (secretString secretBinary : Bytes) :
    (Edit.putVersions versionId versionStage secretString secretBinary versions).find versionId =
      some ⟨secretString, secretBinary,
        if versionStage = [] then [awsCurrent] else versionStage⟩ := by
  rw [Edit.putVersions]
  split
  next hstage => rw [Versions.find_put, if_pos rfl]
  next hstage => rw [Versions.find_put, if_pos rfl]

theorem stagesOf_eq_of_find {first second : Versions}
    (hfind : first.find versionId = second.find versionId) :
    first.stagesOf versionId = second.stagesOf versionId := by
  rw [Versions.stagesOf, Versions.getVersion, hfind, Versions.stagesOf, Versions.getVersion]

theorem stagesOf_moveStage {moveToVersionId versionStage removeFromVersionId : String}
    (hne : moveToVersionId ≠ removeFromVersionId) :
    versionStage ∈ (Edit.moveVersions moveToVersionId versionStage removeFromVersionId
        versions).stagesOf moveToVersionId ∧
      (removeFromVersionId ≠ "" →
        versionStage ∉ (Edit.moveVersions moveToVersionId versionStage removeFromVersionId
          versions).stagesOf removeFromVersionId) := by
  have hnames : awsCurrent ≠ awsPrevious := by decide
  rw [Edit.moveVersions]
  split
  next hstage =>
    subst hstage
    constructor
    · rw [Versions.stagesOf_modify, if_pos rfl]
      exact List.mem_singleton_self _
    · intro _
      rw [Versions.stagesOf_modify, if_neg hne, Versions.stagesOf_resetVersions,
        if_neg (Ne.symm hne)]
      split
      · exact fun hmem => hnames (List.mem_singleton.mp hmem)
      · exact List.not_mem_nil
  next hstage =>
    dsimp only
    split
    next hremove =>
      rw [Versions.stagesOf_modify_erase, Versions.stagesOf_modify_append,
        Versions.stagesOf_modify_erase]
      exact ⟨⟨Or.inr ⟨rfl, rfl⟩, fun hboth => hne hboth.2⟩, fun _ hboth => hboth.2 ⟨rfl, rfl⟩⟩
    next hskip =>
      rw [Versions.stagesOf_modify_append]
      refine ⟨Or.inr ⟨rfl, rfl⟩, fun hempty hmem => hskip ⟨hempty, ?_⟩⟩
      exact Versions.hasVersion_of_stage hmem

theorem carries_replay (initial : Versions) (edits : List Edit) :
    Carries initial edits (replay initial edits) where
  replayed := rfl
  kept := by
    rintro before after versionId rfl hleave
    rw [replay_append]
    exact find_replay hleave
  value := by
    intro before versionId versionStage secretString secretBinary now after hsplit hleave
    rw [find_replay_of_last hsplit hleave]
    exact find_putVersions versionStage secretString secretBinary
  movedTo := by
    intro before moveToVersionId versionStage removeFromVersionId now after hsplit hne hleave
    rw [stagesOf_eq_of_find (find_replay_of_last hsplit hleave)]
    exact (stagesOf_moveStage hne).1
  movedFrom := by
    intro before moveToVersionId versionStage removeFromVersionId now after hsplit hne hempty hleave
    rw [stagesOf_eq_of_find (find_replay_of_last hsplit hleave)]
    exact (stagesOf_moveStage hne).2 hempty

end Replay

/-! ## Calls -/

section Calls

def Secret.identity (secret : Secret) : String × String × String :=
  (secret.secretId, secret.arn, secret.kmsKeyId)

structure Steady (origin world : World) : Prop where
  secrets : world.secrets.map Secret.identity = origin.secrets.map Secret.identity
  keys : world.keys = origin.keys

/-- A call that adds nothing, and writes a copy only to the secret that it is a copy of. -/
def Call.IsSteady (origin : World) : Call → Prop
  | createSecret _ _ => False
  | createKey _ => False
  | updateSecret read _ => read.secretId ∈ origin.secrets.map Secret.secretId →
      read.identity ∈ origin.secrets.map Secret.identity
  | _ => True

/-- The replies that a thread gets while the same secrets and keys are there. -/
def Call.Promised (cipher : Cipher) (origin : World) : (call : Call) → call.Reply → Prop
  | secretExistsByArn arn, reply => reply = (origin.findByArn arn).isSome
  | secretExistsById secretId, reply => reply = (origin.findById secretId).isSome
  | getSecretByArn arn, reply =>
    Secret.identity reply = ((origin.findByArn arn).getD {}).identity
  | getSecretBySecretId secretId, reply =>
    Secret.identity reply = ((origin.findById secretId).getD {}).identity
  | listSecrets, reply =>
    List.map Secret.identity reply = origin.secrets.map Secret.identity
  | encrypt keyId plaintext, reply => reply = origin.encrypt cipher keyId plaintext
  | _, _ => True

variable {cipher : Cipher} {origin world : World} {call : Call} {secret : Secret}

theorem identity_apply (edit : Edit) (secret : Secret) :
    (edit.apply secret).identity = secret.identity := by
  rw [Secret.identity, Edit.secretId_apply, Edit.arn_apply, Edit.kmsKeyId_apply, Secret.identity]

theorem Steady.findByArn (hsteady : Steady origin world) (arn : String) :
    (world.findByArn arn).map Secret.identity = (origin.findByArn arn).map Secret.identity :=
  map_findKey_congr (g := fun identity => identity.2.1) (fun _ => rfl) hsteady.secrets

theorem Steady.findById (hsteady : Steady origin world) (secretId : String) :
    (world.findById secretId).map Secret.identity =
      (origin.findById secretId).map Secret.identity :=
  map_findKey_congr (g := fun identity => identity.1) (fun _ => rfl) hsteady.secrets

theorem Steady.secretIds (hsteady : Steady origin world) :
    world.secrets.map Secret.secretId = origin.secrets.map Secret.secretId := by
  have hids := congrArg (List.map Prod.fst) hsteady.secrets
  rw [List.map_map, List.map_map] at hids
  exact hids

theorem isSome_of_map_eq {first second : Option Secret}
    (hmap : first.map Secret.identity = second.map Secret.identity) :
    first.isSome = second.isSome := by
  rw [← Option.isSome_map, hmap, Option.isSome_map]

theorem getD_of_map_eq {first second : Option Secret}
    (hmap : first.map Secret.identity = second.map Secret.identity) :
    (first.getD {}).identity = (second.getD {}).identity := by
  rw [← Option.getD_map Secret.identity, hmap, Option.getD_map]

theorem promised_execute (hsteady : Steady origin world) (call : Call) :
    call.Promised cipher origin (execute cipher call world).1 := by
  cases call with
  | secretExistsByArn arn => exact isSome_of_map_eq (hsteady.findByArn arn)
  | secretExistsById secretId => exact isSome_of_map_eq (hsteady.findById secretId)
  | getSecretByArn arn => exact getD_of_map_eq (hsteady.findByArn arn)
  | getSecretBySecretId secretId => exact getD_of_map_eq (hsteady.findById secretId)
  | listSecrets => exact hsteady.secrets
  | encrypt keyId plaintext =>
    change world.encrypt cipher keyId plaintext = origin.encrypt cipher keyId plaintext
    rw [World.encrypt, World.encrypt, World.findKey, World.findKey, hsteady.keys]
  | _ => trivial

theorem steady_execute (hdistinct : (origin.secrets.map Secret.secretId).Nodup)
    (hsteady : Steady origin world) (hcall : call.IsSteady origin) :
    Steady origin (execute cipher call world).2 := by
  cases call with
  | createSecret place secret => exact hcall.elim
  | createKey key => exact hcall.elim
  | updateSecret read edit =>
    refine ⟨?_, hsteady.keys⟩
    change (world.updateSecret (edit.apply read)).secrets.map Secret.identity = _
    rw [World.updateSecret, map_rewriteFirst_of_preserved, hsteady.secrets]
    intro other hother hsame
    have hid := of_decide_eq_true hsame
    rw [Edit.secretId_apply] at hid
    have hread : read.identity ∈ world.secrets.map Secret.identity := by
      rw [hsteady.secrets]
      refine hcall ?_
      rw [← hsteady.secretIds, ← hid]
      exact List.mem_map_of_mem hother
    obtain ⟨copied, hcopied, hidentity⟩ := List.mem_map.mp hread
    have hsameId : copied.secretId = other.secretId :=
      (congrArg Prod.fst hidentity).trans hid.symm
    rw [← hsteady.secretIds] at hdistinct
    rw [identity_apply, ← hidentity, List.inj_on_of_nodup_map hdistinct hcopied hother hsameId]
  | _ => exact hsteady

theorem findById_updateSecret_self {secretId : String} {stored : Secret}
    (hid : secret.secretId = secretId) (hfind : world.findById secretId = some stored) :
    (world.updateSecret secret).findById secretId = some secret := by
  subst hid
  exact find?_rewriteFirst hfind (decide_eq_true rfl)

theorem findById_updateSecret_of_ne {secretId : String} (hne : secret.secretId ≠ secretId) :
    (world.updateSecret secret).findById secretId = world.findById secretId := by
  apply find?_rewriteFirst_of_disjoint
  · intro other hselect
    rw [of_decide_eq_true hselect]
    exact decide_eq_false hne
  · exact fun _ _ => decide_eq_false hne

theorem findById_execute {secretId : String} {stored : Secret} (hcall : call.IsSteady origin)
    (hfind : world.findById secretId = some stored)
    (hheeds : ∀ read edit, call = .updateSecret read edit → read.secretId = secretId →
      edit.versions read.versions = edit.versions stored.versions) :
    ∃ after, (execute cipher call world).2.findById secretId = some after ∧
      after.versions = replay stored.versions (call.edits secretId) := by
  cases call with
  | updateSecret read edit =>
    rw [Call.edits]
    by_cases hid : read.secretId = secretId
    · refine ⟨_, findById_updateSecret_self ((Edit.secretId_apply edit read).trans hid) hfind, ?_⟩
      rw [if_pos hid, Edit.versions_apply]
      exact hheeds read edit rfl hid
    · refine ⟨stored, ?_, by rw [if_neg hid]; rfl⟩
      rw [← hfind]
      apply findById_updateSecret_of_ne
      rw [Edit.secretId_apply]
      exact hid
  | createSecret place secret => exact hcall.elim
  | createKey key => exact hcall.elim
  | _ => exact ⟨stored, hfind, rfl⟩

end Calls

/-! ## Threads -/

section Threads

def IsGoalCall (cipher : Cipher) (origin : World) (initial : Secret) (operation : Operation)
    (call : Call) : Prop :=
  ∃ read edit, call = .updateSecret read edit ∧ read.secretId = initial.secretId ∧
    operation.IsGoal cipher origin initial edit

def Fails (result : Except Exn Response) : Prop := ∀ response, result ≠ .ok response

variable {cipher : Cipher} {accountId : String} {origin : World} {operation : Operation}
  {secret found : Secret} {next : Thread} {keyId : String}

theorem keeps_updateSecret {edit : Edit} (hmem : found ∈ origin.secrets)
    (hsame : secret.identity = found.identity)
    (hnext : next.Keeps (Call.IsSteady origin) (Call.Promised cipher origin)) :
    (Thread.updateSecret secret edit next).Keeps (Call.IsSteady origin)
      (Call.Promised cipher origin) :=
  ⟨fun _ => hsame ▸ List.mem_map_of_mem hmem, fun _ _ => hnext⟩

theorem keeps_encrypt {plaintext : Bytes} {next : Bytes → Thread}
    (hnext : ∀ ciphertext, (next ciphertext).Keeps (Call.IsSteady origin)
      (Call.Promised cipher origin)) :
    (Thread.encrypt keyId plaintext next).Keeps (Call.IsSteady origin)
      (Call.Promised cipher origin) := by
  refine ⟨trivial, fun (reply : Except Exn Bytes) _ => ?_⟩
  cases reply with
  | error exn => trivial
  | ok ciphertext => exact hnext ciphertext

theorem keeps_decrypt {ciphertext : Bytes} {next : Bytes → Thread}
    (hnext : ∀ plaintext, (next plaintext).Keeps (Call.IsSteady origin)
      (Call.Promised cipher origin)) :
    (Thread.decrypt keyId ciphertext next).Keeps (Call.IsSteady origin)
      (Call.Promised cipher origin) := by
  refine ⟨trivial, fun (reply : Except Exn Bytes) _ => ?_⟩
  cases reply with
  | error exn => trivial
  | ok plaintext => exact hnext plaintext

theorem keeps_secretByArn {missing : Exn} {arn : String} {next : Secret → Thread}
    (hnext : ∀ secret found, found ∈ origin.secrets → secret.identity = found.identity →
      (next secret).Keeps (Call.IsSteady origin) (Call.Promised cipher origin)) :
    (Thread.secretByArn missing arn next).Keeps (Call.IsSteady origin)
      (Call.Promised cipher origin) := by
  refine ⟨trivial, fun (exists_ : Bool) hexists => ?_⟩
  have hexists : exists_ = (origin.findByArn arn).isSome := hexists
  subst hexists
  cases hfind : origin.findByArn arn with
  | none => trivial
  | some found =>
    refine ⟨trivial, fun secret hsecret => hnext secret found (mem_of_findByArn hfind) ?_⟩
    have hsame : secret.identity = ((origin.findByArn arn).getD {}).identity := hsecret
    rw [hsame, hfind]
    rfl

theorem keeps_secretBySecretId {secretId : String} {next : Secret → Thread}
    (hnext : ∀ secret found, found ∈ origin.secrets → secret.identity = found.identity →
      (next secret).Keeps (Call.IsSteady origin) (Call.Promised cipher origin)) :
    (Thread.secretBySecretId secretId next).Keeps (Call.IsSteady origin)
      (Call.Promised cipher origin) := by
  refine ⟨trivial, fun (exists_ : Bool) hexists => ?_⟩
  have hexists : exists_ = (origin.findById secretId).isSome := hexists
  subst hexists
  cases hfind : origin.findById secretId with
  | none => trivial
  | some found =>
    refine ⟨trivial, fun secret hsecret => hnext secret found (mem_of_findById hfind) ?_⟩
    have hsame : secret.identity = ((origin.findById secretId).getD {}).identity := hsecret
    rw [hsame, hfind]
    rfl

theorem keeps_rotateDue {tokens : Secret → String} {now : Int} (secrets : List Secret)
    (hsecrets : ∀ secret ∈ secrets, ∃ found ∈ origin.secrets, secret.identity = found.identity) :
    (rotateDue tokens now secrets).Keeps (Call.IsSteady origin) (Call.Promised cipher origin) := by
  induction secrets with
  | nil => trivial
  | cons secret secrets ih =>
    have hrest := ih fun other hother => hsecrets other (List.mem_cons_of_mem _ hother)
    obtain ⟨found, hmem, hsame⟩ := hsecrets secret List.mem_cons_self
    rw [rotateDue]
    split
    · exact keeps_updateSecret hmem hsame hrest
    · exact hrest

theorem keeps_thread (hnamed : ∀ secret ∈ origin.secrets, secret.secretId ≠ "")
    (hcreate : ∀ request draw, operation ≠ .createSecret request draw) :
    (operation.thread accountId).Keeps (Call.IsSteady origin) (Call.Promised cipher origin) := by
  cases operation with
  | createSecret request draw => exact absurd rfl (hcreate request draw)
  | getSecretValue request now =>
    refine keeps_secretByArn fun secret found hmem hsame => ?_
    have hanswer : ∀ secretString secretBinary stages,
        (Thread.updateSecret secret (.access now) (Thread.finish
          (.value secret.arn secret.name (request.resolve secret) secretString secretBinary
            stages))).Keeps (Call.IsSteady origin) (Call.Promised cipher origin) :=
      fun _ _ _ => keeps_updateSecret hmem hsame trivial
    dsimp only
    split
    · trivial
    · split
      · trivial
      · split
        · trivial
        · split
          · exact keeps_decrypt fun plaintext => hanswer _ _ _
          · split
            · exact hanswer _ _ _
            · exact hanswer _ _ _
  | putSecretValue request uuid now =>
    refine keeps_secretByArn fun secret found hmem hsame => ?_
    dsimp only
    split
    · exact keeps_encrypt fun _ => keeps_updateSecret hmem hsame trivial
    · split
      · exact keeps_encrypt fun _ => keeps_updateSecret hmem hsame trivial
      · exact keeps_updateSecret hmem hsame trivial
  | updateSecret request uuid now =>
    refine keeps_secretBySecretId fun secret found hmem hsame => ?_
    dsimp only
    split
    · exact keeps_encrypt fun _ => keeps_updateSecret hmem hsame trivial
    · exact keeps_updateSecret hmem hsame trivial
  | updateSecretDetails request now =>
    refine keeps_secretBySecretId fun secret found hmem hsame => ?_
    dsimp only
    split
    · exact keeps_encrypt fun _ => keeps_updateSecret hmem hsame (keeps_decrypt fun _ => trivial)
    · exact keeps_updateSecret hmem hsame (keeps_decrypt fun _ => trivial)
  | rotateSecret request now =>
    exact keeps_secretByArn fun secret found hmem hsame => keeps_updateSecret hmem hsame trivial
  | secretRotation arn now =>
    refine ⟨trivial, fun (secret : Secret) hsecret => ?_⟩
    have hsame : secret.identity = ((origin.findByArn arn).getD {}).identity := hsecret
    cases hfind : origin.findByArn arn with
    | some found =>
      rw [hfind] at hsame
      exact keeps_updateSecret (mem_of_findByArn hfind) hsame trivial
    | none =>
      rw [hfind] at hsame
      refine ⟨fun hmem => ?_, fun _ _ => trivial⟩
      obtain ⟨other, hother, hid⟩ := List.mem_map.mp hmem
      have hempty : secret.secretId = "" := congrArg Prod.fst hsame
      exact absurd (hid.trans hempty) (hnamed other hother)
  | updateSecretVersionStage request now =>
    refine keeps_secretByArn fun secret found hmem hsame => ?_
    split
    · exact keeps_updateSecret hmem hsame trivial
    · trivial
  | checkRotations tokens now =>
    refine ⟨trivial, fun (secrets : List Secret) hsecrets => ?_⟩
    have hsame : secrets.map Secret.identity = origin.secrets.map Secret.identity := hsecrets
    refine keeps_rotateDue secrets fun secret hmem => ?_
    have hidentity := List.mem_map_of_mem (f := Secret.identity) hmem
    rw [hsame] at hidentity
    obtain ⟨found, hfound, heq⟩ := List.mem_map.mp hidentity
    exact ⟨found, hfound, heq.symm⟩

variable {initial : Secret}

theorem owes_raise (exn : Exn) :
    (Thread.raise exn).Owes (IsGoalCall cipher origin initial operation)
      (Call.Promised cipher origin) Fails := by
  rintro response ⟨⟩

theorem owes_updateSecret {edit : Edit} (hsame : secret.identity = initial.identity)
    (hgoal : operation.IsGoal cipher origin initial edit) :
    (Thread.updateSecret secret edit next).Owes (IsGoalCall cipher origin initial operation)
      (Call.Promised cipher origin) Fails :=
  Or.inl ⟨secret, edit, rfl, congrArg Prod.fst hsame, hgoal⟩

theorem owes_encrypt {plaintext : Bytes} {next : Bytes → Thread}
    (hnext : ∀ ciphertext, origin.encrypt cipher keyId plaintext = .ok ciphertext →
      (next ciphertext).Owes (IsGoalCall cipher origin initial operation)
        (Call.Promised cipher origin) Fails) :
    (Thread.encrypt keyId plaintext next).Owes (IsGoalCall cipher origin initial operation)
      (Call.Promised cipher origin) Fails := by
  refine Or.inr fun (reply : Except Exn Bytes) hreply => ?_
  have hreply : reply = origin.encrypt cipher keyId plaintext := hreply
  cases reply with
  | error exn => exact owes_raise exn
  | ok ciphertext => exact hnext ciphertext hreply.symm

theorem owes_decrypt {ciphertext : Bytes} {next : Bytes → Thread}
    (hnext : ∀ plaintext, (next plaintext).Owes (IsGoalCall cipher origin initial operation)
      (Call.Promised cipher origin) Fails) :
    (Thread.decrypt keyId ciphertext next).Owes (IsGoalCall cipher origin initial operation)
      (Call.Promised cipher origin) Fails := by
  refine Or.inr fun (reply : Except Exn Bytes) _ => ?_
  cases reply with
  | error exn => exact owes_raise exn
  | ok plaintext => exact hnext plaintext

theorem owes_secretByArn {missing : Exn} {arn : String} {next : Secret → Thread}
    (hfind : origin.findByArn arn = some initial)
    (hnext : ∀ secret, secret.identity = initial.identity →
      (next secret).Owes (IsGoalCall cipher origin initial operation)
        (Call.Promised cipher origin) Fails) :
    (Thread.secretByArn missing arn next).Owes (IsGoalCall cipher origin initial operation)
      (Call.Promised cipher origin) Fails := by
  refine Or.inr fun (exists_ : Bool) hexists => ?_
  have hexists : exists_ = (origin.findByArn arn).isSome := hexists
  rw [hfind] at hexists
  subst hexists
  refine Or.inr fun secret hsecret => hnext secret ?_
  have hsame : secret.identity = ((origin.findByArn arn).getD {}).identity := hsecret
  rw [hsame, hfind]
  rfl

theorem owes_secretBySecretId {secretId : String} {next : Secret → Thread}
    (hfind : origin.findById secretId = some initial)
    (hnext : ∀ secret, secret.identity = initial.identity →
      (next secret).Owes (IsGoalCall cipher origin initial operation)
        (Call.Promised cipher origin) Fails) :
    (Thread.secretBySecretId secretId next).Owes (IsGoalCall cipher origin initial operation)
      (Call.Promised cipher origin) Fails := by
  refine Or.inr fun (exists_ : Bool) hexists => ?_
  have hexists : exists_ = (origin.findById secretId).isSome := hexists
  rw [hfind] at hexists
  subst hexists
  refine Or.inr fun secret hsecret => hnext secret ?_
  have hsame : secret.identity = ((origin.findById secretId).getD {}).identity := hsecret
  rw [hsame, hfind]
  rfl

theorem owes_thread (hfound : operation.found accountId origin = some initial) :
    (operation.thread accountId).Owes (IsGoalCall cipher origin initial operation)
      (Call.Promised cipher origin) Fails := by
  have hkey : ∀ secret : Secret, secret.identity = initial.identity →
      secret.kmsKeyId = initial.kmsKeyId :=
    fun secret hsame => congrArg (fun identity => identity.2.2) hsame
  cases operation with
  | createSecret request draw => cases hfound
  | checkRotations tokens now => cases hfound
  | getSecretValue request now =>
    refine owes_secretByArn hfound fun secret hsame => ?_
    dsimp only
    split
    · exact owes_raise _
    · split
      · exact owes_raise _
      · split
        · exact owes_raise _
        · split
          · exact owes_decrypt fun plaintext => owes_updateSecret hsame rfl
          · split
            · exact owes_updateSecret hsame rfl
            · exact owes_updateSecret hsame rfl
  | putSecretValue request uuid now =>
    refine owes_secretByArn hfound fun secret hsame => ?_
    rw [hkey secret hsame]
    dsimp only
    split
    next hne =>
      refine owes_encrypt fun ciphertext hencrypt => owes_updateSecret hsame ⟨(ciphertext, []), ?_, rfl⟩
      rw [PutSecretValueRequest.stored, if_pos hne, hencrypt]
      rfl
    next hempty =>
      split
      next hbinary =>
        refine owes_encrypt fun ciphertext hencrypt =>
          owes_updateSecret hsame ⟨([], ciphertext), ?_, rfl⟩
        rw [PutSecretValueRequest.stored, if_neg hempty, if_pos hbinary, hencrypt]
        rfl
      next hbinary =>
        refine owes_updateSecret hsame ⟨([], []), ?_, rfl⟩
        rw [PutSecretValueRequest.stored, if_neg hempty, if_neg hbinary]
  | updateSecret request uuid now =>
    refine owes_secretBySecretId hfound fun secret hsame => ?_
    rw [hkey secret hsame]
    dsimp only
    split
    next hne =>
      refine owes_encrypt fun ciphertext hencrypt => owes_updateSecret hsame ⟨ciphertext, ?_, rfl⟩
      rw [UpdateSecretRequest.stored, if_pos hne, hencrypt]
    next hempty =>
      refine owes_updateSecret hsame ⟨request.secretString, ?_, rfl⟩
      rw [UpdateSecretRequest.stored, if_neg hempty]
  | updateSecretDetails request now =>
    refine owes_secretBySecretId hfound fun secret hsame => ?_
    rw [hkey secret hsame]
    dsimp only
    split
    next hne =>
      refine owes_encrypt fun ciphertext hencrypt =>
        owes_updateSecret hsame ⟨some ciphertext, ?_, rfl⟩
      rw [UpdateSecretDetailsRequest.stored, if_pos hne, hencrypt]
      rfl
    next hempty =>
      refine owes_updateSecret hsame ⟨none, ?_, rfl⟩
      rw [UpdateSecretDetailsRequest.stored, if_neg hempty]
  | rotateSecret request now =>
    exact owes_secretByArn hfound fun secret hsame => owes_updateSecret hsame rfl
  | secretRotation arn now =>
    refine Or.inr fun (secret : Secret) hsecret => owes_updateSecret ?_ rfl
    have hsame : secret.identity = ((origin.findByArn arn).getD {}).identity := hsecret
    have hfind : origin.findByArn arn = some initial := hfound
    rw [hsame, hfind]
    rfl
  | updateSecretVersionStage request now =>
    refine owes_secretByArn hfound fun secret hsame => ?_
    split
    · exact owes_updateSecret hsame rfl
    · exact owes_raise _

end Threads

/-! ## Runs -/

section Runs

variable {cipher : Cipher} {accountId : String} {origin : World} {initial : Secret}
  {operations : List Operation} {earlier : List Edit} {pool : Pool} {position : Nat}

structure Invariant (cipher : Cipher) (accountId : String) (origin : World) (initial : Secret)
    (operations : List Operation) (earlier : List Edit) (pool : Pool) : Prop where
  steady : Steady origin pool.state
  stored : ∃ secret, pool.state.findById initial.secretId = some secret ∧
    secret.versions = replay initial.versions earlier
  keeps : ∀ thread ∈ pool.threads, thread.Keeps (Call.IsSteady origin) (Call.Promised cipher origin)
  accounted : ∀ (index : Nat) operation thread, operations[index]? = some operation →
    operation.found accountId origin = some initial → pool.threads[index]? = some thread →
      (∃ edit ∈ earlier, operation.IsGoal cipher origin initial edit) ∨
        thread.Owes (IsGoalCall cipher origin initial operation) (Call.Promised cipher origin) Fails

theorem isSteady_of_request {call : Call} (hkeeps : ∀ thread ∈ pool.threads,
      thread.Keeps (Call.IsSteady origin) (Call.Promised cipher origin))
    (hrequest : pool.request position = some call) : call.IsSteady origin := by
  rw [Foundation.Pool.request] at hrequest
  obtain ⟨thread, hthread, hcall⟩ := Option.bind_eq_some_iff.mp hrequest
  have hthread := hkeeps thread (List.mem_of_getElem? hthread)
  cases thread with
  | done result => cases hcall
  | call other next =>
    cases hcall
    exact hthread.1

theorem Invariant.move (hdistinct : (origin.secrets.map Secret.secretId).Nodup)
    (hinvariant : Invariant cipher accountId origin initial operations earlier pool)
    (hheeds : HeedsVersions initial.secretId pool position) :
    Invariant cipher accountId origin initial operations
      (earlier ++ (pool.request position).elim [] (Call.edits initial.secretId))
      (move cipher pool position) := by
  obtain ⟨secret, hfind, hversions⟩ := hinvariant.stored
  have hpromise : ∀ call : Call, call.Promised cipher origin (execute cipher call pool.state).1 :=
    promised_execute hinvariant.steady
  refine ⟨?_, ?_, ?_, ?_⟩
  · cases hrequest : pool.request position with
    | none =>
      rw [SecretsManager.move, Foundation.Pool.move_of_none hrequest]
      exact hinvariant.steady
    | some call =>
      rw [SecretsManager.move, Foundation.Pool.move_of_some hrequest]
      exact steady_execute hdistinct hinvariant.steady
        (isSteady_of_request hinvariant.keeps hrequest)
  · cases hrequest : pool.request position with
    | none =>
      rw [SecretsManager.move, Foundation.Pool.move_of_none hrequest, Option.elim_none,
        List.append_nil]
      exact ⟨secret, hfind, hversions⟩
    | some call =>
      obtain ⟨after, hafter, hreplay⟩ := findById_execute
        (isSteady_of_request hinvariant.keeps hrequest) hfind
        fun read edit heq hid => hheeds read edit secret (heq ▸ hrequest) hid hfind
      refine ⟨after, ?_, ?_⟩
      · rw [SecretsManager.move, Foundation.Pool.move_of_some hrequest]
        exact hafter
      · rw [Option.elim_some, replay_append, ← hversions]
        exact hreplay
  · intro thread hthread
    cases hold : pool.threads[position]? with
    | none =>
      rw [SecretsManager.move, Foundation.Pool.threads_of_none hold] at hthread
      exact hinvariant.keeps thread hthread
    | some old =>
      rw [SecretsManager.move, Foundation.Pool.threads_of_some hold] at hthread
      rcases List.mem_or_eq_of_mem_set hthread with hkept | rfl
      · exact hinvariant.keeps thread hkept
      · exact (hinvariant.keeps old (List.mem_of_getElem? hold)).advance fun call _ => hpromise call
  · intro index operation thread hoperation hfound hthread
    by_cases hindex : index = position
    · subst hindex
      cases hold : pool.threads[index]? with
      | none =>
        rw [SecretsManager.move, Foundation.Pool.threads_of_none hold, hold] at hthread
        cases hthread
      | some old =>
        have hmoved : thread = (old.advance (execute cipher) pool.state).1 := by
          rw [SecretsManager.move, Foundation.Pool.threads_of_some hold] at hthread
          obtain ⟨hlt, _⟩ := List.getElem?_eq_some_iff.mp hold
          rw [List.getElem?_set_self hlt] at hthread
          exact (Option.some.inj hthread).symm
        have hrequest : pool.request index = old.request := by
          rw [Foundation.Pool.request, hold, Option.bind_some]
        rcases hinvariant.accounted index operation old hoperation hfound hold with
          ⟨edit, hedit, hgoal⟩ | howes
        · exact Or.inl ⟨edit, List.mem_append_left _ hedit, hgoal⟩
        · rcases howes.advance fun call _ => hpromise call with
            ⟨call, hcall, read, edit, rfl, hid, hgoal⟩ | howes
          · refine Or.inl ⟨edit, List.mem_append_right _ ?_, hgoal⟩
            rw [hrequest, hcall, Option.elim_some, Call.edits, if_pos hid]
            exact List.mem_singleton_self _
          · exact Or.inr (hmoved ▸ howes)
    · rw [SecretsManager.move, Foundation.Pool.threads_move_of_ne hindex] at hthread
      exact (hinvariant.accounted index operation thread hoperation hfound hthread).imp_left
        (Exists.imp fun edit hedit => hedit.imp_left (List.mem_append_left _))

theorem Invariant.run {schedule : List Nat} (hdistinct : (origin.secrets.map Secret.secretId).Nodup)
    (hinvariant : Invariant cipher accountId origin initial operations earlier pool)
    (hheeds : Runs.Heeded (SecretsManager.move cipher) (HeedsVersions initial.secretId) schedule
      pool) :
    Invariant cipher accountId origin initial operations
      (earlier ++ written cipher initial.secretId schedule pool)
      (schedule.foldl (SecretsManager.move cipher) pool) := by
  induction schedule generalizing pool earlier with
  | nil =>
    rw [written, List.append_nil]
    exact hinvariant
  | cons position schedule ih =>
    rw [written, ← List.append_assoc]
    exact ih (hinvariant.move hdistinct hheeds.1) hheeds.2

theorem invariant_start (hvalid : origin.IsValid)
    (hfind : origin.findById initial.secretId = some initial)
    (hcreate : ∀ request draw, .createSecret request draw ∉ operations) :
    Invariant cipher accountId origin initial operations [] (start accountId origin operations) := by
  refine ⟨⟨rfl, rfl⟩, ⟨initial, hfind, rfl⟩, ?_, ?_⟩
  · intro thread hthread
    obtain ⟨operation, hoperation, rfl⟩ := List.mem_map.mp hthread
    refine keeps_thread hvalid.named fun request draw heq => ?_
    exact hcreate request draw (heq ▸ hoperation)
  · intro index operation thread hoperation hfound hthread
    have hmapped : (start accountId origin operations).threads[index]? =
        some (operation.thread accountId) := by
      rw [start, List.getElem?_map, hoperation]
      rfl
    rw [hmapped] at hthread
    obtain rfl := Option.some.inj hthread
    exact Or.inr (owes_thread hfound)

/-- In every interleaving in which no outdated copy of the versions is written back, nothing that
was acknowledged is lost. -/
theorem keepsVersions_of_heeded (cipher : Cipher) (accountId : String) (world : World)
    (initial : Secret) (operations : List Operation) (schedule : List Nat)
    (hvalid : world.IsValid) (hfind : world.findById initial.secretId = some initial)
    (hcreate : ∀ request draw, .createSecret request draw ∉ operations)
    (hheeds : Runs.Heeded (move cipher) (HeedsVersions initial.secretId) schedule
      (start accountId world operations)) :
    KeepsVersions cipher accountId initial.secretId initial operations schedule
      (start accountId world operations) := by
  have hinvariant := (@invariant_start cipher accountId world initial operations hvalid hfind
    hcreate).run hvalid.distinct hheeds
  rw [List.nil_append] at hinvariant
  refine ⟨?_, ?_⟩
  · obtain ⟨secret, hsecret, hversions⟩ := hinvariant.stored
    exact ⟨secret, hsecret, hversions ▸ carries_replay _ _⟩
  · intro index operation response hoperation hfound hthread
    rcases hinvariant.accounted index operation _ hoperation hfound hthread with hwritten | howes
    · exact hwritten
    · exact absurd rfl (howes response)

def sampleWorld : World := step sampleCipher "000000000000" {} sampleSecret

def sampleStored : Secret := (sampleWorld.findById "db-aB3dE6").getD {}

def readAndPut : List Operation :=
  [.getSecretValue ⟨"eu-central-1", "db-aB3dE6", "", ""⟩ 2, samplePut "v2"]

theorem createsNone_readAndPut :
    ∀ request draw, Operation.createSecret request draw ∉ readAndPut := by
  simp [readAndPut, samplePut]

theorem isValid_sampleWorld : sampleWorld.IsValid :=
  isValid_step ⟨List.nodup_nil, fun _ hmem => absurd hmem List.not_mem_nil,
    fun _ hmem => absurd hmem List.not_mem_nil⟩
    ⟨by decide, fun _ hmem => absurd hmem List.not_mem_nil⟩

theorem findById_sampleWorld :
    sampleWorld.findById sampleStored.secretId = some sampleStored := by decide +kernel

theorem keepsVersions_of_heeded_inOrder :
    KeepsVersions sampleCipher "000000000000" sampleStored.secretId sampleStored readAndPut
      [0, 0, 0, 0, 1, 1, 1, 1] (start "000000000000" sampleWorld readAndPut) := by
  refine keepsVersions_of_heeded sampleCipher "000000000000" sampleWorld sampleStored readAndPut
    [0, 0, 0, 0, 1, 1, 1, 1] isValid_sampleWorld findById_sampleWorld createsNone_readAndPut ?_
  decide +kernel

/-- A value that is put while the secret is read is gone when the date of the access is written. -/
theorem not_keepsVersions_interleaved :
    ¬ ∀ cipher accountId (world : World) (initial : Secret) operations schedule,
      world.IsValid → world.findById initial.secretId = some initial →
        (∀ request draw, Operation.createSecret request draw ∉ operations) →
          KeepsVersions cipher accountId initial.secretId initial operations schedule
            (start accountId world operations) := by
  intro hkeeps
  obtain ⟨secret, hsecret, hcarries⟩ := (hkeeps sampleCipher "000000000000" sampleWorld
    sampleStored readAndPut [0, 0, 0, 1, 1, 1, 1, 0] isValid_sampleWorld findById_sampleWorld
    createsNone_readAndPut).stored
  have hlost : ∀ secret ∈ ([0, 0, 0, 1, 1, 1, 1, 0].foldl (move sampleCipher)
      (start "000000000000" sampleWorld readAndPut)).state.findById sampleStored.secretId,
        secret.versions ≠ replay sampleStored.versions (written sampleCipher
          sampleStored.secretId [0, 0, 0, 1, 1, 1, 1, 0]
          (start "000000000000" sampleWorld readAndPut)) := by decide +kernel
  exact hlost secret hsecret hcarries.replayed

end Runs

end AwsMock.SecretsManager
