import AwsMock.Kms.Aliases

/-! # Creating key material while the key is in use

The material of a key is made by a task that reads the key, works on its copy and writes the
copy back, and the other operations do the same. What they have written stays in the key if a
copy that is written back is not outdated, and if the deletion of the key is scheduled after
the material is there.
-/

namespace AwsMock.Kms

open Foundation

abbrev Pool := Foundation.Pool Store Call Call.Reply (Except Exn Response)

section Definitions

/-! ## What the key should become -/

def Key.material (key : Key) : List String :=
  [key.aes256Key, key.aes256Iv, key.rsaPrivateKey, key.rsaPublicKey, key.hmac224Key,
    key.hmac256Key, key.hmac384Key, key.hmac512Key]

/-- Creating the material does not take back that the key is to be deleted. -/
def Edit.ideal : Edit → Key → Key
  | create draw, key =>
    if key.keyState = some .pendingDeletion then key.generate draw
    else (create draw).apply key
  | edit, key => edit.apply key

/-- All edits, each made in the key that the one before it has left. -/
def replay (initial : Key) (edits : List Edit) : Key :=
  edits.foldl (fun key edit => edit.ideal key) initial

/-- What the last of the edits that concern it has put into the key is there. -/
structure Carries (initial : Key) (edits : List Edit) (key : Key) : Prop where
  /-- Nothing of what the key had is gone but what an edit has changed. -/
  replayed : key = replay initial edits
  policy : ∀ before policy now after, edits = before ++ .putPolicy policy now :: after →
    (∀ policy now, .putPolicy policy now ∉ after) → key.policy = policy
  aliases : ∀ before aliasName now after, edits = before ++ .pushAlias aliasName now :: after →
    (∀ now, .eraseAlias aliasName now ∉ after) → aliasName ∈ key.aliases
  tag : ∀ before tags now after, edits = before ++ .tag tags now :: after →
    (tags.map Prod.fst).Nodup → ∀ tag ∈ tags,
      (∀ tags now, .tag tags now ∈ after → tag.1 ∉ tags.map Prod.fst) →
      (∀ tagKeys now, .untag tagKeys now ∈ after → tag.1 ∉ tagKeys) →
      findKey Prod.fst tag.1 key.tags = some tag
  pendingDeletion : ∀ pendingWindowInDays now,
    .scheduleDeletion pendingWindowInDays now ∈ edits → key.keyState = some .pendingDeletion
  /-- Generating the material of the last creation again would change nothing. -/
  material : ∀ before draw after, edits = before ++ .create draw :: after →
    (∀ draw, .create draw ∉ after) → (key.generate draw).material = key.material

/-! ## Runs -/

def start (store : Store) (operations : List Operation) : Pool :=
  ⟨store, operations.map Operation.thread⟩

def move (backend : Backend) : Pool → Nat → Pool :=
  Foundation.Pool.move (execute backend.repository)

def Call.edits (keyId : String) : Call → List Edit
  | updateKey read edit => if read.keyId = keyId then [edit] else []
  | _ => []

/-- The edits that a run makes in the key, in the order of the writes. -/
def written (backend : Backend) (keyId : String) : List Nat → Pool → List Edit
  | [], _ => []
  | position :: schedule, pool =>
    (pool.request position).elim [] (Call.edits keyId) ++
      written backend keyId schedule (move backend pool position)

/-- The copy is written as it would be had the key been read only now, and material is not
put into a key that is to be deleted. -/
structure Edit.Heeds (edit : Edit) (read stored : Key) : Prop where
  current : edit.apply read = edit.apply stored
  creation : ∀ draw, edit = .create draw → stored.keyState ≠ some .pendingDeletion

/-- What holds of a write to the key, where it is the next call of the thread. -/
def HeedsKey (keyId : String) (pool : Pool) (position : Nat) : Prop :=
  ∀ read edit entry, pool.request position = some (.updateKey read edit) → read.keyId = keyId →
    findKey Entry.keyId keyId pool.state = some entry → edit.Heeds read entry.key

def Operation.IsOn (keyId : String) : Operation → Prop
  | createKmsKey other _ => other = keyId
  | scheduleKeyDeletion other _ _ => other = keyId
  | putKeyPolicy other _ _ => other = keyId
  | tagResource other _ _ => other = keyId
  | untagResource other _ _ => other = keyId
  | createAlias _ targetKeyId _ => targetKeyId = keyId
  | updateAlias _ targetKeyId _ => targetKeyId = keyId
  | deleteAlias _ _ => True
  | createKey _ _ _ _ => False
  | deleteKey _ => False
  | deleteKeys _ => False

/-- What the operation is to change in the key is among the edits; an alias that is created
may have been there before. -/
def Operation.IsWritten (initial : Key) (edits : List Edit) : Operation → Prop
  | createKmsKey _ draw => .create draw ∈ edits
  | scheduleKeyDeletion _ pendingWindowInDays now =>
    .scheduleDeletion pendingWindowInDays now ∈ edits
  | putKeyPolicy _ policy now => .putPolicy policy now ∈ edits
  | tagResource _ tags now => .tag tags now ∈ edits
  | untagResource _ tagKeys now => .untag tagKeys now ∈ edits
  | createAlias aliasName _ now => .pushAlias aliasName now ∈ edits ∨
      ∃ earlier, earlier <+: edits ∧ aliasName ∈ (replay initial earlier).aliases
  | updateAlias aliasName _ now => .pushAlias aliasName now ∈ edits
  | _ => True

end Definitions

/-! ## Edits made one after the other -/

section Replay

variable {initial key : Key} {edits after : List Edit} {edit : Edit}

theorem Edit.Heeds.apply_eq {read stored : Key} (hheeds : edit.Heeds read stored) :
    edit.apply read = edit.ideal stored := by
  rw [hheeds.current]
  cases edit with
  | create draw => rw [Edit.ideal, if_neg (hheeds.creation draw rfl)]
  | _ => rfl

theorem replay_append (first second : List Edit) :
    replay initial (first ++ second) = replay (replay initial first) second :=
  List.foldl_append

theorem replay_cons (edit : Edit) (edits : List Edit) :
    replay initial (edit :: edits) = replay (edit.ideal initial) edits := rfl

theorem replay_of_keeps {P : Key → Prop} (hkeeps : ∀ edit ∈ after, ∀ key, P key → P (edit.ideal key))
    (hkey : P key) : P (replay key after) := by
  induction after generalizing key with
  | nil => exact hkey
  | cons edit after ih =>
    exact ih (fun other hother => hkeeps other (List.mem_cons_of_mem _ hother))
      (hkeeps edit List.mem_cons_self key hkey)

variable {before : List Edit}

theorem replay_of_last {P : Key → Prop}
    (hsplit : edits = before ++ edit :: after) (hedit : ∀ key, P (edit.ideal key))
    (hkeeps : ∀ edit ∈ after, ∀ key, P key → P (edit.ideal key)) : P (replay initial edits) := by
  rw [hsplit, replay_append, replay_cons]
  exact replay_of_keeps hkeeps (hedit _)

theorem Edit.ideal_create {α : Type} (part : Key → α) (draw : Draw) (key : Key)
    (hgenerate : part (key.generate draw) = part key)
    (hstate : part { key.generate draw with keyState := some .enabled } =
      part (key.generate draw)) :
    part ((Edit.create draw).ideal key) = part key := by
  rw [Edit.ideal]
  split
  · exact hgenerate
  · exact hstate.trans hgenerate

variable (tags current : List (String × String)) (draw : Draw)

theorem policy_generate (key : Key) : (key.generate draw).policy = key.policy := by
  rw [Key.generate]
  split <;> rfl

theorem tags_generate (key : Key) : (key.generate draw).tags = key.tags := by
  rw [Key.generate]
  split <;> rfl

theorem keyState_generate (key : Key) :
    (key.generate draw).keyState = key.keyState := by
  rw [Key.generate]
  split <;> rfl

theorem material_generate_congr {key other : Key}
    (hspec : key.keySpec = other.keySpec) (hmaterial : key.material = other.material) :
    (key.generate draw).material = (other.generate draw).material := by
  obtain ⟨h1, h2, h3, h4, h5, h6, h7, h8⟩ : key.aes256Key = other.aes256Key ∧
      key.aes256Iv = other.aes256Iv ∧ key.rsaPrivateKey = other.rsaPrivateKey ∧
      key.rsaPublicKey = other.rsaPublicKey ∧ key.hmac224Key = other.hmac224Key ∧
      key.hmac256Key = other.hmac256Key ∧ key.hmac384Key = other.hmac384Key ∧
      key.hmac512Key = other.hmac512Key := by
    simpa [Key.material] using hmaterial
  cases hother : other.keySpec <;> simp [Key.generate, hspec, hother, Key.generateAes256Key,
    Key.generateRsaKeyPair, Key.createHmacKey, Key.material, h1, h2, h3, h4, h5, h6, h7, h8]

theorem material_generate (key : Key) :
    ((key.generate draw).generate draw).material = (key.generate draw).material := by
  cases hspec : key.keySpec <;> simp [Key.generate, hspec, Key.generateAes256Key,
    Key.generateRsaKeyPair, Key.createHmacKey, Key.material]

theorem mem_eraseAlias {aliasName other : String} {aliases : List String}
    (hmem : aliasName ∈ aliases) (hne : aliasName ≠ other) : aliasName ∈ aliases.erase other :=
  (List.mem_erase_of_ne hne).mpr hmem

theorem findKey_foldl_upsert_of_notMem {name : String}
    (hname : name ∉ tags.map Prod.fst) :
    findKey Prod.fst name (tags.foldl (fun tags tag => upsert Prod.fst tag tags) current) =
      findKey Prod.fst name current := by
  induction tags generalizing current with
  | nil => rfl
  | cons tag tags ih =>
    rw [List.map_cons, List.mem_cons, not_or] at hname
    rw [List.foldl_cons, ih _ hname.2, findKey_upsert, if_neg (Ne.symm hname.1)]

theorem findKey_foldl_upsert {tag : String × String}
    (hdistinct : (tags.map Prod.fst).Nodup) (htag : tag ∈ tags) :
    findKey Prod.fst tag.1 (tags.foldl (fun tags tag => upsert Prod.fst tag tags) current) =
      some tag := by
  induction tags generalizing current with
  | nil => cases htag
  | cons head tags ih =>
    rw [List.map_cons, List.nodup_cons] at hdistinct
    rw [List.foldl_cons]
    rcases List.mem_cons.mp htag with rfl | hrest
    · rw [findKey_foldl_upsert_of_notMem _ _ hdistinct.1, findKey_upsert, if_pos rfl]
    · exact ih _ hdistinct.2 hrest

theorem findKey_foldl_removeKey {name : String} (tagKeys : List String)
    (current : List (String × String)) (hname : name ∉ tagKeys) :
    findKey Prod.fst name
        (tagKeys.foldl (fun tags tagKey => removeKey Prod.fst tagKey tags) current) =
      findKey Prod.fst name current := by
  induction tagKeys generalizing current with
  | nil => rfl
  | cons tagKey tagKeys ih =>
    rw [List.mem_cons, not_or] at hname
    rw [List.foldl_cons, ih _ hname.2, findKey_removeKey, if_neg hname.1]

theorem policy_replay {policy : String} {now : Int}
    (hsplit : edits = before ++ .putPolicy policy now :: after)
    (hlast : ∀ policy now, .putPolicy policy now ∉ after) :
    (replay initial edits).policy = policy := by
  refine replay_of_last (P := fun key => key.policy = policy) hsplit (fun key => rfl) ?_
  intro edit hedit key hkey
  cases edit with
  | create draw =>
    exact (Edit.ideal_create Key.policy draw key (policy_generate draw key) rfl).trans hkey
  | putPolicy other now => exact absurd hedit (hlast other now)
  | _ => exact hkey

theorem alias_replay {aliasName : String} {now : Int}
    (hsplit : edits = before ++ .pushAlias aliasName now :: after)
    (hlast : ∀ now, .eraseAlias aliasName now ∉ after) :
    aliasName ∈ (replay initial edits).aliases := by
  refine replay_of_last (P := fun key => aliasName ∈ key.aliases) hsplit
    (fun key => List.mem_append_right _ (List.mem_singleton_self _)) ?_
  intro edit hedit key hkey
  cases edit with
  | create draw =>
    rw [Edit.ideal_create Key.aliases draw key (Edit.aliases_generate draw key) rfl]
    exact hkey
  | pushAlias other now => exact List.mem_append_left _ hkey
  | eraseAlias other now =>
    refine mem_eraseAlias hkey ?_
    rintro rfl
    exact hlast now hedit
  | _ => exact hkey

theorem tag_replay {tags : List (String × String)} {tag : String × String} {now : Int}
    (hsplit : edits = before ++ .tag tags now :: after)
    (hdistinct : (tags.map Prod.fst).Nodup) (htag : tag ∈ tags)
    (htags : ∀ tags now, .tag tags now ∈ after → tag.1 ∉ tags.map Prod.fst)
    (huntags : ∀ tagKeys now, .untag tagKeys now ∈ after → tag.1 ∉ tagKeys) :
    findKey Prod.fst tag.1 (replay initial edits).tags = some tag := by
  refine replay_of_last (P := fun key => findKey Prod.fst tag.1 key.tags = some tag) hsplit
    (fun key => findKey_foldl_upsert tags _ hdistinct htag) ?_
  intro edit hedit key hkey
  cases edit with
  | create draw =>
    rw [Edit.ideal_create Key.tags draw key (tags_generate draw key) rfl]
    exact hkey
  | tag others now =>
    exact (findKey_foldl_upsert_of_notMem _ _ (htags others now hedit)).trans hkey
  | untag tagKeys now =>
    exact (findKey_foldl_removeKey _ _ (huntags tagKeys now hedit)).trans hkey
  | _ => exact hkey

theorem pendingDeletion_replay {pendingWindowInDays now : Int}
    (hmem : .scheduleDeletion pendingWindowInDays now ∈ edits) :
    (replay initial edits).keyState = some .pendingDeletion := by
  obtain ⟨before, after, hsplit⟩ := List.append_of_mem hmem
  refine replay_of_last (P := fun key => key.keyState = some .pendingDeletion) hsplit
    (fun key => rfl) ?_
  intro edit _ key hkey
  cases edit with
  | create draw =>
    rw [Edit.ideal, if_pos hkey, keyState_generate]
    exact hkey
  | scheduleDeletion pendingWindowInDays now => rfl
  | _ => exact hkey

theorem material_replay {draw : Draw}
    (hsplit : edits = before ++ .create draw :: after) (hlast : ∀ draw, .create draw ∉ after) :
    ((replay initial edits).generate draw).material = (replay initial edits).material := by
  refine replay_of_last (P := fun key => (key.generate draw).material = key.material) hsplit ?_ ?_
  · intro key
    rw [Edit.ideal]
    split
    · exact material_generate draw key
    · refine Eq.trans (material_generate_congr draw ?_ ?_) (material_generate draw key)
      · rfl
      · rfl
  · intro edit hedit key hkey
    cases edit with
    | create other => exact absurd hedit (hlast other)
    | _ =>
      refine Eq.trans (material_generate_congr draw ?_ ?_) hkey
      · rfl
      · rfl

theorem carries_replay (initial : Key) (edits : List Edit) :
    Carries initial edits (replay initial edits) where
  replayed := rfl
  policy := fun _ _ _ _ hsplit hlast => policy_replay hsplit hlast
  aliases := fun _ _ _ _ hsplit hlast => alias_replay hsplit hlast
  tag := fun _ _ _ _ hsplit hdistinct _ htag htags huntags =>
    tag_replay hsplit hdistinct htag htags huntags
  pendingDeletion := fun _ _ hmem => pendingDeletion_replay hmem
  material := fun _ _ _ hsplit hlast => material_replay hsplit hlast

end Replay

/-! ## Calls -/

section Calls

def Call.IsQuiet : Call → Prop
  | createKey _ _ => False
  | deleteKey _ => False
  | _ => True

variable {repository : Repository} {keyId : String} {store : Store} {entry : Entry}
  {request : Call}

theorem keyIds_execute (hquiet : request.IsQuiet) :
    ((execute repository request store).2).map Entry.keyId = store.map Entry.keyId := by
  cases request with
  | updateKey read edit => exact Store.keyIds_updateKey _
  | createKey oid key => exact hquiet.elim
  | deleteKey key => exact hquiet.elim
  | _ => rfl

theorem findKey_updateKey_self {key : Key} (hkeyId : key.keyId = keyId)
    (hfind : findKey Entry.keyId keyId store = some entry) :
    findKey Entry.keyId keyId (store.updateKey key) = some { entry with key := key } := by
  subst hkeyId
  exact find?_rewriteFirst hfind (decide_eq_true rfl)

theorem findKey_updateKey_of_ne {key : Key} (hne : key.keyId ≠ keyId) :
    findKey Entry.keyId keyId (store.updateKey key) = findKey Entry.keyId keyId store := by
  apply find?_rewriteFirst_of_disjoint
  · intro other hselect
    rw [of_decide_eq_true hselect]
    exact decide_eq_false hne
  · exact fun _ _ => decide_eq_false hne

theorem findKey_execute (hquiet : request.IsQuiet)
    (hfind : findKey Entry.keyId keyId store = some entry)
    (hheeds : ∀ read edit, request = .updateKey read edit → read.keyId = keyId →
      edit.Heeds read entry.key) :
    ∃ after, findKey Entry.keyId keyId (execute repository request store).2 = some after ∧
      after.key = replay entry.key (request.edits keyId) := by
  cases request with
  | updateKey read edit =>
    rw [Call.edits]
    by_cases hkeyId : read.keyId = keyId
    · refine ⟨_, findKey_updateKey_self ((Edit.keyId_apply edit read).trans hkeyId) hfind, ?_⟩
      rw [if_pos hkeyId]
      exact (hheeds read edit rfl hkeyId).apply_eq
    · refine ⟨entry, ?_, by rw [if_neg hkeyId]; rfl⟩
      rw [← hfind]
      apply findKey_updateKey_of_ne
      rw [Edit.keyId_apply]
      exact hkeyId
  | createKey oid key => exact hquiet.elim
  | deleteKey key => exact hquiet.elim
  | _ => exact ⟨entry, hfind, rfl⟩

end Calls

/-! ## Threads -/

section Obligations

def Operation.goal : Operation → Option Edit
  | createKmsKey _ draw => some (.create draw)
  | scheduleKeyDeletion _ pendingWindowInDays now =>
    some (.scheduleDeletion pendingWindowInDays now)
  | putKeyPolicy _ policy now => some (.putPolicy policy now)
  | tagResource _ tags now => some (.tag tags now)
  | untagResource _ tagKeys now => some (.untag tagKeys now)
  | createAlias aliasName _ now => some (.pushAlias aliasName now)
  | updateAlias aliasName _ now => some (.pushAlias aliasName now)
  | _ => none

/-- The replies that a thread gets while the key is there; the alias to be created is not
found at the target. -/
def Operation.Expects (keyId : String) (operation : Operation) :
    (request : Call) → request.Reply → Prop
  | .getKeyByKeyId other, reply =>
    other = keyId → ∃ key : Key, reply = Except.ok key ∧ key.keyId = keyId
  | .listKeys, keys =>
    match operation with
    | createAlias aliasName _ _ => ∀ key : Key, List.Mem key keys → key.keyId = keyId →
        aliasName ∉ key.aliases
    | _ => True
  | _, _ => True

/-- The thread does not end well before it has made the edit. -/
def Owes (keyId : String) (operation : Operation) (edit : Edit) : Thread → Prop
  | .done result => ∀ response, result ≠ .ok response
  | .call request next =>
    (∃ read : Key, read.keyId = keyId ∧ request = .updateKey read edit) ∨
      ∀ reply, operation.Expects keyId request reply → Owes keyId operation edit (next reply)

variable {keyId : String} {operation : Operation} {edit : Edit} {initial : Key}
  {edits : List Edit}

theorem Operation.isWritten_of_mem (hgoal : operation.goal = some edit) (hmem : edit ∈ edits) :
    operation.IsWritten initial edits := by
  cases operation with
  | createAlias aliasName targetKeyId now =>
    cases hgoal
    exact Or.inl hmem
  | createKey request accountId keyId oid => cases hgoal
  | deleteAlias aliasName now => cases hgoal
  | deleteKey keyId => cases hgoal
  | deleteKeys now => cases hgoal
  | _ =>
    cases hgoal
    exact hmem

theorem Operation.IsWritten.append (hwritten : operation.IsWritten initial edits)
    (more : List Edit) : operation.IsWritten initial (edits ++ more) := by
  cases operation with
  | createAlias aliasName targetKeyId now =>
    rcases hwritten with hmem | ⟨earlier, hearlier, halias⟩
    · exact Or.inl (List.mem_append_left _ hmem)
    · exact Or.inr ⟨earlier, hearlier.trans (List.prefix_append _ _), halias⟩
  | createKey request accountId keyId oid => trivial
  | deleteAlias aliasName now => trivial
  | deleteKey keyId => trivial
  | deleteKeys now => trivial
  | _ => exact List.mem_append_left _ hwritten

theorem owes_edit {translate : Exn → Exn} (response : Response) :
    Owes keyId operation edit (Thread.getKeyByKeyId translate keyId fun key =>
      Thread.updateKey key edit (Thread.finish response)) := by
  refine Or.inr ?_
  intro reply hreply
  obtain ⟨key, rfl, hkeyId⟩ := hreply rfl
  exact Or.inl ⟨key, hkeyId, rfl⟩

variable {next : Thread} {aliasName : String} {now : Int}

theorem owes_updateKey {other : Edit} {read : Key} (hnext : Owes keyId operation edit next) :
    Owes keyId operation edit (Thread.updateKey read other next) :=
  Or.inr fun _ _ => hnext

theorem owes_releaseAlias {keys : List Key}
    (hkeys : ∀ key ∈ keys, key.keyId = keyId → aliasName ∉ key.aliases)
    (hnext : Owes keyId operation edit next) :
    Owes keyId operation edit (releaseAlias aliasName keyId now next keys) := by
  induction keys with
  | nil => exact hnext
  | cons key keys ih =>
    have hrest := ih fun other hother => hkeys other (List.mem_cons_of_mem _ hother)
    rw [releaseAlias]
    split
    next hholds =>
      rw [if_neg fun hkeyId => hkeys key List.mem_cons_self hkeyId hholds]
      exact owes_updateKey hrest
    next => exact hrest

variable (keys : List Key)

theorem owes_eraseFirstAlias (hnext : Owes keyId operation edit next) :
    Owes keyId operation edit (eraseFirstAlias aliasName now next keys) := by
  rw [eraseFirstAlias]
  split
  · exact owes_updateKey hnext
  · exact hnext

theorem owes_thread (hon : operation.IsOn keyId) (hgoal : operation.goal = some edit) :
    Owes keyId operation edit operation.thread := by
  cases operation with
  | createKmsKey other draw =>
    cases hgoal
    subst hon
    exact owes_edit .done
  | scheduleKeyDeletion other pendingWindowInDays now =>
    cases hgoal
    subst hon
    refine Or.inr ?_
    intro (found : Bool) _
    cases found with
    | true => exact owes_edit _
    | false =>
      intro response herror
      cases herror
  | putKeyPolicy other policy now =>
    cases hgoal
    subst hon
    exact owes_edit .done
  | tagResource other tags now =>
    cases hgoal
    subst hon
    exact owes_edit .done
  | untagResource other tagKeys now =>
    cases hgoal
    subst hon
    exact owes_edit .done
  | createAlias aliasName targetKeyId now =>
    cases hgoal
    subst hon
    exact Or.inr fun keys hkeys => owes_releaseAlias (fun key hkey => hkeys key hkey)
      (owes_edit .done)
  | updateAlias aliasName targetKeyId now =>
    cases hgoal
    subst hon
    exact Or.inr fun keys _ => owes_eraseFirstAlias keys (owes_edit .done)
  | _ => cases hgoal

/-! ## Operations on a key that is there -/

theorem quiet_updateKey {read : Key} {other : Edit}
    (hnext : next.Calls Call.IsQuiet) : (Thread.updateKey read other next).Calls Call.IsQuiet :=
  ⟨trivial, fun _ => hnext⟩

theorem quiet_edit {other : String} {translate : Exn → Exn} (response : Response) :
    (Thread.getKeyByKeyId translate other fun key =>
      Thread.updateKey key edit (Thread.finish response)).Calls Call.IsQuiet := by
  refine ⟨trivial, ?_⟩
  intro reply
  cases (reply : Except Exn Key) with
  | error exn => trivial
  | ok key => exact quiet_updateKey trivial

theorem quiet_releaseAlias {aliasName targetKeyId : String}
    (hnext : next.Calls Call.IsQuiet) :
    (releaseAlias aliasName targetKeyId now next keys).Calls Call.IsQuiet := by
  induction keys with
  | nil => exact hnext
  | cons key keys ih =>
    rw [releaseAlias]
    split
    · split
      · trivial
      · exact quiet_updateKey ih
    · exact ih

theorem quiet_eraseFirstAlias (hnext : next.Calls Call.IsQuiet) :
    (eraseFirstAlias aliasName now next keys).Calls Call.IsQuiet := by
  rw [eraseFirstAlias]
  split
  · exact quiet_updateKey hnext
  · exact hnext

theorem quiet_thread (hon : operation.IsOn keyId) : operation.thread.Calls Call.IsQuiet := by
  cases operation with
  | createKmsKey other draw => exact quiet_edit .done
  | scheduleKeyDeletion other pendingWindowInDays now =>
    refine ⟨trivial, ?_⟩
    intro (found : Bool)
    cases found with
    | true => exact quiet_edit _
    | false => trivial
  | putKeyPolicy other policy now => exact quiet_edit .done
  | tagResource other tags now => exact quiet_edit .done
  | untagResource other tagKeys now => exact quiet_edit .done
  | createAlias aliasName targetKeyId now =>
    exact ⟨trivial, fun keys => quiet_releaseAlias keys (quiet_edit .done)⟩
  | updateAlias aliasName targetKeyId now =>
    exact ⟨trivial, fun keys => quiet_eraseFirstAlias keys (quiet_edit .done)⟩
  | deleteAlias aliasName now =>
    exact ⟨trivial, fun keys => quiet_eraseFirstAlias keys trivial⟩
  | createKey request accountId keyId oid => exact hon.elim
  | deleteKey keyId => exact hon.elim
  | deleteKeys now => exact hon.elim

end Obligations

/-! ## Runs -/

section Runs

variable {backend : Backend} {keyId : String} {operations : List Operation} {initial : Key}
  {earlier : List Edit} {pool : Pool} {position : Nat}

/-- What holds after the first edits: the key has them all, and every operation that is over
has made its edit. -/
structure Invariant (keyId : String) (operations : List Operation) (initial : Key)
    (earlier : List Edit) (pool : Pool) : Prop where
  distinct : (pool.state.map Entry.keyId).Nodup
  stored : ∃ entry, findKey Entry.keyId keyId pool.state = some entry ∧
    entry.key = replay initial earlier
  quiet : pool.Calls Call.IsQuiet
  accounted : ∀ (index : Nat) operation thread, operations[index]? = some operation →
    pool.threads[index]? = some thread →
      operation.IsWritten initial earlier ∨ operation.goal = none ∨
        ∃ edit, operation.goal = some edit ∧ Owes keyId operation edit thread

theorem owes_advance {operation : Operation} {edit : Edit} {thread : Thread} {store : Store}
    {entry : Entry} {repository : Repository} (hlawful : repository.IsLawful)
    (hdistinct : (store.map Entry.keyId).Nodup)
    (hfind : findKey Entry.keyId keyId store = some entry)
    (hkey : entry.key = replay initial earlier) (hgoal : operation.goal = some edit)
    (howes : Owes keyId operation edit thread) :
    operation.IsWritten initial (earlier ++ thread.request.elim [] (Call.edits keyId)) ∨
      Owes keyId operation edit (thread.advance (execute repository) store).1 := by
  cases thread with
  | done result => exact Or.inr howes
  | call request next =>
    rcases howes with ⟨read, hkeyId, rfl⟩ | howes
    · left
      apply Operation.isWritten_of_mem hgoal
      change edit ∈ earlier ++ Call.edits keyId (.updateKey read edit)
      rw [Call.edits, if_pos hkeyId]
      exact List.mem_append_right _ (List.mem_singleton_self _)
    · by_cases hexpects : operation.Expects keyId request (execute repository request store).1
      · exact Or.inr (howes _ hexpects)
      · left
        cases request with
        | getKeyByKeyId other =>
          refine absurd ?_ hexpects
          rintro rfl
          have hkeyId : entry.keyId = other := key_of_findKey hfind
          exact ⟨entry.key, hlawful.getKeyByKeyId_of_some hfind, hkeyId⟩
        | listKeys =>
          cases operation with
          | createAlias aliasName targetKeyId now =>
            simp only [Operation.Expects, not_forall, not_not] at hexpects
            obtain ⟨key, hmem, hkeyId, halias⟩ := hexpects
            obtain ⟨other, hother, rfl⟩ := List.mem_map.mp (id hmem : key ∈ store.listKeys)
            have hsame : findKey Entry.keyId other.keyId store = some other :=
              findKey_of_mem hdistinct hother
            have hsame' : some entry = some other := by
              rw [← hfind, ← hsame]
              exact congrArg (fun keyId => findKey Entry.keyId keyId store) hkeyId.symm
            cases hsame'
            exact Or.inr ⟨earlier, List.prefix_append _ _, hkey ▸ halias⟩
          | _ => exact absurd trivial hexpects
        | _ => exact absurd trivial hexpects

theorem Invariant.move (hinvariant : Invariant keyId operations initial earlier pool)
    (hheeds : HeedsKey keyId pool position) :
    Invariant keyId operations initial
      (earlier ++ (pool.request position).elim [] (Call.edits keyId))
      (move backend pool position) := by
  obtain ⟨entry, hfind, hkey⟩ := hinvariant.stored
  refine ⟨?_, ?_, hinvariant.quiet.move position, ?_⟩
  · refine Foundation.Pool.state_of_calls (I := fun store => (store.map Entry.keyId).Nodup) ?_
      hinvariant.quiet hinvariant.distinct position
    intro request store hquiet hstore
    rw [keyIds_execute hquiet]
    exact hstore
  · cases hrequest : pool.request position with
    | none =>
      refine ⟨entry, ?_, ?_⟩
      · rw [Kms.move, Foundation.Pool.move_of_none hrequest]
        exact hfind
      · rw [Option.elim_none, List.append_nil]
        exact hkey
    | some request =>
      obtain ⟨after, hafter, hreplay⟩ := @findKey_execute backend.repository keyId pool.state
        entry request (hinvariant.quiet.of_request hrequest) hfind
        fun read edit heq hkeyId => hheeds read edit entry (heq ▸ hrequest) hkeyId hfind
      refine ⟨after, ?_, ?_⟩
      · rw [Kms.move, Foundation.Pool.move_of_some hrequest]
        exact hafter
      · rw [Option.elim_some, replay_append, ← hkey]
        exact hreplay
  · intro index operation thread hoperation hthread
    by_cases hindex : index = position
    · subst hindex
      cases hold : pool.threads[index]? with
      | none =>
        rw [Kms.move, Foundation.Pool.threads_of_none hold, hold] at hthread
        cases hthread
      | some old =>
        have hmoved : thread = (old.advance (execute backend.repository) pool.state).1 := by
          rw [Kms.move, Foundation.Pool.threads_of_some hold] at hthread
          obtain ⟨hlt, _⟩ := List.getElem?_eq_some_iff.mp hold
          rw [List.getElem?_set_self hlt] at hthread
          exact (Option.some.inj hthread).symm
        have hrequest : pool.request index = old.request := by
          rw [Foundation.Pool.request, hold, Option.bind_some]
        rcases hinvariant.accounted index operation old hoperation hold with
          hwritten | hnone | ⟨edit, hgoal, howes⟩
        · exact Or.inl (hwritten.append _)
        · exact Or.inr (Or.inl hnone)
        · rcases owes_advance backend.isLawful hinvariant.distinct hfind hkey hgoal howes with
            hwritten | howes
          · rw [hrequest]
            exact Or.inl hwritten
          · exact Or.inr (Or.inr ⟨edit, hgoal, hmoved ▸ howes⟩)
    · rw [Kms.move, Foundation.Pool.threads_move_of_ne hindex] at hthread
      exact (hinvariant.accounted index operation thread hoperation hthread).imp_left
        fun hwritten => hwritten.append _

theorem Invariant.run {schedule : List Nat}
    (hinvariant : Invariant keyId operations initial earlier pool)
    (hheeds : Runs.Heeded (Kms.move backend) (HeedsKey keyId) schedule pool) :
    Invariant keyId operations initial (earlier ++ written backend keyId schedule pool)
      (schedule.foldl (Kms.move backend) pool) := by
  induction schedule generalizing pool earlier with
  | nil =>
    rw [written, List.append_nil]
    exact hinvariant
  | cons position schedule ih =>
    rw [written, ← List.append_assoc]
    exact ih (hinvariant.move hheeds.1) hheeds.2

theorem invariant_start {store : Store} {entry : Entry} (hdistinct : (store.map Entry.keyId).Nodup)
    (hfind : findKey Entry.keyId keyId store = some entry)
    (hon : ∀ operation ∈ operations, operation.IsOn keyId) :
    Invariant keyId operations entry.key [] (start store operations) := by
  refine ⟨hdistinct, ⟨entry, hfind, rfl⟩, ?_, ?_⟩
  · intro thread hthread
    obtain ⟨operation, hoperation, rfl⟩ := List.mem_map.mp hthread
    exact quiet_thread (hon operation hoperation)
  · intro index operation thread hoperation hthread
    have hmapped : (start store operations).threads[index]? = some operation.thread := by
      rw [start, List.getElem?_map, hoperation]
      rfl
    rw [hmapped] at hthread
    obtain rfl := Option.some.inj hthread
    right
    cases hgoal : operation.goal with
    | none => exact Or.inl rfl
    | some edit =>
      exact Or.inr ⟨edit, rfl, owes_thread (hon _ (List.mem_of_getElem? hoperation)) hgoal⟩

theorem isWritten_of_goal_none {operation : Operation} (hnone : operation.goal = none) :
    operation.IsWritten initial earlier := by
  cases operation with
  | createKey request accountId keyId oid => trivial
  | deleteAlias aliasName now => trivial
  | deleteKey keyId => trivial
  | deleteKeys now => trivial
  | _ => cases hnone

structure KeepsEdits (backend : Backend) (keyId : String) (initial : Key)
    (operations : List Operation) (schedule : List Nat) (pool : Pool) : Prop where
  stored : ∃ entry, findKey Entry.keyId keyId (schedule.foldl (move backend) pool).state =
    some entry ∧ Carries initial (written backend keyId schedule pool) entry.key
  acknowledged : ∀ (index : Nat) operation response, operations[index]? = some operation →
    (schedule.foldl (move backend) pool).threads[index]? = some (.done (.ok response)) →
      operation.IsWritten initial (written backend keyId schedule pool)

/-- In every interleaving in which no outdated copy is written back, and no material is put
into a key that is to be deleted, nothing that was acknowledged is lost. -/
theorem keepsEdits_of_heeded (backend : Backend) (keyId : String) (store : Store) (entry : Entry)
    (operations : List Operation) (schedule : List Nat)
    (hdistinct : (store.map Entry.keyId).Nodup)
    (hfind : findKey Entry.keyId keyId store = some entry)
    (hon : ∀ operation ∈ operations, operation.IsOn keyId)
    (hheeds : Runs.Heeded (move backend) (HeedsKey keyId) schedule (start store operations)) :
    KeepsEdits backend keyId entry.key operations schedule (start store operations) := by
  have hinvariant := (invariant_start hdistinct hfind hon).run hheeds
  rw [List.nil_append] at hinvariant
  refine ⟨?_, ?_⟩
  · obtain ⟨after, hafter, hkey⟩ := hinvariant.stored
    exact ⟨after, hafter, hkey ▸ carries_replay _ _⟩
  · intro index operation response hoperation hthread
    rcases hinvariant.accounted index operation _ hoperation hthread with
      hwritten | hnone | ⟨edit, _, howes⟩
    · exact hwritten
    · exact isWritten_of_goal_none hnone
    · exact absurd rfl (howes response)

def newKey : Store := [⟨"oid", { keyId := "first" }⟩]

def sampleDraw : Draw := ⟨"aa", "bb", fun _ => ("cc", "dd"), fun _ => "ee"⟩

def creationAndTag : List Operation :=
  [.createKmsKey "first" sampleDraw, .tagResource "first" [("stage", "test")] 0]

theorem isOn_creationAndTag : ∀ operation ∈ creationAndTag, operation.IsOn "first" := by
  simp [creationAndTag, Operation.IsOn]

theorem keepsEdits_of_heeded_inOrder :
    KeepsEdits .memory "first" { keyId := "first" } creationAndTag [0, 0, 1, 1]
      (start newKey creationAndTag) := by
  refine keepsEdits_of_heeded .memory "first" newKey ⟨"oid", { keyId := "first" }⟩ creationAndTag
    [0, 0, 1, 1] (by decide) rfl isOn_creationAndTag ⟨?_, ?_, ?_, ?_, trivial⟩
  · rintro read edit entry ⟨⟩
  · rintro read edit entry ⟨⟩ - ⟨⟩
    exact ⟨rfl, fun _ _ => by decide⟩
  · rintro read edit entry ⟨⟩
  · rintro read edit entry ⟨⟩ - ⟨⟩
    exact ⟨rfl, fun _ hcreate => by cases hcreate⟩

/-- A tag that is put on the key while its material is created is lost. -/
theorem not_keepsEdits_interleaved :
    ¬ ∀ backend keyId (store : Store) (entry : Entry) operations schedule,
      (store.map Entry.keyId).Nodup → findKey Entry.keyId keyId store = some entry →
        (∀ operation ∈ operations, Operation.IsOn keyId operation) →
          KeepsEdits backend keyId entry.key operations schedule (start store operations) := by
  intro hkeeps
  obtain ⟨entry, hentry, hcarries⟩ := (hkeeps .memory "first" newKey
    ⟨"oid", { keyId := "first" }⟩ creationAndTag [0, 1, 1, 0] (by decide) rfl isOn_creationAndTag).stored
  have htag := hcarries.tag [] [("stage", "test")] 0 [.create sampleDraw] rfl (by decide)
    ("stage", "test") (by decide) (fun tags now hmem => by simp at hmem)
    (fun tagKeys now hmem => by simp at hmem)
  obtain rfl := Option.some.inj hentry
  revert htag
  decide

end Runs

end AwsMock.Kms
