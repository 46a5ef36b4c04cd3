import AwsMock.Kms.Service
import Mathlib.Data.List.Flatten

/-! # Aliases belong to one key

Every alias is held by one key at most. An alias operation takes the alias from the key that
holds it before it looks for the target, so that it is lost when there is no target.
-/

namespace AwsMock.Kms

open Foundation

namespace Store

variable (store : Store)

def aliases : List String := store.flatMap fun entry => entry.key.aliases

def assignment : List (String × List String) :=
  store.map fun entry => (entry.keyId, entry.key.aliases)

/-- An alias occurs in the list of one key at most, and at most once there. -/
def AliasesAreUnique : Prop := store.aliases.Nodup

def edit (keyId : String) (edit : Edit) : Store :=
  match findKey Entry.keyId keyId store with
  | some entry => store.updateKey (edit.apply entry.key)
  | none => store

def release (aliasName : String) (now : Int) : Store :=
  match store.listKeys.find? fun key => aliasName ∈ key.aliases with
  | some key => store.updateKey ((Edit.eraseAlias aliasName now).apply key)
  | none => store

/-- The keys have identifiers of their own, and none is blank. -/
structure IsValid : Prop where
  keyIds : (store.map Entry.keyId).Nodup
  nonempty : ∀ entry ∈ store, entry.keyId ≠ ""
  aliases : store.AliasesAreUnique

end Store

section Properties

variable (backend : Backend) (store : Store)

def Operation.DrawsNewIds : Operation → Prop
  | createKey _ _ keyId oid =>
    keyId ≠ "" ∧ ∀ entry ∈ store, entry.keyId ≠ keyId ∧ entry.oid ≠ oid
  | _ => True

def Operation.LeavesAliases (operation : Operation) : Prop :=
  match operation with
  | createAlias _ targetKeyId _ | updateAlias _ targetKeyId _ =>
    store.keyExists targetKeyId = false →
      (step backend store operation).assignment = store.assignment
  | _ => True

/-- An alias that is given to a key that does not exist is held by none. -/
def Operation.HeedsTarget : Operation → Prop
  | createAlias aliasName targetKeyId _ | updateAlias aliasName targetKeyId _ =>
    store.keyExists targetKeyId = false → aliasName ∉ store.aliases
  | _ => True

end Properties

/-! ## Edits of a store -/

section Edits

variable {store : Store} {key : Key} {entry : Entry} {keyId aliasName : String} {now : Int}

namespace Store

theorem keyExists_eq_false : store.keyExists keyId = false ↔
    findKey Entry.keyId keyId store = none := by
  rw [keyExists, Option.isSome_eq_false_iff, Option.isNone_iff_eq_none]

theorem updateKey_of_none (hnone : findKey Entry.keyId key.keyId store = none) :
    store.updateKey key = store := by
  apply rewriteFirst_of_none
  intro entry hentry
  exact decide_eq_false (findKey_eq_none.mp hnone entry hentry)

theorem find_apply (hfind : findKey Entry.keyId keyId store = some entry) (edit : Edit) :
    findKey Entry.keyId (edit.apply entry.key).keyId store = some entry := by
  rw [Edit.keyId_apply]
  change findKey Entry.keyId entry.keyId store = some entry
  rw [key_of_findKey hfind]
  exact hfind

theorem keyIds_updateKey (key : Key) :
    (store.updateKey key).map Entry.keyId = store.map Entry.keyId := by
  apply map_rewriteFirst_of_preserved
  intro entry _ hselect
  exact (of_decide_eq_true hselect).symm

theorem count_updateKey (hfind : findKey Entry.keyId key.keyId store = some entry)
    (aliasName : String) :
    (store.updateKey key).aliases.count aliasName + entry.key.aliases.count aliasName =
      store.aliases.count aliasName + key.aliases.count aliasName :=
  count_flatMap_rewriteFirst hfind aliasName

variable {store' : Store}

theorem nonempty_of_keyIds (hkeyIds : store'.map Entry.keyId = store.map Entry.keyId)
    (hnonempty : ∀ entry ∈ store, entry.keyId ≠ "") : ∀ entry ∈ store', entry.keyId ≠ "" := by
  intro entry hentry
  have hmem : entry.keyId ∈ store.map Entry.keyId := hkeyIds ▸ List.mem_map_of_mem hentry
  obtain ⟨other, hother, heq⟩ := List.mem_map.mp hmem
  exact heq ▸ hnonempty other hother

theorem findKey_none_of_keyIds (hkeyIds : store'.map Entry.keyId = store.map Entry.keyId)
    (hnone : findKey Entry.keyId keyId store = none) :
    findKey Entry.keyId keyId store' = none := by
  rw [findKey_eq_none] at hnone ⊢
  intro entry hentry
  have hmem : entry.keyId ∈ store.map Entry.keyId := hkeyIds ▸ List.mem_map_of_mem hentry
  obtain ⟨other, hother, heq⟩ := List.mem_map.mp hmem
  exact heq ▸ hnone other hother

theorem aliases_nodup_iff : store.AliasesAreUnique ↔
    ∀ aliasName, store.aliases.count aliasName ≤ 1 :=
  List.nodup_iff_count_le_one

theorem find_of_holds (hdistinct : (store.map Entry.keyId).Nodup)
    (hfind : store.listKeys.find? (fun key => aliasName ∈ key.aliases) = some key) :
    ∃ entry, findKey Entry.keyId key.keyId store = some entry ∧ entry.key = key ∧
      aliasName ∈ key.aliases := by
  have hholds := of_decide_eq_true (List.find?_some (p := fun key : Key =>
    decide (aliasName ∈ key.aliases)) hfind)
  obtain ⟨entry, hentry, hkey⟩ := List.mem_map.mp (List.mem_of_find?_eq_some hfind)
  refine ⟨entry, ?_, hkey, hholds⟩
  rw [← hkey]
  exact findKey_of_mem hdistinct hentry

theorem holds_none (hfind : store.listKeys.find? (fun key => aliasName ∈ key.aliases) = none) :
    aliasName ∉ store.aliases := by
  intro hmem
  obtain ⟨entry, hentry, hholds⟩ := List.mem_flatMap.mp hmem
  have hnot := List.find?_eq_none.mp hfind entry.key (List.mem_map_of_mem hentry)
  exact hnot (decide_eq_true hholds)

theorem aliases_eq_of_assignment (heq : store'.assignment = store.assignment) :
    store'.aliases = store.aliases := by
  have hflat : ∀ store : Store, store.aliases = store.assignment.flatMap Prod.snd := by
    intro store
    rw [assignment, List.flatMap_map]
    rfl
  rw [hflat, hflat, heq]

/-! ## Releasing an alias -/

variable (aliasName now) in
theorem keyIds_release :
    (store.release aliasName now).map Entry.keyId = store.map Entry.keyId := by
  rw [release]
  split
  · exact keyIds_updateKey _
  · rfl

theorem count_release (hvalid : store.IsValid) (other : String) :
    (store.release aliasName now).aliases.count other =
      if other = aliasName then 0 else store.aliases.count other := by
  rw [release]
  split
  next key hfind =>
    obtain ⟨entry, hentry, hkey, hholds⟩ := find_of_holds hvalid.keyIds hfind
    have hcount := @count_updateKey store ((Edit.eraseAlias aliasName now).apply key) entry
      (by rw [Edit.keyId_apply]; exact hentry) other
    have hunique := aliases_nodup_iff.mp hvalid.aliases other
    rw [hkey] at hcount
    change _ + key.aliases.count other = _ + (key.aliases.erase aliasName).count other at hcount
    rw [List.count_erase] at hcount
    split
    next heq =>
      have hpos := List.count_pos_iff.mpr hholds
      rw [heq] at hcount hunique ⊢
      rw [if_pos (beq_self_eq_true aliasName)] at hcount
      omega
    next hne =>
      rw [if_neg (by simpa using Ne.symm hne)] at hcount
      omega
  next hfind =>
    split
    next heq => rw [heq, List.count_eq_zero.mpr (holds_none hfind)]
    next => rfl

theorem isValid_release (hvalid : store.IsValid) : (store.release aliasName now).IsValid := by
  refine ⟨?_, nonempty_of_keyIds (keyIds_release aliasName now) hvalid.nonempty, ?_⟩
  · rw [keyIds_release]
    exact hvalid.keyIds
  · rw [aliases_nodup_iff]
    intro other
    rw [count_release hvalid]
    split
    · omega
    · exact aliases_nodup_iff.mp hvalid.aliases other

theorem assignment_release_iff (hvalid : store.IsValid) :
    (store.release aliasName now).assignment = store.assignment ↔ aliasName ∉ store.aliases := by
  constructor
  · intro heq
    rw [← aliases_eq_of_assignment heq, ← List.count_eq_zero, count_release hvalid, if_pos rfl]
  · intro hfree
    rw [release]
    split
    next key hfind =>
      obtain ⟨entry, hentry, hkey, hholds⟩ := find_of_holds hvalid.keyIds hfind
      refine absurd (List.mem_flatMap.mpr ⟨entry, mem_of_findKey hentry, ?_⟩) hfree
      rw [hkey]
      exact hholds
    next => rfl

/-! ## Editing a key -/

theorem keyIds_edit (keyId : String) (edit : Edit) :
    (store.edit keyId edit).map Entry.keyId = store.map Entry.keyId := by
  rw [Store.edit]
  split
  · exact keyIds_updateKey _
  · rfl

theorem isValid_edit {edit : Edit} (hvalid : store.IsValid) (hedit : edit.KeepsAliases) :
    (store.edit keyId edit).IsValid := by
  refine ⟨?_, nonempty_of_keyIds (keyIds_edit keyId edit) hvalid.nonempty, ?_⟩
  · rw [keyIds_edit]
    exact hvalid.keyIds
  · rw [aliases_nodup_iff]
    intro other
    rw [Store.edit]
    split
    next entry hfind =>
      have hcount := @count_updateKey store (edit.apply entry.key) entry (find_apply hfind _) other
      have hunique := aliases_nodup_iff.mp hvalid.aliases other
      rw [Edit.aliases_apply hedit] at hcount
      omega
    next => exact aliases_nodup_iff.mp hvalid.aliases other

theorem isValid_pushAlias (hvalid : store.IsValid) (hfree : store.aliases.count aliasName = 0) :
    (store.edit keyId (.pushAlias aliasName now)).IsValid := by
  refine ⟨?_, nonempty_of_keyIds (keyIds_edit keyId _) hvalid.nonempty, ?_⟩
  · rw [keyIds_edit]
    exact hvalid.keyIds
  · rw [aliases_nodup_iff]
    intro other
    have hunique := aliases_nodup_iff.mp hvalid.aliases other
    rw [Store.edit]
    split
    next entry hfind =>
      have hcount := @count_updateKey store ((Edit.pushAlias aliasName now).apply entry.key) entry
        (find_apply hfind _) other
      change _ = _ + (entry.key.aliases ++ [aliasName]).count other at hcount
      rw [List.count_append, List.count_singleton] at hcount
      by_cases heq : other = aliasName
      · rw [heq] at hcount hunique ⊢
        rw [if_pos (beq_self_eq_true aliasName)] at hcount
        omega
      · rw [if_neg (by simpa using Ne.symm heq)] at hcount
        omega
    next => exact hunique

theorem edit_of_none {edit : Edit} (hnone : findKey Entry.keyId keyId store = none) :
    store.edit keyId edit = store := by
  rw [Store.edit, hnone]

end Store

end Edits

/-! ## Operations that run alone -/

section Alone

variable {repository : Repository} {store : Store} {keyId aliasName targetKeyId : String}
  {now : Int} {edit : Edit} {translate : Exn → Exn} {next : Thread}

theorem run_edit (hlawful : repository.IsLawful) (hvalid : store.IsValid) (response : Response) :
    ((Thread.getKeyByKeyId translate keyId fun key =>
        Thread.updateKey key edit (Thread.finish response)).run (execute repository) store).2 =
      store.edit keyId edit := by
  rw [Thread.run_getKeyByKeyId, Store.edit]
  cases hfind : findKey Entry.keyId keyId store with
  | some entry =>
    rw [hlawful.getKeyByKeyId_of_some hfind]
    rfl
  | none =>
    rcases hlawful.getKeyByKeyId_of_none hfind with hblank | ⟨message, herror⟩
    · rw [hblank]
      change store.updateKey (edit.apply {}) = store
      apply Store.updateKey_of_none
      rw [Edit.keyId_apply, findKey_eq_none]
      exact hvalid.nonempty
    · rw [herror]
      rfl

theorem run_eraseFirstAlias :
    ((eraseFirstAlias aliasName now next store.listKeys).run (execute repository) store) =
      next.run (execute repository) (store.release aliasName now) := by
  rw [eraseFirstAlias, Store.release]
  cases store.listKeys.find? fun key => decide (aliasName ∈ key.aliases) with
  | some key => rfl
  | none => rfl

variable {keys : List Key}

/-- Where no key is the target with the alias, the loop of `CreateAlias` finds one key at
most. -/
theorem releaseAlias_of_free (hfree : ∀ key ∈ keys, aliasName ∉ key.aliases) :
    releaseAlias aliasName targetKeyId now next keys = next := by
  induction keys with
  | nil => rfl
  | cons key keys ih =>
    rw [releaseAlias, if_neg (hfree key List.mem_cons_self)]
    exact ih fun other hother => hfree other (List.mem_cons_of_mem _ hother)

theorem releaseAlias_of_unique (hunique : (keys.flatMap Key.aliases).count aliasName ≤ 1) :
    releaseAlias aliasName targetKeyId now next keys =
      match keys.find? fun key => aliasName ∈ key.aliases with
      | some key =>
        if key.keyId = targetKeyId then Thread.finish .done
        else Thread.updateKey key (.eraseAlias aliasName now) next
      | none => next := by
  induction keys with
  | nil => rfl
  | cons key keys ih =>
    rw [List.flatMap_cons, List.count_append] at hunique
    rw [releaseAlias, List.find?_cons]
    by_cases hholds : aliasName ∈ key.aliases
    · have hpos := List.count_pos_iff.mpr hholds
      have hrest : (keys.flatMap Key.aliases).count aliasName = 0 := by omega
      rw [if_pos hholds, decide_eq_true hholds, releaseAlias_of_free]
      intro other hother hother'
      exact List.count_eq_zero.mp hrest (List.mem_flatMap.mpr ⟨other, hother, hother'⟩)
    · rw [if_neg hholds, decide_eq_false hholds]
      exact ih (by omega)

def Store.holder (store : Store) (aliasName : String) : Option Key :=
  store.listKeys.find? fun key => aliasName ∈ key.aliases

theorem step_createAlias (backend : Backend) (hvalid : store.IsValid) :
    step backend store (.createAlias aliasName targetKeyId now) =
      if (store.holder aliasName).map Key.keyId = some targetKeyId then store
      else (store.release aliasName now).edit targetKeyId (.pushAlias aliasName now) := by
  have hunique : (store.listKeys.flatMap Key.aliases).count aliasName ≤ 1 := by
    have hcount := Store.aliases_nodup_iff.mp hvalid.aliases aliasName
    rw [Store.listKeys, List.flatMap_map]
    exact hcount
  have hreleased : (store.release aliasName now).IsValid := Store.isValid_release hvalid
  change ((createAlias aliasName targetKeyId now).run (execute backend.repository) store).2 = _
  rw [createAlias, Thread.run_listKeys, releaseAlias_of_unique hunique, Store.holder]
  have hrun : ((attachAlias aliasName targetKeyId now).run (execute backend.repository)
      (store.release aliasName now)).2 =
        (store.release aliasName now).edit targetKeyId (.pushAlias aliasName now) :=
    run_edit backend.isLawful hreleased .done
  rw [Store.release] at hrun ⊢
  cases hfind : store.listKeys.find? fun key => decide (aliasName ∈ key.aliases) with
  | none =>
    rw [hfind] at hrun
    exact hrun
  | some key =>
    rw [hfind] at hrun
    simp only [Option.map_some, Option.some.injEq]
    split
    · rfl
    · exact hrun

theorem step_updateAlias (backend : Backend) (hvalid : store.IsValid) :
    step backend store (.updateAlias aliasName targetKeyId now) =
      (store.release aliasName now).edit targetKeyId (.pushAlias aliasName now) := by
  change ((updateAlias aliasName targetKeyId now).run (execute backend.repository) store).2 = _
  rw [updateAlias, Thread.run_listKeys, run_eraseFirstAlias]
  exact run_edit backend.isLawful (Store.isValid_release hvalid) .done

theorem step_deleteAlias (backend : Backend) :
    step backend store (.deleteAlias aliasName now) = store.release aliasName now := by
  change ((deleteAlias aliasName now).run (execute backend.repository) store).2 = _
  rw [deleteAlias, Thread.run_listKeys, run_eraseFirstAlias]
  rfl

/-! ## Every operation keeps the aliases unique -/

theorem Store.IsValid.sublist {store' : Store} (hvalid : store.IsValid)
    (hsublist : store'.Sublist store) : store'.IsValid :=
  ⟨(hsublist.map Entry.keyId).nodup hvalid.keyIds,
    fun entry hentry => hvalid.nonempty entry (hsublist.subset hentry),
    (hsublist.flatMap fun entry => entry.key.aliases).nodup hvalid.aliases⟩

theorem isValid_createKey {request : CreateKeyRequest} {accountId oid : String}
    (backend : Backend) (hvalid : store.IsValid) (hblank : keyId ≠ "")
    (hnew : ∀ entry ∈ store, entry.keyId ≠ keyId ∧ entry.oid ≠ oid) :
    (step backend store (.createKey request accountId keyId oid)).IsValid := by
  have hperm : (backend.repository.createKey oid (request.key accountId keyId) store).Perm
      (⟨oid, request.key accountId keyId⟩ :: store) :=
    backend.isLawful.createKey_perm fun entry hentry => (hnew entry hentry).2
  change (backend.repository.createKey oid (request.key accountId keyId) store).IsValid
  refine ⟨?_, ?_, ?_⟩
  · rw [(hperm.map Entry.keyId).nodup_iff, List.map_cons, List.nodup_cons]
    refine ⟨?_, hvalid.keyIds⟩
    intro hmem
    obtain ⟨entry, hentry, heq⟩ := List.mem_map.mp hmem
    exact (hnew entry hentry).1 heq
  · intro entry hentry
    rcases List.mem_cons.mp (hperm.subset hentry) with rfl | hold
    · exact hblank
    · exact hvalid.nonempty entry hold
  · exact (hperm.flatMap_right _).nodup_iff.mpr hvalid.aliases

theorem isValid_deleteExpired (hlawful : repository.IsLawful) (hvalid : store.IsValid) :
    ((deleteExpired now keys).run (execute repository) store).2.IsValid := by
  induction keys generalizing store with
  | nil => exact hvalid
  | cons key keys ih =>
    rw [deleteExpired]
    split
    · exact ih (hvalid.sublist (hlawful.deleteKey_sublist key store))
    · exact ih hvalid

theorem isValid_deleteKey (hlawful : repository.IsLawful) (hvalid : store.IsValid) :
    ((deleteKey keyId).run (execute repository) store).2.IsValid := by
  rw [deleteKey, Thread.run_keyExists]
  split
  · rw [Thread.run_getKeyByKeyId]
    split
    · exact hvalid
    next key _ => exact hvalid.sublist (hlawful.deleteKey_sublist key store)
  · exact hvalid

theorem step_scheduleKeyDeletion (backend : Backend) (hvalid : store.IsValid)
    (pendingWindowInDays : Int) :
    step backend store (.scheduleKeyDeletion keyId pendingWindowInDays now) =
      store.edit keyId (.scheduleDeletion pendingWindowInDays now) := by
  change ((scheduleKeyDeletion keyId pendingWindowInDays now).run
    (execute backend.repository) store).2 = _
  rw [scheduleKeyDeletion, Thread.run_keyExists]
  cases hexists : store.keyExists keyId with
  | true =>
    rw [if_pos rfl]
    exact run_edit backend.isLawful hvalid _
  | false =>
    rw [if_neg Bool.false_ne_true, Store.edit_of_none (Store.keyExists_eq_false.mp hexists)]
    rfl

theorem isValid_attach (hvalid : store.IsValid) :
    ((store.release aliasName now).edit targetKeyId (.pushAlias aliasName now)).IsValid := by
  apply Store.isValid_pushAlias (Store.isValid_release hvalid)
  rw [Store.count_release hvalid, if_pos rfl]

theorem isValid_step {backend : Backend} {operation : Operation} (hvalid : store.IsValid)
    (hdraws : operation.DrawsNewIds store) : (step backend store operation).IsValid := by
  have hedit : ∀ keyId edit response, Edit.KeepsAliases edit →
      ((Thread.getKeyByKeyId id keyId fun key => Thread.updateKey key edit
        (Thread.finish response)).run (execute backend.repository) store).2.IsValid := by
    intro keyId edit response hkeeps
    rw [run_edit backend.isLawful hvalid]
    exact Store.isValid_edit hvalid hkeeps
  cases operation with
  | createKey request accountId keyId oid =>
    exact isValid_createKey backend hvalid hdraws.1 hdraws.2
  | createKmsKey keyId draw => exact hedit keyId (.create draw) .done trivial
  | scheduleKeyDeletion keyId pendingWindowInDays now =>
    rw [step_scheduleKeyDeletion backend hvalid]
    exact Store.isValid_edit hvalid trivial
  | putKeyPolicy keyId policy now => exact hedit keyId (.putPolicy policy now) .done trivial
  | tagResource keyId tags now => exact hedit keyId (.tag tags now) .done trivial
  | untagResource keyId tagKeys now => exact hedit keyId (.untag tagKeys now) .done trivial
  | createAlias aliasName targetKeyId now =>
    rw [step_createAlias backend hvalid]
    split
    · exact hvalid
    · exact isValid_attach hvalid
  | updateAlias aliasName targetKeyId now =>
    rw [step_updateAlias backend hvalid]
    exact isValid_attach hvalid
  | deleteAlias aliasName now =>
    rw [step_deleteAlias]
    exact Store.isValid_release hvalid
  | deleteKey keyId => exact isValid_deleteKey backend.isLawful hvalid
  | deleteKeys now => exact isValid_deleteExpired backend.isLawful hvalid

/-! ## Targets that do not exist -/

theorem edit_release_of_missing (hmissing : store.keyExists targetKeyId = false) :
    (store.release aliasName now).edit targetKeyId edit = store.release aliasName now :=
  Store.edit_of_none (Store.findKey_none_of_keyIds (Store.keyIds_release aliasName now)
    (Store.keyExists_eq_false.mp hmissing))

theorem holder_ne_of_missing (hvalid : store.IsValid)
    (hmissing : store.keyExists targetKeyId = false) :
    (store.holder aliasName).map Key.keyId ≠ some targetKeyId := by
  intro heq
  obtain ⟨key, hfind, hkeyId⟩ := Option.map_eq_some_iff.mp heq
  obtain ⟨entry, hentry, _, _⟩ := Store.find_of_holds hvalid.keyIds hfind
  rw [hkeyId, Store.keyExists_eq_false.mp hmissing] at hentry
  cases hentry

theorem leavesAliases_iff_heedsTarget {backend : Backend} {operation : Operation}
    (hvalid : store.IsValid) :
    operation.LeavesAliases backend store ↔ operation.HeedsTarget store := by
  cases operation with
  | createAlias aliasName targetKeyId now =>
    apply imp_congr_right
    intro hmissing
    rw [step_createAlias backend hvalid, if_neg (holder_ne_of_missing hvalid hmissing),
      edit_release_of_missing hmissing]
    exact Store.assignment_release_iff hvalid
  | updateAlias aliasName targetKeyId now =>
    apply imp_congr_right
    intro hmissing
    rw [step_updateAlias backend hvalid, edit_release_of_missing hmissing]
    exact Store.assignment_release_iff hvalid
  | _ => exact Iff.rfl

end Alone

section Runs

/-- The aliases of every state of the run are unique, and no step without its target changes
them. -/
structure AliasesAreKept (backend : Backend) (operations : List Operation) : Prop where
  unique : Runs.Always (step backend) Store.AliasesAreUnique operations []
  left : Runs.Heeded (step backend) (fun store operation => operation.LeavesAliases backend store)
    operations []

/-- Every new key of the run gets identifiers that are not in use. -/
def DrawsNewIds (backend : Backend) (operations : List Operation) : Prop :=
  Runs.Heeded (step backend) (fun store operation => operation.DrawsNewIds store) operations []

/-- Every alias that the run gives to a key that does not exist is held by none. -/
def HeedsTargets (backend : Backend) (operations : List Operation) : Prop :=
  Runs.Heeded (step backend) (fun store operation => operation.HeedsTarget store) operations []

variable {operations : List Operation}

theorem always_unique {backend : Backend} {store : Store} (hvalid : store.IsValid)
    (hdraws : Runs.Heeded (step backend) (fun store operation => operation.DrawsNewIds store)
      operations store) :
    Runs.Always (step backend) Store.AliasesAreUnique operations store := by
  induction operations generalizing store with
  | nil => exact hvalid.aliases
  | cons operation operations ih =>
    exact ⟨hvalid.aliases, ih (isValid_step hvalid hdraws.1) hdraws.2⟩

theorem left_iff_heeds {backend : Backend} {store : Store} (hvalid : store.IsValid)
    (hdraws : Runs.Heeded (step backend) (fun store operation => operation.DrawsNewIds store)
      operations store) :
    Runs.Heeded (step backend) (fun store operation => operation.LeavesAliases backend store)
        operations store ↔
      Runs.Heeded (step backend) (fun store operation => operation.HeedsTarget store) operations
        store := by
  induction operations generalizing store with
  | nil => exact Iff.rfl
  | cons operation operations ih =>
    exact and_congr (leavesAliases_iff_heedsTarget hvalid)
      (ih (isValid_step hvalid hdraws.1) hdraws.2)

theorem Store.isValid_nil : Store.IsValid [] :=
  ⟨List.nodup_nil, fun _ hentry => absurd hentry List.not_mem_nil, List.nodup_nil⟩

/-- In every run every alias belongs to one key at most. The operations without a target leave
the aliases alone just if they do not name one that a key has. -/
theorem aliasesAreKept_iff_heedsTargets (backend : Backend) (operations : List Operation)
    (hdraws : DrawsNewIds backend operations) :
    AliasesAreKept backend operations ↔ HeedsTargets backend operations := by
  constructor
  · intro hkept
    exact (left_iff_heeds Store.isValid_nil hdraws).mp hkept.left
  · intro hheeds
    exact ⟨always_unique Store.isValid_nil hdraws,
      (left_iff_heeds Store.isValid_nil hdraws).mpr hheeds⟩

def aliasedKey : List Operation :=
  [.createKey ⟨"eu-central-1", "ENCRYPT_DECRYPT", .symmetricDefault, "", "", []⟩ "000000000000"
      "first" "oid",
    .createAlias "alias/app" "first" 0]

theorem drawsNewIds_aliasedKey (backend : Backend) (operation : Operation)
    (hdraws : ∀ store, operation.DrawsNewIds store) :
    DrawsNewIds backend (aliasedKey ++ [operation]) :=
  ⟨⟨by decide, fun _ hentry => absurd hentry List.not_mem_nil⟩, trivial, hdraws _, trivial⟩

theorem aliasesAreKept_iff_heedsTargets_aliasedKey :
    DrawsNewIds .mongo (aliasedKey ++ [.updateAlias "alias/app" "first" 1]) ∧
      (AliasesAreKept .mongo (aliasedKey ++ [.updateAlias "alias/app" "first" 1]) ↔
        HeedsTargets .mongo (aliasedKey ++ [.updateAlias "alias/app" "first" 1])) :=
  ⟨drawsNewIds_aliasedKey .mongo (.updateAlias "alias/app" "first" 1) fun _ => trivial,
    aliasesAreKept_iff_heedsTargets .mongo _
      (drawsNewIds_aliasedKey .mongo (.updateAlias "alias/app" "first" 1) fun _ => trivial)⟩

/-- An alias that is moved to a key that does not exist is lost. -/
theorem not_aliasesAreKept_missingTarget :
    ¬ ∀ backend operations, DrawsNewIds backend operations → AliasesAreKept backend operations := by
  intro hkept
  have hleft := (hkept .memory (aliasedKey ++ [.createAlias "alias/app" "second" 1])
    (drawsNewIds_aliasedKey .memory (.createAlias "alias/app" "second" 1) fun _ => trivial)).left
  have hassignment := hleft.2.2.1 (by decide)
  revert hassignment
  decide

end Runs

end AwsMock.Kms
