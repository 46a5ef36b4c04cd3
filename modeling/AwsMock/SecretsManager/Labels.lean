import AwsMock.SecretsManager.Entity

/-! # Staging labels

Exactly one version of a secret should be the current one, and a label should not be on two
versions. Every edit keeps this under a condition on the labels that the versions have before
it.
-/

namespace AwsMock.SecretsManager

open Foundation

namespace Versions

section Definitions

variable (versions : Versions)

structure IsStaged : Prop where
  current : (versions.carriers awsCurrent).length = 1
  previous : (versions.carriers awsPrevious).length ≤ 1
  unique : ∀ stage, (versions.carriers stage).length ≤ 1
  named : versions.hasVersion "" = false

def HasDistinctIds : Prop := (versions.map Prod.fst).Nodup

/-- What was the previous version so far is written, or becomes current. -/
def MayPut (versionId : String) : Prop :=
  versionId = versions.getCurrentVersionId ∨ ∀ other ∈ versions.carriers awsPrevious,
    other = versionId ∨ other = versions.getCurrentVersionId

/-- No other version has one of the labels, and the current version keeps its own. -/
def MayPutStages (versionId : String) (stages : List String) : Prop :=
  (∀ stage ∈ stages, ∀ other ∈ versions.carriers stage, other = versionId) ∧
    (versionId = versions.getCurrentVersionId → awsCurrent ∈ stages)

/-- There is at most one other version, which becomes the previous one. -/
def MayReplace (versionId : String) : Prop :=
  (versions.filter fun entry => entry.1 ≠ versionId).length ≤ 1

def MayPend (versionId : String) : Prop :=
  versionId ≠ versions.getCurrentVersionId ∧
    ∀ other ∈ versions.carriers awsPending, other = versionId

def MayMove (moveToVersionId versionStage removeFromVersionId : String) : Prop :=
  if versionStage = awsCurrent then versions.MayReplace moveToVersionId
  else removeFromVersionId = moveToVersionId ∨ ∀ other ∈ versions.carriers versionStage,
    other = moveToVersionId ∨ other = removeFromVersionId

instance (versionId : String) : Decidable (versions.MayPut versionId) :=
  inferInstanceAs (Decidable (_ ∨ _))

instance (versionId : String) (stages : List String) :
    Decidable (versions.MayPutStages versionId stages) :=
  inferInstanceAs (Decidable (_ ∧ _))

instance (versionId : String) : Decidable (versions.MayReplace versionId) :=
  inferInstanceAs (Decidable (_ ≤ _))

instance (versionId : String) : Decidable (versions.MayPend versionId) :=
  inferInstanceAs (Decidable (_ ∧ _))

instance (moveToVersionId versionStage removeFromVersionId : String) :
    Decidable (versions.MayMove moveToVersionId versionStage removeFromVersionId) :=
  inferInstanceAs (Decidable (if versionStage = awsCurrent then _ else _ ∨ _))

def stagesOf (versionId : String) : List String := (versions.getVersion versionId).stages

/-- The same as `IsStaged`, version by version. -/
structure IsLabelled : Prop where
  current : ∃ versionId, awsCurrent ∈ versions.stagesOf versionId
  unique : ∀ stage first second, stage ∈ versions.stagesOf first →
    stage ∈ versions.stagesOf second → first = second
  named : versions.hasVersion "" = false

end Definitions

/-! ## Versions by identifier -/

section Lookup

variable {versions : Versions} {versionId other stage : String} {version : SecretVersion}
  {change : SecretVersion → SecretVersion}

@[simp] theorem find_put : (versions.put versionId version).find other =
    if versionId = other then some version else versions.find other := by
  rw [find, put, findKey_upsert]
  split <;> rfl

@[simp] theorem getVersion_put : (versions.put versionId version).getVersion other =
    if versionId = other then version else versions.getVersion other := by
  rw [getVersion, find_put]
  split <;> rfl

@[simp] theorem hasVersion_put : (versions.put versionId version).hasVersion other =
    if versionId = other then true else versions.hasVersion other := by
  rw [hasVersion, find_put]
  split <;> rfl

theorem stagesOf_put : (versions.put versionId version).stagesOf other =
    if versionId = other then version.stages else versions.stagesOf other := by
  rw [stagesOf, getVersion_put]
  split <;> rfl

@[simp] theorem hasVersion_modify : (versions.modify versionId change).hasVersion other =
    if versionId = other then true else versions.hasVersion other :=
  hasVersion_put

theorem stagesOf_modify : (versions.modify versionId change).stagesOf other =
    if versionId = other then (change (versions.getVersion versionId)).stages
    else versions.stagesOf other :=
  stagesOf_put

theorem find_resetVersions : (versions.resetVersions versionId).find other =
    (versions.find other).map fun version =>
      if other = versionId then version else { version with stages := [awsPrevious] } := by
  induction versions with
  | nil => rfl
  | cons entry versions ih =>
    rw [find, resetVersions, List.map_cons, findKey_cons, find, findKey_cons]
    by_cases hentry : entry.1 = other
    · subst hentry
      by_cases hid : entry.1 = versionId <;> simp [hid]
    · have hkey : (if entry.1 ≠ versionId then (entry.1, { entry.2 with stages := [awsPrevious] })
          else entry).1 ≠ other := by
        split <;> exact hentry
      rw [if_neg hkey, if_neg hentry]
      exact ih

theorem hasVersion_resetVersions :
    (versions.resetVersions versionId).hasVersion other = versions.hasVersion other := by
  rw [hasVersion, find_resetVersions, Option.isSome_map, hasVersion]

theorem stagesOf_resetVersions : (versions.resetVersions versionId).stagesOf other =
    if other = versionId then versions.stagesOf other
    else if versions.hasVersion other = true then [awsPrevious] else [] := by
  rw [stagesOf, getVersion, find_resetVersions, stagesOf, getVersion, hasVersion]
  cases versions.find other with
  | none => simp
  | some version => by_cases hid : other = versionId <;> simp [hid]

theorem stagesOf_of_not (hversion : versions.hasVersion versionId = false) :
    versions.stagesOf versionId = [] := by
  rw [hasVersion, Option.isSome_eq_false_iff, Option.isNone_iff_eq_none] at hversion
  rw [stagesOf, getVersion, hversion]
  rfl

theorem hasVersion_of_stage (hstage : stage ∈ versions.stagesOf versionId) :
    versions.hasVersion versionId = true := by
  by_contra hnot
  rw [stagesOf_of_not (Bool.eq_false_iff.mpr hnot)] at hstage
  cases hstage

theorem hasVersion_iff : versions.hasVersion versionId = true ↔
    versionId ∈ versions.map Prod.fst := by
  rw [hasVersion, find, Option.isSome_map, Option.isSome_iff_ne_none, Ne, findKey_eq_none,
    List.mem_map]
  push Not
  rfl

end Lookup

/-! ## Distinct identifiers -/

section Distinct

variable {versions : Versions} {versionId stage : String} {version : SecretVersion}
  {change : SecretVersion → SecretVersion}

theorem HasDistinctIds.put (hdistinct : versions.HasDistinctIds) :
    (versions.put versionId version).HasDistinctIds :=
  nodup_upsert hdistinct

theorem HasDistinctIds.modify (hdistinct : versions.HasDistinctIds) :
    (versions.modify versionId change).HasDistinctIds :=
  hdistinct.put

theorem ids_resetVersions :
    (versions.resetVersions versionId).map Prod.fst = versions.map Prod.fst := by
  rw [resetVersions, List.map_map]
  refine List.map_congr_left fun entry _ => ?_
  rw [Function.comp_apply]
  split <;> rfl

section

variable (hdistinct : versions.HasDistinctIds)
include hdistinct

theorem HasDistinctIds.resetVersions :
    (versions.resetVersions versionId).HasDistinctIds := by
  rw [HasDistinctIds, ids_resetVersions]
  exact hdistinct

theorem HasDistinctIds.edit (edit : Edit) :
    (edit.versions versions).HasDistinctIds := by
  cases edit with
  | put versionId versionStage secretString secretBinary now =>
    rw [Edit.versions, Edit.putVersions]
    split
    · exact hdistinct.modify.put
    · exact hdistinct.put
  | update versionId secretString secretBinary description rotationEnabled now =>
    exact hdistinct.put.resetVersions
  | details rotationEnabled rotationRules rotationLambdaARN secretString now =>
    cases secretString with
    | none => exact hdistinct
    | some secretString =>
      rw [Edit.versions]
      exact hdistinct.modify
  | rotate clientRequestToken rotationLambdaARN now =>
    rw [Edit.versions, Edit.pendVersion]
    exact hdistinct.modify
  | checkRotation clientRequestToken now =>
    rw [Edit.versions, Edit.pendVersion]
    exact hdistinct.modify
  | moveStage moveToVersionId versionStage removeFromVersionId now =>
    rw [Edit.versions, Edit.moveVersions]
    split
    · exact hdistinct.resetVersions.modify
    · dsimp only
      split
      · exact hdistinct.modify.modify
      · exact hdistinct.modify
  | access now => exact hdistinct
  | nextRotation now => exact hdistinct

theorem HasDistinctIds.mem_carriers :
    versionId ∈ versions.carriers stage ↔ stage ∈ versions.stagesOf versionId := by
  rw [carriers, List.mem_map]
  constructor
  · rintro ⟨entry, hentry, rfl⟩
    obtain ⟨hmem, hstage⟩ := List.mem_filter.mp hentry
    rw [stagesOf, getVersion, find, findKey_of_mem hdistinct hmem]
    exact of_decide_eq_true hstage
  · intro hstage
    obtain ⟨entry, hmem, rfl⟩ := List.mem_map.mp (hasVersion_iff.mp (hasVersion_of_stage hstage))
    refine ⟨entry, List.mem_filter.mpr ⟨hmem, decide_eq_true ?_⟩, rfl⟩
    rw [stagesOf, getVersion, find, findKey_of_mem hdistinct hmem] at hstage
    exact hstage

theorem HasDistinctIds.nodup_carriers :
    (versions.carriers stage).Nodup :=
  List.Nodup.sublist (List.filter_sublist.map Prod.fst) hdistinct

end

theorem length_le_one_iff {α : Type} {xs : List α} (hnodup : xs.Nodup) :
    xs.length ≤ 1 ↔ ∀ x ∈ xs, ∀ y ∈ xs, x = y := by
  match xs with
  | [] => simp
  | [x] => simp
  | x :: y :: xs =>
    have hne : x ≠ y := fun heq => (List.nodup_cons.mp hnodup).1 (heq ▸ List.mem_cons_self)
    constructor
    · intro hle
      simp only [List.length_cons] at hle
      omega
    · intro heq
      exact absurd (heq x (by simp) y (by simp)) hne

theorem HasDistinctIds.isStaged_iff (hdistinct : versions.HasDistinctIds) :
    versions.IsStaged ↔ versions.IsLabelled := by
  have hlength : ∀ stage, (versions.carriers stage).length ≤ 1 ↔ ∀ first second,
      stage ∈ versions.stagesOf first → stage ∈ versions.stagesOf second → first = second := by
    intro stage
    rw [length_le_one_iff hdistinct.nodup_carriers]
    constructor
    · intro hall first second hfirst hsecond
      exact hall first (hdistinct.mem_carriers.mpr hfirst) second
        (hdistinct.mem_carriers.mpr hsecond)
    · intro hall first hfirst second hsecond
      exact hall first second (hdistinct.mem_carriers.mp hfirst)
        (hdistinct.mem_carriers.mp hsecond)
  constructor
  · intro hstaged
    refine ⟨?_, fun stage => (hlength stage).mp (hstaged.unique stage), hstaged.named⟩
    obtain ⟨versionId, hcarriers⟩ := List.length_eq_one_iff.mp hstaged.current
    refine ⟨versionId, hdistinct.mem_carriers.mp ?_⟩
    rw [hcarriers]
    exact List.mem_singleton_self _
  · intro hlabelled
    have hunique := fun stage => (hlength stage).mpr (hlabelled.unique stage)
    refine ⟨?_, hunique _, hunique, hlabelled.named⟩
    obtain ⟨versionId, hcurrent⟩ := hlabelled.current
    have hpos := List.length_pos_of_mem (hdistinct.mem_carriers.mpr hcurrent)
    have hle := hunique awsCurrent
    omega

theorem IsLabelled.current_iff (hlabelled : versions.IsLabelled)
    (hdistinct : versions.HasDistinctIds) :
    versions.getCurrentVersionId = versionId ↔ awsCurrent ∈ versions.stagesOf versionId := by
  obtain ⟨current, hcurrent⟩ := hlabelled.current
  obtain ⟨found, hfound⟩ := List.length_eq_one_iff.mp (hdistinct.isStaged_iff.mpr hlabelled).current
  have hsame : found = current := by
    refine hlabelled.unique awsCurrent found current (hdistinct.mem_carriers.mp ?_) hcurrent
    rw [hfound]
    exact List.mem_singleton_self _
  have hid : versions.getCurrentVersionId = current := by
    rw [getCurrentVersionId, getVersionIdByStage, hfound, hsame]
    rfl
  rw [hid]
  exact ⟨fun heq => heq ▸ hcurrent, hlabelled.unique awsCurrent _ _ hcurrent⟩

end Distinct

/-! ## Edits of the versions -/

section Edits

variable {versions : Versions} {versionId : String}

variable {secretString secretBinary : Bytes}

section

variable (hdistinct : versions.HasDistinctIds)
include hdistinct

theorem isLabelled_putVersions (hlabelled : versions.IsLabelled) (hne : versionId ≠ "") :
    (Edit.putVersions versionId [] secretString secretBinary versions).IsLabelled ↔
      versions.MayPut versionId := by
  have hcurrent := fun other => @IsLabelled.current_iff versions other hlabelled hdistinct
  have hcarriers := fun stage other => @HasDistinctIds.mem_carriers versions other stage hdistinct
  have hnames : awsCurrent ≠ awsPrevious := by decide
  have hstages : ∀ other, (Edit.putVersions versionId [] secretString secretBinary
      versions).stagesOf other =
        if versionId = other then [awsCurrent]
        else if versions.getCurrentVersionId = other then [awsPrevious]
        else versions.stagesOf other := by
    intro other
    rw [Edit.putVersions, if_pos rfl, stagesOf_put, stagesOf_modify]
  have hnamed : (Edit.putVersions versionId [] secretString secretBinary
      versions).hasVersion "" = false := by
    rw [Edit.putVersions, if_pos rfl, hasVersion_put, if_neg hne, hasVersion_modify, if_neg]
    · exact hlabelled.named
    · intro heq
      have hstage := (hcurrent "").mp heq
      rw [stagesOf_of_not hlabelled.named] at hstage
      cases hstage
  constructor
  · intro hafter
    by_cases hsame : versionId = versions.getCurrentVersionId
    · exact Or.inl hsame
    · refine Or.inr fun other hother => ?_
      by_contra hnot
      rw [not_or] at hnot
      refine hnot.2 (hafter.unique awsPrevious _ _ ?_ ?_)
      · rw [hstages, if_neg (Ne.symm hnot.1), if_neg (Ne.symm hnot.2)]
        exact (hcarriers _ _).mp hother
      · rw [hstages, if_neg hsame, if_pos rfl]
        exact List.mem_singleton_self _
  · intro hmay
    refine ⟨⟨versionId, ?_⟩, ?_, hnamed⟩
    · rw [hstages, if_pos rfl]
      exact List.mem_singleton_self _
    · intro stage first second hfirst hsecond
      rw [hstages] at hfirst hsecond
      have hunique := hlabelled.unique stage first second
      grind [MayPut]

theorem isLabelled_putStages {versionStage : List String} (hlabelled : versions.IsLabelled)
    (hne : versionId ≠ "") (hsome : versionStage ≠ []) :
    (Edit.putVersions versionId versionStage secretString secretBinary versions).IsLabelled ↔
      versions.MayPutStages versionId versionStage := by
  have hcurrent := fun other => @IsLabelled.current_iff versions other hlabelled hdistinct
  have hcarriers := fun stage other => @HasDistinctIds.mem_carriers versions other stage hdistinct
  have hstages : ∀ other, (Edit.putVersions versionId versionStage secretString secretBinary
      versions).stagesOf other =
        if versionId = other then versionStage else versions.stagesOf other := by
    intro other
    rw [Edit.putVersions, if_neg hsome, stagesOf_put]
  have hnamed : (Edit.putVersions versionId versionStage secretString secretBinary
      versions).hasVersion "" = false := by
    rw [Edit.putVersions, if_neg hsome, hasVersion_put, if_neg hne]
    exact hlabelled.named
  constructor
  · intro hafter
    refine ⟨fun stage hstage other hother => ?_, fun hsame => ?_⟩
    · by_contra hnot
      refine hnot (hafter.unique stage _ _ ?_ ?_)
      · rw [hstages, if_neg (Ne.symm hnot)]
        exact (hcarriers _ _).mp hother
      · rw [hstages, if_pos rfl]
        exact hstage
    · obtain ⟨current, hafter⟩ := hafter.current
      rw [hstages] at hafter
      split at hafter
      · exact hafter
      next hother => exact absurd (hsame.trans ((hcurrent current).mpr hafter)) hother
  · rintro ⟨hfree, hkeeps⟩
    refine ⟨?_, ?_, hnamed⟩
    · by_cases hsame : versionId = versions.getCurrentVersionId
      · refine ⟨versionId, ?_⟩
        rw [hstages, if_pos rfl]
        exact hkeeps hsame
      · refine ⟨versions.getCurrentVersionId, ?_⟩
        rw [hstages, if_neg hsame]
        exact (hcurrent _).mp rfl
    · intro stage first second hfirst hsecond
      rw [hstages] at hfirst hsecond
      have hunique := hlabelled.unique stage first second
      grind

theorem mayReplace_iff :
    versions.MayReplace versionId ↔ ∀ first second, versions.hasVersion first = true →
      versions.hasVersion second = true → first ≠ versionId → second ≠ versionId →
        first = second := by
  have hnodup : ((versions.filter fun entry => entry.1 ≠ versionId).map Prod.fst).Nodup :=
    List.Nodup.sublist (List.filter_sublist.map Prod.fst) hdistinct
  have hmem : ∀ other, other ∈ (versions.filter fun entry => entry.1 ≠ versionId).map Prod.fst ↔
      versions.hasVersion other = true ∧ other ≠ versionId := by
    intro other
    rw [hasVersion_iff, List.mem_map, List.mem_map]
    constructor
    · rintro ⟨entry, hentry, rfl⟩
      obtain ⟨hmem, hne⟩ := List.mem_filter.mp hentry
      exact ⟨⟨entry, hmem, rfl⟩, of_decide_eq_true hne⟩
    · rintro ⟨⟨entry, hmem, rfl⟩, hne⟩
      exact ⟨entry, List.mem_filter.mpr ⟨hmem, decide_eq_true hne⟩, rfl⟩
  rw [MayReplace, ← List.length_map Prod.fst, length_le_one_iff hnodup]
  constructor
  · intro hall first second hfirst hsecond hne hother
    exact hall first ((hmem first).mpr ⟨hfirst, hne⟩) second ((hmem second).mpr ⟨hsecond, hother⟩)
  · intro hall first hfirst second hsecond
    obtain ⟨hfirst, hne⟩ := (hmem first).mp hfirst
    obtain ⟨hsecond, hother⟩ := (hmem second).mp hsecond
    exact hall first second hfirst hsecond hne hother

theorem isLabelled_of_reset {after : Versions} (hstages : ∀ other, after.stagesOf other =
      if versionId = other then [awsCurrent]
      else if versions.hasVersion other = true then [awsPrevious] else [])
    (hnamed : after.hasVersion "" = false) :
    after.IsLabelled ↔ versions.MayReplace versionId := by
  have hnames : awsCurrent ≠ awsPrevious := by decide
  rw [mayReplace_iff hdistinct]
  constructor
  · intro hafter first second hfirst hsecond hne hother
    refine hafter.unique awsPrevious _ _ ?_ ?_
    · rw [hstages, if_neg (Ne.symm hne), if_pos hfirst]
      exact List.mem_singleton_self _
    · rw [hstages, if_neg (Ne.symm hother), if_pos hsecond]
      exact List.mem_singleton_self _
  · intro hmay
    refine ⟨⟨versionId, ?_⟩, ?_, hnamed⟩
    · rw [hstages, if_pos rfl]
      exact List.mem_singleton_self _
    · intro stage first second hfirst hsecond
      rw [hstages] at hfirst hsecond
      have hall := hmay first second
      grind

theorem isLabelled_update {version : SecretVersion}
    (hlabelled : versions.IsLabelled) (hne : versionId ≠ "")
    (hversion : version.stages = [awsCurrent]) :
    ((versions.put versionId version).resetVersions versionId).IsLabelled ↔
      versions.MayReplace versionId := by
  refine isLabelled_of_reset hdistinct ?_ ?_
  · intro other
    rw [stagesOf_resetVersions, stagesOf_put, hasVersion_put, hversion]
    by_cases hother : versionId = other
    · rw [if_pos hother.symm, if_pos hother, if_pos hother]
    · rw [if_neg (Ne.symm hother), if_neg hother, if_neg hother]
  · rw [hasVersion_resetVersions, hasVersion_put, if_neg hne]
    exact hlabelled.named

theorem isLabelled_pendVersion (hlabelled : versions.IsLabelled) :
    (Edit.pendVersion versionId versions).IsLabelled ↔
      versionId ≠ "" ∧ versions.MayPend versionId := by
  have hcurrent := fun other => @IsLabelled.current_iff versions other hlabelled hdistinct
  have hcarriers := fun stage other => @HasDistinctIds.mem_carriers versions other stage hdistinct
  have hnames : awsCurrent ≠ awsPending := by decide
  have hstages : ∀ other, (Edit.pendVersion versionId versions).stagesOf other =
      if versionId = other then [awsPending] else versions.stagesOf other :=
    fun other => stagesOf_modify
  have hnamed : (Edit.pendVersion versionId versions).hasVersion "" = false ↔ versionId ≠ "" := by
    rw [Edit.pendVersion, hasVersion_modify]
    by_cases hempty : versionId = ""
    · simp [hempty]
    · simp [hempty, hlabelled.named]
  constructor
  · intro hafter
    refine ⟨hnamed.mp hafter.named, fun hsame => ?_, fun other hother => ?_⟩
    · obtain ⟨current, hafter⟩ := hafter.current
      rw [hstages] at hafter
      split at hafter
      · exact hnames (List.mem_singleton.mp hafter)
      next hother => exact hother (hsame.trans ((hcurrent current).mpr hafter))
    · by_contra hnot
      refine hnot (hafter.unique awsPending _ _ ?_ ?_)
      · rw [hstages, if_neg (Ne.symm hnot)]
        exact (hcarriers _ _).mp hother
      · rw [hstages, if_pos rfl]
        exact List.mem_singleton_self _
  · rintro ⟨hne, hother, hfree⟩
    refine ⟨⟨versions.getCurrentVersionId, ?_⟩, ?_, hnamed.mpr hne⟩
    · rw [hstages, if_neg hother]
      exact (hcurrent _).mp rfl
    · intro stage first second hfirst hsecond
      rw [hstages] at hfirst hsecond
      have hunique := hlabelled.unique stage first second
      grind

end

variable {moveToVersionId versionStage removeFromVersionId stage : String}

theorem stagesOf_modify_append (other : String) :
    stage ∈ (versions.modify moveToVersionId fun version =>
      if versionStage ∈ version.stages then version
      else { version with stages := version.stages ++ [versionStage] }).stagesOf other ↔
        stage ∈ versions.stagesOf other ∨ stage = versionStage ∧ other = moveToVersionId := by
  rw [stagesOf_modify]
  by_cases hother : moveToVersionId = other
  · rw [if_pos hother, ← hother]
    change _ ↔ stage ∈ (versions.getVersion moveToVersionId).stages ∨ _
    split
    next hmem =>
      constructor
      · exact Or.inl
      · rintro (hstage | ⟨rfl, -⟩)
        · exact hstage
        · exact hmem
    next hnot => simp
  · rw [if_neg hother]
    simp [Ne.symm hother]

theorem stagesOf_modify_erase (other : String) :
    stage ∈ (versions.modify removeFromVersionId fun version =>
      { version with stages := version.stages.filter (· ≠ versionStage) }).stagesOf other ↔
        stage ∈ versions.stagesOf other ∧ ¬(stage = versionStage ∧ other = removeFromVersionId) := by
  rw [stagesOf_modify]
  by_cases hother : removeFromVersionId = other
  · rw [if_pos hother, ← hother]
    simp [stagesOf]
  · rw [if_neg hother]
    simp [Ne.symm hother]

theorem stagesOf_moveVersions (hnamed : versions.hasVersion "" = false)
    (hmoved : versions.hasVersion moveToVersionId = true) (hstage : versionStage ≠ awsCurrent)
    (other : String) :
    stage ∈ (Edit.moveVersions moveToVersionId versionStage removeFromVersionId
        versions).stagesOf other ↔
      (stage ∈ versions.stagesOf other ∨ stage = versionStage ∧ other = moveToVersionId) ∧
        ¬(stage = versionStage ∧ other = removeFromVersionId) := by
  rw [Edit.moveVersions, if_neg hstage]
  dsimp only
  split
  · rw [stagesOf_modify_erase, stagesOf_modify_append]
  next hskip =>
    rw [stagesOf_modify_append]
    refine (and_iff_left_of_imp ?_).symm
    rintro hmem ⟨rfl, rfl⟩
    refine hskip ⟨?_, ?_⟩
    · rintro rfl
      rcases hmem with hmem | ⟨-, hsame⟩
      · exact absurd (hasVersion_of_stage hmem) (by simp [hnamed])
      · exact absurd hmoved (by simp [← hsame, hnamed])
    · rw [hasVersion_modify]
      rcases hmem with hmem | ⟨-, hsame⟩
      · rw [hasVersion_of_stage hmem, ite_self]
      · rw [if_pos hsame.symm]

theorem hasVersion_moveVersions (hmoved : versions.hasVersion moveToVersionId = true)
    (other : String) :
    (Edit.moveVersions moveToVersionId versionStage removeFromVersionId versions).hasVersion other =
      versions.hasVersion other := by
  have hkept : ∀ (versions : Versions) (versionId : String) (change : SecretVersion → SecretVersion),
      versions.hasVersion versionId = true →
        (versions.modify versionId change).hasVersion other = versions.hasVersion other := by
    intro versions versionId change hversion
    rw [hasVersion_modify]
    split
    next heq => rw [← heq, hversion]
    next => rfl
  rw [Edit.moveVersions]
  split
  · rw [hkept _ _ _ (hasVersion_resetVersions.trans hmoved), hasVersion_resetVersions]
  · dsimp only
    split
    next hremove => rw [hkept _ _ _ hremove.2, hkept _ _ _ hmoved]
    next => exact hkept _ _ _ hmoved

theorem isLabelled_moveVersions (hdistinct : versions.HasDistinctIds)
    (hlabelled : versions.IsLabelled) (hmoved : versions.hasVersion moveToVersionId = true) :
    (Edit.moveVersions moveToVersionId versionStage removeFromVersionId versions).IsLabelled ↔
      versions.MayMove moveToVersionId versionStage removeFromVersionId := by
  have hnamed : (Edit.moveVersions moveToVersionId versionStage removeFromVersionId
      versions).hasVersion "" = false := (hasVersion_moveVersions hmoved "").trans hlabelled.named
  by_cases hstage : versionStage = awsCurrent
  · rw [MayMove, if_pos hstage]
    refine isLabelled_of_reset hdistinct (fun other => ?_) hnamed
    rw [Edit.moveVersions, if_pos hstage, stagesOf_modify, stagesOf_resetVersions]
    by_cases hother : moveToVersionId = other
    · rw [if_pos hother, if_pos hother]
    · rw [if_neg hother, if_neg hother, if_neg (Ne.symm hother)]
  · have hcarriers := fun stage other =>
      @HasDistinctIds.mem_carriers versions other stage hdistinct
    have hstages := fun stage other => @stagesOf_moveVersions versions moveToVersionId
      versionStage removeFromVersionId stage hlabelled.named hmoved hstage other
    rw [MayMove, if_neg hstage]
    constructor
    · intro hafter
      by_cases hsame : removeFromVersionId = moveToVersionId
      · exact Or.inl hsame
      · refine Or.inr fun other hother => ?_
        by_contra hnot
        rw [not_or] at hnot
        refine hnot.1 (hafter.unique versionStage _ _ ?_ ?_)
        · exact (hstages _ _).mpr ⟨Or.inl ((hcarriers _ _).mp hother), fun heq => hnot.2 heq.2⟩
        · exact (hstages _ _).mpr ⟨Or.inr ⟨rfl, rfl⟩, fun heq => hsame heq.2.symm⟩
    · intro hmay
      obtain ⟨current, hcurrent⟩ := hlabelled.current
      refine ⟨⟨current, ?_⟩, ?_, hnamed⟩
      · exact (hstages _ _).mpr ⟨Or.inl hcurrent, fun heq => hstage heq.1.symm⟩
      · intro stage first second hfirst hsecond
        rw [hstages] at hfirst hsecond
        have hunique := hlabelled.unique stage first second
        grind

theorem isLabelled_congr {after : Versions}
    (hstages : ∀ other, after.stagesOf other = versions.stagesOf other)
    (hnamed : after.hasVersion "" = versions.hasVersion "") :
    after.IsLabelled ↔ versions.IsLabelled := by
  constructor
  · rintro ⟨hcurrent, hunique, hempty⟩
    simp only [hstages] at hcurrent hunique
    exact ⟨hcurrent, hunique, hnamed.symm.trans hempty⟩
  · rintro ⟨hcurrent, hunique, hempty⟩
    simp only [← hstages] at hcurrent hunique
    exact ⟨hcurrent, hunique, hnamed.trans hempty⟩

theorem isLabelled_details {secretString : Bytes} (hdistinct : versions.HasDistinctIds)
    (hlabelled : versions.IsLabelled) :
    (versions.modify versions.getCurrentVersionId fun version =>
      { version with secretString := secretString }).IsLabelled := by
  have hcurrent := (hlabelled.current_iff hdistinct).mp rfl
  refine (isLabelled_congr ?_ ?_).mpr hlabelled
  · intro other
    rw [stagesOf_modify]
    split
    next heq => rw [← heq, stagesOf]
    next => rfl
  · rw [hasVersion_modify]
    split
    next heq => rw [← heq, hasVersion_of_stage hcurrent]
    next => rfl

end Edits

end Versions

end AwsMock.SecretsManager
