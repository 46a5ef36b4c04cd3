import Mathlib.Algebra.Group.Nat.Defs
import AwsMock.Core.Integers
import AwsMock.Foundation.ListUpdate
import AwsMock.Foundation.Sorting

/-! # Backups of modules

A backup is named after its module and the minute it was made. Old backups are chosen by a text
that occurs in the path of a file, and sorted by the number behind the last dash of its name.
-/

namespace AwsMock.BackupUtils

open Foundation Foundation.Machine Bytes

/-! ## Names -/

/-- A minute of the calendar. The order of minutes is that of their fields. -/
structure Minute where
  year : Nat
  month : Nat
  day : Nat
  hour : Nat
  minute : Nat
  year_lt : year < 10000
  month_le : 1 ≤ month ∧ month ≤ 12
  day_le : 1 ≤ day ∧ day ≤ 31
  hour_lt : hour < 24
  minute_lt : minute < 60
deriving DecidableEq

def padded : Nat → Nat → Bytes
  | 0, _ => []
  | width + 1, n => padded width (n / 10) ++ [UInt8.ofNat (48 + n % 10)]

/-- `{:%Y%m%d%H%M}`. -/
def timestamp (m : Minute) : Bytes :=
  padded 4 m.year ++ padded 2 m.month ++ padded 2 m.day ++ padded 2 m.hour ++ padded 2 m.minute

def dash : UInt8 := 45

def slash : UInt8 := 47

/-- `GetBackupFilename`, within the backup directory. -/
def backupFilename (module' : Bytes) (m : Minute) : Bytes :=
  module' ++ dash :: timestamp m ++ ascii ".json"

def afterLastDash (filename : Bytes) : Bytes := (filename.reverse.takeWhile (· ≠ dash)).reverse

def extractNumber (filename : Bytes) : Int :=
  if dash ∈ filename then
    match Bytes.stol (afterLastDash filename) with
    | .ok number => number
    | .error _ => 0
  else 0

/-! ## The listing -/

def join (dirName filename : Bytes) : Bytes :=
  if dirName = [] ∨ dirName.getLast? = some slash then dirName ++ filename
  else dirName ++ slash :: filename

def listFilesByPrefix (sorter : Sorter) (dirName : Bytes) (filenames : List Bytes)
    (start : Bytes) : Run (List Bytes) :=
  sorter.sort (fun a b => decide (extractNumber a < extractNumber b))
    (filenames.filter fun filename => contains (join dirName filename) start)

def getBackupFiles (sorter : Sorter) (backupDir : Bytes) (filenames : List Bytes)
    (module' : Bytes) (retention : Int) : Run (List Bytes) := do
  let fileList ← listFilesByPrefix sorter backupDir filenames (module' ++ [dash])
  let kept := (retention % 18446744073709551616).toNat
  if fileList.length ≤ kept then return []
  else return (fileList.take (fileList.length - kept)).map (join backupDir)

/-! ## Directories of backups -/

inductive File where
  | backup (module' : Bytes) (minute : Minute)
  | other (filename : Bytes)

namespace File

def filename : File → Bytes
  | .backup module' minute => backupFilename module' minute
  | .other filename => filename

def isOf (module' : Bytes) : File → Bool
  | .backup owner _ => owner = module'
  | .other _ => false

def isNewer : File → File → Bool
  | .backup _ first, .backup _ second =>
    [second.year, second.month, second.day, second.hour, second.minute] <
      [first.year, first.month, first.day, first.hour, first.minute]
  | _, _ => false

end File

/-- The files of a directory have different names, and no other file is named like a backup. -/
structure Directory where
  path : Bytes
  files : List File
  distinct : (files.map File.filename).Nodup
  others : ∀ filename, .other filename ∈ files → ∀ module' minute,
    filename ≠ backupFilename module' minute

def Directory.oldFiles (directory : Directory) (module' : Bytes) (retention : Nat) : List File :=
  directory.files.filter fun file => file.isOf module' &&
    decide (retention ≤ directory.files.countP fun other =>
      other.isOf module' && other.isNewer file)

/-- The answer is the paths of the files of the module except the newest ones, in any order. -/
def ReturnsOldFiles (sorter : Sorter) (directory : Directory) (module' : Bytes)
    (retention : Int) : Prop :=
  ∃ paths, getBackupFiles sorter directory.path (directory.files.map File.filename) module'
      retention = .ok paths ∧
    paths.Perm ((directory.oldFiles module' retention.toNat).map fun file =>
      join directory.path file.filename)

def Directory.matching (directory : Directory) (module' : Bytes) : List File :=
  directory.files.filter fun file =>
    contains (join directory.path file.filename) (module' ++ [dash])

/-- Only files of the module match, or so few do that all are kept. -/
def IsSelective (directory : Directory) (module' : Bytes) (retention : Int) : Prop :=
  (∀ file ∈ directory.matching module', file.isOf module' = true) ∨
    ((directory.matching module').length : Int) ≤ retention

/-! ## Numbers of backups -/

section Numbers

variable {n : Nat} {text : Bytes}

theorem toNat_digit (n : Nat) : (UInt8.ofNat (48 + n % 10)).toNat = 48 + n % 10 := by
  rw [UInt8.toNat_ofNat']
  omega

theorem isDigit_padded {width : Nat} {c : UInt8} (hmem : c ∈ padded width n) :
    isDigit c = true := by
  induction width generalizing n with
  | zero => cases hmem
  | succ width ih =>
    rw [padded, List.mem_append, List.mem_singleton] at hmem
    rcases hmem with hmem | rfl
    · exact ih hmem
    · rw [isDigit, Bool.and_eq_true, decide_eq_true_eq, decide_eq_true_eq,
        UInt8.le_iff_toNat_le, UInt8.le_iff_toNat_le, toNat_digit]
      change 48 ≤ 48 + n % 10 ∧ 48 + n % 10 ≤ 57
      omega

theorem magnitude_append_singleton (text : Bytes) (c : UInt8) :
    magnitude (text ++ [c]) = 10 * magnitude text + (c.toNat - 48) := by
  rw [magnitude, List.foldl_append]
  rfl

theorem magnitude_append_padded (text : Bytes) (width n : Nat) :
    magnitude (text ++ padded width n) = magnitude text * 10 ^ width + n % 10 ^ width := by
  induction width generalizing n with
  | zero =>
    rw [padded, List.append_nil, Nat.pow_zero, Nat.mul_one, Nat.mod_one, Nat.add_zero]
  | succ width ih =>
    have hsplit : n % 10 ^ (width + 1) = 10 * (n / 10 % 10 ^ width) + n % 10 := by
      rw [Nat.pow_succ, Nat.mul_comm (10 ^ width), Nat.mod_mul]
      omega
    rw [padded, ← List.append_assoc, magnitude_append_singleton, ih, toNat_digit, hsplit,
      Nat.pow_succ]
    have hshift : 10 * (magnitude text * 10 ^ width) = magnitude text * (10 ^ width * 10) := by
      rw [← Nat.mul_assoc, Nat.mul_comm 10, Nat.mul_assoc, Nat.mul_comm 10]
    omega

def Minute.number (m : Minute) : Nat :=
  (((m.year * 100 + m.month) * 100 + m.day) * 100 + m.hour) * 100 + m.minute

theorem magnitude_timestamp (m : Minute) : magnitude (timestamp m) = m.number := by
  have hyear := m.year_lt
  have hmonth := m.month_le
  have hday := m.day_le
  have hhour := m.hour_lt
  have hminute := m.minute_lt
  have hfirst : magnitude (padded 4 m.year) = m.year := by
    have hpower : m.year < 10 ^ 4 := hyear
    rw [← List.nil_append (padded 4 m.year), magnitude_append_padded, Nat.mod_eq_of_lt hpower]
    exact Nat.zero_add _
  rw [timestamp, magnitude_append_padded, magnitude_append_padded, magnitude_append_padded,
    magnitude_append_padded, hfirst, Minute.number]
  omega

theorem isDigit_timestamp {m : Minute} {c : UInt8} (hmem : c ∈ timestamp m) :
    isDigit c = true := by
  rw [timestamp, List.mem_append, List.mem_append, List.mem_append, List.mem_append] at hmem
  rcases hmem with (((hmem | hmem) | hmem) | hmem) | hmem <;> exact isDigit_padded hmem

theorem isDigit_dash : isDigit dash = false := by decide

theorem dash_notMem_end (m : Minute) : dash ∉ timestamp m ++ ascii ".json" := by
  rw [List.mem_append, not_or]
  refine ⟨fun hmem => ?_, by decide⟩
  have hdigit := isDigit_timestamp hmem
  rw [isDigit_dash] at hdigit
  cases hdigit

theorem afterLastDash_backupFilename (module' : Bytes) (m : Minute) :
    afterLastDash (backupFilename module' m) = timestamp m ++ ascii ".json" := by
  have hnone : ∀ c ∈ (timestamp m ++ ascii ".json").reverse, decide (c ≠ dash) = true := by
    intro c hmem
    rw [decide_eq_true_eq]
    rintro rfl
    exact dash_notMem_end m (List.mem_reverse.mp hmem)
  rw [afterLastDash, backupFilename, List.append_assoc, List.cons_append, List.reverse_append,
    List.reverse_cons, List.append_assoc, List.takeWhile_append_of_pos hnone,
    List.singleton_append, List.takeWhile_cons_of_neg (by simp), List.append_nil,
    List.reverse_reverse]

theorem extractNumber_backupFilename (module' : Bytes) (m : Minute) :
    extractNumber (backupFilename module' m) = m.number := by
  have hmem : dash ∈ backupFilename module' m := by
    rw [backupFilename, List.append_assoc, List.mem_append]
    exact .inr List.mem_cons_self
  have hnonempty : timestamp m ≠ [] := by
    rw [timestamp]
    exact List.append_ne_nil_of_right_ne_nil _ (List.append_ne_nil_of_right_ne_nil _
      (List.cons_ne_nil _ _))
  have hrest : ∀ c ∈ (ascii ".json").head?, isDigit c = false := by
    intro c hc
    obtain rfl := Option.some.inj hc
    decide
  have hsmall : m.number < 9223372036854775808 := by
    have hyear := m.year_lt
    have hmonth := m.month_le
    have hday := m.day_le
    have hhour := m.hour_lt
    have hminute := m.minute_lt
    rw [Minute.number]
    omega
  have hstol := stol_digits hnonempty (fun c => isDigit_timestamp) hrest
  rw [magnitude_timestamp, if_pos hsmall] at hstol
  rw [extractNumber, if_pos hmem, afterLastDash_backupFilename, hstol]

theorem isNewer_iff {owner module' : Bytes} {first second : Minute} :
    (File.backup owner first).isNewer (.backup module' second) = true ↔
      second.number < first.number := by
  rw [File.isNewer, decide_eq_true_eq]
  have hmonth := first.month_le
  have hday := first.day_le
  have hhour := first.hour_lt
  have hminute := first.minute_lt
  have hmonth' := second.month_le
  have hday' := second.day_le
  have hhour' := second.hour_lt
  have hminute' := second.minute_lt
  simp only [List.cons_lt_cons_iff, Minute.number, List.not_lt_nil, and_false, or_false]
  omega

theorem number_inj {first second : Minute} (hsame : first.number = second.number) :
    first = second := by
  have hmonth := first.month_le
  have hday := first.day_le
  have hhour := first.hour_lt
  have hminute := first.minute_lt
  have hmonth' := second.month_le
  have hday' := second.day_le
  have hhour' := second.hour_lt
  have hminute' := second.minute_lt
  rw [Minute.number, Minute.number] at hsame
  obtain ⟨year, month, day, hour, minute⟩ := first
  obtain ⟨year', month', day', hour', minute'⟩ := second
  dsimp only at *
  obtain rfl : year = year' := by omega
  obtain rfl : month = month' := by omega
  obtain rfl : day = day' := by omega
  obtain rfl : hour = hour' := by omega
  obtain rfl : minute = minute' := by omega
  rfl

end Numbers

/-! ## Retention -/

section Retention

variable {directory : Directory} {module' : Bytes}

def Directory.own (directory : Directory) (module' : Bytes) : List File :=
  directory.files.filter (File.isOf module')

variable {retention : Int} {file : File}

theorem exists_of_isOf (hown : file.isOf module' = true) :
    ∃ minute, file = .backup module' minute := by
  cases file with
  | backup owner minute =>
    obtain rfl := of_decide_eq_true hown
    exact ⟨minute, rfl⟩
  | other filename => cases hown

theorem contains_of_isInfix {text part : Bytes} (hwithin : part <:+: text) :
    contains text part = true := by
  simpa only [contains, decide_eq_true_eq] using hwithin

theorem contains_of_isOf (hown : file.isOf module' = true) :
    contains (join directory.path file.filename) (module' ++ [dash]) = true := by
  obtain ⟨minute, rfl⟩ := exists_of_isOf hown
  have hname : module' ++ [dash] <:+: backupFilename module' minute := by
    refine List.IsPrefix.isInfix ⟨timestamp minute ++ ascii ".json", ?_⟩
    rw [backupFilename, List.append_assoc, List.append_assoc]
    rfl
  refine contains_of_isInfix ?_
  rw [join]
  split
  · exact hname.trans (List.suffix_append _ _).isInfix
  · refine hname.trans (List.IsInfix.trans ?_ (List.suffix_append _ _).isInfix)
    exact (List.suffix_cons _ _).isInfix

theorem mem_own :
    file ∈ directory.own module' ↔ file ∈ directory.files ∧ file.isOf module' = true :=
  List.mem_filter

theorem isNewer_iff_of_mem {first second : File} (hfirst : first ∈ directory.own module')
    (hsecond : second ∈ directory.own module') :
    first.isNewer second = true ↔
      extractNumber second.filename < extractNumber first.filename := by
  obtain ⟨minute, rfl⟩ := exists_of_isOf (mem_own.mp hfirst).2
  obtain ⟨minute', rfl⟩ := exists_of_isOf (mem_own.mp hsecond).2
  rw [isNewer_iff, File.filename, File.filename, extractNumber_backupFilename,
    extractNumber_backupFilename]
  omega

theorem nodup_numbers :
    (((directory.own module').map File.filename).map extractNumber).Nodup := by
  have hnames : ((directory.own module').map File.filename).Nodup :=
    directory.distinct.sublist (List.filter_sublist.map _)
  refine hnames.map_on fun x hx y hy hnumber => ?_
  obtain ⟨first, hfirst, rfl⟩ := List.mem_map.mp hx
  obtain ⟨second, hsecond, rfl⟩ := List.mem_map.mp hy
  obtain ⟨minute, rfl⟩ := exists_of_isOf (mem_own.mp hfirst).2
  obtain ⟨minute', rfl⟩ := exists_of_isOf (mem_own.mp hsecond).2
  rw [File.filename, File.filename, extractNumber_backupFilename,
    extractNumber_backupFilename] at hnumber
  rw [number_inj (by omega : minute.number = minute'.number)]

theorem map_oldFiles (retention : Nat) :
    (directory.oldFiles module' retention).map File.filename =
      ((directory.own module').map File.filename).filter fun x =>
        decide (retention ≤ ((directory.own module').map File.filename).countP fun y =>
          decide (extractNumber x < extractNumber y)) := by
  have hold : directory.oldFiles module' retention =
      (directory.own module').filter fun file =>
        decide (retention ≤ (directory.own module').countP fun other => other.isNewer file) := by
    rw [Directory.own, Directory.oldFiles, List.filter_filter]
    refine List.filter_congr fun file _ => ?_
    rw [List.countP_filter, Bool.and_comm]
    simp only [Bool.and_comm]
  rw [hold, List.filter_map]
  refine congrArg _ (List.filter_congr fun file hfile => ?_)
  have hcount : (directory.own module').countP (fun other => other.isNewer file) =
      ((directory.own module').map File.filename).countP fun y =>
        decide (extractNumber file.filename < extractNumber y) := by
    rw [List.countP_map]
    refine List.countP_congr fun other hother => ?_
    rw [isNewer_iff_of_mem hother hfile]
    exact decide_eq_true_iff.symm
  rw [hcount]
  rfl

theorem perm_take {sorted : List Bytes}
    (hperm : sorted.Perm ((directory.own module').map File.filename))
    (hsorted : sorted.Pairwise fun x y => decide (extractNumber y < extractNumber x) = false)
    (retention : Nat) :
    (sorted.take (sorted.length - retention)).Perm
      ((directory.oldFiles module' retention).map File.filename) := by
  have hstrict : sorted.Pairwise fun x y => extractNumber x < extractNumber y := by
    have hdistinct : (sorted.map extractNumber).Nodup :=
      (hperm.map extractNumber).nodup_iff.mpr nodup_numbers
    rw [List.Nodup, List.pairwise_map] at hdistinct
    refine (hsorted.and hdistinct).imp fun hboth => ?_
    rw [decide_eq_false_iff_not, not_lt] at hboth
    exact lt_of_le_of_ne hboth.1 hboth.2
  rw [← filter_le_countP_eq_take hstrict, map_oldFiles]
  have hcount : ∀ x, sorted.countP (fun y => decide (extractNumber x < extractNumber y)) =
      ((directory.own module').map File.filename).countP fun y =>
        decide (extractNumber x < extractNumber y) := fun x => hperm.countP_eq _
  simp only [hcount]
  exact hperm.filter _

theorem length_oldFiles (retention : Nat) :
    (directory.oldFiles module' retention).length = (directory.own module').length - retention := by
  obtain ⟨sorted, -, hperm, hsorted⟩ := Sorter.merging.sorts
    (strictWeakOn_key extractNumber ((directory.own module').map File.filename))
  have hlength := (perm_take hperm hsorted retention).length_eq
  rw [List.length_take, List.length_map, hperm.length_eq, List.length_map] at hlength
  omega

theorem length_own_le :
    (directory.own module').length ≤ (directory.matching module').length := by
  rw [Directory.own, Directory.matching, ← List.countP_eq_length_filter,
    ← List.countP_eq_length_filter]
  exact List.countP_mono_left fun file _ => contains_of_isOf

theorem matching_eq_own (hall : ∀ file ∈ directory.matching module', file.isOf module' = true) :
    directory.matching module' = directory.own module' := by
  refine List.filter_congr fun file hfile => ?_
  rw [Bool.eq_iff_iff]
  exact ⟨fun hmatches => hall file (List.mem_filter.mpr ⟨hfile, hmatches⟩), contains_of_isOf⟩

theorem length_matching_eq_iff :
    (directory.matching module').length = (directory.own module').length ↔
      ∀ file ∈ directory.matching module', file.isOf module' = true := by
  constructor
  · intro hlength file hfile
    rw [Directory.own, Directory.matching, ← List.countP_eq_length_filter,
      ← List.countP_eq_length_filter] at hlength
    obtain ⟨hmem, hmatches⟩ := List.mem_filter.mp hfile
    exact forall_of_countP_eq (fun file _ => contains_of_isOf) hlength file hmem hmatches
  · intro hall
    rw [matching_eq_own hall]

theorem filter_names :
    (directory.files.map File.filename).filter (fun filename =>
      contains (join directory.path filename) (module' ++ [dash])) =
        (directory.matching module').map File.filename :=
  List.filter_map

theorem exists_getBackupFiles (sorter : Sorter) (directory : Directory) (module' : Bytes)
    (hnonneg : 0 ≤ retention) (hfits : Fits retention) :
    ∃ sorted : List Bytes, sorted.Perm ((directory.matching module').map File.filename) ∧
      sorted.Pairwise (fun x y => decide (extractNumber y < extractNumber x) = false) ∧
      getBackupFiles sorter directory.path (directory.files.map File.filename) module' retention =
        .ok ((sorted.take (sorted.length - retention.toNat)).map (join directory.path)) := by
  obtain ⟨sorted, hsort, hperm, hsorted⟩ := sorter.sorts
    (strictWeakOn_key extractNumber ((directory.matching module').map File.filename))
  refine ⟨sorted, hperm, hsorted, ?_⟩
  have hkept : (retention % 18446744073709551616).toNat = retention.toNat := by
    have hupper := hfits.2
    rw [Int.emod_eq_of_lt hnonneg (by omega)]
  rw [getBackupFiles, listFilesByPrefix, filter_names, hsort]
  change (if sorted.length ≤ (retention % 18446744073709551616).toNat then _ else _) = _
  rw [hkept]
  split
  next hfew =>
    rw [Nat.sub_eq_zero_of_le hfew, List.take_zero]
    rfl
  next => rfl

theorem isSelective_of_returnsOldFiles {sorter : Sorter}
    (hnonneg : 0 ≤ retention) (hfits : Fits retention)
    (hreturns : ReturnsOldFiles sorter directory module' retention) :
    IsSelective directory module' retention := by
  obtain ⟨sorted, hperm, -, hanswer⟩ :=
    exists_getBackupFiles sorter directory module' hnonneg hfits
  obtain ⟨paths, hpaths, hold⟩ := hreturns
  rw [hanswer] at hpaths
  obtain rfl := Except.ok.inj hpaths
  have hcount := hold.length_eq
  rw [List.length_map, List.length_map, length_oldFiles, List.length_take, hperm.length_eq,
    List.length_map] at hcount
  have hown := @length_own_le directory module'
  rw [IsSelective, ← length_matching_eq_iff]
  omega

theorem returnsOldFiles_of_isSelective (sorter : Sorter)
    (hnonneg : 0 ≤ retention) (hfits : Fits retention)
    (hselective : IsSelective directory module' retention) :
    ReturnsOldFiles sorter directory module' retention := by
  obtain ⟨sorted, hperm, hsorted, hanswer⟩ :=
    exists_getBackupFiles sorter directory module' hnonneg hfits
  have hmap : ((directory.oldFiles module' retention.toNat).map fun file =>
      join directory.path file.filename) =
        ((directory.oldFiles module' retention.toNat).map File.filename).map
          (join directory.path) := by
    rw [List.map_map]
    rfl
  refine ⟨_, hanswer, ?_⟩
  rw [hmap]
  refine List.Perm.map _ ?_
  rcases hselective with hall | hfew
  · rw [matching_eq_own hall] at hperm
    exact perm_take hperm hsorted _
  · have hlength : sorted.length = (directory.matching module').length := by
      rw [hperm.length_eq, List.length_map]
    have hown := @length_own_le directory module'
    have hnone : directory.oldFiles module' retention.toNat = [] := by
      rw [← List.length_eq_zero_iff, length_oldFiles]
      omega
    rw [hnone, hlength, Nat.sub_eq_zero_of_le (by omega), List.take_zero]
    rfl

end Retention

/-- The old backups of a module are returned exactly when no other file matches, or not more
files match than are kept. -/
theorem returnsOldFiles_iff (sorter : Sorter) (directory : Directory) (module' : Bytes)
    {retention : Int} (hnonneg : 0 ≤ retention) (hfits : Fits retention) :
    ReturnsOldFiles sorter directory module' retention ↔ IsSelective directory module' retention :=
  ⟨isSelective_of_returnsOldFiles hnonneg hfits,
    returnsOldFiles_of_isSelective sorter hnonneg hfits⟩

def midnight : Minute where
  year := 2025
  month := 1
  day := 1
  hour := 0
  minute := 0
  year_lt := by decide
  month_le := by decide
  day_le := by decide
  hour_lt := by decide
  minute_lt := by decide

/-- A backup of `sns` in a directory that is named `sqs-`. -/
def namedLikeModule : Directory where
  path := [115, 113, 115] ++ [dash]
  files := [.backup [115, 110, 115] midnight]
  distinct := List.nodup_singleton _
  others := fun _ hmem => by
    rw [List.mem_singleton] at hmem
    cases hmem

theorem returnsOldFiles_namedLikeModule :
    ReturnsOldFiles Sorter.merging namedLikeModule [115, 113, 115] 1 ↔
      IsSelective namedLikeModule [115, 113, 115] 1 :=
  returnsOldFiles_iff Sorter.merging namedLikeModule [115, 113, 115] (by decide) (by decide)

/-- The backup of `sns` is returned as an old one of `sqs`. -/
theorem not_returnsOldFiles_namedLikeModule :
    ¬∀ sorter directory module' retention, 0 ≤ retention → Fits retention →
      ReturnsOldFiles sorter directory module' retention := by
  intro hreturns
  have hselective := isSelective_of_returnsOldFiles (by decide) (by decide)
    (hreturns Sorter.merging namedLikeModule [115, 113, 115] 0 (by decide) (by decide))
  have hmem : File.backup [115, 110, 115] midnight ∈ namedLikeModule.matching [115, 113, 115] := by
    refine List.mem_filter.mpr ⟨List.mem_singleton_self _, ?_⟩
    refine contains_of_isInfix ?_
    rw [join]
    split
    · exact (List.prefix_append _ _).isInfix
    · exact (List.prefix_append _ _).isInfix
  rcases hselective with hall | hfew
  · exact absurd (hall _ hmem) (by decide)
  · have hlength := List.length_pos_of_mem hmem
    omega

/-! ## Backups one after the other -/

/-- `BackupRetention`: the files that are returned are removed. -/
def backupRetention (sorter : Sorter) (backupDir : Bytes) (filenames : List Bytes)
    (module' : Bytes) (retention : Int) : Run (List Bytes) := do
  let backupList ← getBackupFiles sorter backupDir filenames module' retention
  return filenames.filter fun filename => !backupList.contains (join backupDir filename)

/-- `BackupModule`: the file is written, unless it is written anew. -/
def backupModule (sorter : Sorter) (backupDir module' : Bytes) (retention : Int)
    (filenames : List Bytes) (m : Minute) : Run (List Bytes) :=
  let backupFilename := backupFilename module' m
  backupRetention sorter backupDir
    (if filenames.contains backupFilename then filenames else filenames ++ [backupFilename])
    module' retention

section Runs

variable {module' : Bytes} {minutes : List Minute} {filenames : List Bytes}

theorem join_injective (dirName : Bytes) : Function.Injective (join dirName) := by
  intro first second heq
  unfold join at heq
  split at heq
  · exact List.append_cancel_left heq
  · exact (List.cons.inj (List.append_cancel_left heq)).2

theorem filter_notMem_take {α β : Type*} [BEq β] [LawfulBEq β] {f : α → β} {xs : List α}
    (hdistinct : (xs.map f).Nodup) (count : Nat) :
    (xs.filter fun x => !((xs.take count).map f).contains (f x)) = xs.drop count := by
  rw [← List.take_append_drop count xs, List.map_append, List.nodup_append'] at hdistinct
  conv_lhs => enter [2]; rw [← List.take_append_drop count xs]
  rw [List.filter_append, List.filter_eq_nil_iff.mpr, List.filter_eq_self.mpr, List.nil_append]
  · intro x hx
    rw [Bool.not_eq_true', ← Bool.not_eq_true, List.contains_iff_mem]
    exact fun hmem => hdistinct.2.2 hmem (List.mem_map_of_mem hx)
  · intro x hx
    rw [Bool.not_eq_true', List.contains_iff_mem.mpr (List.mem_map_of_mem hx)]
    exact Bool.noConfusion

theorem pairwise_numbers
    (hlater : minutes.Pairwise fun first second => first.number < second.number) :
    (minutes.map (backupFilename module')).Pairwise fun x y =>
      extractNumber x < extractNumber y := by
  rw [List.pairwise_map]
  refine hlater.imp fun hlt => ?_
  rw [extractNumber_backupFilename, extractNumber_backupFilename]
  exact Int.ofNat_lt.mpr hlt

theorem backupRetention_backups (sorter : Sorter) (backupDir : Bytes) (retention : Int)
    (hlater : minutes.Pairwise fun first second => first.number < second.number)
    (hperm : filenames.Perm (minutes.map (backupFilename module'))) :
    ∃ kept, backupRetention sorter backupDir filenames module' retention = .ok kept ∧
      kept.Perm ((minutes.drop
        (minutes.length - (retention % 18446744073709551616).toNat)).map
          (backupFilename module')) := by
  have hstrict := @pairwise_numbers module' minutes hlater
  have hmatching : filenames.filter (fun filename =>
      contains (join backupDir filename) (module' ++ [dash])) = filenames := by
    refine List.filter_eq_self.mpr fun filename hmem => ?_
    obtain ⟨m, -, rfl⟩ := List.mem_map.mp (hperm.mem_iff.mp hmem)
    exact @contains_of_isOf ⟨backupDir, [], List.nodup_nil, fun _ hmem => by cases hmem⟩ module'
      (.backup module' m) (decide_eq_true rfl)
  obtain ⟨sorted, hsort, hsame, hsorted⟩ := sorter.sorts (strictWeakOn_key extractNumber filenames)
  have hnumbers : ((minutes.map (backupFilename module')).map extractNumber).Nodup :=
    List.pairwise_map.mpr (hstrict.imp fun hlt => hlt.ne)
  have heq : sorted = minutes.map (backupFilename module') := by
    have hall := hsame.trans hperm
    refine List.Perm.eq_of_pairwise (fun x y hx hy hle hge => ?_)
      (hsorted.imp fun hnot => not_lt.mp (of_decide_eq_false hnot))
      (hstrict.imp fun hlt => hlt.le) hall
    exact List.inj_on_of_nodup_map hnumbers (hall.mem_iff.mp hx) hy (le_antisymm hle hge)
  have hpaths : ((minutes.map (backupFilename module')).map (join backupDir)).Nodup :=
    (hnumbers.of_map _).map (join_injective backupDir)
  have hbackups : getBackupFiles sorter backupDir filenames module' retention = .ok
      (((minutes.map (backupFilename module')).take (minutes.length -
        (retention % 18446744073709551616).toNat)).map (join backupDir)) := by
    rw [getBackupFiles, listFilesByPrefix, hmatching, hsort, heq]
    change (if _ ≤ (retention % 18446744073709551616).toNat then _ else _) = _
    rw [List.length_map]
    split
    next hfew => rw [Nat.sub_eq_zero_of_le hfew]; rfl
    next => rfl
  rw [backupRetention, hbackups]
  refine ⟨_, rfl, (hperm.filter _).trans ?_⟩
  rw [filter_notMem_take hpaths, List.map_drop]

end Runs

end AwsMock.BackupUtils
