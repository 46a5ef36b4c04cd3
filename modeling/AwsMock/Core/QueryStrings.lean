import Mathlib.Data.List.Induction
import Mathlib.Data.List.Nodup
import AwsMock.Core.QueryReading

/-! # Query strings that a client builds

A client encodes the path and every name and value on its own. `GetQueryParameters` decodes the
whole target before it cuts, so what stands in a path, a name or a value can be taken for
structure.
-/

namespace AwsMock.HttpUtils

open Bytes

/-! ## Parameters that are asked for -/

def hasQueryParameter (uri name : Bytes) : Option Bool :=
  (getQueryParameters uri).map fun parameters => decide (name ∈ parameters.map Prod.fst)

def getQueryParametersByPrefix (uri namePrefix : Bytes) : Option (List Bytes) :=
  if namePrefix = [] then some []
  else (getQueryParameters uri).map fun parameters =>
    (parameters.filter fun parameter => startsWith parameter.1 namePrefix).map Prod.snd

/-! ## Targets -/

structure Target (path : Bytes) (parameters : List (Bytes × Bytes)) where
  encodedPath : Bytes
  encoded : List (Bytes × Bytes)
  names : (parameters.map Prod.fst).Nodup
  path_eq : urlDecode encodedPath = some path
  noQuery : 63 ∉ encodedPath
  encoded_eq : List.Forall₂ (fun code parameter =>
    urlDecode code.1 = some parameter.1 ∧ urlDecode code.2 = some parameter.2) encoded parameters

def join (parameter : Bytes × Bytes) : Bytes := parameter.1 ++ 61 :: parameter.2

def Target.text {path : Bytes} {parameters : List (Bytes × Bytes)} (target : Target path parameters) :
    Bytes :=
  if target.encoded = [] then target.encodedPath
  else target.encodedPath ++ 63 :: [38].intercalate (target.encoded.map join)

structure ReadsBack (uri : Bytes) (parameters : List (Bytes × Bytes)) (namePrefix : Bytes) :
    Prop where
  map : ∃ read, getQueryParameters uri = some read ∧ read.Perm parameters
  names : ∀ name, hasQueryParameter uri name = some (decide (name ∈ parameters.map Prod.fst))
  values : ∃ values, getQueryParametersByPrefix uri namePrefix = some values ∧
    values.Perm ((parameters.filter fun parameter =>
      startsWith parameter.1 namePrefix).map Prod.snd)

/-- What is left of a path when a target is cut at its first `?`. -/
def leftOf (path : Bytes) : Bytes :=
  if 63 ∈ path then (path.dropWhile (· ≠ 63)).tail ++ [63] else []

def readFirst (path : Bytes) (first : Bytes × Bytes) : List (Bytes × Bytes) :=
  (split (leftOf path ++ join first) 38).map readParameter

def lastValue (name : Bytes) (parameters : List (Bytes × Bytes)) : Option Bytes :=
  (parameters.reverse.find? fun parameter => parameter.1 = name).map Prod.snd

/-- Nothing that was encoded is taken for structure. Where the path has a `?`, what follows it
says nothing but what the map says. -/
structure IsReadable (path : Bytes) (parameters : List (Bytes × Bytes)) (namePrefix : Bytes) :
    Prop where
  cuts : ∀ parameter ∈ parameters,
    (38 ∉ parameter.1 ∧ 61 ∉ parameter.1) ∧ 38 ∉ parameter.2 ∧ 61 ∉ parameter.2
  path : 63 ∈ path → ∀ first ∈ parameters.head?,
    (∀ parameter ∈ readFirst path first, parameter.1 ∈ parameters.map Prod.fst) ∧
      lastValue first.1 (readFirst path first) = some first.2
  namePrefix : namePrefix ≠ [] ∨ parameters = []

/-! ## Maps -/

section Assigning

variable {parameters read : List (Bytes × Bytes)} {parameter : Bytes × Bytes} {name value : Bytes}

def IsOrdered (read : List (Bytes × Bytes)) : Prop :=
  read.Pairwise fun first second => first.1 < second.1

theorem mem_assign_iff (hordered : IsOrdered read) :
    parameter ∈ assign name value read ↔
      parameter = (name, value) ∨ parameter.1 ≠ name ∧ parameter ∈ read := by
  induction read with
  | nil => simp [assign]
  | cons other read ih =>
    obtain ⟨hbefore, hordered⟩ := List.pairwise_cons.mp hordered
    rw [assign]
    split
    next heq =>
      rw [List.mem_cons, List.mem_cons, ← heq]
      refine or_congr_right (Iff.intro (fun hmem => ⟨fun hname => ?_, .inr hmem⟩) ?_)
      · have hlt := hbefore parameter hmem
        rw [hname, heq] at hlt
        exact List.lt_irrefl _ hlt
      · rintro ⟨hname, rfl | hmem⟩
        · exact absurd heq.symm hname
        · exact hmem
    next hne =>
      split
      next hlt =>
        rw [List.mem_cons]
        refine or_congr_right (iff_and_self.mpr fun hmem hname => ?_)
        rcases List.mem_cons.mp hmem with rfl | hmem
        · exact hne hname.symm
        · have hlater := List.lt_trans hlt (hbefore parameter hmem)
          rw [hname] at hlater
          exact List.lt_irrefl _ hlater
      next =>
        rw [List.mem_cons, ih hordered, List.mem_cons]
        constructor
        · rintro (rfl | rfl | ⟨hname, hmem⟩)
          · exact .inr ⟨fun heq => hne heq.symm, .inl rfl⟩
          · exact .inl rfl
          · exact .inr ⟨hname, .inr hmem⟩
        · rintro (rfl | ⟨hname, rfl | hmem⟩)
          · exact .inr (.inl rfl)
          · exact .inl rfl
          · exact .inr (.inr ⟨hname, hmem⟩)

theorem isOrdered_assign (hordered : IsOrdered read) : IsOrdered (assign name value read) := by
  induction read with
  | nil => exact List.pairwise_singleton _ _
  | cons other read ih =>
    have hall := hordered
    obtain ⟨hbefore, hordered⟩ := List.pairwise_cons.mp hordered
    rw [assign]
    split
    next heq =>
      exact List.pairwise_cons.mpr ⟨hbefore, hordered⟩
    next hne =>
      split
      next hlt =>
        refine List.pairwise_cons.mpr ⟨fun later hmem => ?_, hall⟩
        rcases List.mem_cons.mp hmem with rfl | hmem
        · exact hlt
        · exact List.lt_trans hlt (hbefore later hmem)
      next hnot =>
        refine List.pairwise_cons.mpr ⟨fun later hmem => ?_, ih hordered⟩
        rcases (mem_assign_iff hordered).mp hmem with rfl | ⟨-, hmem⟩
        · exact Std.lt_of_le_of_ne hnot (Ne.symm hne)
        · exact hbefore later hmem

def assigned (parameters : List (Bytes × Bytes)) : List (Bytes × Bytes) :=
  parameters.foldl (fun read parameter => assign parameter.1 parameter.2 read) []

theorem assigned_append_singleton (parameters : List (Bytes × Bytes)) (parameter : Bytes × Bytes) :
    assigned (parameters ++ [parameter]) = assign parameter.1 parameter.2 (assigned parameters) := by
  rw [assigned, List.foldl_append]
  rfl

theorem isOrdered_assigned (parameters : List (Bytes × Bytes)) : IsOrdered (assigned parameters) := by
  induction parameters using List.reverseRecOn with
  | nil => exact List.Pairwise.nil
  | append_singleton parameters parameter ih =>
    rw [assigned_append_singleton]
    exact isOrdered_assign ih

theorem lastValue_append (parameters others : List (Bytes × Bytes)) (name : Bytes) :
    lastValue name (parameters ++ others) =
      (lastValue name others).or (lastValue name parameters) := by
  rw [lastValue, List.reverse_append, List.find?_append, Option.map_or, lastValue, lastValue]

theorem lastValue_singleton (parameter : Bytes × Bytes) (name : Bytes) :
    lastValue name [parameter] = if parameter.1 = name then some parameter.2 else none := by
  rw [lastValue, List.reverse_singleton, List.find?_cons]
  split <;> simp_all

theorem mem_assigned_iff :
    (name, value) ∈ assigned parameters ↔ lastValue name parameters = some value := by
  induction parameters using List.reverseRecOn with
  | nil => exact iff_of_false List.not_mem_nil (fun hvalue => nomatch hvalue)
  | append_singleton parameters parameter ih =>
    rw [assigned_append_singleton, mem_assign_iff (isOrdered_assigned parameters), ih,
      lastValue_append, lastValue_singleton, Prod.mk.injEq]
    by_cases hname : parameter.1 = name
    · rw [if_pos hname, Option.some_or, Option.some.injEq]
      simp [hname, eq_comm]
    · rw [if_neg hname, Option.none_or]
      simp [Ne.symm hname]

theorem lastValue_eq_some_iff (hnames : (parameters.map Prod.fst).Nodup) :
    lastValue name parameters = some value ↔ (name, value) ∈ parameters := by
  have hperm := @foldl_assign_perm parameters [] (by rwa [List.append_nil])
  rw [List.append_nil] at hperm
  rw [← mem_assigned_iff]
  exact hperm.mem_iff

theorem lastValue_isSome_iff :
    (lastValue name parameters).isSome = true ↔ name ∈ parameters.map Prod.fst := by
  rw [lastValue, Option.isSome_map, List.find?_isSome, List.mem_map]
  simp only [List.mem_reverse, decide_eq_true_eq]

theorem mem_of_lastValue (hvalue : lastValue name parameters = some value) :
    (name, value) ∈ parameters := by
  obtain ⟨⟨_, _⟩, hfind, rfl⟩ := Option.map_eq_some_iff.mp hvalue
  have hname := List.find?_some hfind
  rw [← of_decide_eq_true hname]
  exact List.mem_reverse.mp (List.mem_of_find?_eq_some hfind)

theorem assigned_perm_iff {meant : List (Bytes × Bytes)} (hnames : (meant.map Prod.fst).Nodup) :
    (assigned parameters).Perm meant ↔
      ∀ name, lastValue name parameters = lastValue name meant := by
  have hordered : (assigned parameters).Nodup :=
    (isOrdered_assigned parameters).imp fun hlt heq => by
      rw [heq] at hlt
      exact List.lt_irrefl _ hlt
  have hmeant : meant.Nodup := List.Nodup.of_map Prod.fst hnames
  rw [List.perm_ext_iff_of_nodup hordered hmeant, Prod.forall]
  refine forall_congr' fun name => ?_
  rw [Option.ext_iff]
  exact forall_congr' fun value => by rw [mem_assigned_iff, lastValue_eq_some_iff hnames]

end Assigning

/-! ## Cutting -/

section Cutting

variable {path : Bytes} {parameters rest : List (Bytes × Bytes)} {first parameter : Bytes × Bytes}

theorem readParameter_join (hname : 61 ∉ parameter.1) (hvalue : 61 ∉ parameter.2) :
    readParameter (join parameter) = parameter := by
  rw [readParameter, join, Bytes.split, List.splitOn_append_cons_self_of_not_mem hname,
    List.splitOn_eq_singleton hvalue]

theorem cuts_readParameter {part : Bytes} (hpart : 38 ∉ part) :
    (38 ∉ (readParameter part).1 ∧ 61 ∉ (readParameter part).1) ∧
      38 ∉ (readParameter part).2 ∧ 61 ∉ (readParameter part).2 := by
  have hpieces : ∀ piece ∈ Bytes.split part 61, 38 ∉ piece ∧ 61 ∉ piece := fun piece hpiece =>
    ⟨fun hmem => hpart (Foundation.mem_of_mem_splitOn hpiece hmem),
      Foundation.notMem_of_mem_splitOn hpiece⟩
  rw [readParameter]
  split
  next key value heq =>
    rw [heq, List.forall_mem_cons, List.forall_mem_singleton] at hpieces
    exact hpieces
  next key pieces _ heq =>
    rw [heq, List.forall_mem_cons] at hpieces
    exact ⟨hpieces.1, List.not_mem_nil, List.not_mem_nil⟩
  next => exact ⟨⟨List.not_mem_nil, List.not_mem_nil⟩, List.not_mem_nil, List.not_mem_nil⟩

theorem and_notMem_join (hname : 38 ∉ parameter.1) (hvalue : 38 ∉ parameter.2) :
    38 ∉ join parameter := by
  rw [join, List.mem_append, List.mem_cons]
  rintro (hmem | hmem | hmem)
  · exact hname hmem
  · exact absurd hmem (by decide)
  · exact hvalue hmem

theorem readFirst_of_notMem (hpath : 63 ∉ path)
    (hcuts : (38 ∉ first.1 ∧ 61 ∉ first.1) ∧ 38 ∉ first.2 ∧ 61 ∉ first.2) :
    readFirst path first = [first] := by
  rw [readFirst, leftOf, if_neg hpath, List.nil_append, Bytes.split,
    List.splitOn_eq_singleton (and_notMem_join hcuts.1.1 hcuts.2.1), List.map_singleton,
    readParameter_join hcuts.1.2 hcuts.2.2]

theorem split_query (hcuts : ∀ parameter ∈ rest,
      (38 ∉ parameter.1 ∧ 61 ∉ parameter.1) ∧ 38 ∉ parameter.2 ∧ 61 ∉ parameter.2) :
    (Bytes.split (leftOf path ++ [38].intercalate ((first :: rest).map join)) 38).map
        readParameter = readFirst path first ++ rest := by
  cases rest with
  | nil => rw [List.map_singleton, List.intercalate_singleton, List.append_nil, readFirst]
  | cons second rest =>
    have hparts : ∀ part ∈ (second :: rest).map join, 38 ∉ part := by
      rw [List.forall_mem_map]
      exact fun parameter hmem => and_notMem_join (hcuts _ hmem).1.1 (hcuts _ hmem).2.1
    have hread : ((second :: rest).map join).map readParameter = second :: rest := by
      rw [List.map_map]
      refine (List.map_congr_left fun parameter hmem => ?_).trans (List.map_id _)
      exact readParameter_join (hcuts parameter hmem).1.2 (hcuts parameter hmem).2.2
    rw [List.map_cons, List.map_cons, List.intercalate_cons_cons, List.append_assoc,
      ← List.append_assoc, List.singleton_append, Bytes.split, List.splitOn_append_cons_self,
      List.map_append, ← List.map_cons, List.splitOn_intercalate 38 hparts (List.cons_ne_nil _ _),
      hread, readFirst, Bytes.split]

theorem dropWhile_path (path query : Bytes) :
    ((path ++ 63 :: query).dropWhile (· ≠ 63)).tail = leftOf path ++ query := by
  rw [List.dropWhile_append, leftOf]
  by_cases hpath : 63 ∈ path
  · obtain ⟨rest, -, hdrop⟩ := Foundation.cut_of_mem hpath
    rw [if_pos hpath, hdrop, List.isEmpty_cons, if_neg Bool.false_ne_true, List.append_assoc]
    rfl
  · rw [if_neg hpath, (Foundation.cut_of_notMem hpath).2, List.isEmpty_nil, if_pos rfl,
      List.dropWhile_cons_of_neg (by simp)]
    rfl

end Cutting

/-! ## Reading -/

section Reading

variable {path namePrefix : Bytes} {parameters rest : List (Bytes × Bytes)}
  {first : Bytes × Bytes}

variable (target : Target path (first :: rest))

theorem Target.urlDecode_text :
    63 ∈ target.text ∧ urlDecode target.text =
      some (path ++ 63 :: [38].intercalate ((first :: rest).map join)) := by
  have hencoded : target.encoded ≠ [] := by
    intro heq
    have hall := target.encoded_eq
    rw [heq] at hall
    cases hall
  have hparts : List.Forall₂ (fun part result => urlDecode part = some result)
      (target.encoded.map join) ((first :: rest).map join) := by
    rw [List.forall₂_map_left_iff, List.forall₂_map_right_iff]
    exact target.encoded_eq.imp fun code parameter hcode =>
      urlDecode_append_cons (by decide) (by decide) hcode.1 hcode.2
  have hquery := urlDecode_intercalate (by decide : (38 : UInt8) ≠ 37) (by decide) hparts
  rw [text, if_neg hencoded]
  refine ⟨List.mem_append_right _ List.mem_cons_self, ?_⟩
  exact urlDecode_append_cons (by decide) (by decide) target.path_eq hquery

theorem Target.getQueryParameters_text :
    getQueryParameters target.text = some (assigned ((Bytes.split
      (leftOf path ++ [38].intercalate ((first :: rest).map join)) 38).map readParameter)) := by
  obtain ⟨hquery, hdecoded⟩ := target.urlDecode_text
  have hslash : target.text ≠ ascii "/" := by
    intro heq
    rw [heq] at hquery
    revert hquery
    decide
  have hmem : 63 ∈ path ++ 63 :: [38].intercalate ((first :: rest).map join) :=
    List.mem_append_right _ List.mem_cons_self
  have hsign : 61 ∈ leftOf path ++ [38].intercalate ((first :: rest).map join) := by
    refine List.mem_append_right _ (Foundation.mem_intercalate List.mem_cons_self ?_)
    exact List.mem_append_right _ List.mem_cons_self
  rw [getQueryParameters, if_neg hslash, if_neg (not_not.mpr hquery), hdecoded]
  simp only [if_pos hmem, dropWhile_path]
  rw [if_neg fun hnone => hnone.2 hsign, assigned, List.foldl_map]

theorem assigned_perm_iff_cuts (hnames : ((first :: rest).map Prod.fst).Nodup) :
    (assigned ((Bytes.split (leftOf path ++ [38].intercalate ((first :: rest).map join)) 38).map
        readParameter)).Perm (first :: rest) ↔
      (∀ parameter ∈ first :: rest,
        (38 ∉ parameter.1 ∧ 61 ∉ parameter.1) ∧ 38 ∉ parameter.2 ∧ 61 ∉ parameter.2) ∧
      (63 ∈ path → (∀ parameter ∈ readFirst path first,
          parameter.1 ∈ (first :: rest).map Prod.fst) ∧
        lastValue first.1 (readFirst path first) = some first.2) := by
  have hfirst : lastValue first.1 rest = none := by
    rw [← Option.not_isSome_iff_eq_none, lastValue_isSome_iff]
    exact (List.nodup_cons.mp hnames).1
  have hall : ∀ name, lastValue name (first :: rest) =
      (lastValue name rest).or (if first.1 = name then some first.2 else none) := by
    intro name
    rw [← lastValue_singleton, ← lastValue_append, List.singleton_append]
  constructor
  · intro hperm
    have hcuts : ∀ parameter ∈ first :: rest,
        (38 ∉ parameter.1 ∧ 61 ∉ parameter.1) ∧ 38 ∉ parameter.2 ∧ 61 ∉ parameter.2 := by
      intro parameter hmem
      have hlast := mem_assigned_iff.mp (hperm.mem_iff.mpr hmem)
      obtain ⟨part, hpart, hread⟩ := List.mem_map.mp (mem_of_lastValue hlast)
      have hcut := cuts_readParameter (Foundation.notMem_of_mem_splitOn hpart)
      rwa [hread] at hcut
    refine ⟨hcuts, fun _ => ?_⟩
    rw [split_query fun parameter hmem => hcuts parameter (List.mem_cons_of_mem _ hmem),
      assigned_perm_iff hnames] at hperm
    have hvalues : ∀ name, (lastValue name rest).or (lastValue name (readFirst path first)) =
        (lastValue name rest).or (if first.1 = name then some first.2 else none) := by
      intro name
      rw [← hall, ← hperm, lastValue_append]
    refine ⟨fun parameter hmem => ?_, ?_⟩
    · by_contra hnot
      rw [List.map_cons, List.mem_cons, not_or] at hnot
      have hvalue := hvalues parameter.1
      rw [if_neg (Ne.symm hnot.1), Option.not_isSome_iff_eq_none.mp
        (lastValue_isSome_iff.not.mpr hnot.2), Option.none_or, Option.none_or] at hvalue
      have hsome := lastValue_isSome_iff.mpr (List.mem_map_of_mem hmem)
      rw [hvalue] at hsome
      cases hsome
    · have hvalue := hvalues first.1
      rwa [hfirst, Option.none_or, Option.none_or, if_pos rfl] at hvalue
  · rintro ⟨hcuts, hpath⟩
    have hread : (∀ parameter ∈ readFirst path first,
          parameter.1 ∈ (first :: rest).map Prod.fst) ∧
        lastValue first.1 (readFirst path first) = some first.2 := by
      by_cases hquery : 63 ∈ path
      · exact hpath hquery
      · rw [readFirst_of_notMem hquery (hcuts first List.mem_cons_self), List.forall_mem_singleton,
          lastValue_singleton, if_pos rfl]
        exact ⟨List.mem_cons_self, rfl⟩
    rw [split_query fun parameter hmem => hcuts parameter (List.mem_cons_of_mem _ hmem),
      assigned_perm_iff hnames]
    intro name
    rw [lastValue_append, hall]
    by_cases hname : first.1 = name
    · rw [if_pos hname, ← hname, hread.2]
    · cases hvalue : lastValue name (readFirst path first) with
      | none => rw [if_neg hname]
      | some value =>
        obtain ⟨parameter, hmem, rfl⟩ := List.mem_map.mp (lastValue_isSome_iff.mp
          (Option.isSome_iff_exists.mpr ⟨value, hvalue⟩))
        have hrest := (List.mem_cons.mp (hread.1 parameter hmem)).resolve_left (Ne.symm hname)
        obtain ⟨other, hother⟩ := Option.isSome_iff_exists.mp (lastValue_isSome_iff.mpr hrest)
        rw [hother, Option.some_or, Option.some_or]

/-- A target is read back exactly when nothing that was encoded is taken for structure. -/
theorem readsBack_iff (target : Target path parameters) (namePrefix : Bytes) :
    ReadsBack target.text parameters namePrefix ↔ IsReadable path parameters namePrefix := by
  cases parameters with
  | nil =>
    have hencoded : target.encoded = [] := List.forall₂_nil_right_iff.mp target.encoded_eq
    have hread : getQueryParameters target.text = some [] := by
      rw [Target.text, if_pos hencoded, getQueryParameters, if_pos target.noQuery, ite_self]
    refine iff_of_true ⟨⟨[], hread, .refl _⟩, fun name => ?_, [], ?_, .refl _⟩
      ⟨List.forall_mem_nil _, fun _ _ hfirst => (Option.not_mem_none _ hfirst).elim, .inr rfl⟩
    · rw [hasQueryParameter, hread]
      rfl
    · rw [getQueryParametersByPrefix, hread]
      exact ite_self _
  | cons first rest =>
    have hread := target.getQueryParameters_text
    have hiff := @assigned_perm_iff_cuts path rest first target.names
    constructor
    · rintro ⟨⟨read, hsome, hperm⟩, -, values, hvalues, hsame⟩
      rw [hread] at hsome
      cases hsome
      obtain ⟨hcuts, hpath⟩ := hiff.mp hperm
      refine ⟨hcuts, fun hquery _ hfirst => Option.some.inj hfirst ▸ hpath hquery, .inl ?_⟩
      rintro rfl
      rw [getQueryParametersByPrefix, if_pos rfl] at hvalues
      cases hvalues
      have hlength := hsame.length_eq
      rw [List.length_map, List.filter_cons_of_pos rfl] at hlength
      cases hlength
    · rintro ⟨hcuts, hpath, hname⟩
      have hperm := hiff.mpr ⟨hcuts, fun hquery => hpath hquery first rfl⟩
      refine ⟨⟨_, hread, hperm⟩, fun name => ?_, _, ?_, (hperm.filter _).map _⟩
      · rw [hasQueryParameter, hread, Option.map_some, Option.some.injEq, decide_eq_decide]
        exact (hperm.map _).mem_iff
      · rw [getQueryParametersByPrefix, if_neg (hname.resolve_right (List.cons_ne_nil _ _)), hread,
          Option.map_some]

/-- The query `a=%26`, whose value is a `&`. -/
def ampersand : Target (ascii "/") [(ascii "a", ascii "&")] where
  encodedPath := ascii "/"
  encoded := [(ascii "a", ascii "%26")]
  names := List.nodup_singleton _
  path_eq := by decide
  noQuery := by decide
  encoded_eq := .cons ⟨by decide, by decide⟩ .nil

/-- An encoded `&` in a value is taken for the end of the value. -/
theorem not_readsBack_ampersand :
    ¬∀ (path : Bytes) (parameters : List (Bytes × Bytes)) (target : Target path parameters)
      (namePrefix : Bytes), ReadsBack target.text parameters namePrefix := by
  intro hreads
  obtain ⟨read, hread, hperm⟩ := (hreads _ _ ampersand (ascii "a")).map
  have hlost : getQueryParameters ampersand.text = some [([], []), (ascii "a", [])] := by decide
  rw [hlost] at hread
  cases hread
  exact absurd hperm.length_eq (by decide)

end Reading

end AwsMock.HttpUtils
