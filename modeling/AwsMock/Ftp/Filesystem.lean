import AwsMock.Core.Http
import AwsMock.Foundation.PathStack
import AwsMock.Foundation.Separated

/-! # Paths of the FTP server

Paths are cleaned on their text alone: the segments between the slashes are read with a
stack, on which a path from the root never goes below the root.
-/

namespace AwsMock.Ftp

open Foundation Foundation.PathStack
open Bytes

def isAbsolute (path : Bytes) : Bool := path.head? = some 47

def isSkipped (component : Bytes) : Bool := component = [] || component = ascii "."

def parent : Bytes := ascii ".."

def segments (path : Bytes) : List Bytes :=
  split (if isAbsolute path then path.drop 1 else path) 47

/-- The components that are left when all segments have been read. -/
def components (path : Bytes) : List Bytes :=
  resolve isSkipped parent (isAbsolute path) [] (segments path)

def join (absolute : Bool) (components : List Bytes) : Bytes :=
  if components = [] ∧ absolute = false then ascii "."
  else (if absolute then ascii "/" else []) ++ (ascii "/").intercalate components

/-- `cleanPath` and `cleanPathNative` for the separator `/`. -/
def cleanPath (path : Bytes) : Bytes :=
  if path = [] then ascii "." else join (isAbsolute path) (components path)

def IsClean (path : Bytes) : Prop := cleanPath path = path

def IsComponent (component : Bytes) : Prop := isSkipped component = false ∧ 47 ∉ component

def IsFileName (name : Bytes) : Prop := IsComponent name ∧ name ≠ parent

/-- An absolute path without `.`, `..` and empty segments. -/
def IsDirectory (path : Bytes) : Prop :=
  ∃ names, (∀ name ∈ names, IsFileName name) ∧ path = ascii "/" ++ (ascii "/").intercalate names

def below (root : Bytes) : Bytes :=
  if root = ascii "/" then root
  else if root = ascii "." then []
  else root ++ ascii "/"

def IsWithin (root path : Bytes) : Prop :=
  path = root ∨ ∃ names ≠ [], (∀ name ∈ names, IsFileName name) ∧
      path = below root ++ (ascii "/").intercalate names

section Components

variable {path : Bytes} {names : List Bytes}

theorem isName_of_isFileName {name : Bytes} (hname : IsFileName name) :
    PathStack.IsName isSkipped parent name :=
  ⟨hname.1.1, hname.2⟩

theorem notMem_of_mem_segments {segment : Bytes} (hsegment : segment ∈ segments path) :
    47 ∉ segment :=
  notMem_of_mem_splitOn hsegment

theorem isFileName_of_mem_resolve {stack segments : List Bytes}
    (hstack : ∀ name ∈ stack, IsFileName name) (hsegments : ∀ segment ∈ segments, 47 ∉ segment)
    {name : Bytes} (hname : name ∈ resolve isSkipped parent true stack segments) :
    IsFileName name := by
  rcases mem_resolve hname with hmem | ⟨hmem, hskip, hup⟩
  · exact hstack name hmem
  · exact ⟨⟨hskip, hsegments name hmem⟩, hup rfl⟩

theorem isComponent_of_mem_components {component : Bytes} (hmem : component ∈ components path) :
    IsComponent component := by
  rcases mem_resolve hmem with hmem | ⟨hmem, hskip, -⟩
  · cases hmem
  · exact ⟨hskip, notMem_of_mem_segments hmem⟩

theorem isComponent_parent : IsComponent parent := by
  refine ⟨rfl, ?_⟩
  decide

end Components

section Join

variable {absolute : Bool} {parts : List Bytes}

section

variable (hparts : ∀ part ∈ parts, IsComponent part)
include hparts

theorem isAbsolute_join :
    isAbsolute (join absolute parts) = absolute := by
  cases absolute with
  | true => simp [join, isAbsolute, ascii]
  | false =>
    cases parts with
    | nil => rfl
    | cons part parts =>
      obtain ⟨hskip, hslash⟩ := hparts part List.mem_cons_self
      cases part with
      | nil => cases hskip
      | cons c part =>
        have hc : c ≠ 47 := fun heq => hslash (heq ▸ List.mem_cons_self)
        cases parts <;> simp [join, isAbsolute, List.intercalate, hc]

theorem filter_segments_join :
    (segments (join absolute parts)).filter (fun segment => !isSkipped segment) = parts := by
  have hkept : parts.filter (fun segment => !isSkipped segment) = parts :=
    List.filter_eq_self.mpr fun part hpart => by rw [(hparts part hpart).1]; rfl
  rw [segments, isAbsolute_join hparts]
  by_cases hempty : parts = []
  · subst hempty
    cases absolute <;> rfl
  · have hsplit : split ((ascii "/").intercalate parts) 47 = parts :=
      List.splitOn_intercalate 47 (fun part hpart => (hparts part hpart).2) hempty
    cases absolute with
    | true =>
      simp only [join, hempty, false_and, if_false, if_true]
      change (split ((ascii "/").intercalate parts) 47).filter _ = parts
      rw [hsplit, hkept]
    | false =>
      simp only [join, hempty, false_and, if_false, Bool.false_eq_true, List.nil_append]
      rw [hsplit, hkept]

theorem join_injective {others : List Bytes} (hothers : ∀ part ∈ others, IsComponent part)
    (heq : join absolute parts = join absolute others) : parts = others := by
  rw [← @filter_segments_join absolute _ hparts, heq, filter_segments_join hothers]

end

theorem join_true (parts : List Bytes) :
    join true parts = ascii "/" ++ (ascii "/").intercalate parts := by
  simp [join]

end Join

section Clean

variable {root path : Bytes}

theorem isAbsolute_append (hroot : root ≠ []) (path : Bytes) :
    isAbsolute (root ++ path) = isAbsolute root := by
  cases root with
  | nil => exact absurd rfl hroot
  | cons c root => rfl

theorem segments_append (hroot : root ≠ []) (path : Bytes) :
    segments (root ++ ascii "/" ++ path) = segments root ++ split path 47 := by
  have hsplit : ∀ front : Bytes, split (front ++ ascii "/" ++ path) 47 =
      split front 47 ++ split path 47 := by
    intro front
    rw [List.append_assoc]
    exact List.splitOn_append_cons_self front path
  rw [segments, segments, List.append_assoc, isAbsolute_append hroot]
  cases hslash : isAbsolute root with
  | false =>
    rw [← List.append_assoc]
    exact hsplit root
  | true =>
    cases root with
    | nil => exact absurd rfl hroot
    | cons c root =>
      simp only [if_true, List.drop_succ_cons, List.drop_zero, List.cons_append]
      rw [← List.append_assoc]
      exact hsplit root

theorem resolve_split (absolute : Bool) (stack : List Bytes) (path : Bytes) :
    resolve isSkipped parent absolute stack (split path 47) =
      resolve isSkipped parent absolute stack (segments path) := by
  rw [segments]
  cases hslash : isAbsolute path with
  | false => rfl
  | true =>
    cases path with
    | nil => cases hslash
    | cons c path =>
      obtain rfl : c = 47 := by simpa [isAbsolute] using hslash
      have hsplit : split (47 :: path) 47 = [] :: split path 47 :=
        List.splitOn_append_cons_self [] path
      rw [hsplit]
      rfl

theorem cleanPath_append (hroot : root ≠ []) (path : Bytes) :
    cleanPath (root ++ ascii "/" ++ path) = join (isAbsolute root)
        (resolve isSkipped parent (isAbsolute root) (components root) (segments path)) := by
  have hnonempty : root ++ ascii "/" ++ path ≠ [] := by simp [hroot]
  rw [cleanPath, if_neg hnonempty, components, segments_append hroot, resolve_append_segments,
    resolve_split, List.append_assoc, isAbsolute_append hroot, components]

theorem IsClean.ne_nil (hroot : IsClean root) : root ≠ [] := by
  rintro rfl
  cases hroot

theorem IsClean.eq_join (hroot : IsClean root) :
    root = join (isAbsolute root) (components root) := by
  have hclean := hroot.symm
  rwa [cleanPath, if_neg hroot.ne_nil] at hclean

theorem IsClean.isWithin (hroot : IsClean root) {names : List Bytes}
    (hnames : ∀ name ∈ names, IsFileName name) :
    IsWithin root (join (isAbsolute root) (components root ++ names)) := by
  by_cases hempty : names = []
  · rw [hempty, List.append_nil]
    exact .inl hroot.eq_join.symm
  · refine .inr ⟨names, hempty, hnames, ?_⟩
    by_cases hcomponents : components root = []
    · have heq := hroot.eq_join
      rw [hcomponents] at heq ⊢
      cases habsolute : isAbsolute root with
      | true =>
        rw [habsolute] at heq
        obtain rfl : root = ascii "/" := heq
        exact join_true names
      | false =>
        rw [habsolute] at heq
        obtain rfl : root = ascii "." := heq
        simp [join, hempty, below, ascii]
    · have hslash : root ≠ ascii "/" := fun heq => hcomponents (heq ▸ rfl)
      have hdot : root ≠ ascii "." := fun heq => hcomponents (heq ▸ rfl)
      rw [below, if_neg hslash, if_neg hdot]
      have hjoin : ∀ parts : List Bytes, parts ≠ [] → join (isAbsolute root) parts =
          (if isAbsolute root then ascii "/" else []) ++ (ascii "/").intercalate parts := by
        intro parts hparts
        rw [join, if_neg fun hand => hparts hand.1]
      rw [hjoin _ (List.append_ne_nil_of_left_ne_nil hcomponents names),
        intercalate_append hcomponents hempty, ← List.append_assoc, ← List.append_assoc,
        ← hjoin _ hcomponents, ← hroot.eq_join]

theorem cleanPath_ne_nil (path : Bytes) : cleanPath path ≠ [] := by
  have hparts : ∀ part ∈ components path, IsComponent part :=
    fun part hpart => isComponent_of_mem_components hpart
  rw [cleanPath]
  split
  · exact List.cons_ne_nil _ _
  · intro hempty
    have hslash := @isAbsolute_join (isAbsolute path) _ hparts
    have hread := @filter_segments_join (isAbsolute path) _ hparts
    rw [hempty] at hslash hread
    rw [← hslash, ← hread] at hempty
    cases hempty

/-- A directory may be cleaned before a path is read in it. -/
theorem cleanPath_cleanPath_append (hroot : root ≠ []) (path : Bytes) :
    cleanPath (cleanPath root ++ ascii "/" ++ path) = cleanPath (root ++ ascii "/" ++ path) := by
  have hparts : ∀ part ∈ components root, IsComponent part :=
    fun part hpart => isComponent_of_mem_components hpart
  have hclean : cleanPath root = join (isAbsolute root) (components root) := if_neg hroot
  have hslash : isAbsolute (cleanPath root) = isAbsolute root := by
    rw [hclean, isAbsolute_join hparts]
  have hcomponents : components (cleanPath root) = components root := by
    rw [components, hslash, ← resolve_filter, hclean, filter_segments_join hparts]
    exact resolve_resolve rfl _
  rw [cleanPath_append (cleanPath_ne_nil root), cleanPath_append hroot, hslash, hcomponents]

end Clean

end AwsMock.Ftp
