import AwsMock.Core.SignatureText
import AwsMock.Foundation.Traverse
import Mathlib.Data.List.Perm.Basic

/-! # The parameters of a query

A query is cut at `&` into parameters, which are cut at the first `=` and decoded.
`GetQueryParameters` decodes first and cuts then, and keeps one value for a name. It
reads the parameters of a query that is plain: no escape stands for a character that
cuts, no value has a `=`, and no name comes twice.
-/

namespace AwsMock

open Http HttpUtils AwsUtils

namespace Http.Request

variable (request : Request)

/-- One parameter of a query: the first `=` ends the name. -/
def readPart (part : Bytes) : Option (Bytes × Bytes) :=
  (Bytes.urlDecode (part.takeWhile (· ≠ 61))).bind fun name =>
    (Bytes.urlDecode (part.dropWhile (· ≠ 61)).tail).map fun value => (name, value)

def query : Bytes := (request.target.dropWhile (· ≠ 63)).tail

def parameters : Option (List (Bytes × Bytes)) :=
  if request.query = [] then some [] else (Bytes.split request.query 38).mapM readPart

structure IsPlainQuery (parameters : List (Bytes × Bytes)) : Prop where
  path : ∃ decoded, Bytes.urlDecode (path request.target) = some decoded ∧ 63 ∉ decoded
  read : request.parameters = some parameters
  cuts : ∀ parameter ∈ parameters,
    (38 ∉ parameter.1 ∧ 61 ∉ parameter.1) ∧ 38 ∉ parameter.2 ∧ 61 ∉ parameter.2
  names : (parameters.map Prod.fst).Nodup

def IsPlain : Prop := 63 ∉ request.target ∨ ∃ parameters, request.IsPlainQuery parameters

/-- `GetQueryParameters` reads what the query says. -/
def ReadsQuery : Prop :=
  ∃ parameters read, request.parameters = some parameters ∧
    getQueryParameters request.target = some read ∧ parameters.Perm read

end Http.Request

section Assigning

variable {parameters : List (Bytes × Bytes)}

theorem assign_perm {key : Bytes} (hkey : key ∉ parameters.map Prod.fst) (value : Bytes) :
    (assign key value parameters).Perm ((key, value) :: parameters) := by
  induction parameters with
  | nil => exact List.Perm.refl _
  | cons parameter parameters ih =>
    rw [List.map_cons, List.mem_cons, not_or] at hkey
    rw [assign, if_neg hkey.1]
    split
    next => exact List.Perm.refl _
    next =>
      exact ((ih hkey.2).cons parameter).trans (List.Perm.swap _ _ _)

theorem foldl_assign_perm {read : List (Bytes × Bytes)}
    (hnames : ((parameters ++ read).map Prod.fst).Nodup) :
    (parameters.foldl (fun read parameter => assign parameter.1 parameter.2 read) read).Perm
      (parameters ++ read) := by
  induction parameters generalizing read with
  | nil => exact List.Perm.refl _
  | cons parameter parameters ih =>
    rw [List.cons_append, List.map_cons, List.nodup_cons, List.map_append, List.mem_append,
      not_or] at hnames
    obtain ⟨⟨hleft, hright⟩, hrest⟩ := hnames
    have hassign := assign_perm hright parameter.2
    have hmoved : (parameters ++ assign parameter.1 parameter.2 read).Perm
        (parameter :: (parameters ++ read)) :=
      (hassign.append_left parameters).trans List.perm_middle
    have hnodup : ((parameters ++ assign parameter.1 parameter.2 read).map Prod.fst).Nodup := by
      rw [(hmoved.map Prod.fst).nodup_iff, List.map_cons, List.nodup_cons, List.map_append,
        List.mem_append, not_or]
      exact ⟨⟨hleft, hright⟩, hrest⟩
    exact (ih hnodup).trans hmoved

end Assigning

section Decoding

namespace Bytes

theorem eq_nil_of_urlDecode {text : Bytes} (hdecoded : urlDecode text = some []) : text = [] := by
  cases text with
  | nil => rfl
  | cons c text =>
    unfold urlDecode at hdecoded
    split at hdecoded
    next =>
      split at hdecoded
      next =>
        split at hdecoded
        next => cases hdecoded
        next => cases hdecoded
      next => cases hdecoded
    next =>
      split at hdecoded
      next => cases hdecoded
      next => cases hdecoded

theorem urlDecode_append_cons {front back decodedFront decodedBack : Bytes} {c : UInt8}
    (hpercent : c ≠ 37) (hplus : c ≠ 43) (hfront : urlDecode front = some decodedFront)
    (hback : urlDecode back = some decodedBack) :
    urlDecode (front ++ c :: back) = some (decodedFront ++ c :: decodedBack) := by
  rw [urlDecode_append hfront, urlDecode_cons hpercent, hback, if_neg hplus]
  rfl

theorem urlDecode_intercalate {c : UInt8} (hpercent : c ≠ 37) (hplus : c ≠ 43)
    {parts decoded : List Bytes}
    (hdecoded : List.Forall₂ (fun part result => urlDecode part = some result) parts decoded) :
    urlDecode ([c].intercalate parts) = some ([c].intercalate decoded) := by
  induction hdecoded with
  | nil => rfl
  | cons hpart hparts ih =>
    cases hparts with
    | nil =>
      rw [List.intercalate_singleton, List.intercalate_singleton]
      exact hpart
    | cons hother hothers =>
      rw [List.intercalate_cons_cons, List.intercalate_cons_cons, List.append_assoc,
        List.append_assoc]
      exact urlDecode_append_cons hpercent hplus hpart ih

end Bytes

end Decoding

section Reading

variable {request : Request} {parameters : List (Bytes × Bytes)}

theorem readParameter_of_readPart {part : Bytes} {parameter : Bytes × Bytes}
    (hread : Request.readPart part = some parameter) (hname : 61 ∉ parameter.1)
    (hvalue : 61 ∉ parameter.2) :
    ∃ decoded, Bytes.urlDecode part = some decoded ∧ readParameter decoded = parameter ∧
      ∀ c, c ∈ decoded → c ∈ parameter.1 ∨ c = 61 ∨ c ∈ parameter.2 := by
  simp only [Request.readPart, Option.bind_eq_some_iff, Option.map_eq_some_iff] at hread
  obtain ⟨name, hfirst, value, hsecond, rfl⟩ := hread
  by_cases hsign : 61 ∈ part
  case neg =>
    obtain ⟨htake, hdrop⟩ := Foundation.cut_of_notMem hsign
    rw [htake] at hfirst
    rw [hdrop] at hsecond
    cases hsecond
    refine ⟨name, hfirst, ?_, fun c hc => .inl hc⟩
    rw [readParameter, Bytes.split, List.splitOn_eq_singleton hname]
  case pos =>
    obtain ⟨rest, hpart, hdrop⟩ := Foundation.cut_of_mem hsign
    rw [hdrop] at hsecond
    refine ⟨name ++ 61 :: value, ?_, ?_, ?_⟩
    · rw [hpart]
      exact Bytes.urlDecode_append_cons (by decide) (by decide) hfirst hsecond
    · rw [readParameter, Bytes.split, List.splitOn_append_cons_self_of_not_mem hname,
        List.splitOn_eq_singleton hvalue]
    · intro c hc
      rw [List.mem_append, List.mem_cons] at hc
      exact hc

theorem exists_decodedParts {parts : List Bytes}
    (hread : List.Forall₂ (fun part parameter => Request.readPart part = some parameter)
      parts parameters)
    (hcuts : ∀ parameter ∈ parameters,
      (38 ∉ parameter.1 ∧ 61 ∉ parameter.1) ∧ 38 ∉ parameter.2 ∧ 61 ∉ parameter.2) :
    ∃ decoded, List.Forall₂ (fun part result => Bytes.urlDecode part = some result) parts decoded ∧
      decoded.map readParameter = parameters ∧ ∀ result ∈ decoded, 38 ∉ result := by
  induction hread with
  | nil => exact ⟨[], .nil, rfl, fun _ hresult => absurd hresult List.not_mem_nil⟩
  | cons hpart hparts ih =>
    rw [List.forall_mem_cons] at hcuts
    obtain ⟨⟨⟨hand, hname⟩, hand', hvalue⟩, hrest⟩ := hcuts
    obtain ⟨first, hfirst, heq, hmem⟩ := readParameter_of_readPart hpart hname hvalue
    obtain ⟨decoded, hdecoded, hmap, hresults⟩ := ih hrest
    refine ⟨first :: decoded, .cons hfirst hdecoded, ?_, ?_⟩
    · rw [List.map_cons, heq, hmap]
    · rw [List.forall_mem_cons]
      refine ⟨?_, hresults⟩
      intro hc
      rcases hmem 38 hc with hc | hc | hc
      · exact hand hc
      · exact absurd hc (by decide)
      · exact hand' hc

theorem target_eq (hquery : 63 ∈ request.target) :
    request.target = path request.target ++ 63 :: request.query := by
  obtain ⟨rest, htext, hdrop⟩ := Foundation.cut_of_mem hquery
  rw [path, Request.query, hdrop]
  exact htext

theorem readsQuery_of_notMem (hquery : 63 ∉ request.target) : request.ReadsQuery := by
  have hempty : request.query = [] := by
    rw [Request.query, (Foundation.cut_of_notMem hquery).2]
    rfl
  refine ⟨[], [], ?_, ?_, List.Perm.refl []⟩
  · rw [Request.parameters, if_pos hempty]
  · rw [getQueryParameters, if_pos hquery]
    exact ite_self _

theorem getQueryParameters_eq {decodedPath decodedQuery : Bytes} (hquery : 63 ∈ request.target)
    (hpath : Bytes.urlDecode (path request.target) = some decodedPath) (hno : 63 ∉ decodedPath)
    (hdecoded : Bytes.urlDecode request.query = some decodedQuery) :
    getQueryParameters request.target =
      if 38 ∉ decodedQuery ∧ 61 ∉ decodedQuery then
        if decodedQuery = [] then some [] else some [(decodedQuery, [])]
      else some ((Bytes.split decodedQuery 38).foldl
        (fun parameters part => assign (readParameter part).1 (readParameter part).2 parameters)
          []) := by
  have hslash : request.target ≠ ascii "/" := by
    intro heq
    rw [heq] at hquery
    revert hquery
    decide
  have htarget : Bytes.urlDecode request.target = some (decodedPath ++ 63 :: decodedQuery) := by
    rw [target_eq hquery]
    exact Bytes.urlDecode_append_cons (by decide) (by decide) hpath hdecoded
  have hlocal : ((decodedPath ++ 63 :: decodedQuery).dropWhile fun c => decide (c ≠ 63)) =
      63 :: decodedQuery := Foundation.dropWhile_append_cons hno decodedQuery
  have hmem : 63 ∈ decodedPath ++ 63 :: decodedQuery := by simp
  rw [getQueryParameters, if_neg hslash, if_neg (not_not.mpr hquery), htarget]
  simp only [if_pos hmem, hlocal, List.tail_cons]

/-- `GetQueryParameters` reads a plain query. -/
theorem readsQuery_of_isPlain (hplain : request.IsPlain) : request.ReadsQuery := by
  rcases hplain with hno | ⟨parameters, ⟨decodedPath, hpath, hdecodedPath⟩, hread, hcuts, hnames⟩
  case inl => exact readsQuery_of_notMem hno
  by_cases htarget : 63 ∈ request.target
  case neg => exact readsQuery_of_notMem htarget
  have hparameters := hread
  rw [Request.parameters] at hparameters
  split at hparameters
  next hempty =>
    cases hparameters
    have hdecoded : Bytes.urlDecode request.query = some [] := by
      rw [hempty]
      rfl
    refine ⟨[], [], hread, ?_, List.Perm.refl []⟩
    rw [getQueryParameters_eq htarget hpath hdecodedPath hdecoded]
    rfl
  next hnonempty =>
    obtain ⟨decoded, hparts, hmap, hand⟩ :=
      exists_decodedParts (Foundation.mapM_eq_some_iff.mp hparameters) hcuts
    have hdecoded := Bytes.urlDecode_intercalate (by decide : (38 : UInt8) ≠ 37) (by decide) hparts
    rw [Bytes.split, List.intercalate_splitOn] at hdecoded
    have hsome : decoded ≠ [] := by
      rintro rfl
      exact List.splitOn_ne_nil 38 request.query (List.forall₂_nil_right_iff.mp hparts)
    have hsplit : Bytes.split ([38].intercalate decoded) 38 = decoded :=
      List.splitOn_intercalate 38 hand hsome
    have hquery := getQueryParameters_eq htarget hpath hdecodedPath hdecoded
    split at hquery
    next hone =>
      -- without a separator there is one name, which is not empty
      have hnil : [38].intercalate decoded ≠ [] := by
        intro heq
        rw [heq] at hdecoded
        exact hnonempty (Bytes.eq_nil_of_urlDecode hdecoded)
      have hsingle : decoded = [[38].intercalate decoded] := by
        conv_lhs => rw [← hsplit]
        exact List.splitOn_eq_singleton hone.1
      rw [if_neg hnil] at hquery
      refine ⟨parameters, _, hread, hquery, ?_⟩
      rw [← hmap, hsingle, List.map_singleton, List.intercalate_singleton, readParameter,
        Bytes.split, List.splitOn_eq_singleton hone.2]
    next =>
      refine ⟨parameters, _, hread, hquery, ?_⟩
      have hfold := @foldl_assign_perm parameters [] (by rwa [List.append_nil])
      rw [List.append_nil] at hfold
      have hmapped := @List.foldl_map _ _ _ readParameter
        (fun read parameter => assign parameter.1 parameter.2 read) decoded []
      rw [hsplit, ← hmapped, hmap]
      exact hfold.symm

end Reading

end AwsMock
