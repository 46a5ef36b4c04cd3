import AwsMock.Foundation.Document

/-! # Documents given by a table of fields

A document whose fields are listed with the values that they have, where a field without a value
is left out. When names occur once, reading a name gives the value in the table.
-/

namespace Foundation.Document

def ofFields (fields : List (String × Option Value)) : Document :=
  fields.filterMap fun field => field.2.map (field.1, ·)

section Fields

variable {fields : List (String × Option Value)} {name : String}

@[simp] theorem ofFields_nil : ofFields [] = [] := rfl

theorem ofFields_cons (name : String) (value : Option Value) :
    ofFields ((name, value) :: fields) = (value.map (name, ·)).toList ++ ofFields fields := by
  cases value <;> rfl

theorem ofFields_append (first second : List (String × Option Value)) :
    ofFields (first ++ second) = ofFields first ++ ofFields second :=
  List.filterMap_append

theorem get?_ofFields_of_notMem (hnot : name ∉ fields.map Prod.fst) :
    get? name (ofFields fields) = none := by
  induction fields with
  | nil => rfl
  | cons field fields ih =>
    obtain ⟨key, value⟩ := field
    rw [List.map_cons, List.mem_cons, not_or] at hnot
    obtain ⟨hne, hrest⟩ := hnot
    rw [ofFields_cons, get?_append, ih hrest, Option.or_none]
    cases value with
    | none => rfl
    | some value => exact if_neg (Ne.symm hne)

theorem get?_ofFields_of_mem {value : Option Value} (hnodup : (fields.map Prod.fst).Nodup)
    (hmem : (name, value) ∈ fields) : get? name (ofFields fields) = value := by
  induction fields with
  | nil => cases hmem
  | cons field fields ih =>
    obtain ⟨key, other⟩ := field
    obtain ⟨hkey, hnodup⟩ := List.nodup_cons.mp hnodup
    rw [ofFields_cons, get?_append]
    rcases List.mem_cons.mp hmem with heq | hmem
    · obtain ⟨rfl, rfl⟩ := Prod.mk.inj heq
      rw [get?_ofFields_of_notMem hkey, Option.or_none]
      cases value with
      | none => rfl
      | some value => exact if_pos rfl
    · have hne : key ≠ name := by
        rintro rfl
        exact hkey (List.mem_map.mpr ⟨_, hmem, rfl⟩)
      rw [ih hnodup hmem]
      cases other with
      | none => exact Option.none_or
      | some other =>
        have hother : get? name [(key, other)] = none := if_neg hne
        exact (congrArg (Option.or · value) hother).trans Option.none_or

theorem get?_ofFields {value : Option Value} (hnodup : (fields.map Prod.fst).Nodup) (place : Nat)
    (hfield : fields[place]? = some (name, value)) : get? name (ofFields fields) = value :=
  get?_ofFields_of_mem hnodup (List.mem_of_getElem? hfield)

end Fields

end Foundation.Document
