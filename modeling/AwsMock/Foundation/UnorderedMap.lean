import Mathlib.Data.List.Nodup
import AwsMock.Foundation.ListUpdate

/-! # Hash maps with an observable iteration order

A `std::unordered_map` is iterated in an order its specification leaves open.
The model keeps the entries in the order the iterator visits them, so that a
statement about every map is a statement about every such order. Keys are
distinct by construction.
-/

namespace Foundation

structure UnorderedMap (κ α : Type) where
  entries : List (κ × α)
  nodup : (entries.map Prod.fst).Nodup

namespace UnorderedMap

variable {κ α σ : Type}

theorem ext {left right : UnorderedMap κ α} (hentries : left.entries = right.entries) :
    left = right := by
  cases left
  cases right
  cases hentries
  rfl

def empty : UnorderedMap κ α := ⟨[], List.nodup_nil⟩

/-- The values in iteration order (`std::views::values`). -/
def values (map : UnorderedMap κ α) : List α := map.entries.map Prod.snd

def keys (map : UnorderedMap κ α) : List κ := map.entries.map Prod.fst

def size (map : UnorderedMap κ α) : Nat := map.entries.length

@[simp] theorem entries_empty : (empty : UnorderedMap κ α).entries = [] := rfl

@[simp] theorem values_empty : (empty : UnorderedMap κ α).values = [] := rfl

/-- The first entry whose value is selected (`std::ranges::find_if`). -/
def findIf (map : UnorderedMap κ α) (select : α → Bool) : Option (κ × α) :=
  map.entries.find? fun entry => select entry.2

/-- Remove the entries whose value is selected (`std::erase_if`). -/
def eraseIf (map : UnorderedMap κ α) (select : α → Bool) : UnorderedMap κ α where
  entries := map.entries.filter fun entry => !select entry.2
  nodup := (map.nodup.sublist (List.filter_sublist.map Prod.fst))

/-- The number of entries whose value is selected (`std::ranges::count_if`). -/
def countIf (map : UnorderedMap κ α) (select : α → Bool) : Nat :=
  map.entries.countP fun entry => select entry.2

theorem values_eraseIf (map : UnorderedMap κ α) (select : α → Bool) :
    (map.eraseIf select).values = map.values.filter fun value => !select value := by
  simp only [values, eraseIf, List.filter_map]
  rfl

theorem countIf_eq_countP (map : UnorderedMap κ α) (select : α → Bool) :
    map.countIf select = map.values.countP select := by
  simp only [countIf, values, List.countP_map]
  rfl

theorem map_snd_findIf (map : UnorderedMap κ α) (select : α → Bool) :
    (map.findIf select).map Prod.snd = map.values.find? select := by
  simp only [findIf, values, List.find?_map]
  rfl

theorem keys_eraseIf_subset (map : UnorderedMap κ α) (select : α → Bool) :
    (map.eraseIf select).keys ⊆ map.keys :=
  (List.filter_sublist.map Prod.fst).subset

section Assign

variable [DecidableEq κ]

/-- Assignment through `operator[]` on the raw entries: an existing key keeps
its place and gets the new value, a new key is added. -/
def assignEntries (key : κ) (value : α) : List (κ × α) → List (κ × α)
  | [] => [(key, value)]
  | entry :: rest =>
    if entry.1 = key then (key, value) :: rest else entry :: assignEntries key value rest

theorem keys_assignEntries (key : κ) (value : α) (entries : List (κ × α)) :
    (assignEntries key value entries).map Prod.fst =
      if key ∈ entries.map Prod.fst then entries.map Prod.fst
      else entries.map Prod.fst ++ [key] := by
  induction entries with
  | nil => simp [assignEntries]
  | cons entry rest ih =>
    rw [assignEntries]
    split
    next hkey => simp [hkey]
    next hkey =>
      have hne : key ≠ entry.1 := fun heq => hkey heq.symm
      simp only [List.map_cons, ih, List.mem_cons, hne, false_or]
      split <;> rfl

/-- `map[key] = value`. -/
def assign (map : UnorderedMap κ α) (key : κ) (value : α) : UnorderedMap κ α where
  entries := assignEntries key value map.entries
  nodup := by
    rw [keys_assignEntries]
    split
    next => exact map.nodup
    next hnot =>
      rw [List.nodup_append]
      refine ⟨map.nodup, List.nodup_singleton _, ?_⟩
      intro other hother last hlast heq
      rw [List.mem_singleton] at hlast
      subst hlast
      exact hnot (heq ▸ hother)

variable {entries : List (κ × α)} {map : UnorderedMap κ α} {key : κ}

theorem assignEntries_of_notMem {value : α} (hkey : key ∉ entries.map Prod.fst) :
    assignEntries key value entries = entries ++ [(key, value)] := by
  induction entries with
  | nil => rfl
  | cons entry rest ih =>
    simp only [List.map_cons, List.mem_cons, not_or] at hkey
    rw [assignEntries, if_neg fun heq => hkey.1 heq.symm, ih hkey.2]
    rfl

theorem mem_assignEntries {value : α} {entry : κ × α} (hnodup : (entries.map Prod.fst).Nodup) :
    entry ∈ assignEntries key value entries ↔
      entry = (key, value) ∨ (entry ∈ entries ∧ entry.1 ≠ key) := by
  induction entries with
  | nil => simp [assignEntries]
  | cons head rest ih =>
    simp only [List.map_cons, List.nodup_cons] at hnodup
    rw [assignEntries]
    split
    next hkey =>
      constructor
      · intro hmem
        rcases List.mem_cons.mp hmem with heq | hrest
        · exact Or.inl heq
        · refine Or.inr ⟨List.mem_cons_of_mem _ hrest, fun heq => hnodup.1 ?_⟩
          rw [hkey, ← heq]
          exact List.mem_map_of_mem hrest
      · rintro (heq | ⟨hmem, hne⟩)
        · exact heq ▸ List.mem_cons_self
        · rcases List.mem_cons.mp hmem with heq | hrest
          · exact absurd (heq ▸ hkey) hne
          · exact List.mem_cons_of_mem _ hrest
    next hkey =>
      rw [List.mem_cons, ih hnodup.2, List.mem_cons]
      constructor
      · rintro (heq | heq | ⟨hmem, hne⟩)
        · exact Or.inr ⟨Or.inl heq, heq ▸ hkey⟩
        · exact Or.inl heq
        · exact Or.inr ⟨Or.inr hmem, hne⟩
      · rintro (heq | ⟨heq | hmem, hne⟩)
        · exact Or.inr (Or.inl heq)
        · exact Or.inl heq
        · exact Or.inr (Or.inr ⟨hmem, hne⟩)

theorem map_assignEntries_of_mem {β : Type} {f : κ × α → β} {old value : α}
    (hnodup : (entries.map Prod.fst).Nodup)
    (hmem : (key, old) ∈ entries) (hf : f (key, value) = f (key, old)) :
    (assignEntries key value entries).map f = entries.map f := by
  induction entries with
  | nil => cases hmem
  | cons entry rest ih =>
    rw [List.map_cons, List.nodup_cons] at hnodup
    rw [assignEntries]
    rcases List.mem_cons.mp hmem with rfl | hrest
    · rw [if_pos rfl, List.map_cons, List.map_cons, hf]
    · have hne : entry.1 ≠ key := by
        rintro rfl
        exact hnodup.1 (List.mem_map.mpr ⟨_, hrest, rfl⟩)
      rw [if_neg hne, List.map_cons, List.map_cons, ih hnodup.2 hrest]

theorem entries_assign_of_new (value : α)
    (hkey : key ∉ map.keys) : (map.assign key value).entries = map.entries ++ [(key, value)] :=
  assignEntries_of_notMem hkey

theorem entries_assign_of_findIf {select : α → Bool}
    {old : α} (value : α) (hfound : map.findIf select = some (key, old)) :
    (map.assign key value).entries =
      rewriteFirst (fun entry => select entry.2) (fun entry => (entry.1, value)) map.entries := by
  have hnodup := map.nodup
  rw [findIf] at hfound
  change assignEntries key value map.entries = _
  generalize map.entries = entries at hfound hnodup
  induction entries with
  | nil => cases hfound
  | cons entry rest ih =>
    rw [List.map_cons, List.nodup_cons] at hnodup
    rw [List.find?_cons] at hfound
    rw [assignEntries, rewriteFirst_cons]
    cases hentry : select entry.2 with
    | true =>
      rw [hentry] at hfound
      cases hfound
      rw [if_pos rfl, if_pos rfl]
    | false =>
      rw [hentry] at hfound
      change rest.find? _ = _ at hfound
      have hne : entry.1 ≠ key := by
        rintro rfl
        exact hnodup.1 (List.mem_map.mpr ⟨_, List.mem_of_find?_eq_some hfound, rfl⟩)
      rw [if_neg hne, if_neg Bool.false_ne_true, ih hfound hnodup.2]

theorem keys_assign_of_findIf {select : α → Bool}
    {old : α} (value : α) (hfound : map.findIf select = some (key, old)) :
    (map.assign key value).keys = map.keys := by
  rw [keys, entries_assign_of_findIf value hfound]
  exact map_rewriteFirst_of_preserved Prod.fst fun _ _ _ => rfl

def lookup (map : UnorderedMap κ α) (key : κ) : Option α :=
  (map.entries.find? fun entry => entry.1 = key).map Prod.snd

/-- Change the value under a key through `operator[]`, which adds a default
value when the key is missing. -/
def modifyAt (map : UnorderedMap κ α) (key : κ) (fallback : α) (change : α → α) :
    UnorderedMap κ α :=
  map.assign key (change ((map.lookup key).getD fallback))

end Assign

/-- What one round of a loop over a map does: the value it leaves under the
visited key, the loop state, and whether it breaks out. -/
structure Visit (α σ : Type) where
  value : α
  state : σ
  stop : Bool := false

/-- The loop `for (auto [key, value] : map) { ...; map[key] = value; }` on raw
entries. Keys are distinct, so assigning under the visited key rewrites the
visited entry. -/
def visitEntries (body : α → σ → Visit α σ) : List (κ × α) → σ → List (κ × α) × σ
  | [], state => ([], state)
  | (key, value) :: rest, state =>
    let round := body value state
    if round.stop then ((key, round.value) :: rest, round.state)
    else
      let after := visitEntries body rest round.state
      ((key, round.value) :: after.1, after.2)

theorem keys_visitEntries (body : α → σ → Visit α σ) (entries : List (κ × α)) (state : σ) :
    (visitEntries body entries state).1.map Prod.fst = entries.map Prod.fst := by
  induction entries generalizing state with
  | nil => rfl
  | cons entry rest ih =>
    rw [visitEntries]
    simp only
    split
    · rfl
    · simp only [List.map_cons, ih]

/-- A loop over a map that may rewrite the visited entries and break out. -/
def visit (map : UnorderedMap κ α) (body : α → σ → Visit α σ) (state : σ) :
    UnorderedMap κ α × σ :=
  (⟨(visitEntries body map.entries state).1, by
      rw [keys_visitEntries]
      exact map.nodup⟩,
    (visitEntries body map.entries state).2)

def visitValues (body : α → σ → Visit α σ) : List α → σ → List α × σ
  | [], state => ([], state)
  | value :: rest, state =>
    let round := body value state
    if round.stop then (round.value :: rest, round.state)
    else
      let after := visitValues body rest round.state
      (round.value :: after.1, after.2)

theorem visitValues_eq (body : α → σ → Visit α σ) (entries : List (κ × α)) (state : σ) :
    visitValues body (entries.map Prod.snd) state =
      ((visitEntries body entries state).1.map Prod.snd, (visitEntries body entries state).2) := by
  induction entries generalizing state with
  | nil => rfl
  | cons entry rest ih =>
    rw [List.map_cons, visitValues, visitEntries]
    simp only
    split
    · rfl
    · rw [ih]
      rfl

theorem visit_eq (map : UnorderedMap κ α) (body : α → σ → Visit α σ) (state : σ) :
    ((map.visit body state).1.values, (map.visit body state).2) =
      visitValues body map.values state :=
  (visitValues_eq body map.entries state).symm

theorem mem_visitEntries {body : α → σ → Visit α σ} {entries : List (κ × α)} {state : σ}
    {entry : κ × α} (hmem : entry ∈ (visitEntries body entries state).1) :
    ∃ old ∈ entries, old.1 = entry.1 ∧
      (entry.2 = old.2 ∨ ∃ before, entry.2 = (body old.2 before).value) := by
  induction entries generalizing state with
  | nil => cases hmem
  | cons head rest ih =>
    rw [visitEntries] at hmem
    simp only at hmem
    split at hmem
    · rcases List.mem_cons.mp hmem with rfl | hrest
      · exact ⟨head, List.mem_cons_self, rfl, Or.inr ⟨state, rfl⟩⟩
      · exact ⟨entry, List.mem_cons_of_mem _ hrest, rfl, Or.inl rfl⟩
    · rcases List.mem_cons.mp hmem with rfl | hrest
      · exact ⟨head, List.mem_cons_self, rfl, Or.inr ⟨state, rfl⟩⟩
      · obtain ⟨old, hold, hkey, hvalue⟩ := ih hrest
        exact ⟨old, List.mem_cons_of_mem _ hold, hkey, hvalue⟩

def rewriteIf (map : UnorderedMap κ α) (select : α → Bool) (rewrite : α → α) :
    UnorderedMap κ α where
  entries := map.entries.map fun entry =>
    (entry.1, if select entry.2 then rewrite entry.2 else entry.2)
  nodup := by
    rw [List.map_map]
    exact map.nodup

theorem values_rewriteIf (map : UnorderedMap κ α) (select : α → Bool) (rewrite : α → α) :
    (map.rewriteIf select rewrite).values = rewriteWhere select rewrite map.values := by
  simp only [values, rewriteIf, rewriteWhere, List.map_map]
  rfl

def countingBody (select : α → Bool) (rewrite : α → α) (value : α) (count : Int) :
    Visit α Int :=
  if select value then ⟨rewrite value, count + 1, false⟩ else ⟨value, count, false⟩

theorem visit_countingBody (map : UnorderedMap κ α) (select : α → Bool) (rewrite : α → α)
    (count : Int) :
    map.visit (countingBody select rewrite) count =
      (map.rewriteIf select rewrite, count + map.values.countP select) := by
  have hloop : ∀ (entries : List (κ × α)) (count : Int),
      visitEntries (countingBody select rewrite) entries count =
        (entries.map (fun entry =>
            (entry.1, if select entry.2 then rewrite entry.2 else entry.2)),
          count + (entries.map Prod.snd).countP select) := by
    intro entries
    induction entries with
    | nil => intro count; simp [visitEntries]
    | cons entry rest ih =>
      intro count
      cases hselect : select entry.2 with
      | true =>
        simp only [visitEntries, countingBody, hselect, if_true, Bool.false_eq_true,
          if_false, ih, List.map_cons, List.countP_cons, Prod.mk.injEq, true_and]
        omega
      | false =>
        simp [visitEntries, countingBody, hselect, ih]
  have hentries := hloop map.entries count
  refine Prod.ext (ext ?_) ?_
  · change (visitEntries _ _ _).1 = _
    rw [hentries]
    rfl
  · change (visitEntries _ _ _).2 = _
    rw [hentries]
    rfl

end UnorderedMap

end Foundation
