import Mathlib.Data.List.Nodup

/-! # Entries and their counters

Entries stand under keys, and every key in use has one counter. A tally is
balanced when the counters count the entries. Opening a key, adding an entry
under an open key and closing a key with its entries keep a tally balanced.
-/

namespace Foundation

structure Tally (Key : Type*) where
  counters : List (Key × Int)
  entries : List Key

namespace Tally

variable {Key : Type*} [DecidableEq Key] (tally : Tally Key) (key : Key)

def count : Nat := tally.entries.count key

/-- Every counter counts the entries of its key, every entry has a counter, and
no key has two. -/
structure Balanced : Prop where
  counted : ∀ counter ∈ tally.counters, counter.2 = (tally.count counter.1 : Int)
  covered : ∀ entry ∈ tally.entries, entry ∈ tally.counters.map Prod.fst
  distinct : (tally.counters.map Prod.fst).Nodup

def opening : Tally Key := { tally with counters := tally.counters ++ [(key, 0)] }

def adding : Tally Key :=
  { counters := tally.counters.map fun counter =>
      if counter.1 = key then (counter.1, counter.2 + 1) else counter
    entries := tally.entries ++ [key] }

def closing : Tally Key :=
  { counters := tally.counters.filter fun counter => counter.1 ≠ key
    entries := tally.entries.filter fun entry => entry ≠ key }

theorem count_eq : tally.count key = tally.entries.countP fun entry => entry = key := rfl

variable {tally key}

theorem balanced_empty : Balanced (⟨[], []⟩ : Tally Key) where
  counted _ hcounter := absurd hcounter List.not_mem_nil
  covered _ hentry := absurd hentry List.not_mem_nil
  distinct := List.nodup_nil

theorem Balanced.opening (hbalanced : tally.Balanced)
    (hnew : key ∉ tally.counters.map Prod.fst) : (tally.opening key).Balanced where
  counted := by
    intro counter hcounter
    rcases List.mem_append.mp hcounter with hold | hadded
    · exact hbalanced.counted counter hold
    · rw [List.mem_singleton.mp hadded]
      have hnone : key ∉ tally.entries := fun hentry => hnew (hbalanced.covered key hentry)
      exact (congrArg Nat.cast (List.count_eq_zero_of_not_mem hnone)).symm
  covered := by
    intro entry hentry
    rw [Tally.opening, List.map_append]
    exact List.mem_append_left _ (hbalanced.covered entry hentry)
  distinct := by
    rw [Tally.opening, List.map_append, List.nodup_append]
    refine ⟨hbalanced.distinct, List.nodup_singleton key, ?_⟩
    intro other hother added hadded heq
    rw [List.map_singleton, List.mem_singleton] at hadded
    rw [heq, hadded] at hother
    exact hnew hother

theorem map_fst_adding : (tally.adding key).counters.map Prod.fst = tally.counters.map Prod.fst := by
  rw [adding, List.map_map]
  apply List.map_congr_left
  intro counter _
  rw [Function.comp_apply]
  split <;> rfl

variable (hbalanced : tally.Balanced)
include hbalanced

theorem Balanced.adding
    (hopen : key ∈ tally.counters.map Prod.fst) : (tally.adding key).Balanced where
  counted := by
    intro counter hcounter
    obtain ⟨old, hold, rfl⟩ := List.mem_map.mp hcounter
    have hcount := hbalanced.counted old hold
    rw [count] at hcount
    rw [count, Tally.adding, List.count_append]
    by_cases hkey : old.1 = key
    · rw [if_pos hkey]
      change old.2 + 1 = _
      rw [hcount, hkey, List.count_singleton_self]
      rfl
    · rw [if_neg hkey, List.count_eq_zero_of_not_mem fun hmem => hkey (List.mem_singleton.mp hmem)]
      exact hcount
  covered := by
    intro entry hentry
    rw [map_fst_adding]
    rcases List.mem_append.mp hentry with hold | hadded
    · exact hbalanced.covered entry hold
    · rwa [List.mem_singleton.mp hadded]
  distinct := by
    rw [map_fst_adding]
    exact hbalanced.distinct

theorem Balanced.closing : (tally.closing key).Balanced where
  counted := by
    intro counter hcounter
    obtain ⟨hold, hother⟩ := List.mem_filter.mp hcounter
    have hcount := List.count_filter (p := fun entry => decide (entry ≠ key))
      (l := tally.entries) (a := counter.1) hother
    rw [hbalanced.counted counter hold, count, ← hcount]
    rfl
  covered := by
    intro entry hentry
    obtain ⟨hold, hother⟩ := List.mem_filter.mp hentry
    obtain ⟨counter, hcounter, rfl⟩ := List.mem_map.mp (hbalanced.covered entry hold)
    exact List.mem_map_of_mem (List.mem_filter.mpr ⟨hcounter, hother⟩)
  distinct := (List.Sublist.map _ List.filter_sublist).nodup hbalanced.distinct

theorem Balanced.eq_of_recount {counters : List (Key × Int)}
    (hcounters : List.Forall₂ (fun new old => new.1 = old.1 ∧
      new.2 = (tally.count old.1 : Int)) counters tally.counters) :
    counters = tally.counters := by
  have hmem := hbalanced.counted
  generalize tally.counters = olds at hcounters hmem ⊢
  induction hcounters with
  | nil => rfl
  | @cons new old news olds hsame _ ih =>
    have hcount := hmem old List.mem_cons_self
    rw [ih fun counter hcounter => hmem counter (List.mem_cons_of_mem _ hcounter),
      Prod.ext hsame.1 (hsame.2.trans hcount.symm)]

end Tally

end Foundation
