import AwsMock.Foundation.Paging
import Mathlib.Data.String.Basic

/-! # API keys page by page, and counts beside their listings

`getApiKeys` reads the position of the next page from its keys. The counts of REST APIs and usage
plans have filters of their own.
-/

namespace AwsMock.ApiGateway.Listings

open Foundation

inductive Backend where
  | memory
  | mongo
deriving DecidableEq

structure ApiKey where
  id : String
  name : String
  customerId : String

/-- What is asked of a repository. In MongoDB, names are matched by a regular expression that begins
with the text. -/
structure Search where
  backend : Backend
  matchesAtStart : String → String → Bool
  keys : List ApiKey
  nameQuery : String
  customerId : String
  limit : Int

namespace Search

variable (search : Search)

def hasName (key : ApiKey) : Bool :=
  search.nameQuery = "" || match search.backend with
    | .memory => key.name = search.nameQuery
    | .mongo => search.matchesAtStart search.nameQuery key.name

def hasCustomer (key : ApiKey) : Bool :=
  search.customerId = "" || key.customerId = search.customerId

def sorted : List ApiKey := search.keys.mergeSort fun left right => left.id ≤ right.id

/-- `listApiKeys`: in memory the limit is not used, in MongoDB the customer is not. -/
def listApiKeys (position : String) : List ApiKey :=
  let found := search.sorted.filter fun key => search.hasName key &&
    (search.backend = .mongo || search.hasCustomer key) && (position = "" || position < key.id)
  if search.backend = .mongo ∧ 0 < search.limit then found.take search.limit.toNat else found

/-- `getApiKeys`: the page and the position of the next one, which is read behind the end of the
keys when there are several. -/
def getApiKeys (position : String) : Option (List ApiKey × String) :=
  match search.listApiKeys position with
  | [] => some ([], "")
  | [key] => some ([key], key.id)
  | _ => none

inductive Follows : String → List (List ApiKey) → Prop where
  | empty {position next : String} (hpage : search.getApiKeys position = some ([], next)) :
      Follows position []
  | page {position next : String} {page : List ApiKey} {pages : List (List ApiKey)}
      (hpage : search.getApiKeys position = some (page, next)) (hkeys : page ≠ [])
      (hpages : Follows next pages) : Follows position (page :: pages)

def matching : List ApiKey :=
  search.sorted.filter fun key => search.hasName key && search.hasCustomer key

/-- Following the positions shows every matching key once, in order, on pages of the size. -/
def ListsKeys : Prop :=
  ∃ pages, search.Follows "" pages ∧ pages.flatten = search.matching ∧
    ∀ page ∈ pages, (page.length : Int) ≤ search.limit

/-- The customer does not matter where it is not used, ids are not empty, and every page has one
key. -/
structure HasSinglePages : Prop where
  customer : search.backend = .mongo → ∀ key ∈ search.keys, search.hasName key = true →
    search.hasCustomer key = true
  ids : ∀ key ∈ search.matching, key.id ≠ ""
  single : search.matching.length ≤ 1 ∨ search.backend = .mongo ∧ search.limit = 1

def found : List ApiKey :=
  search.sorted.filter fun key => search.hasName key &&
    (search.backend = .mongo || search.hasCustomer key)

def after (position : String) : List ApiKey :=
  search.found.filter fun key => position = "" || position < key.id

variable {search} {position : String}

theorem listApiKeys_eq (position : String) :
    search.listApiKeys position = if search.backend = .mongo ∧ 0 < search.limit then
      (search.after position).take search.limit.toNat else search.after position := by
  rw [after, found, List.filter_filter]
  simp only [listApiKeys, Bool.and_comm (decide (position = "") || _)]

theorem after_empty : search.after "" = search.found := by simp [after]

theorem found_eq_matching_iff : search.found = search.matching ↔
    (search.backend = .mongo → ∀ key ∈ search.keys, search.hasName key = true →
      search.hasCustomer key = true) := by
  have hmem (key : ApiKey) : key ∈ search.sorted ↔ key ∈ search.keys := List.mem_mergeSort
  constructor
  · intro heq hmongo key hkey hname
    have hfound : key ∈ search.found :=
      List.mem_filter.mpr ⟨(hmem key).mpr hkey, by simp [hname, hmongo]⟩
    rw [heq, matching, List.mem_filter, Bool.and_eq_true] at hfound
    exact hfound.2.2
  · intro hcustomer
    refine List.filter_congr fun key hkey => ?_
    cases hname : search.hasName key with
    | false => rfl
    | true =>
      by_cases hmongo : search.backend = .mongo
      · simp [hmongo, hcustomer hmongo key ((hmem key).mp hkey) hname]
      · simp [hmongo]

def ShowsOne (search : Search) : Prop :=
  ∀ position, search.listApiKeys position = (search.after position).take 1

theorem showsOne (hsingle : search.found.length ≤ 1 ∨
    search.backend = .mongo ∧ search.limit = 1) : search.ShowsOne := by
  intro position
  rw [listApiKeys_eq]
  rcases hsingle with hlength | ⟨hmongo, hlimit⟩
  · have hle : (search.after position).length ≤ 1 := List.filter_sublist.length_le.trans hlength
    rw [List.take_of_length_le hle]
    split
    next hboth => exact List.take_of_length_le (hle.trans (by omega))
    next => rfl
  · rw [if_pos ⟨hmongo, by omega⟩, hlimit]
    rfl

theorem listApiKeys_of_get {next : String} {page : List ApiKey}
    (hpage : search.getApiKeys position = some (page, next)) :
    search.listApiKeys position = page ∧ ∀ key rest, page = key :: rest → rest = [] ∧ next = key.id := by
  rw [getApiKeys] at hpage
  split at hpage
  next hlist =>
    cases hpage
    exact ⟨hlist, nofun⟩
  next key hlist =>
    cases hpage
    refine ⟨hlist, fun other rest heq => ?_⟩
    cases heq
    exact ⟨rfl, rfl⟩
  next => cases hpage

theorem Follows.single (hlimit : 0 < search.limit) {pages : List (List ApiKey)}
    (hfollows : search.Follows "" pages) :
    search.found.length ≤ 1 ∨ search.backend = .mongo ∧ search.limit = 1 := by
  have hlist : search.listApiKeys "" = _ := listApiKeys_eq ""
  rw [after_empty] at hlist
  cases hfound : search.found with
  | nil => exact Or.inl (Nat.zero_le 1)
  | cons key rest =>
    obtain ⟨limit, hsize⟩ : ∃ limit, search.limit.toNat = limit + 1 :=
      ⟨search.limit.toNat - 1, by omega⟩
    rw [hfound, hsize, List.take_succ_cons, ← apply_ite (List.cons key)] at hlist
    cases hfollows with
    | empty hpage => cases hlist.symm.trans (listApiKeys_of_get hpage).1
    | page hpage =>
      obtain ⟨hshown, hnext⟩ := listApiKeys_of_get hpage
      obtain ⟨hothers, -⟩ := hnext _ _ (hshown.symm.trans hlist)
      split at hothers
      next hboth =>
        rcases List.take_eq_nil_iff.mp hothers with rfl | rfl
        · exact Or.inr ⟨hboth.1, by omega⟩
        · exact Or.inl (Nat.le_refl 1)
      next =>
        subst hothers
        exact Or.inl (Nat.le_refl 1)

variable (hids : (search.keys.map ApiKey.id).Nodup)
include hids

theorem pairwise_found :
    search.found.Pairwise fun left right => left.id < right.id := by
  have hle : search.sorted.Pairwise fun left right => left.id ≤ right.id := by
    refine (List.pairwise_mergeSort (fun a b c hab hbc => ?_) (fun a b => ?_) _).imp
      of_decide_eq_true
    · exact decide_eq_true ((of_decide_eq_true hab).trans (of_decide_eq_true hbc))
    · simpa using le_total a.id b.id
  have hne : (search.sorted.map ApiKey.id).Nodup :=
    ((List.mergeSort_perm _ _).map ApiKey.id).nodup_iff.mpr hids
  exact ((hle.and (List.pairwise_map.mp hne)).imp fun h => lt_of_le_of_ne h.1 h.2).filter _

theorem after_id {key : ApiKey} {rest : List ApiKey} (hafter : search.after position = key :: rest)
    (hid : key.id ≠ "") : search.after key.id = rest := by
  have hsorted : (key :: rest).Pairwise fun left right => left.id < right.id := by
    rw [← hafter]
    exact (pairwise_found hids).filter _
  have hkey : key ∈ search.after position := by
    rw [hafter]
    exact List.mem_cons_self
  have hfilter : search.after key.id =
      (search.after position).filter fun other => decide (key.id < other.id) := by
    rw [after, after, List.filter_filter]
    refine List.filter_congr fun other _ => ?_
    have hposition := (List.mem_filter.mp hkey).2
    simp only [Bool.or_eq_true, decide_eq_true_eq] at hposition
    rw [Bool.eq_iff_iff]
    simp only [hid, decide_false, Bool.false_or, Bool.and_eq_true, Bool.or_eq_true,
      decide_eq_true_eq]
    exact ⟨fun hlt => ⟨hlt, hposition.imp_right hlt.trans'⟩, And.left⟩
  rw [hfilter, hafter, List.filter_cons_of_neg (by simp)]
  exact List.filter_eq_self.mpr fun other hother =>
    decide_eq_true ((List.pairwise_cons.mp hsorted).1 other hother)

theorem follows_after (hone : search.ShowsOne) {keys : List ApiKey} (hafter : search.after position = keys)
    (hnonempty : ∀ key ∈ keys, key.id ≠ "") : search.Follows position (keys.map fun key => [key]) := by
  induction keys generalizing position with
  | nil =>
    refine .empty (?_ : search.getApiKeys position = some ([], ""))
    rw [getApiKeys, hone, hafter]
    rfl
  | cons key rest ih =>
    have hid := hnonempty key List.mem_cons_self
    refine .page (?_ : search.getApiKeys position = some ([key], key.id)) (List.cons_ne_nil _ _)
      (ih (after_id hids hafter hid) fun other hother => hnonempty other (List.mem_cons_of_mem _ hother))
    rw [getApiKeys, hone, hafter]
    rfl

theorem Follows.shows (hone : search.ShowsOne) {pages : List (List ApiKey)}
    (hfollows : search.Follows position pages) :
    pages.flatten = search.after position ∧ ∀ key ∈ search.after position, key.id ≠ "" := by
  induction hfollows with
  | @empty position next hpage =>
    have hlist := (hone position).symm.trans (listApiKeys_of_get hpage).1
    rw [(List.take_eq_nil_iff.mp hlist).resolve_left Nat.one_ne_zero]
    exact ⟨rfl, nofun⟩
  | @page position next page pages hpage hkeys _ ih =>
    obtain ⟨hshown, hnext⟩ := listApiKeys_of_get hpage
    have hpage := hshown.symm.trans (hone position)
    cases hafter : search.after position with
    | nil =>
      rw [hafter] at hpage
      exact absurd hpage hkeys
    | cons key rest =>
      rw [hafter] at hpage
      obtain rfl : page = [key] := hpage
      obtain ⟨-, rfl⟩ := hnext key [] rfl
      have hid : key.id ≠ "" := by
        intro hempty
        rw [hempty, after_empty] at ih
        have hmem : key ∈ search.after position := by
          rw [hafter]
          exact List.mem_cons_self
        exact ih.2 key (List.mem_of_mem_filter hmem) hempty
      rw [after_id hids hafter hid] at ih
      exact ⟨congrArg (key :: ·) ih.1, List.forall_mem_cons.mpr ⟨hid, ih.2⟩⟩

theorem listsKeys_iff (hlimit : 0 < search.limit) : search.ListsKeys ↔ search.HasSinglePages := by
  constructor
  · rintro ⟨pages, hfollows, hflatten, -⟩
    have hsingle := hfollows.single hlimit
    obtain ⟨hall, hnonempty⟩ := hfollows.shows hids (showsOne hsingle)
    rw [after_empty] at hall hnonempty
    have hsame := hall.symm.trans hflatten
    rw [hsame] at hnonempty hsingle
    exact ⟨found_eq_matching_iff.mp hsame, hnonempty, hsingle⟩
  · rintro ⟨hcustomer, hnonempty, hsingle⟩
    have hsame := found_eq_matching_iff.mpr hcustomer
    rw [← hsame] at hnonempty hsingle
    refine ⟨_, follows_after hids (showsOne hsingle) after_empty hnonempty, ?_, fun page hpage => ?_⟩
    · rw [← hsame]
      exact List.flatMap_singleton' _
    · obtain ⟨key, -, rfl⟩ := List.mem_map.mp hpage
      exact hlimit

end Search

/-! ## Counts -/

/-- What listings and counts read of a REST API or a usage plan. -/
structure Entry where
  region : String
  name : String

/-- The entries of a repository, in the order of the listing, and what is asked for. -/
structure Listing where
  backend : Backend
  matchesAtStart : String → String → Bool
  entries : List Entry
  region : String
  namePrefix : String

namespace Listing

variable (listing : Listing)

def beginsWith (text : String) (entry : Entry) : Bool :=
  match listing.backend with
  | .memory => text.toList.isPrefixOf entry.name.toList
  | .mongo => listing.matchesAtStart text entry.name

def hasPrefix (entry : Entry) : Bool :=
  listing.namePrefix = "" || listing.beginsWith listing.namePrefix entry

def inRegion (entry : Entry) : Bool :=
  listing.region = "" || entry.region = listing.region

/-- `listRestApiCounters` and `listUsagePlanCounters`: the region is not used. -/
def listCounters (pageSize pageIndex : Int) : List Entry :=
  page pageSize pageIndex (listing.entries.filter listing.hasPrefix)

/-- `countUsagePlans`. -/
def countUsagePlans : Nat :=
  listing.entries.countP fun entry => listing.hasPrefix entry && listing.inRegion entry

/-- `countRestApis`: in memory, names are compared with the region in place of the prefix. -/
def countRestApis : Nat :=
  match listing.backend with
  | .memory => listing.entries.countP fun entry => listing.inRegion entry &&
      (listing.namePrefix = "" || listing.beginsWith listing.region entry)
  | .mongo => listing.countUsagePlans

/-- The total is the number of entries on all pages, however large they are. -/
def Totals (total : Nat) : Prop :=
  ∀ pageSize > 0, ∃ enough, ∀ count ≥ enough,
    total = ((List.range count).flatMap fun pageIndex : Nat =>
      listing.listCounters pageSize pageIndex).length

def IsRegional : Prop :=
  ∀ entry ∈ listing.entries, listing.hasPrefix entry = true → listing.inRegion entry = true

variable {listing}

theorem totals_iff {total : Nat} :
    listing.Totals total ↔ total = listing.entries.countP listing.hasPrefix := by
  have hall (pageSize : Int) (hsize : 0 < pageSize) (count : Nat)
      (hcount : listing.entries.countP listing.hasPrefix ≤ count) :
      ((List.range count).flatMap fun pageIndex : Nat =>
        listing.listCounters pageSize pageIndex).length =
        listing.entries.countP listing.hasPrefix := by
    have hmany : count ≤ pageSize.toNat * count := Nat.le_mul_of_pos_left _ (by omega)
    rw [List.countP_eq_length_filter] at hcount ⊢
    exact congrArg List.length ((flatMap_page hsize _ count).trans
      (List.take_of_length_le (hcount.trans hmany)))
  constructor
  · intro htotals
    obtain ⟨enough, henough⟩ := htotals 1 Int.one_pos
    rw [henough _ (Nat.le_max_left _ _), hall 1 Int.one_pos _ (Nat.le_max_right _ _)]
  · rintro rfl pageSize hsize
    exact ⟨_, fun count hcount => (hall pageSize hsize count hcount).symm⟩

theorem totals_countUsagePlans_iff :
    listing.Totals listing.countUsagePlans ↔ listing.IsRegional := by
  rw [totals_iff, countUsagePlans, List.countP_eq_length_filter, List.countP_eq_length_filter]
  simp only [Bool.and_comm (listing.hasPrefix _), ← List.filter_filter]
  rw [List.length_filter_eq_length_iff]
  exact ⟨fun hall entry hentry hbegins => hall entry (List.mem_filter.mpr ⟨hentry, hbegins⟩),
    fun hall entry hentry => hall entry (List.mem_filter.mp hentry).1 (List.mem_filter.mp hentry).2⟩

end Listing

def Listing.CountsRestApis (listing : Listing) : Prop :=
  match listing.backend with
  | .memory => (listing.entries.countP fun entry => listing.inRegion entry &&
      (listing.namePrefix = "" || listing.beginsWith listing.region entry)) =
      listing.entries.countP listing.hasPrefix
  | .mongo => listing.IsRegional

def everyKey (keys : List ApiKey) : Search := ⟨.memory, fun _ _ => true, keys, "", "", 10⟩

end AwsMock.ApiGateway.Listings
