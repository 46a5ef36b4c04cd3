import AwsMock.ApiGateway.Documents
import AwsMock.ApiGateway.Listings
import AwsMock.Lambdas.Counters
import AwsMock.S3.Entity

/-! # Sorting by several columns

The repositories in memory sort once for every column, in the order in which the columns are asked
for, and `std::sort` keeps no order among equals. So the last sort alone decides.
-/

namespace AwsMock.Listings

open Foundation StringUtils Lambdas.Entity.Counters
open ApiGateway.Listings (ApiKey)
open ApiGateway.Entity (RestApi)
open Lambdas.Entity (Lambda)

variable {α : Type}

/-! ## Sorts in a row -/

abbrev Comparator (α : Type) := α → α → Bool

/-- What may come of `order_by`: anything that `std::sort` promises. -/
def OrderBy (comp : Comparator α) (xs ys : List α) : Prop :=
  StrictWeakOn comp xs → ys.Perm xs ∧ ys.Pairwise fun x y => comp y x = false

def OrderByAll : List (Comparator α) → List α → List α → Prop
  | [], xs, ys => ys = xs
  | comp :: comps, xs, ys => ∃ zs, OrderBy comp xs zs ∧ OrderByAll comps zs ys

/-- The order that is asked for: a column decides unless the ones before it do, and columns that
are not known do not matter. -/
def before (columns : List (String × Comparator α)) : List SortColumn → Comparator α
  | [], _, _ => false
  | col :: cols, a, b =>
    match columns.lookup col.column with
    | none => before columns cols a b
    | some less =>
      let first x y := if col.sortDirection = 1 then less x y else less y x
      first a b || !first b a && before columns cols a b

/-- Every listing that may come out has what is to be listed, in this order. -/
def ListsInOrder (lists : List α → Prop) (listed : List α) (order : Comparator α) : Prop :=
  (∃ ys, lists ys) ∧
    ∀ ys, lists ys → ys.Perm listed ∧ ys.Pairwise fun x y => order y x = false

/-- The last comparator tells apart what the order does. -/
def LastDecides (comps : List (Comparator α)) (listed : List α) (order : Comparator α) : Prop :=
  ∀ a ∈ listed, ∀ b ∈ listed, order a b = true → ∃ last ∈ comps.getLast?, last a b = true

section Sorts

def StrictWeak (comp : Comparator α) : Prop := ∀ xs, StrictWeakOn comp xs

variable {comp : Comparator α} {comps : List (Comparator α)} {xs ys : List α}

theorem strictWeak_key {κ : Type} [LinearOrder κ] (key : α → κ) :
    StrictWeak fun a b => decide (key a < key b) :=
  strictWeakOn_key key

theorem StrictWeak.flip (hcomp : StrictWeak comp) : StrictWeak fun a b => comp b a := fun xs =>
  ⟨(hcomp xs).irrefl, fun x hx y hy z hz hxy hyz => (hcomp xs).trans z hz y hy x hx hyz hxy,
    fun x hx y hy z hz hxy hyx hyz hzy =>
      ((hcomp xs).tied x hx y hy z hz hyx hxy hzy hyz).symm⟩

theorem strictWeak_false : StrictWeak (α := α) fun _ _ => false := fun _ =>
  ⟨fun _ _ => rfl, fun _ _ _ _ _ _ _ h => h, fun _ _ _ _ _ _ _ _ _ _ => ⟨rfl, rfl⟩⟩

/-- A merge sort of the values in any order keeps what is before something it does not come
after. -/
theorem exists_orderBy (hcomp : StrictWeak comp) {zs : List α} (hzs : zs.Perm xs) :
    ∃ ys, OrderBy comp xs ys ∧ ys.Perm xs ∧
      ∀ a b, comp a b = false → [b, a].Sublist zs → [b, a].Sublist ys := by
  have htrans : ∀ x y z, (!comp y x) = true → (!comp z y) = true → (!comp z x) = true := by
    intro x y z hxy hyz
    rw [Bool.not_eq_true'] at hxy hyz ⊢
    exact (hcomp [x, y, z]).not_after_trans (by simp) (by simp) (by simp) hxy hyz
  have htotal : ∀ x y, (!comp y x || !comp x y) = true := by
    intro x y
    cases hxy : comp x y with
    | true => rw [(hcomp [x, y]).asymm (by simp) (by simp) hxy]; rfl
    | false => rw [Bool.not_false, Bool.or_true]
  have hperm := (List.mergeSort_perm zs fun x y => !comp y x).trans hzs
  refine ⟨_, fun _ => ⟨hperm, ?_⟩, hperm, fun a b hab hsub => ?_⟩
  · exact (List.pairwise_mergeSort htrans htotal zs).imp fun h => Bool.not_eq_true' _ ▸ h
  · exact List.pair_sublist_mergeSort htrans htotal (by rw [hab]; rfl) hsub

theorem OrderByAll.sorted (hcomps : ∀ comp ∈ comps, StrictWeak comp)
    (hall : OrderByAll comps xs ys) :
    ys.Perm xs ∧ ∀ last ∈ comps.getLast?, ys.Pairwise fun x y => last y x = false := by
  induction comps generalizing xs with
  | nil =>
    subst hall
    exact ⟨.refl _, by simp⟩
  | cons comp comps ih =>
    obtain ⟨zs, hfirst, hall⟩ := hall
    obtain ⟨hperm, hsorted⟩ := hfirst (hcomps comp List.mem_cons_self xs)
    obtain ⟨hrest, hlast⟩ := ih (fun c hc => hcomps c (List.mem_cons_of_mem _ hc)) hall
    refine ⟨hrest.trans hperm, fun last hmem => ?_⟩
    cases comps with
    | nil =>
      obtain rfl := Option.some.inj hmem
      subst hall
      exact hsorted
    | cons next comps => exact hlast last (List.getLast?_cons_cons ▸ hmem)

theorem exists_orderByAll (hcomps : ∀ comp ∈ comps, StrictWeak comp) (xs : List α) :
    ∃ ys, OrderByAll comps xs ys := by
  induction comps generalizing xs with
  | nil => exact ⟨xs, rfl⟩
  | cons comp comps ih =>
    obtain ⟨zs, hzs, -⟩ := exists_orderBy (hcomps comp List.mem_cons_self) (.refl xs)
    obtain ⟨ys, hys⟩ := ih (fun c hc => hcomps c (List.mem_cons_of_mem _ hc)) zs
    exact ⟨ys, zs, hzs, hys⟩

/-- What the last sort does not put in order may come out the other way round. -/
theorem exists_orderByAll_of_last {last : Comparator α} (hlast : last ∈ comps.getLast?)
    (hcomps : ∀ comp ∈ comps, StrictWeak comp) {a b : α} (hab : last a b = false)
    (hxs : [b, a].Subperm xs) : ∃ ys, OrderByAll comps xs ys ∧ [b, a].Sublist ys := by
  induction comps generalizing xs with
  | nil => cases hlast
  | cons comp comps ih =>
    have hcomp := hcomps comp List.mem_cons_self
    cases comps with
    | nil =>
      -- a sort may begin with any permutation, and keeps what is not out of order
      obtain rfl := Option.some.inj hlast
      obtain ⟨zs, hzs, hsub⟩ := hxs
      obtain ⟨rest, hrest⟩ := hsub.exists_perm_append
      obtain ⟨ys, hys, -, hkeep⟩ :=
        exists_orderBy hcomp ((hzs.symm.append_right rest).trans hrest.symm)
      exact ⟨ys, ⟨ys, hys, rfl⟩, hkeep a b hab (List.sublist_append_left _ _)⟩
    | cons next comps =>
      obtain ⟨zs, hzs, hperm, -⟩ := exists_orderBy hcomp (.refl xs)
      obtain ⟨ys, hys, hsub⟩ := ih (List.getLast?_cons_cons ▸ hlast)
        (fun c hc => hcomps c (List.mem_cons_of_mem _ hc)) (hperm.subperm_left.2 hxs)
      exact ⟨ys, ⟨zs, hzs, hys⟩, hsub⟩

/-- All listings keep an order exactly when the last comparator tells apart what it does. -/
theorem listsInOrder_iff {order : Comparator α} {p : α → Bool} {lists : List α → Prop}
    (hlists : ∀ ys, lists ys ↔ ∃ zs, OrderByAll comps xs zs ∧ ys = zs.filter p)
    (hcomps : ∀ comp ∈ comps, StrictWeak comp) (hirrefl : ∀ a, order a a = false)
    (hnone : comps = [] → ∀ a b, order a b = false) :
    ListsInOrder lists (xs.filter p) order ↔ LastDecides comps (xs.filter p) order := by
  constructor
  · intro hlist a ha b hb hab
    cases hlast : comps.getLast? with
    | none => exact absurd hab (by rw [hnone (List.getLast?_eq_none_iff.1 hlast) a b]; simp)
    | some last =>
      refine ⟨last, rfl, Bool.of_not_eq_false fun hnot => ?_⟩
      have hne : b ≠ a := by
        rintro rfl
        rw [hirrefl b] at hab
        cases hab
      rw [List.mem_filter] at ha hb
      -- what the last sort leaves alone can be listed in the wrong order
      have hmem : [b, a] ⊆ xs := by simp [ha.1, hb.1]
      obtain ⟨zs, hzs, hsub⟩ := exists_orderByAll_of_last hlast hcomps hnot
        (List.subperm_of_subset (List.nodup_cons.2 ⟨by simpa using hne, List.nodup_singleton a⟩)
          hmem)
      have hfilter := hsub.filter p
      rw [List.filter_cons_of_pos hb.2, List.filter_cons_of_pos ha.2, List.filter_nil] at hfilter
      have hsorted := (hlist.2 _ ((hlists _).2 ⟨zs, hzs, rfl⟩)).2.sublist hfilter
      rw [List.pairwise_pair, hab] at hsorted
      cases hsorted
  · intro hdecides
    obtain ⟨zs, hzs⟩ := exists_orderByAll hcomps xs
    refine ⟨⟨_, (hlists _).2 ⟨zs, hzs, rfl⟩⟩, fun ys hys => ?_⟩
    obtain ⟨zs, hzs, rfl⟩ := (hlists _).1 hys
    obtain ⟨hperm, hlast⟩ := hzs.sorted hcomps
    have hfilter := hperm.filter p
    refine ⟨hfilter, ?_⟩
    cases hmem : comps.getLast? with
    | none =>
      have hfalse := hnone (List.getLast?_eq_none_iff.1 hmem)
      exact List.pairwise_iff_forall_sublist.2 fun _ => hfalse _ _
    | some last =>
      refine ((hlast last hmem).filter p).imp_of_mem fun {x y} hx hy hnot => ?_
      rw [← Bool.not_eq_true]
      intro hyx
      obtain ⟨last', hlast', htrue⟩ := hdecides y (hfilter.subset hy) x (hfilter.subset hx) hyx
      rw [Option.some.inj (hmem.symm.trans hlast'), htrue] at hnot
      cases hnot

theorem listsInOrder_iff_of_filtered {order : Comparator α}
    (hcomps : ∀ comp ∈ comps, StrictWeak comp) (hirrefl : ∀ a, order a a = false)
    (hnone : comps = [] → ∀ a b, order a b = false) :
    ListsInOrder (OrderByAll comps xs) xs order ↔ LastDecides comps xs order := by
  have hiff : ListsInOrder (OrderByAll comps xs) (xs.filter fun _ => true) order ↔ _ :=
    listsInOrder_iff (fun ys => by simp) hcomps hirrefl hnone
  rwa [List.filter_true] at hiff

end Sorts

/-! ## The repositories -/

def hasPrefix (namePrefix name : String) : Bool := namePrefix = "" || startsWith name namePrefix

def selected (region name : α → String) (items : List α) (inRegion namePrefix : String) : List α :=
  items.filter fun item =>
    (inRegion = "" || region item = inRegion) && hasPrefix namePrefix (name item)

def bucketBefore (col : SortColumn) (a b : S3.Bucket) : Bool :=
  if col.column = "name" then
    if col.sortDirection = 1 then decide (a.name < b.name) else decide (b.name < a.name)
  else if col.column = "size" then
    if col.sortDirection = 1 then decide (a.size < b.size) else decide (b.size < a.size)
  else if col.column = "keys" then
    if col.sortDirection = 1 then decide (a.keys < b.keys) else decide (b.keys < a.keys)
  else false

def selectedBuckets : List S3.Bucket → String → String → List S3.Bucket :=
  selected (·.region) (·.name)

/-- What `listBuckets` may give before a part is cut out of it. -/
def ListBuckets (buckets : List S3.Bucket) (region namePrefix : String)
    (sortColumns : List SortColumn) : List S3.Bucket → Prop :=
  OrderByAll (sortColumns.map bucketBefore) (selectedBuckets buckets region namePrefix)

/-- The comparators of the API gateway, whatever the directions. -/
def counterComparators (id name : α → String) (sortColumns : List SortColumn) :
    List (Comparator α) :=
  sortColumns.flatMap fun sc =>
    (if sc.column = "id" then [fun a b => decide (id a < id b)] else []) ++
      if sc.column = "name" then [fun a b => decide (name a < name b)] else []

def ListCounters (id name : α → String) (items : List α) (namePrefix : String)
    (sortColumns : List SortColumn) (ys : List α) : Prop :=
  ∃ zs, OrderByAll (counterComparators id name sortColumns) items zs ∧
    ys = zs.filter fun item => hasPrefix namePrefix (name item)

def ListApiKeyCounters : List ApiKey → String → List SortColumn → List ApiKey → Prop :=
  ListCounters (·.id) (·.name)

def ListRestApiCounters : List RestApi → String → List SortColumn → List RestApi → Prop :=
  ListCounters (·.id) (·.name)

def lambdaComparators (sortColumns : List SortColumn) : List (Comparator Lambda) :=
  (fun a b => decide (a.oid < b.oid)) :: sortColumns.flatMap fun sc =>
    if sc.column = "name" then [fun a b => decide (a.function < b.function)] else []

def selectedLambdas : List Lambda → String → String → List Lambda :=
  selected (·.region) (·.function)

def ListLambdaCounters (lambdas : List Lambda) (region namePrefix : String)
    (sortColumns : List SortColumn) : List Lambda → Prop :=
  OrderByAll (lambdaComparators sortColumns) (selectedLambdas lambdas region namePrefix)

/-! ## The order of the listings -/

def bucketColumns : List (String × Comparator S3.Bucket) :=
  [("name", fun a b => decide (a.name < b.name)), ("size", fun a b => decide (a.size < b.size)),
    ("keys", fun a b => decide (a.keys < b.keys))]

def counterColumns (id name : α → String) : List (String × Comparator α) :=
  [("id", fun a b => decide (id a < id b)), ("name", fun a b => decide (name a < name b))]

def lambdaColumns : List (String × Comparator Lambda) :=
  [("name", fun a b => decide (a.function < b.function))]

section Orders

variable {columns : List (String × Comparator α)} {cols : List SortColumn}

theorem decide_lt_self {κ : Type} [LinearOrder κ] (key : κ) : decide (key < key) = false :=
  decide_eq_false (lt_irrefl key)

theorem before_irrefl (a : α) (hcolumns : ∀ column ∈ columns, column.2 a a = false)
    (cols : List SortColumn) : before columns cols a a = false := by
  induction cols with
  | nil => rfl
  | cons col cols ih =>
    rw [before]
    cases hcol : columns.lookup col.column with
    | none => exact ih
    | some less =>
      obtain ⟨front, rest, heq, -⟩ := List.lookup_eq_some_iff.1 hcol
      have hmem : (col.column, less) ∈ columns := by simp [heq]
      have hsame : less a a = false := hcolumns _ hmem
      simp only [hsame, ih, ite_self, Bool.and_false, Bool.or_false]

theorem before_of_unknown (hcols : ∀ col ∈ cols, columns.lookup col.column = none) (a b : α) :
    before columns cols a b = false := by
  induction cols with
  | nil => rfl
  | cons col cols ih =>
    rw [before, hcols col List.mem_cons_self]
    exact ih fun c hc => hcols c (List.mem_cons_of_mem _ hc)

theorem strictWeak_bucketBefore (col : SortColumn) : StrictWeak (bucketBefore col) := by
  have hdirected {κ : Type} [LinearOrder κ] (key : S3.Bucket → κ) :
      StrictWeak fun a b => if col.sortDirection = 1 then decide (key a < key b)
        else decide (key b < key a) := by
    split
    · exact strictWeak_key key
    · exact (strictWeak_key key).flip
  change StrictWeak fun a b => bucketBefore col a b
  unfold bucketBefore
  split
  · exact hdirected (·.name)
  split
  · exact hdirected (·.size)
  split
  · exact hdirected (·.keys)
  · exact strictWeak_false

theorem strictWeak_counterComparators {id name : α → String} {comp : Comparator α}
    (hcomp : comp ∈ counterComparators id name cols) : StrictWeak comp := by
  obtain ⟨sc, -, hsc⟩ := List.mem_flatMap.1 hcomp
  rcases List.mem_append.1 hsc with hid | hname
  · split at hid
    · rw [List.mem_singleton.1 hid]
      exact strictWeak_key id
    · cases hid
  · split at hname
    · rw [List.mem_singleton.1 hname]
      exact strictWeak_key name
    · cases hname

theorem strictWeak_lambdaComparators {comp : Comparator Lambda}
    (hcomp : comp ∈ lambdaComparators cols) : StrictWeak comp := by
  rcases List.mem_cons.1 hcomp with rfl | hmem
  · exact strictWeak_key _
  · obtain ⟨sc, -, hsc⟩ := List.mem_flatMap.1 hmem
    split at hsc
    · rw [List.mem_singleton.1 hsc]
      exact strictWeak_key _
    · cases hsc

theorem listBuckets_iff (buckets : List S3.Bucket) (region namePrefix : String)
    (cols : List SortColumn) :
    ListsInOrder (ListBuckets buckets region namePrefix cols)
        (selectedBuckets buckets region namePrefix) (before bucketColumns cols) ↔
      LastDecides (cols.map bucketBefore) (selectedBuckets buckets region namePrefix)
        (before bucketColumns cols) := by
  refine listsInOrder_iff_of_filtered ?_ (fun a => before_irrefl a ?_ cols) ?_
  · intro comp hcomp
    obtain ⟨col, -, rfl⟩ := List.mem_map.1 hcomp
    exact strictWeak_bucketBefore col
  · simp only [bucketColumns, List.forall_mem_cons, decide_lt_self, true_and]
    exact fun _ hmem => absurd hmem List.not_mem_nil
  · intro hnil
    rw [List.map_eq_nil_iff.1 hnil]
    exact fun _ _ => rfl

theorem listCounters_iff (id name : α → String) (items : List α) (namePrefix : String)
    (cols : List SortColumn) :
    ListsInOrder (ListCounters id name items namePrefix cols)
        (items.filter fun item => hasPrefix namePrefix (name item))
        (before (counterColumns id name) cols) ↔
      LastDecides (counterComparators id name cols)
        (items.filter fun item => hasPrefix namePrefix (name item))
        (before (counterColumns id name) cols) := by
  refine listsInOrder_iff (fun ys => Iff.rfl) (fun comp => strictWeak_counterComparators)
    (fun a => before_irrefl a ?_ cols)
    fun hnil a b => before_of_unknown ?_ a b
  · simp only [counterColumns, List.forall_mem_cons, decide_lt_self, true_and]
    exact fun _ hmem => absurd hmem List.not_mem_nil
  intro col hcol
  have hnone := List.flatMap_eq_nil_iff.1 hnil col hcol
  by_cases hid : col.column = "id"
  · simp [hid] at hnone
  by_cases hname : col.column = "name"
  · simp [hname] at hnone
  · simp only [counterColumns, List.lookup_cons, beq_eq_false_iff_ne.2 hid,
      beq_eq_false_iff_ne.2 hname, List.lookup_nil]

/-- A listing is sorted by all columns exactly when the last sort alone does it. -/
theorem listings_in_order_iff (buckets : List S3.Bucket) (keys : List ApiKey)
    (apis : List RestApi) (lambdas : List Lambda) (region namePrefix : String)
    (cols : List SortColumn) :
    (ListsInOrder (ListBuckets buckets region namePrefix cols)
        (selectedBuckets buckets region namePrefix) (before bucketColumns cols) ↔
      LastDecides (cols.map bucketBefore) (selectedBuckets buckets region namePrefix)
        (before bucketColumns cols)) ∧
    (ListsInOrder (ListApiKeyCounters keys namePrefix cols)
        (keys.filter (hasPrefix namePrefix ·.name)) (before (counterColumns (·.id) (·.name)) cols) ↔
      LastDecides (counterComparators (·.id) (·.name) cols)
        (keys.filter (hasPrefix namePrefix ·.name))
        (before (counterColumns (·.id) (·.name)) cols)) ∧
    (ListsInOrder (ListRestApiCounters apis namePrefix cols)
        (apis.filter (hasPrefix namePrefix ·.name)) (before (counterColumns (·.id) (·.name)) cols) ↔
      LastDecides (counterComparators (·.id) (·.name) cols)
        (apis.filter (hasPrefix namePrefix ·.name))
        (before (counterColumns (·.id) (·.name)) cols)) ∧
    (ListsInOrder (ListLambdaCounters lambdas region namePrefix cols)
        (selectedLambdas lambdas region namePrefix) (before lambdaColumns cols) ↔
      LastDecides (lambdaComparators cols) (selectedLambdas lambdas region namePrefix)
        (before lambdaColumns cols)) := by
  refine ⟨listBuckets_iff buckets region namePrefix cols,
    listCounters_iff _ _ keys namePrefix cols, listCounters_iff _ _ apis namePrefix cols, ?_⟩
  exact listsInOrder_iff_of_filtered (fun comp => strictWeak_lambdaComparators)
    (fun a => before_irrefl a (by simp only [lambdaColumns, List.mem_singleton, forall_eq,
      decide_lt_self]) cols)
    fun hnil => absurd hnil (List.cons_ne_nil _ _)

/-- Sorted by name and then by size, the smaller bucket comes first. -/
theorem not_listBuckets_in_order :
    ∃ buckets : List S3.Bucket,
      ¬ListsInOrder (ListBuckets buckets "" "" [⟨"name", 1⟩, ⟨"size", 1⟩])
        (selectedBuckets buckets "" "") (before bucketColumns [⟨"name", 1⟩, ⟨"size", 1⟩]) := by
  refine ⟨[{ name := "a", size := 2, created := 0, modified := 0 },
    { name := "b", size := 1, created := 0, modified := 0 }], fun hlists => ?_⟩
  obtain ⟨last, hlast, htrue⟩ := (listBuckets_iff _ _ _ _).1 hlists
    { name := "a", size := 2, created := 0, modified := 0 } (by decide)
    { name := "b", size := 1, created := 0, modified := 0 } (by decide) (by decide)
  obtain rfl := Option.some.inj hlast
  exact absurd htrue (by decide)

end Orders

end AwsMock.Listings
