import Mathlib.Data.Rat.Floor
import Mathlib.Data.String.Basic
import AwsMock.Foundation.Sorting
import AwsMock.Lambdas.Documents

/-! # Listings of a function's parts

The listings of the environment variables, the tags, the event sources and the instances of a
function: they are sorted by the first column that is asked for, and a page is cut out. The
comparison puts the greater value first unless the direction is `-1`; for `-1` it is `<=`, by which
nothing may be sorted.
-/

namespace AwsMock.Lambdas.Entity.Counters

open Foundation Machine

/-! ## Paging -/

/-- A `long` converted to a size. -/
def toSize (n : Int) : Nat := (n % 18446744073709551616).toNat

/-- `Core::PageVector`. A range that ends before it begins is too long for a vector. -/
def pageVector {α : Type} (vec : List α) (pageSize pageIndex : Int) : Run (List α) := do
  if pageSize ≤ 0 then .ok vec
  else
    let startIndex := min (toSize (← long (pageSize * pageIndex))) vec.length
    let endIndex := min (toSize (← long (pageSize * (← long (pageIndex + 1))))) vec.length
    if endIndex < startIndex then .error .exception
    else .ok ((vec.take endIndex).drop startIndex)

/-- The numbers of a `long`. -/
def IsLong (n : Int) : Prop := -9223372036854775808 ≤ n ∧ n < 9223372036854775808

/-- The pages that can be computed. The page before the first is only there for no values at all,
and the pages before that one are empty as long as their place is beyond the values when it is
taken as a size. -/
def IsPaged (pageSize pageIndex : Int) (length : Nat) : Prop :=
  pageSize ≤ 0 ∨
    (IsLong (pageSize * pageIndex) ∧ IsLong (pageIndex + 1) ∧ IsLong (pageSize * (pageIndex + 1))) ∧
      (0 ≤ pageIndex ∨ length = 0 ∨
        pageIndex < -1 ∧ (length : Int) ≤ 18446744073709551616 + pageSize * pageIndex)

section Paging

variable {α : Type} {vec shown : List α} {pageSize pageIndex : Int}

theorem toSize_of_nonneg {n : Int} (hnonneg : 0 ≤ n) (hlong : IsLong n) : toSize n = n.toNat := by
  have hupper := hlong.2
  rw [toSize, Int.emod_eq_of_lt hnonneg (by omega)]

theorem toSize_of_neg {n : Int} (hneg : n < 0) (hlong : IsLong n) :
    (toSize n : Int) = 18446744073709551616 + n := by
  have hlower := hlong.1
  rw [toSize, ← Int.add_emod_right, Int.emod_eq_of_lt (by omega) (by omega)]
  omega

theorem long_of_isLong {n : Int} (hlong : IsLong n) : long n = .ok n :=
  long_eq_ok.mpr ⟨hlong, rfl⟩

theorem drop_min_take_min (vec : List α) (start stop : Nat) :
    (vec.take (min stop vec.length)).drop (min start vec.length) = (vec.take stop).drop start := by
  have htake : vec.take (min stop vec.length) = vec.take stop :=
    List.take_eq_take_iff.mpr (by omega)
  rw [htake, List.drop_eq_drop_iff, List.length_take]
  omega

theorem pageVector_eq_ok_iff (hsize : ¬pageSize ≤ 0) :
    pageVector vec pageSize pageIndex = .ok shown ↔
      (IsLong (pageSize * pageIndex) ∧ IsLong (pageIndex + 1) ∧
          IsLong (pageSize * (pageIndex + 1))) ∧
        ¬min (toSize (pageSize * (pageIndex + 1))) vec.length <
            min (toSize (pageSize * pageIndex)) vec.length ∧
          (vec.take (toSize (pageSize * (pageIndex + 1)))).drop
            (toSize (pageSize * pageIndex)) = shown := by
  rw [pageVector, if_neg hsize]
  constructor
  · intro hok
    obtain ⟨_, hstart, hok⟩ := bind_eq_ok.mp hok
    obtain ⟨hstartLong, rfl⟩ := long_eq_ok.mp hstart
    obtain ⟨_, hnext, hok⟩ := bind_eq_ok.mp hok
    obtain ⟨hnextLong, rfl⟩ := long_eq_ok.mp hnext
    obtain ⟨_, hstop, hok⟩ := bind_eq_ok.mp hok
    obtain ⟨hstopLong, rfl⟩ := long_eq_ok.mp hstop
    refine ⟨⟨hstartLong, hnextLong, hstopLong⟩, ?_⟩
    dsimp only at hok
    split at hok
    next => cases hok
    next hordered =>
      rw [drop_min_take_min] at hok
      exact ⟨hordered, Except.ok.inj hok⟩
  · rintro ⟨⟨hstart, hnext, hstop⟩, hordered, rfl⟩
    rw [long_of_isLong hstart, long_of_isLong hnext]
    change (long (pageSize * (pageIndex + 1)) >>= _) = _
    rw [long_of_isLong hstop]
    change (if _ then _ else _) = _
    rw [if_neg hordered, drop_min_take_min]

theorem pageVector_of_isPaged (hpaged : IsPaged pageSize pageIndex vec.length) :
    pageVector vec pageSize pageIndex = .ok (page pageSize pageIndex vec) := by
  by_cases hsize : pageSize ≤ 0
  · rw [pageVector, if_pos hsize, page, if_pos hsize]
  · obtain ⟨hlongs, hplace⟩ := hpaged.resolve_left hsize
    refine (pageVector_eq_ok_iff hsize).mpr ⟨hlongs, ?_⟩
    obtain ⟨hstart, -, hstop⟩ := hlongs
    rw [page, if_neg hsize]
    have hstep : pageSize * (pageIndex + 1) = pageSize * pageIndex + pageSize := by
      rw [Int.mul_add, Int.mul_one]
    rcases hplace with hnonneg | hempty | ⟨hbefore, hbeyond⟩
    · have hfirst : 0 ≤ pageSize * pageIndex := Int.mul_nonneg (by omega) hnonneg
      rw [toSize_of_nonneg hfirst hstart, toSize_of_nonneg (by omega) hstop]
      exact ⟨by omega, rfl⟩
    · obtain rfl : vec = [] := List.length_eq_zero_iff.mp hempty
      simp
    · have hlast : pageSize * (pageIndex + 1) < 0 := Int.mul_neg_of_pos_of_neg (by omega) (by omega)
      have hstartSize := toSize_of_neg (by omega) hstart
      have hstopSize := toSize_of_neg hlast hstop
      refine ⟨by omega, ?_⟩
      rw [List.drop_eq_nil_of_le (by rw [List.length_take]; omega),
        List.drop_eq_nil_of_le (by rw [List.length_take]; omega)]

theorem isPaged_of_pageVector (hshown : pageVector vec pageSize pageIndex = .ok shown)
    (hlength : shown.length = (page pageSize pageIndex vec).length) :
    IsPaged pageSize pageIndex vec.length := by
  by_cases hsize : pageSize ≤ 0
  · exact .inl hsize
  · obtain ⟨hlongs, hordered, rfl⟩ := (pageVector_eq_ok_iff hsize).mp hshown
    refine .inr ⟨hlongs, ?_⟩
    obtain ⟨hstart, -, hstop⟩ := hlongs
    rw [page, if_neg hsize, List.length_drop, List.length_drop, List.length_take,
      List.length_take] at hlength
    have hstep : pageSize * (pageIndex + 1) = pageSize * pageIndex + pageSize := by
      rw [Int.mul_add, Int.mul_one]
    rcases Int.lt_trichotomy pageIndex (-1) with hbefore | rfl | hafter
    · have hlast : pageSize * (pageIndex + 1) < 0 := Int.mul_neg_of_pos_of_neg (by omega) (by omega)
      have hstartSize := toSize_of_neg (by omega) hstart
      have hstopSize := toSize_of_neg hlast hstop
      omega
    · have hstartSize := toSize_of_neg (by omega) hstart
      have hstopSize := toSize_of_nonneg (by omega) hstop
      have hlower := hstart.1
      omega
    · exact .inl (by omega)

end Paging

/-! ## Listings -/

structure SortColumn where
  column : String
  sortDirection : Int := 1

structure CountersRequest where
  sortColumns : List SortColumn
  pageSize : Int
  pageIndex : Int

structure CountersResponse (α : Type) where
  total : Int
  counters : List α

def comparator {α : Type} (key : α → String) (sortDirection : Int) (a b : α) : Bool :=
  if sortDirection = -1 then decide (key a ≤ key b) else decide (key b < key a)

/-- Sort by the first column; a column that is not known leaves the order as it is. -/
def sortByColumn {α : Type} (sorter : Sorter) (columns : List (String × (α → String)))
    (sortColumns : List SortColumn) (counters : List α) : Run (List α) :=
  match sortColumns with
  | [] => .error .exception
  | sortColumn :: _ =>
    match columns.lookup sortColumn.column with
    | some key => sorter.sort (comparator key sortColumn.sortDirection) counters
    | none => .ok counters

def listCounters {α : Type} (sorter : Sorter) (columns : List (String × (α → String)))
    (counters : List α) (request : CountersRequest) : Run (CountersResponse α) := do
  let sorted ← sortByColumn sorter columns request.sortColumns counters
  let page ← pageVector sorted request.pageSize request.pageIndex
  .ok { total := counters.length, counters := page }

/-- `getLambdaByArn`: there is an exception when the function is not found. -/
def getLambdaByArn (found : Option Lambda) : Run Lambda :=
  match found with
  | some lambda => .ok lambda
  | none => .error .exception

def entryColumns : List (String × (String × String → String)) :=
  [("key", Prod.fst), ("value", Prod.snd)]

def listLambdaEnvironmentCounters (sorter : Sorter) (found : Option Lambda)
    (request : CountersRequest) : Run (CountersResponse (String × String)) := do
  let lambda ← getLambdaByArn found
  listCounters sorter entryColumns lambda.environment.vars.toList request

def listLambdaTagCounters (sorter : Sorter) (found : Option Lambda)
    (request : CountersRequest) : Run (CountersResponse (String × String)) := do
  let lambda ← getLambdaByArn found
  listCounters sorter entryColumns lambda.tags.toList request

structure EventSourceCounter where
  type : String
  functionArn : String
  eventSourceArn : String
  batchSize : Int
  maximumBatchingWindowInSeconds : Int
  uuid : String

def mapEventSource (functionArn : String) (eventSourceMapping : EventSourceMapping) :
    EventSourceCounter where
  type := eventSourceMapping.type
  functionArn := functionArn
  eventSourceArn := eventSourceMapping.eventSourceArn
  batchSize := eventSourceMapping.batchSize
  maximumBatchingWindowInSeconds := eventSourceMapping.maximumBatchingWindowInSeconds
  uuid := eventSourceMapping.uuid

/-- `Mapper::mapCounters` -/
def mapCounters (lambda : Lambda) : List EventSourceCounter :=
  lambda.eventSources.map (mapEventSource lambda.arn)

def eventSourceColumns : List (String × (EventSourceCounter → String)) :=
  [("eventSourceArn", EventSourceCounter.eventSourceArn), ("uuid", EventSourceCounter.uuid)]

def listLambdaEventSourceCounters (sorter : Sorter) (found : Option Lambda)
    (request : CountersRequest) : Run (CountersResponse EventSourceCounter) := do
  let lambda ← getLambdaByArn found
  listCounters sorter eventSourceColumns (mapCounters lambda) request

structure InstanceCounter where
  instanceId : String
  containerId : String
  status : String
  runtimeVersion : String
  duration : Int
  hostname : String
  publicPort : Int
  privatePort : Int
  lastInvocation : Time
  lastStart : Time
  lastStop : Time

def mapInstance (instance' : Instance) : InstanceCounter where
  instanceId := instance'.instanceId
  containerId := instance'.containerId
  status := instance'.status.toString
  runtimeVersion := instance'.runtimeVersion
  duration := instance'.avgDuration.num.tdiv instance'.avgDuration.den
  hostname := instance'.hostName
  publicPort := instance'.publicPort
  privatePort := instance'.privatePort
  lastInvocation := instance'.lastInvocation
  lastStart := instance'.lastStart
  lastStop := instance'.lastStop

def instanceColumns : List (String × (InstanceCounter → String)) :=
  [("instanceId", InstanceCounter.instanceId), ("containerId", InstanceCounter.containerId),
    ("status", InstanceCounter.status)]

def listLambdaInstanceCounters (sorter : Sorter) (found : Option Lambda)
    (request : CountersRequest) : Run (CountersResponse InstanceCounter) := do
  let lambda ← getLambdaByArn found
  let instanceCounters := lambda.instances.map mapInstance
  let sorted ← if request.sortColumns.isEmpty then .ok instanceCounters
    else sortByColumn sorter instanceColumns request.sortColumns instanceCounters
  let page ← pageVector sorted request.pageSize request.pageIndex
  .ok { total := lambda.instances.length, counters := page }

/-! ## Sorted pages -/

inductive Direction where
  | ascending | descending
deriving DecidableEq

def Direction.sortDirection : Direction → Int
  | .ascending => 1
  | .descending => -1

def Direction.Keeps (direction : Direction) (first second : String) : Prop :=
  match direction with
  | .ascending => first ≤ second
  | .descending => second ≤ first

/-- A listing by a column: the comparison may be sorted by, and the page is that of the list in the
order of the direction. -/
def ListsSortedPage {α : Type} (key : α → String) (direction : Direction) (counters : List α)
    (pageSize pageIndex : Int) (listed : Run (CountersResponse α)) : Prop :=
  StrictWeakOn (comparator key direction.sortDirection) counters ∧
    ∃ response sorted, listed = .ok response ∧ sorted.Perm counters ∧
      (sorted.map key).Pairwise direction.Keeps ∧ response.counters = page pageSize pageIndex sorted

/-- There is a page, nothing is asked for in descending order, and in ascending order the keys on
the page are the same from the greatest as from the smallest. -/
def IsSameFromBothEnds {α : Type} (key : α → String) (direction : Direction) (counters : List α)
    (pageSize pageIndex : Int) : Prop :=
  IsPaged pageSize pageIndex counters.length ∧
    match direction with
    | .ascending => page pageSize pageIndex (ascending key counters).reverse =
        page pageSize pageIndex (ascending key counters)
    | .descending => counters = []

section Listing

variable {α : Type} {key : α → String} {counters : List α} {pageSize pageIndex : Int}

theorem comparator_descending (a b : α) :
    comparator key Direction.descending.sortDirection a b = decide (key a ≤ key b) := if_pos rfl

theorem comparator_ascending (a b : α) :
    comparator key Direction.ascending.sortDirection a b = decide (key b < key a) :=
  if_neg (by decide)

theorem strictWeakOn_ascending (key : α → String) (counters : List α) :
    StrictWeakOn (comparator key Direction.ascending.sortDirection) counters := by
  refine ⟨fun a _ => ?_, fun a _ b _ c _ hab hbc => ?_, fun a _ b _ c _ hab hba hbc hcb => ?_⟩
  · rw [comparator_ascending]
    exact decide_eq_false (lt_irrefl _)
  · rw [comparator_ascending, decide_eq_true_eq] at *
    exact hbc.trans hab
  · rw [comparator_ascending, decide_eq_false_iff_not, not_lt] at *
    rw [comparator_ascending, decide_eq_false_iff_not, not_lt]
    exact ⟨hab.trans hbc, hcb.trans hba⟩

theorem strictWeakOn_descending_iff :
    StrictWeakOn (comparator key Direction.descending.sortDirection) counters ↔ counters = [] := by
  constructor
  · intro hweak
    refine List.eq_nil_iff_forall_not_mem.mpr fun a ha => ?_
    have hirrefl := hweak.irrefl a ha
    rw [comparator_descending, decide_eq_false_iff_not] at hirrefl
    exact hirrefl le_rfl
  · rintro rfl
    exact StrictWeakOn.nil

theorem length_page_congr {xs ys : List α} (hlength : xs.length = ys.length) :
    (page pageSize pageIndex xs).length = (page pageSize pageIndex ys).length := by
  rw [page, page]
  split
  · exact hlength
  · rw [List.length_drop, List.length_drop, List.length_take, List.length_take, hlength]

theorem exists_page_iff {total : Int} {ys : List α} {sortedBy : List String → Prop}
    (hperm : ys.Perm counters) :
    (∃ response sorted, (do
        let page ← pageVector ys pageSize pageIndex
        .ok { total := total, counters := page } : Run (CountersResponse α)) = .ok response ∧
      sorted.Perm counters ∧ sortedBy (sorted.map key) ∧
        response.counters = page pageSize pageIndex sorted) ↔
      IsPaged pageSize pageIndex counters.length ∧
        ∃ sorted : List α, sorted.Perm counters ∧ sortedBy (sorted.map key) ∧
          page pageSize pageIndex ys = page pageSize pageIndex sorted := by
  constructor
  · rintro ⟨response, sorted, hok, hsortedPerm, hsorted, hpage⟩
    obtain ⟨shown, hshown, hresponse⟩ := bind_eq_ok.mp hok
    obtain rfl := Except.ok.inj hresponse
    obtain rfl : shown = _ := hpage
    have hpaged := isPaged_of_pageVector hshown
      (length_page_congr (hsortedPerm.trans hperm.symm).length_eq)
    rw [pageVector_of_isPaged hpaged] at hshown
    exact ⟨hperm.length_eq ▸ hpaged, sorted, hsortedPerm, hsorted, Except.ok.inj hshown⟩
  · rintro ⟨hpaged, sorted, hsortedPerm, hsorted, hpage⟩
    rw [← hperm.length_eq] at hpaged
    rw [pageVector_of_isPaged hpaged]
    exact ⟨_, sorted, rfl, hsortedPerm, hsorted, hpage⟩

theorem listsSortedPage_iff {sorter : Sorter} {direction : Direction} {total : Int} :
    ListsSortedPage key direction counters pageSize pageIndex (do
        let sorted ← sorter.sort (comparator key direction.sortDirection) counters
        let page ← pageVector sorted pageSize pageIndex
        .ok { total := total, counters := page }) ↔
      IsSameFromBothEnds key direction counters pageSize pageIndex := by
  cases direction with
  | ascending =>
    have hweak := strictWeakOn_ascending key counters
    obtain ⟨ys, hsort, hperm, hdescending⟩ := sorter.sorts hweak
    rw [ListsSortedPage, and_iff_right hweak, hsort]
    refine (exists_page_iff hperm).trans (and_congr_right fun _ => ?_)
    refine exists_ascending_page_iff_of_descending hperm (hdescending.imp fun hxy => ?_)
    rwa [comparator_ascending, decide_eq_false_iff_not, not_lt] at hxy
  | descending =>
    rw [ListsSortedPage, strictWeakOn_descending_iff, IsSameFromBothEnds, and_comm]
    refine and_congr_left ?_
    rintro rfl
    obtain ⟨ys, hsort, hperm, -⟩ := sorter.sorts
      (@StrictWeakOn.nil α (comparator key Direction.descending.sortDirection))
    obtain rfl := hperm.eq_nil
    rw [hsort]
    refine (exists_page_iff hperm).trans (and_iff_left ?_)
    exact ⟨[], hperm, List.Pairwise.nil, rfl⟩

end Listing

/-! ## The four listings -/

inductive EntryColumn where
  | key | value

def EntryColumn.name : EntryColumn → String
  | .key => "key"
  | .value => "value"

def EntryColumn.read : EntryColumn → String × String → String
  | .key => Prod.fst
  | .value => Prod.snd

inductive EventSourceColumn where
  | eventSourceArn | uuid

def EventSourceColumn.name : EventSourceColumn → String
  | .eventSourceArn => "eventSourceArn"
  | .uuid => "uuid"

def EventSourceColumn.read : EventSourceColumn → EventSourceCounter → String
  | .eventSourceArn => EventSourceCounter.eventSourceArn
  | .uuid => EventSourceCounter.uuid

inductive InstanceColumn where
  | instanceId | containerId | status

def InstanceColumn.name : InstanceColumn → String
  | .instanceId => "instanceId"
  | .containerId => "containerId"
  | .status => "status"

def InstanceColumn.read : InstanceColumn → InstanceCounter → String
  | .instanceId => InstanceCounter.instanceId
  | .containerId => InstanceCounter.containerId
  | .status => InstanceCounter.status

def byColumn (column : String) (direction : Direction) (others : List SortColumn)
    (pageSize pageIndex : Int) : CountersRequest where
  sortColumns := { column := column, sortDirection := direction.sortDirection } :: others
  pageSize := pageSize
  pageIndex := pageIndex

section Members

variable (sorter : Sorter) (lambda : Lambda) (direction : Direction) (others : List SortColumn)
  (pageSize pageIndex : Int)

theorem listLambdaEnvironmentCounters_iff (column : EntryColumn) :
    ListsSortedPage column.read direction lambda.environment.vars.toList pageSize pageIndex
        (listLambdaEnvironmentCounters sorter (some lambda)
          (byColumn column.name direction others pageSize pageIndex)) ↔
      IsSameFromBothEnds column.read direction lambda.environment.vars.toList
        pageSize pageIndex := by
  cases column <;> exact listsSortedPage_iff

theorem listLambdaTagCounters_iff (column : EntryColumn) :
    ListsSortedPage column.read direction lambda.tags.toList pageSize pageIndex
        (listLambdaTagCounters sorter (some lambda)
          (byColumn column.name direction others pageSize pageIndex)) ↔
      IsSameFromBothEnds column.read direction lambda.tags.toList pageSize pageIndex := by
  cases column <;> exact listsSortedPage_iff

theorem listLambdaEventSourceCounters_iff (column : EventSourceColumn) :
    ListsSortedPage column.read direction (mapCounters lambda) pageSize pageIndex
        (listLambdaEventSourceCounters sorter (some lambda)
          (byColumn column.name direction others pageSize pageIndex)) ↔
      IsSameFromBothEnds column.read direction (mapCounters lambda) pageSize pageIndex := by
  cases column <;> exact listsSortedPage_iff

theorem listLambdaInstanceCounters_iff (column : InstanceColumn) :
    ListsSortedPage column.read direction (lambda.instances.map mapInstance) pageSize pageIndex
        (listLambdaInstanceCounters sorter (some lambda)
          (byColumn column.name direction others pageSize pageIndex)) ↔
      IsSameFromBothEnds column.read direction (lambda.instances.map mapInstance)
        pageSize pageIndex := by
  cases column <;> exact listsSortedPage_iff

/-- A listing is the page of its parts in the order that is asked for exactly when there is such a
page, nothing has to descend, and what ascends is the same from both ends. -/
theorem counterListings_sorted_iff :
    (∀ column : EntryColumn,
      ListsSortedPage column.read direction lambda.environment.vars.toList pageSize pageIndex
          (listLambdaEnvironmentCounters sorter (some lambda)
            (byColumn column.name direction others pageSize pageIndex)) ↔
        IsSameFromBothEnds column.read direction lambda.environment.vars.toList
          pageSize pageIndex) ∧
    (∀ column : EntryColumn,
      ListsSortedPage column.read direction lambda.tags.toList pageSize pageIndex
          (listLambdaTagCounters sorter (some lambda)
            (byColumn column.name direction others pageSize pageIndex)) ↔
        IsSameFromBothEnds column.read direction lambda.tags.toList pageSize pageIndex) ∧
    (∀ column : EventSourceColumn,
      ListsSortedPage column.read direction (mapCounters lambda) pageSize pageIndex
          (listLambdaEventSourceCounters sorter (some lambda)
            (byColumn column.name direction others pageSize pageIndex)) ↔
        IsSameFromBothEnds column.read direction (mapCounters lambda) pageSize pageIndex) ∧
    ∀ column : InstanceColumn,
      ListsSortedPage column.read direction (lambda.instances.map mapInstance) pageSize pageIndex
          (listLambdaInstanceCounters sorter (some lambda)
            (byColumn column.name direction others pageSize pageIndex)) ↔
        IsSameFromBothEnds column.read direction (lambda.instances.map mapInstance)
          pageSize pageIndex :=
  ⟨listLambdaEnvironmentCounters_iff sorter lambda direction others pageSize pageIndex,
    listLambdaTagCounters_iff sorter lambda direction others pageSize pageIndex,
    listLambdaEventSourceCounters_iff sorter lambda direction others pageSize pageIndex,
    listLambdaInstanceCounters_iff sorter lambda direction others pageSize pageIndex⟩

end Members

def twoSources : Lambda where
  eventSources := [{ uuid := "1" }, { uuid := "2" }]

/-- The first of two event sources comes last when they are to ascend. -/
theorem not_counterListings_sorted :
    ¬ListsSortedPage EventSourceCounter.uuid .ascending (mapCounters twoSources) 10 0
      (listLambdaEventSourceCounters Sorter.merging (some twoSources)
        (byColumn "uuid" .ascending [] 10 0)) := by
  intro hlists
  obtain ⟨-, hpage⟩ :=
    (listLambdaEventSourceCounters_iff Sorter.merging twoSources .ascending [] 10 0 .uuid).mp hlists
  have hascending : ascending EventSourceCounter.uuid (mapCounters twoSources) = ["1", "2"] :=
    ascending_eq_iff.mpr ⟨List.Perm.refl _, by decide⟩
  change page 10 0 (ascending EventSourceCounter.uuid (mapCounters twoSources)).reverse =
    page 10 0 (ascending EventSourceCounter.uuid (mapCounters twoSources)) at hpage
  rw [hascending] at hpage
  revert hpage
  decide

end AwsMock.Lambdas.Entity.Counters
