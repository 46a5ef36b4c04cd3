import Mathlib.Order.Filter.AtTopBot.Basic
import Mathlib.Order.Filter.Finite

/-! # Dependencies of applications

The server starts and stops an application after the ones it depends on. It follows the names
without a record of where it has been, and looks them up outside of its error handling.
-/

namespace AwsMock.Applications.Dependencies

inductive Backend where
  | memory
  | mongo

structure Application where
  region : String := ""
  name : String := ""
  dependencies : List String := []

inductive Operation where
  | start
  | stop

structure Server where
  backend : Backend
  applications : List Application

abbrev Call := Operation × Application

/-- The calls of the service, and whether there has been no exception. -/
abbrev Calls := List Call × Bool

def inTurn {α : Type} (visit : α → List Call → Option Calls) :
    List α → List Call → Option Calls
  | [], calls => some (calls, true)
  | x :: xs, calls => do
    let (calls, ok) ← visit x calls
    if ok then inTurn visit xs calls else some (calls, false)

namespace Server

variable (server : Server)

def findApplication (region name : String) : Option Application :=
  server.applications.find? fun application =>
    application.region = region && application.name = name

/-- The repository in memory throws for a missing application, and MongoDB gives a blank one. -/
def getApplication (region name : String) : Option Application :=
  match server.findApplication region name, server.backend with
  | some application, _ => some application
  | none, .memory => none
  | none, .mongo => some {}

/-- A stop of an application that is not there throws, and a start has its exceptions caught. -/
def returns : Operation → Application → Bool
  | .start, _ => true
  | .stop, application => (server.findApplication application.region application.name).isSome

/-- `StartApplication` and `StopApplication`, with a bound on the depth of their calls. -/
def handle (operation : Operation) : Nat → Application → List Call → Option Calls
  | 0, _, _ => none
  | depth + 1, application, calls => do
    let (calls, ok) ← inTurn (fun dependency calls =>
      -- the lookup is not within the `try` block
      match server.getApplication application.region dependency with
      | none => some (calls, false)
      | some dependency => handle operation depth dependency calls) application.dependencies calls
    if ok then some (calls ++ [(operation, application)], server.returns operation application)
    else some (calls, false)

/-- The pass of `WatchdogApplications` over what it starts, or stops and then starts. -/
def watchdogApplications (depth : Nat) (listed : List Call) : Option Calls :=
  inTurn (fun call => server.handle call.1 depth call.2) listed []

def DependsOn (dependency application : Application) : Prop :=
  ∃ name ∈ application.dependencies,
    server.getApplication application.region name = some dependency

def Reaches (application other : Application) : Prop :=
  Relation.ReflTransGen (fun a b => server.DependsOn b a) application other

/-- There is no endless chain of dependencies, and every name on it can be looked up. -/
def CanHandle (operation : Operation) (application : Application) : Prop :=
  Acc server.DependsOn application ∧ ∀ other, server.Reaches application other →
    server.returns operation other = true ∧
      ∀ name ∈ other.dependencies, server.getApplication other.region name ≠ none

/-- An operation comes after those of all that its application depends on. -/
inductive InOrder : List Call → Prop
  | nil : InOrder []
  | concat {calls : List Call} {call : Call} : InOrder calls →
      (∀ dependency, server.DependsOn dependency call.2 → (call.1, dependency) ∈ calls) →
      InOrder (calls ++ [call])

end Server

section Turns

variable {α : Type} {visit : α → List Call → Option Calls}

theorem inTurn_ok {xs : List α} {calls result : List Call}
    (hrun : inTurn visit xs calls = some (result, true)) :
    ∀ x ∈ xs, ∃ before after, visit x before = some (after, true) := by
  induction xs generalizing calls with
  | nil => exact fun _ hmem => absurd hmem List.not_mem_nil
  | cons x xs ih =>
    rw [inTurn] at hrun
    obtain ⟨⟨after, ok⟩, hvisit, hrest⟩ := Option.bind_eq_some_iff.1 hrun
    cases ok with
    | false => cases hrest
    | true => exact List.forall_mem_cons.2 ⟨⟨calls, after, hvisit⟩, ih hrest⟩

theorem exists_inTurn {Reached : α → Call → Prop} {Ordered : List Call → Prop}
    {xs : List α} (hvisit : ∀ x ∈ xs, ∀ calls, Ordered calls →
      ∃ added, visit x calls = some (calls ++ added, true) ∧ Ordered (calls ++ added) ∧
        ∀ y, Reached x y → y ∈ calls ++ added)
    (calls : List Call) (hcalls : Ordered calls) :
    ∃ added, inTurn visit xs calls = some (calls ++ added, true) ∧ Ordered (calls ++ added) ∧
      ∀ x ∈ xs, ∀ y, Reached x y → y ∈ calls ++ added := by
  induction xs generalizing calls with
  | nil =>
    rw [← List.append_nil calls] at hcalls
    exact ⟨[], by rw [List.append_nil]; rfl, hcalls, fun _ hmem => absurd hmem List.not_mem_nil⟩
  | cons x xs ih =>
    obtain ⟨hfirst, hrest⟩ := List.forall_mem_cons.1 hvisit
    obtain ⟨first, hrun, hordered, hreached⟩ := hfirst calls hcalls
    obtain ⟨rest, hruns, hordered', hreached'⟩ := ih hrest _ hordered
    rw [List.append_assoc] at hruns hordered' hreached'
    refine ⟨first ++ rest, ?_, hordered', List.forall_mem_cons.2 ⟨fun y hy => ?_, hreached'⟩⟩
    · rw [inTurn, hrun]
      exact hruns
    · rw [← List.append_assoc]
      exact List.mem_append_left rest (hreached y hy)

end Turns

namespace Server

variable {server : Server} {operation : Operation} {application : Application}

theorem canHandle_of_handle {depth : Nat} {calls result : List Call}
    (hrun : server.handle operation depth application calls = some (result, true)) :
    server.CanHandle operation application := by
  induction depth generalizing application calls result with
  | zero => cases hrun
  | succ depth ih =>
    rw [handle] at hrun
    obtain ⟨⟨after, ok⟩, hturn, hrest⟩ := Option.bind_eq_some_iff.1 hrun
    cases ok with
    | false => cases hrest
    | true =>
      have hreturns : server.returns operation application = true :=
        (Prod.mk.inj (Option.some.inj hrest)).2
      have hdepend : ∀ name ∈ application.dependencies, ∃ dependency,
          server.getApplication application.region name = some dependency ∧
            server.CanHandle operation dependency := by
        intro name hname
        obtain ⟨before, after, hvisit⟩ := inTurn_ok hturn name hname
        cases hget : server.getApplication application.region name with
        | none =>
          rw [hget] at hvisit
          cases hvisit
        | some dependency =>
          rw [hget] at hvisit
          exact ⟨dependency, rfl, ih hvisit⟩
      refine ⟨⟨_, fun dependency hdependency => ?_⟩, fun other hreach => ?_⟩
      · obtain ⟨name, hname, hget⟩ := hdependency
        obtain ⟨found, hfound, hcan⟩ := hdepend name hname
        rw [Option.some.inj (hget.symm.trans hfound)]
        exact hcan.1
      · rcases Relation.ReflTransGen.cases_head hreach with
          rfl | ⟨dependency, ⟨name, hname, hget⟩, hreach⟩
        · refine ⟨hreturns, fun name hname => ?_⟩
          obtain ⟨found, hfound, -⟩ := hdepend name hname
          rw [hfound]
          exact Option.some_ne_none found
        · obtain ⟨found, hfound, hcan⟩ := hdepend name hname
          rw [Option.some.inj (hfound.symm.trans hget)] at hcan
          exact hcan.2 other hreach

/-- So much depth handles an application after all that it depends on. -/
def Handles (server : Server) (depth : Nat) (call : Call) : Prop :=
  ∀ calls, server.InOrder calls → ∃ added,
    server.handle call.1 depth call.2 calls = some (calls ++ added, true) ∧
      server.InOrder (calls ++ added) ∧ ∀ next, next.1 = call.1 ∧ server.Reaches call.2 next.2 →
        next ∈ calls ++ added

theorem eventually_handles (hcan : server.CanHandle operation application) :
    ∀ᶠ depth in Filter.atTop, server.Handles depth (operation, application) := by
  obtain ⟨hacc, hall⟩ := hcan
  induction hacc with
  | intro application _ ih =>
    obtain ⟨hreturns, hnames⟩ := hall application .refl
    have hdependencies : ∀ᶠ depth in Filter.atTop,
        ∀ name ∈ {name | name ∈ application.dependencies}, ∀ dependency,
          server.getApplication application.region name = some dependency →
            server.Handles depth (operation, dependency) := by
      refine (Filter.eventually_all_finite (List.finite_toSet _)).2 fun name hname => ?_
      obtain ⟨dependency, hget⟩ := Option.ne_none_iff_exists'.1 (hnames name hname)
      refine (ih dependency ⟨name, hname, hget⟩ fun other hreach =>
        hall other (.head ⟨name, hname, hget⟩ hreach)).mono fun depth hdepth found hfound => ?_
      rwa [← Option.some.inj (hget.symm.trans hfound)]
    -- one depth is enough for all dependencies, and the application needs one more
    obtain ⟨least, hleast⟩ := Filter.eventually_atTop.1 hdependencies
    refine Filter.eventually_atTop.2 ⟨least + 1, fun depth hle calls hcalls => ?_⟩
    obtain ⟨depth, rfl⟩ := Nat.exists_eq_add_of_le' (Nat.le_of_add_left_le hle)
    have hdepth := hleast depth (Nat.le_of_add_le_add_right hle)
    have hvisit : ∀ name ∈ application.dependencies, ∀ calls, server.InOrder calls → ∃ added,
        (match server.getApplication application.region name with
          | none => some (calls, false)
          | some dependency => server.handle operation depth dependency calls) =
            some (calls ++ added, true) ∧ server.InOrder (calls ++ added) ∧
        ∀ next : Call, (next.1 = operation ∧ ∃ dependency,
          server.getApplication application.region name = some dependency ∧
            server.Reaches dependency next.2) → next ∈ calls ++ added := by
      intro name hname calls hcalls
      obtain ⟨dependency, hget⟩ := Option.ne_none_iff_exists'.1 (hnames name hname)
      obtain ⟨added, hrun, hordered, hreached⟩ := hdepth name hname dependency hget calls hcalls
      refine ⟨added, by rw [hget]; exact hrun, hordered, ?_⟩
      rintro next ⟨hnext, found, hfound, hother⟩
      rw [← Option.some.inj (hget.symm.trans hfound)] at hother
      exact hreached next ⟨hnext, hother⟩
    obtain ⟨added, hturn, hordered, hreached⟩ := exists_inTurn hvisit calls hcalls
    refine ⟨added ++ [(operation, application)], ?_, ?_, ?_⟩
    · rw [handle, ← List.append_assoc]
      refine Option.bind_eq_some_iff.2 ⟨_, hturn, ?_⟩
      exact congrArg (fun returned => some (calls ++ added ++ [_], returned)) hreturns
    · rw [← List.append_assoc]
      refine .concat hordered fun dependency hdependency => ?_
      obtain ⟨name, hname, hget⟩ := hdependency
      exact hreached name hname _ ⟨rfl, dependency, hget, .refl⟩
    · rintro ⟨asked, other⟩ ⟨hasked, hreach⟩
      change asked = operation at hasked
      subst hasked
      rw [← List.append_assoc]
      rcases Relation.ReflTransGen.cases_head hreach with
        rfl | ⟨dependency, ⟨name, hname, hget⟩, hreach⟩
      · exact List.mem_append_right _ List.mem_cons_self
      · exact List.mem_append_left _ (hreached name hname _ ⟨rfl, dependency, hget, hreach⟩)

/-- A pass handles all that its applications depend on exactly when it can. -/
theorem watchdogApplications_iff (server : Server) (listed : List Call) :
    (∃ depth calls, server.watchdogApplications depth listed = some (calls, true) ∧
      server.InOrder calls ∧ ∀ call ∈ listed, ∀ next : Call,
        next.1 = call.1 ∧ server.Reaches call.2 next.2 → next ∈ calls) ↔
      ∀ call ∈ listed, server.CanHandle call.1 call.2 := by
  constructor
  · rintro ⟨depth, calls, hpass, -⟩ call hmem
    obtain ⟨before, after, hrun⟩ := inTurn_ok hpass call hmem
    exact canHandle_of_handle hrun
  · intro hall
    obtain ⟨depth, hdepth⟩ := ((Filter.eventually_all_finite (List.finite_toSet listed)).2
      fun call hmem => eventually_handles (hall call hmem)).exists
    obtain ⟨added, hpass⟩ := exists_inTurn (fun call hmem => hdepth call hmem) [] .nil
    exact ⟨depth, added, hpass⟩

/-- A missing dependency keeps the application listed next from being started. -/
theorem not_handled_missing : ∃ server : Server, ∃ listed : List Call,
    listed = server.applications.map (.start, ·) ∧
      ∀ depth calls, server.watchdogApplications depth listed ≠ some (calls, true) := by
  refine ⟨⟨.memory, [⟨"eu", "a", ["b"]⟩, ⟨"eu", "c", []⟩]⟩, _, rfl, fun depth calls hpass => ?_⟩
  obtain ⟨before, after, hrun⟩ := inTurn_ok hpass _ List.mem_cons_self
  exact ((canHandle_of_handle hrun).2 _ .refl).2 "b" List.mem_cons_self (by decide)

/-! ## Passes that may fail -/

theorem inTurn_keeps {α : Type} {visit : α → List Call → Option Calls}
    (Good : List Call → Prop) (Done : α → Call → Prop) {xs : List α} {calls result : List Call}
    {ok : Bool} (hvisit : ∀ x ∈ xs, ∀ calls result ok, Good calls →
      visit x calls = some (result, ok) →
        Good result ∧ calls ⊆ result ∧ (ok = true → ∀ y, Done x y → y ∈ result))
    (hgood : Good calls) (hrun : inTurn visit xs calls = some (result, ok)) :
    Good result ∧ calls ⊆ result ∧ (ok = true → ∀ x ∈ xs, ∀ y, Done x y → y ∈ result) := by
  induction xs generalizing calls with
  | nil =>
    cases hrun
    exact ⟨hgood, List.Subset.refl _, fun _ _ hmem => absurd hmem List.not_mem_nil⟩
  | cons x xs ih =>
    obtain ⟨hfirst, hrest⟩ := List.forall_mem_cons.1 hvisit
    obtain ⟨⟨middle, first⟩, hhead, htail⟩ := Option.bind_eq_some_iff.1 hrun
    obtain ⟨hmiddle, hsubset, hdone⟩ := hfirst _ _ _ hgood hhead
    cases first with
    | false =>
      cases htail
      exact ⟨hmiddle, hsubset, Bool.noConfusion⟩
    | true =>
      obtain ⟨hresult, hmore, hdones⟩ := ih hrest hmiddle htail
      exact ⟨hresult, List.Subset.trans hsubset hmore, fun hok => List.forall_mem_cons.2
        ⟨fun y hy => hmore (hdone rfl y hy), hdones hok⟩⟩

theorem handle_keeps {Allowed : Call → Prop} {depth : Nat} {calls result : List Call} {ok : Bool}
    (hgood : server.InOrder calls ∧ ∀ next ∈ calls, Allowed next)
    (hclosed : ∀ application dependency, server.DependsOn dependency application →
      Allowed (operation, application) → Allowed (operation, dependency))
    (hallowed : Allowed (operation, application))
    (hrun : server.handle operation depth application calls = some (result, ok)) :
    (server.InOrder result ∧ ∀ next ∈ result, Allowed next) ∧ calls ⊆ result ∧
      (ok = true → (operation, application) ∈ result) := by
  induction depth generalizing application calls result ok with
  | zero => cases hrun
  | succ depth ih =>
    obtain ⟨⟨middle, first⟩, hturn, hrest⟩ := Option.bind_eq_some_iff.1 hrun
    -- a dependency counts as done when its own call has been recorded
    obtain ⟨hmiddle, hsubset, hdone⟩ := inTurn_keeps _ (fun name next => ∃ dependency,
      server.getApplication application.region name = some dependency ∧
        next = (operation, dependency)) (by
      intro name hname calls result ok hgood hvisit
      cases hget : server.getApplication application.region name with
      | none =>
        rw [hget] at hvisit
        cases hvisit
        exact ⟨hgood, List.Subset.refl _, Bool.noConfusion⟩
      | some dependency =>
        rw [hget] at hvisit
        obtain ⟨hresult, hmore, hlast⟩ := ih hgood (hclosed _ _ ⟨name, hname, hget⟩ hallowed) hvisit
        refine ⟨hresult, hmore, fun hok next hnext => ?_⟩
        obtain ⟨found, hfound, rfl⟩ := hnext
        rw [← Option.some.inj hfound]
        exact hlast hok) hgood hturn
    cases first with
    | false =>
      cases hrest
      exact ⟨hmiddle, hsubset, Bool.noConfusion⟩
    | true =>
      cases hrest
      refine ⟨⟨.concat hmiddle.1 ?_, List.forall_mem_append.2 ⟨hmiddle.2, ?_⟩⟩,
        List.subset_append_of_subset_left _ hsubset, fun _ => List.mem_append_right _
          List.mem_cons_self⟩
      · rintro dependency ⟨name, hname, hget⟩
        exact hdone rfl name hname _ ⟨dependency, hget, rfl⟩
      · exact List.forall_mem_singleton.2 hallowed

/-- A call for an application that a listed one depends on. -/
def IsCalledFor (server : Server) (listed : List Call) (next : Call) : Prop :=
  ∃ call ∈ listed, next.1 = call.1 ∧ server.Reaches call.2 next.2

/-- A pass handles nothing before what it depends on, and nothing that no listed application
depends on, even when it ends with an exception. -/
theorem watchdogApplications_inOrder (server : Server) {depth : Nat} {listed calls : List Call}
    {ok : Bool} (hpass : server.watchdogApplications depth listed = some (calls, ok)) :
    server.InOrder calls ∧ ∀ next ∈ calls, server.IsCalledFor listed next := by
  refine (inTurn_keeps (fun calls => server.InOrder calls ∧ ∀ next ∈ calls,
    server.IsCalledFor listed next) (fun _ _ => False) ?_ ?_ hpass).1
  · rintro ⟨operation, application⟩ hmem calls result ok hgood hrun
    have hclosed : ∀ application dependency, server.DependsOn dependency application →
        server.IsCalledFor listed (operation, application) →
          server.IsCalledFor listed (operation, dependency) := by
      rintro application dependency hdepends ⟨call, hcall, hsame, hreach⟩
      exact ⟨call, hcall, hsame, hreach.tail hdepends⟩
    obtain ⟨hresult, hsubset, -⟩ := handle_keeps hgood hclosed ⟨_, hmem, rfl, .refl⟩ hrun
    exact ⟨hresult, hsubset, fun _ _ => False.elim⟩
  · exact ⟨.nil, List.forall_mem_nil _⟩

/-- MongoDB has a blank application for the missing one, which cannot be stopped. -/
theorem watchdogApplications_inOrder_missing :
    InOrder ⟨.mongo, [⟨"eu", "a", ["b"]⟩]⟩ [(.stop, {})] ∧ ∀ next ∈ [(.stop, {})],
      IsCalledFor ⟨.mongo, [⟨"eu", "a", ["b"]⟩]⟩ [(.stop, ⟨"eu", "a", ["b"]⟩)] next :=
  @watchdogApplications_inOrder ⟨.mongo, [⟨"eu", "a", ["b"]⟩]⟩ 2 _ _ false rfl

end Server

end AwsMock.Applications.Dependencies
