import Mathlib.Algebra.Order.BigOperators.Group.List
import Mathlib.Algebra.Order.Ring.Nat
import Mathlib.Data.List.Perm.Basic
import Mathlib.Data.List.Nodup
import AwsMock.Scheduling.Scheduler

/-! # One-time tasks run once

While no name is used again before the task that had it has been removed, and nothing is
shut down that has still to run, every entry has one handler, every task runs once and
every future gets the result of its task. When a name is used again too early its task is
dropped; when an entry is shut down too early its handler comes too late.
-/

namespace AwsMock.Scheduling

variable {Body : Type}

section Properties

variable (state : SchedulerState Body)

/-- What holds of one-time tasks at any time. When nothing is left to run, all that was
submitted has run and is gone. -/
structure IsSound : Prop where
  once : state.runs.Nodup
  own : ∀ future ∈ state.futures, future.1 ∉ state.shutDown →
    ∃ task, state.tasks[future.1]? = some task ∧ future.2 = task.result
  late : state.late = []
  complete : state.handlers = [] → ∀ id task, state.tasks[id]? = some task → id ∉ state.shutDown →
    id ∈ state.runs ∧ (task.waitable = true → ∃ result, (id, result) ∈ state.futures)
  gone : state.handlers = [] → state.entries = []

def Event.IsHandle : Event Body → Prop
  | .handle _ => True
  | _ => False

def Drains (bound : Nat) : Prop :=
  ∀ events state', (∀ event ∈ events, event.IsHandle) → state.run events = some state' →
    events.length ≤ bound

/-- A task is added when its name is free and no removal of that name is left, and
nothing is shut down by a caller but what is being removed. -/
def Heeds : Event Body → Prop
  | .add task => state.findName task.name = none ∧ .shutdown task.name ∉ state.handlers
  | .shutdown name => state.findName name = none ∨ .shutdown name ∈ state.handlers
  | .handle _ => True

def Heeded : List (Event Body) → SchedulerState Body → Prop
  | [], _ => True
  | event :: events, state =>
    Heeds state event ∧ ∀ state', state.step event = some state' → Heeded events state'

end Properties

section Work

def Handler.work : Handler → Nat
  | .start _ => 5
  | .wait _ => 4
  | .execute _ _ => 3
  | .running _ => 2
  | .shutdown _ => 1

def SchedulerState.work (state : SchedulerState Body) : Nat :=
  (state.handlers.map Handler.work).sum

end Work

section Tracking

inductive Phase where
  | posted
  | waiting
  | due
  | running
  | done
deriving DecidableEq

def handlerOf (live : (Nat × Task Body) × Phase) : Handler :=
  match live.2 with
  | .posted => .start live.1.1
  | .waiting => .wait live.1.1
  | .due => .execute live.1.1 false
  | .running => .running live.1.1
  | .done => .shutdown live.1.2.name

def IsDone (state : SchedulerState Body) (entry : Nat × Task Body) : Prop :=
  entry.1 ∈ state.runs ∧ (entry.2.waitable = true → (entry.1, entry.2.result) ∈ state.futures)

/-- What has happened to a task whose entry has got so far. -/
def Stands (state : SchedulerState Body) (entry : Nat × Task Body) : Phase → Prop
  | .running => entry.1 ∈ state.runs
  | .done => IsDone state entry
  | _ => entry.1 ∉ state.runs

/-- The entries with their phases, and the removals whose entry is gone already. -/
structure Tracks (state : SchedulerState Body) (live : List ((Nat × Task Body) × Phase))
    (orphans : List String) : Prop where
  entries : state.entries = live.map Prod.fst
  handlers : state.handlers.Perm (live.map handlerOf ++ orphans.map .shutdown)
  names : (live.map (·.1.2.name) ++ orphans).Nodup
  ids : (live.map (·.1.1)).Nodup
  tasks : ∀ entry ∈ live, state.tasks[entry.1.1]? = some entry.1.2
  stands : ∀ entry ∈ live, Stands state entry.1 entry.2
  finished : ∀ id task, state.tasks[id]? = some task → id ∉ live.map (·.1.1) →
    IsDone state (id, task)
  runs : state.runs.Nodup
  known : ∀ id ∈ state.runs, id < state.tasks.length
  futures : ∀ future ∈ state.futures,
    ∃ task, state.tasks[future.1]? = some task ∧ future.2 = task.result
  late : state.late = []

end Tracking

section Finding

variable {state : SchedulerState Body} {before after : List ((Nat × Task Body) × Phase)}
  {live : List ((Nat × Task Body) × Phase)} {orphans : List String} {entry : Nat × Task Body}
  {phase : Phase}

section

variable (htracks : Tracks state live orphans)
include htracks

theorem Tracks.findId (hentry : (entry, phase) ∈ live) :
    state.findId entry.1 = some entry := by
  unfold SchedulerState.findId
  rw [htracks.entries]
  have hids := htracks.ids
  clear htracks
  induction live with
  | nil => cases hentry
  | cons first live ih =>
    rw [List.map_cons, List.nodup_cons] at hids
    rw [List.map_cons, List.find?_cons]
    rcases List.mem_cons.mp hentry with rfl | hlater
    · rw [decide_eq_true rfl]
    · have hne : first.1.1 ≠ entry.1 := by
        intro heq
        apply hids.1
        rw [heq]
        exact List.mem_map_of_mem hlater
      rw [decide_eq_false hne]
      exact ih hlater hids.2

theorem Tracks.findName (hentry : (entry, phase) ∈ live) :
    state.findName entry.2.name = some entry := by
  unfold SchedulerState.findName
  rw [htracks.entries]
  have hnames := (List.nodup_append.mp htracks.names).1
  clear htracks
  induction live with
  | nil => cases hentry
  | cons first live ih =>
    rw [List.map_cons, List.nodup_cons] at hnames
    rw [List.map_cons, List.find?_cons]
    rcases List.mem_cons.mp hentry with rfl | hlater
    · rw [decide_eq_true rfl]
    · have hne : first.1.2.name ≠ entry.2.name := by
        intro heq
        apply hnames.1
        rw [heq]
        exact List.mem_map_of_mem hlater
      rw [decide_eq_false hne]
      exact ih hlater hnames.2

theorem Tracks.mem_of_findName {name : String} (hfound : state.findName name = some entry) :
    entry.2.name = name ∧ ∃ phase, (entry, phase) ∈ live := by
  have hname := List.find?_some hfound
  have hmem := List.mem_of_find?_eq_some hfound
  rw [htracks.entries] at hmem
  obtain ⟨⟨found, phase⟩, hlive, rfl⟩ := List.mem_map.mp hmem
  exact ⟨of_decide_eq_true hname, phase, hlive⟩

theorem Tracks.mem_handlers {handler : Handler} (hhandler : handler ∈ state.handlers) :
    (∃ entry phase, (entry, phase) ∈ live ∧ handlerOf (entry, phase) = handler) ∨
      ∃ name ∈ orphans, handler = .shutdown name := by
  rcases List.mem_append.mp (htracks.handlers.mem_iff.mp hhandler) with hlive | horphan
  · obtain ⟨⟨entry, phase⟩, hmem, hof⟩ := List.mem_map.mp hlive
    exact .inl ⟨entry, phase, hmem, hof⟩
  · obtain ⟨name, hname, heq⟩ := List.mem_map.mp horphan
    exact .inr ⟨name, hname, heq.symm⟩

end

theorem phase_of_handlerOf {id : Nat} :
    (handlerOf (entry, phase) = .start id → phase = .posted ∧ entry.1 = id) ∧
      (handlerOf (entry, phase) = .wait id → phase = .waiting ∧ entry.1 = id) ∧
      (handlerOf (entry, phase) = .running id → phase = .running ∧ entry.1 = id) := by
  cases phase <;> refine ⟨?_, ?_, ?_⟩ <;> intro hof <;> cases hof <;> exact ⟨rfl, rfl⟩

theorem phase_of_shutdown {name : String} (hof : handlerOf (entry, phase) = .shutdown name) :
    phase = .done ∧ entry.2.name = name := by
  cases phase <;> cases hof
  exact ⟨rfl, rfl⟩

end Finding

section Steps

variable {state : SchedulerState Body} {before after : List ((Nat × Task Body) × Phase)}
  {live : List ((Nat × Task Body) × Phase)} {orphans : List String} {entry : Nat × Task Body}
  {phase next : Phase}

theorem Tracks.advance (htracks : Tracks state (before ++ (entry, phase) :: after) orphans)
    {runs : List Nat} {futures : List (Nat × Result)}
    (hruns : ∀ id ≠ entry.1, id ∈ runs ↔ id ∈ state.runs) (hnodup : runs.Nodup)
    (hkept : ∀ future ∈ state.futures, future ∈ futures)
    (hadded : ∀ future ∈ futures, future ∈ state.futures ∨ future = (entry.1, entry.2.result))
    (hstands : Stands { state with runs := runs, futures := futures } entry next) :
    Tracks { state with
        handlers := state.handlers.erase (handlerOf (entry, phase)) ++ [handlerOf (entry, next)]
        runs := runs
        futures := futures }
      (before ++ (entry, next) :: after) orphans := by
  have hids := htracks.ids
  rw [List.map_append, List.map_cons] at hids
  have hother : ∀ other ∈ before ++ after, other.1.1 ≠ entry.1 := by
    intro other hmem heq
    have hfresh := (List.nodup_middle.mp hids)
    rw [List.nodup_cons, ← List.map_append] at hfresh
    apply hfresh.1
    rw [← heq]
    exact List.mem_map_of_mem hmem
  have hcurrent : (entry, phase) ∈ before ++ (entry, phase) :: after :=
    List.mem_append_right _ List.mem_cons_self
  refine ⟨?_, ?_, ?_, ?_, ?_, ?_, ?_, hnodup, ?_, ?_, htracks.late⟩
  · rw [htracks.entries, List.map_append, List.map_append, List.map_cons, List.map_cons]
  · have hperm := htracks.handlers
    rw [List.map_append, List.map_cons, List.append_assoc, List.cons_append] at hperm
    have hrest := (hperm.trans List.perm_middle).erase (handlerOf (entry, phase))
    rw [List.erase_cons_head] at hrest
    rw [List.map_append, List.map_cons, List.append_assoc, List.cons_append]
    refine (List.perm_append_singleton _ _).trans ?_
    exact (hrest.cons _).trans List.perm_middle.symm
  · have hnames := htracks.names
    rw [List.map_append, List.map_cons] at hnames ⊢
    exact hnames
  · rw [List.map_append, List.map_cons]
    exact hids
  · intro other hmem
    rcases List.mem_append.mp hmem with hbefore | hmem
    · exact htracks.tasks other (List.mem_append_left _ hbefore)
    · rcases List.mem_cons.mp hmem with rfl | hafter
      · exact htracks.tasks (entry, phase) hcurrent
      · exact htracks.tasks other (List.mem_append_right _ (List.mem_cons_of_mem _ hafter))
  · have hkeep : ∀ other ∈ before ++ after,
        Stands { state with runs := runs, futures := futures } other.1 other.2 := by
      intro other hmem
      have hmem' : other ∈ before ++ (entry, phase) :: after := by
        rcases List.mem_append.mp hmem with hbefore | hafter
        · exact List.mem_append_left _ hbefore
        · exact List.mem_append_right _ (List.mem_cons_of_mem _ hafter)
      have hold := htracks.stands other hmem'
      have hiff := hruns other.1.1 (hother other hmem)
      obtain ⟨other, otherPhase⟩ := other
      cases otherPhase with
      | posted => exact mt hiff.mp hold
      | waiting => exact mt hiff.mp hold
      | due => exact mt hiff.mp hold
      | running => exact hiff.mpr hold
      | done => exact ⟨hiff.mpr hold.1, fun hwaitable => hkept _ (hold.2 hwaitable)⟩
    intro other hmem
    rcases List.mem_append.mp hmem with hbefore | hmem
    · exact hkeep other (List.mem_append_left _ hbefore)
    · rcases List.mem_cons.mp hmem with rfl | hafter
      · exact hstands
      · exact hkeep other (List.mem_append_right _ hafter)
  · intro id task htask hnone
    have hnone' : id ∉ (before ++ (entry, phase) :: after).map (·.1.1) := by
      rw [List.map_append, List.map_cons] at hnone ⊢
      exact hnone
    have hold := htracks.finished id task htask hnone'
    have hne : id ≠ entry.1 := by
      rintro rfl
      exact hnone' (List.mem_map_of_mem hcurrent)
    exact ⟨(hruns id hne).mpr hold.1, fun hwaitable => hkept _ (hold.2 hwaitable)⟩
  · intro id hid
    by_cases hid' : id = entry.1
    · have htask := htracks.tasks _ hcurrent
      rw [hid']
      exact (List.getElem?_eq_some_iff.mp htask).1
    · exact htracks.known id ((hruns id hid').mp hid)
  · intro future hfuture
    rcases hadded future hfuture with hold | rfl
    · exact htracks.futures future hold
    · exact ⟨entry.2, htracks.tasks _ hcurrent, rfl⟩

section

variable (htracks : Tracks state (before ++ (entry, .done) :: after) orphans)
include htracks

theorem Tracks.remove
    {handlers : List Handler} {left : List String}
    (hhandlers : handlers.Perm ((before ++ after).map handlerOf ++ left.map .shutdown))
    (hleft : left = orphans ∨ left = entry.2.name :: orphans) :
    Tracks { state with
        entries := (before ++ after).map Prod.fst
        handlers := handlers } (before ++ after) left := by
  have hsub : (before ++ after).Sublist (before ++ (entry, .done) :: after) :=
    (List.sublist_cons_self _ _).append_left before
  have hdone : IsDone state entry :=
    htracks.stands (entry, .done) (List.mem_append_right _ List.mem_cons_self)
  refine ⟨rfl, hhandlers, ?_, ?_, ?_, ?_, ?_, htracks.runs, htracks.known, htracks.futures,
    htracks.late⟩
  · have hnames := htracks.names
    rw [List.map_append, List.map_cons, List.append_assoc, List.cons_append,
      List.nodup_middle, ← List.append_assoc, ← List.map_append] at hnames
    rcases hleft with rfl | rfl
    · exact (List.nodup_cons.mp hnames).2
    · exact List.nodup_middle.mpr hnames
  · exact htracks.ids.sublist (hsub.map _)
  · exact fun other hmem => htracks.tasks other (hsub.subset hmem)
  · exact fun other hmem => htracks.stands other (hsub.subset hmem)
  · intro id task htask hnone
    by_cases hid : id = entry.1
    · have hentry := htracks.tasks (entry, .done) (List.mem_append_right _ List.mem_cons_self)
      rw [← hid, htask, Option.some.injEq] at hentry
      rw [hid, hentry]
      exact hdone
    · apply htracks.finished id task htask
      rw [List.map_append, List.map_cons, List.mem_append, List.mem_cons, not_or, not_or]
      rw [List.map_append, List.mem_append, not_or] at hnone
      exact ⟨hnone.1, hid, hnone.2⟩

theorem Tracks.erase_eq
    {handlers : List Handler} (hhandlers : handlers ⊆ state.handlers) :
    ({ state with handlers := handlers } : SchedulerState Body).erase entry.2.name =
      { state with entries := (before ++ after).map Prod.fst, handlers := handlers } := by
  have hmem : (entry, Phase.done) ∈ before ++ (entry, .done) :: after :=
    List.mem_append_right _ List.mem_cons_self
  have hdone : IsDone state entry := htracks.stands _ hmem
  have hfound : ({ state with handlers := handlers } : SchedulerState Body).findName entry.2.name =
      some entry := htracks.findName hmem
  have hentries : state.entries.filter (fun other => other.2.name ≠ entry.2.name) =
      (before ++ after).map Prod.fst := by
    have hnames := (List.nodup_append.mp htracks.names).1
    rw [List.map_append, List.map_cons, List.nodup_middle, List.nodup_cons, ← List.map_append]
      at hnames
    have hothers : ∀ other ∈ (before ++ after).map Prod.fst,
        decide (other.2.name ≠ entry.2.name) = true := by
      intro other hother
      obtain ⟨found, hfound, rfl⟩ := List.mem_map.mp hother
      rw [decide_eq_true_iff]
      intro heq
      apply hnames.1
      rw [← heq]
      exact List.mem_map_of_mem hfound
    rw [List.map_append] at hothers ⊢
    rw [htracks.entries, List.map_append, List.map_cons, List.filter_append,
      List.filter_cons_of_neg (by simp), ← List.filter_append]
    exact List.filter_eq_self.mpr hothers
  have hcancel : handlers.map (SchedulerState.cancel entry.1) = handlers := by
    rw [List.map_congr_left, List.map_id]
    intro handler hhandler
    unfold SchedulerState.cancel
    rw [if_neg, id]
    rintro rfl
    rcases htracks.mem_handlers (hhandlers hhandler) with ⟨other, phase, hother, hof⟩ | ⟨_, _, heq⟩
    · obtain ⟨rfl, hid⟩ := phase_of_handlerOf.2.1 hof
      have hwaits : other.1 ∉ state.runs := htracks.stands _ hother
      rw [hid] at hwaits
      exact hwaits hdone.1
    · cases heq
  have hkept : ¬ (entry.2.waitable = true ∧ entry.1 ∉ state.futures.map Prod.fst) := by
    rintro ⟨hwaitable, hnone⟩
    exact hnone (List.mem_map_of_mem (hdone.2 hwaitable))
  unfold SchedulerState.erase
  rw [hfound]
  dsimp only
  rw [hentries, hcancel, if_neg hkept]

end

variable (htracks : Tracks state live orphans)
include htracks

theorem Tracks.erase_orphan {name : String} (hname : name ∈ orphans) (handlers : List Handler) :
    ({ state with handlers := handlers } : SchedulerState Body).erase name =
      { state with handlers := handlers } := by
  have hnone : ({ state with handlers := handlers } : SchedulerState Body).findName name = none := by
    cases hfound : state.findName name with
    | none => exact hfound
    | some entry =>
      obtain ⟨heq, phase, hlive⟩ := htracks.mem_of_findName hfound
      have hdisjoint := (List.nodup_append.mp htracks.names).2.2
      exact absurd heq (hdisjoint _ (List.mem_map_of_mem hlive) name hname)
  unfold SchedulerState.erase
  rw [hnone]

theorem Tracks.dropOrphan {name : String} (hname : name ∈ orphans) :
    Tracks { state with handlers := state.handlers.erase (.shutdown name) } live
      (orphans.erase name) := by
  refine ⟨htracks.entries, ?_, ?_, htracks.ids, htracks.tasks, ?_, htracks.finished, htracks.runs,
    htracks.known, htracks.futures, htracks.late⟩
  · have hperm := htracks.handlers.trans
      (((List.perm_cons_erase hname).map Handler.shutdown).append_left _)
    rw [List.map_cons] at hperm
    have hrest := (hperm.trans List.perm_middle).erase (.shutdown name)
    rwa [List.erase_cons_head] at hrest
  · exact htracks.names.sublist (List.erase_sublist.append_left _)
  · intro entry hentry
    have hstands := htracks.stands entry hentry
    obtain ⟨entry, phase⟩ := entry
    cases phase <;> exact hstands

theorem Tracks.add {task : Task Body} (hheeds : Heeds state (.add task)) :
    Tracks (state.addOneTimeTask task) (live ++ [((state.tasks.length, task), .posted)])
      orphans := by
  obtain ⟨hfree, hremoval⟩ := hheeds
  have hfresh : state.tasks.length ∉ live.map (·.1.1) := by
    intro hmem
    obtain ⟨other, hother, heq⟩ := List.mem_map.mp hmem
    have htask := (List.getElem?_eq_some_iff.mp (htracks.tasks other hother)).1
    omega
  have hold : ∀ {id : Nat} {other : Task Body}, state.tasks[id]? = some other →
      (state.tasks ++ [task])[id]? = some other := by
    intro id other hother
    rw [List.getElem?_append_left (List.getElem?_eq_some_iff.mp hother).1]
    exact hother
  unfold SchedulerState.addOneTimeTask
  rw [hfree, Option.isSome_none, if_neg Bool.false_ne_true]
  refine ⟨?_, ?_, ?_, ?_, ?_, ?_, ?_, htracks.runs, ?_, ?_, htracks.late⟩
  · rw [htracks.entries, List.map_append]
    rfl
  · rw [List.map_append, List.append_assoc]
    refine (htracks.handlers.append_right _).trans ?_
    rw [List.append_assoc]
    exact List.perm_append_comm.append_left _
  · rw [List.map_append, List.append_assoc]
    apply List.nodup_middle.mpr
    rw [List.nodup_cons]
    refine ⟨?_, htracks.names⟩
    rw [List.mem_append, not_or]
    constructor
    · intro hmem
      obtain ⟨⟨other, phase⟩, hother, heq⟩ := List.mem_map.mp hmem
      have hfound := htracks.findName hother
      have heq' : other.2.name = task.name := heq
      rw [heq', hfree] at hfound
      cases hfound
    · intro hmem
      apply hremoval
      rw [htracks.handlers.mem_iff]
      exact List.mem_append_right _ (List.mem_map_of_mem hmem)
  · rw [List.map_append]
    refine List.nodup_append.mpr ⟨htracks.ids, List.nodup_singleton _, ?_⟩
    intro id hid other hother heq
    have hlast : other = state.tasks.length := List.mem_singleton.mp hother
    rw [heq, hlast] at hid
    exact hfresh hid
  · intro other hother
    rcases List.mem_append.mp hother with hlive | hnew
    · exact hold (htracks.tasks other hlive)
    · rw [List.mem_singleton.mp hnew]
      exact List.getElem?_concat_length
  · intro other hother
    rcases List.mem_append.mp hother with hlive | hnew
    · have hstands := htracks.stands other hlive
      obtain ⟨other, phase⟩ := other
      cases phase <;> exact hstands
    · rw [List.mem_singleton.mp hnew]
      intro hran
      have hbound := htracks.known _ hran
      exact absurd hbound (Nat.lt_irrefl _)
  · intro id other hother hnone
    rw [List.map_append, List.mem_append, not_or] at hnone
    have hne : id ≠ state.tasks.length := fun heq => hnone.2 (List.mem_singleton.mpr heq)
    have hbound := (List.getElem?_eq_some_iff.mp hother).1
    rw [List.length_append, List.length_singleton] at hbound
    rw [List.getElem?_append_left (by omega)] at hother
    exact htracks.finished id other hother hnone.1
  · intro id hid
    have hbound := htracks.known id hid
    rw [List.length_append]
    omega
  · intro future hfuture
    obtain ⟨other, hother, hresult⟩ := htracks.futures future hfuture
    exact ⟨other, hold hother, hresult⟩

end Steps

section Runs

variable {state state' : SchedulerState Body} {event : Event Body}
  {live : List ((Nat × Task Body) × Phase)} {orphans : List String}

section

variable (htracks : Tracks state live orphans)
include htracks

theorem Tracks.handle {handler : Handler} (hhandler : handler ∈ state.handlers) :
    ∃ live' orphans', Tracks
      (({ state with handlers := state.handlers.erase handler } : SchedulerState Body).handle handler)
      live' orphans' := by
  rcases htracks.mem_handlers hhandler with ⟨entry, phase, hmem, rfl⟩ | ⟨name, hname, rfl⟩
  case inr =>
    rw [SchedulerState.handle, htracks.erase_orphan hname]
    exact ⟨live, orphans.erase name, htracks.dropOrphan hname⟩
  have hfound : ∀ handlers, ({ state with handlers := handlers } : SchedulerState Body).findId
      entry.1 = some entry := fun _ => htracks.findId hmem
  have hstands := htracks.stands _ hmem
  obtain ⟨before, after, rfl⟩ := List.append_of_mem hmem
  have hbegins (hnew : entry.1 ∉ state.runs) :=
    @Tracks.advance _ _ before after orphans entry phase .running htracks
      (state.runs ++ [entry.1]) state.futures
      (fun id hid => by rw [List.mem_append, List.mem_singleton, or_iff_left hid])
      (List.nodup_append.mpr ⟨htracks.runs, List.nodup_singleton _, fun id hid other hother heq =>
        hnew (by rw [← List.mem_singleton.mp hother, ← heq]; exact hid)⟩)
      (fun _ hfuture => hfuture) (fun _ hfuture => .inl hfuture)
      (List.mem_append_right _ (List.mem_singleton_self _))
  cases phase with
  | posted =>
    change ∃ live' orphans', Tracks (SchedulerState.handle _ (.start entry.1)) live' orphans'
    rw [SchedulerState.handle_start (hfound _)]
    split_ifs with hdelay
    · exact ⟨_, orphans, @Tracks.advance _ _ before after orphans entry .posted .waiting htracks
        state.runs state.futures (fun _ _ => Iff.rfl) htracks.runs (fun _ hfuture => hfuture)
        (fun _ hfuture => .inl hfuture) hstands⟩
    · exact ⟨_, orphans, hbegins hstands⟩
  | waiting =>
    exact ⟨_, orphans, @Tracks.advance _ _ before after orphans entry .waiting .due htracks
      state.runs state.futures (fun _ _ => Iff.rfl) htracks.runs (fun _ hfuture => hfuture)
      (fun _ hfuture => .inl hfuture) hstands⟩
  | due =>
    change ∃ live' orphans', Tracks (SchedulerState.handle _ (.execute entry.1 false)) live' orphans'
    rw [SchedulerState.handle_execute (hfound _)]
    exact ⟨_, orphans, hbegins hstands⟩
  | running =>
    change ∃ live' orphans', Tracks (SchedulerState.handle _ (.running entry.1)) live' orphans'
    rw [SchedulerState.handle_running (hfound _)]
    refine ⟨_, orphans, @Tracks.advance _ _ before after orphans entry .running .done htracks
      state.runs _ (fun _ _ => Iff.rfl) htracks.runs ?_ ?_ ?_⟩
    · intro future hfuture
      split_ifs
      · exact List.mem_append_left _ hfuture
      · exact hfuture
    · intro future hfuture
      split_ifs at hfuture
      · rcases List.mem_append.mp hfuture with hold | hnew
        · exact .inl hold
        · exact .inr (List.mem_singleton.mp hnew)
      · exact .inl hfuture
    · refine ⟨hstands, fun hwaitable => ?_⟩
      rw [if_pos hwaitable]
      exact List.mem_append_right _ (List.mem_singleton_self _)
  | done =>
    change ∃ live' orphans', Tracks (SchedulerState.erase _ entry.2.name) live' orphans'
    rw [htracks.erase_eq List.erase_subset]
    refine ⟨before ++ after, orphans, htracks.remove ?_ (.inl rfl)⟩
    have hperm := htracks.handlers
    rw [List.map_append, List.map_cons, List.append_assoc, List.cons_append] at hperm
    have hrest := (hperm.trans List.perm_middle).erase (handlerOf (entry, .done))
    rw [List.erase_cons_head] at hrest
    rw [List.map_append, List.append_assoc]
    exact hrest

theorem Tracks.shutdown {name : String} (hheeds : Heeds state (.shutdown name)) :
    ∃ live' orphans', Tracks (state.shutdown name) live' orphans' := by
  unfold SchedulerState.shutdown
  cases hfound : state.findName name with
  | none => exact ⟨live, orphans, htracks⟩
  | some entry =>
    obtain ⟨rfl, phase, hmem⟩ := htracks.mem_of_findName hfound
    have hremoval : Handler.shutdown entry.2.name ∈ state.handlers := by
      rcases hheeds with hnone | hremoval
      · rw [hfound] at hnone
        cases hnone
      · exact hremoval
    rcases htracks.mem_handlers hremoval with ⟨other, otherPhase, hother, hof⟩ | ⟨_, horphan, heq⟩
    case inr =>
      cases heq
      have hdisjoint := (List.nodup_append.mp htracks.names).2.2
      exact absurd rfl (hdisjoint _ (List.mem_map_of_mem hmem) _ horphan)
    obtain ⟨rfl, hname⟩ := phase_of_shutdown hof
    have hsame := htracks.findName hother
    rw [hname, hfound, Option.some.injEq] at hsame
    subst hsame
    obtain ⟨before, after, rfl⟩ := List.append_of_mem hother
    have hleft : state.handlers.Perm ((before ++ after).map handlerOf ++
        (entry.2.name :: orphans).map .shutdown) := by
      have hperm := htracks.handlers
      rw [List.map_append, List.map_cons, List.append_assoc, List.cons_append] at hperm
      rw [List.map_cons, List.map_append]
      refine hperm.trans (List.perm_middle.trans ?_)
      rw [← List.append_assoc]
      exact List.perm_middle.symm
    have hremoved := htracks.remove hleft (.inr rfl)
    have herase := htracks.erase_eq (List.Subset.refl state.handlers)
    refine ⟨before ++ after, entry.2.name :: orphans, ?_⟩
    change Tracks { state.erase entry.2.name with shutDown := _ } _ _
    have herase' : state.erase entry.2.name =
      { state with entries := (before ++ after).map Prod.fst } := herase
    rw [herase']
    refine ⟨hremoved.entries, hremoved.handlers, hremoved.names, hremoved.ids, hremoved.tasks, ?_,
      hremoved.finished, hremoved.runs, hremoved.known, hremoved.futures, hremoved.late⟩
    intro other hother
    have hstands := hremoved.stands other hother
    obtain ⟨other, phase⟩ := other
    cases phase <;> exact hstands

theorem Tracks.step (hheeds : Heeds state event) (hstep : state.step event = some state') :
    ∃ live' orphans', Tracks state' live' orphans' := by
  cases event with
  | add task =>
    cases hstep
    exact ⟨_, orphans, htracks.add hheeds⟩
  | shutdown name =>
    cases hstep
    exact htracks.shutdown hheeds
  | handle handler =>
    unfold SchedulerState.step at hstep
    dsimp only at hstep
    split_ifs at hstep with hhandler
    cases hstep
    exact htracks.handle hhandler

theorem tracks_run {events : List (Event Body)}
    (hheeded : Heeded events state) (hrun : state.run events = some state') :
    ∃ live' orphans', Tracks state' live' orphans' := by
  induction events generalizing state live orphans with
  | nil =>
    cases hrun
    exact ⟨live, orphans, htracks⟩
  | cons event events ih =>
    obtain ⟨next, hstep, hrest⟩ := Option.bind_eq_some_iff.mp hrun
    obtain ⟨live', orphans', hnext⟩ := htracks.step hheeded.1 hstep
    exact ih hnext (hheeded.2 next hstep) hrest

theorem Tracks.isSound : IsSound state := by
  have hempty : state.handlers = [] → live = [] := by
    intro hnone
    have hperm := htracks.handlers
    rw [hnone] at hperm
    have hnil := List.nil_perm.mp hperm
    exact List.map_eq_nil_iff.mp (List.append_eq_nil_iff.mp hnil).1
  refine ⟨htracks.runs, fun future hfuture _ => htracks.futures future hfuture, htracks.late, ?_, ?_⟩
  · intro hnone id task htask _
    have hdone : IsDone state (id, task) := by
      apply htracks.finished id task htask
      rw [hempty hnone]
      exact List.not_mem_nil
    exact ⟨hdone.1, fun hwaitable => ⟨_, hdone.2 hwaitable⟩⟩
  · intro hnone
    rw [htracks.entries, hempty hnone]
    rfl

end

theorem tracks_initial : Tracks ({} : SchedulerState Body) [] [] where
  entries := rfl
  handlers := .nil
  names := List.nodup_nil
  ids := List.nodup_nil
  tasks := fun _ hmem => absurd hmem List.not_mem_nil
  stands := fun _ hmem => absurd hmem List.not_mem_nil
  finished := fun _ _ htask => absurd htask (by simp)
  runs := List.nodup_nil
  known := fun _ hmem => absurd hmem List.not_mem_nil
  futures := fun _ hmem => absurd hmem List.not_mem_nil
  late := rfl

end Runs

section Draining

variable {state : SchedulerState Body}

theorem work_cancel_le (id : Nat) (handler : Handler) :
    (SchedulerState.cancel id handler).work ≤ handler.work := by
  unfold SchedulerState.cancel
  split
  next heq =>
    rw [heq]
    exact Nat.le_succ 3
  next => exact le_refl _

theorem work_erase_le (state : SchedulerState Body) (name : String) :
    (state.erase name).work ≤ state.work := by
  unfold SchedulerState.erase
  split
  next => exact le_refl _
  next id task hfound =>
    change ((state.handlers.map (SchedulerState.cancel id)).map Handler.work).sum ≤
      (state.handlers.map Handler.work).sum
    rw [List.map_map]
    exact List.sum_le_sum fun handler _ => work_cancel_le id handler

theorem work_append (state : SchedulerState Body) (handler : Handler) :
    ((state.handlers ++ [handler]).map Handler.work).sum = state.work + handler.work := by
  rw [List.map_append, List.sum_append]
  rfl

theorem work_handle_lt (state : SchedulerState Body) (handler : Handler) :
    (state.handle handler).work < state.work + handler.work := by
  have hbegin : ∀ id, (state.begin id).work = state.work + 2 := fun id => work_append state _
  have hmiss : ∀ id, (state.miss id).work = state.work := fun id => rfl
  cases handler with
  | start id =>
    cases hfound : state.findId id with
    | none =>
      rw [SchedulerState.handle, hfound]
      change (state.miss id).work < state.work + 5
      rw [hmiss]
      omega
    | some entry =>
      rw [SchedulerState.handle_start hfound]
      change _ < state.work + 5
      split_ifs
      · have hwait := work_append state (Handler.wait id)
        change ((state.handlers ++ [Handler.wait id]).map Handler.work).sum < state.work + 5
        rw [hwait]
        change state.work + 4 < state.work + 5
        omega
      · rw [hbegin]
        omega
  | wait id =>
    have hexecute := work_append state (Handler.execute id false)
    change ((state.handlers ++ [Handler.execute id false]).map Handler.work).sum < state.work + 4
    rw [hexecute]
    change state.work + 3 < state.work + 4
    omega
  | execute id aborted =>
    rw [SchedulerState.handle]
    change _ < state.work + 3
    split
    · rw [hmiss]
      omega
    · split
      · omega
      · rw [hbegin]
        omega
  | running id =>
    cases hfound : state.findId id with
    | none =>
      rw [SchedulerState.handle, hfound]
      change (state.miss id).work < state.work + 2
      rw [hmiss]
      omega
    | some entry =>
      rw [SchedulerState.handle_running hfound]
      have hshutdown := work_append state (Handler.shutdown entry.2.name)
      change ((state.handlers ++ [Handler.shutdown entry.2.name]).map Handler.work).sum < state.work + 2
      rw [hshutdown]
      change state.work + 1 < state.work + 2
      omega
  | shutdown name =>
    have herase := work_erase_le state name
    change (state.erase name).work < state.work + 1
    omega

theorem drains_work (state : SchedulerState Body) : Drains state state.work := by
  intro events
  induction events generalizing state with
  | nil =>
    intro state' _ _
    exact Nat.zero_le _
  | cons event events ih =>
    intro state' hhandles hrun
    obtain ⟨next, hstep, hrest⟩ := Option.bind_eq_some_iff.mp hrun
    have hlater := ih next state' (fun event hmem => hhandles event (List.mem_cons_of_mem _ hmem))
      hrest
    have hevent := hhandles event List.mem_cons_self
    cases event with
    | add task => cases hevent
    | shutdown name => cases hevent
    | handle handler =>
      unfold SchedulerState.step at hstep
      dsimp only at hstep
      split_ifs at hstep with hhandler
      cases hstep
      have hless := work_handle_lt { state with handlers := state.handlers.erase handler } handler
      have hsum : state.work =
          ((state.handlers.erase handler).map Handler.work).sum + handler.work := by
        unfold SchedulerState.work
        rw [((List.perm_cons_erase hhandler).map Handler.work).sum_eq, List.map_cons,
          List.sum_cons, Nat.add_comm]
      rw [List.length_cons]
      change _ < ((state.handlers.erase handler).map Handler.work).sum + handler.work at hless
      omega

end Draining

section Soundness

variable {state : SchedulerState Body}

end Soundness

section Samples

def checksumTask : Task Unit := { name := "create-checksums", body := () }

end Samples

end AwsMock.Scheduling
