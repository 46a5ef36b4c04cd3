import Mathlib.Data.List.Basic
import Mathlib.Data.List.Induction
import Mathlib.Data.List.Count
import Mathlib.Logic.Function.Iterate

/-! # Paths read with a stack

The segments of a path are read from the left. Names are put on a stack, a step up takes
the last one away, and segments to skip change nothing. From a root that cannot be left a
step up from nothing is lost; otherwise it stays on the stack.

A path that is read on top of other segments is read as from the root, but for the steps up
that the root would have lost: they climb into what was there.
-/

namespace Foundation.PathStack

variable {α : Type*} [DecidableEq α] (skip : α → Bool) (up : α)

def climb (rooted : Bool) (stack : List α) : List α :=
  if rooted then stack.dropLast
  else if stack ≠ [] ∧ stack.getLast? ≠ some up then stack.dropLast
  else stack ++ [up]

def place (rooted : Bool) (stack : List α) (segment : α) : List α :=
  if skip segment then stack
  else if segment = up then climb up rooted stack
  else stack ++ [segment]

def resolve (rooted : Bool) (stack segments : List α) : List α :=
  segments.foldl (place skip up rooted) stack

/-- How often a path steps up from nothing, when it is read below `depth` names. -/
def excess : Nat → List α → Nat
  | _, [] => 0
  | depth, segment :: segments =>
    if skip segment then excess depth segments
    else if segment = up then
      match depth with
      | 0 => excess 0 segments + 1
      | depth + 1 => excess depth segments
    else excess (depth + 1) segments

section Climb

variable {up} {rooted : Bool}

@[simp] theorem climb_rooted (stack : List α) : climb up true stack = stack.dropLast := rfl

variable {stack : List α}

theorem climb_append_name {name : α} (hname : name ≠ up) :
    climb up rooted (stack ++ [name]) = stack := by
  simp [climb, hname]

/-- Names above the root less the steps up that stay: a step up lowers it by one. -/
def height (up : α) (stack : List α) : Int :=
  (stack.countP fun segment => segment ≠ up) - (stack.count up : Int)

theorem height_climb (stack : List α) : height up (climb up false stack) = height up stack - 1 := by
  rcases List.eq_nil_or_concat stack with rfl | ⟨front, last, rfl⟩
  · simp [climb, height]
  · by_cases hlast : last = up
    · subst hlast
      simp [climb, height]
      omega
    · rw [List.concat_eq_append, climb_append_name hlast]
      simp [height, hlast]
      omega

theorem height_iterate_climb (times : Nat) (stack : List α) :
    height up ((climb up false)^[times] stack) = height up stack - times := by
  induction times generalizing stack with
  | zero => simp
  | succ times ih =>
    rw [Function.iterate_succ_apply, ih, height_climb]
    push_cast
    omega

theorem length_iterate_climb (times : Nat) (stack : List α) :
    ((climb up true)^[times] stack).length = stack.length - times := by
  induction times generalizing stack with
  | zero => rfl
  | succ times ih =>
    rw [Function.iterate_succ_apply, ih, climb_rooted, List.length_dropLast]
    omega

theorem mem_iterate_climb {times : Nat} {segment : α}
    (hmem : segment ∈ (climb up rooted)^[times] stack) : segment ∈ stack ∨ segment = up := by
  induction times generalizing stack with
  | zero => exact .inl hmem
  | succ times ih =>
    rw [Function.iterate_succ_apply] at hmem
    rcases ih hmem with hmem | hmem
    · unfold climb at hmem
      split at hmem
      · exact .inl ((List.dropLast_subset stack) hmem)
      · split at hmem
        · exact .inl ((List.dropLast_subset stack) hmem)
        · rcases List.mem_append.mp hmem with hmem | hmem
          · exact .inl hmem
          · exact .inr (List.mem_singleton.mp hmem)
    · exact .inr hmem

theorem iterate_climb_eq_iff {times : Nat} :
    (climb up rooted)^[times] stack = stack ↔ times = 0 ∨ (rooted = true ∧ stack = []) := by
  constructor
  · intro heq
    cases rooted with
    | true =>
      have hlength := congrArg List.length heq
      rw [length_iterate_climb] at hlength
      by_cases htimes : times = 0
      · exact .inl htimes
      · exact .inr ⟨rfl, List.eq_nil_of_length_eq_zero (by omega)⟩
    | false =>
      have hheight := congrArg (height up) heq
      rw [height_iterate_climb] at hheight
      exact .inl (by omega)
  · rintro (rfl | ⟨rfl, rfl⟩)
    · rfl
    · apply List.eq_nil_of_length_eq_zero
      rw [length_iterate_climb, List.length_nil, Nat.zero_sub]

end Climb

section Resolve

variable {skip up} {rooted : Bool}

def IsName (skip : α → Bool) (up segment : α) : Prop := skip segment = false ∧ segment ≠ up

theorem resolve_append_segments (stack front back : List α) :
    resolve skip up rooted stack (front ++ back) =
      resolve skip up rooted (resolve skip up rooted stack front) back :=
  List.foldl_append

theorem resolve_cons (stack : List α) (segment : α) (segments : List α) :
    resolve skip up rooted stack (segment :: segments) =
      resolve skip up rooted (place skip up rooted stack segment) segments :=
  rfl

theorem place_name {segment : α} (hsegment : IsName skip up segment) (stack : List α) :
    place skip up rooted stack segment = stack ++ [segment] := by
  simp [place, hsegment.1, hsegment.2]

theorem resolve_names {names : List α} (hnames : ∀ name ∈ names, IsName skip up name)
    (stack : List α) : resolve skip up rooted stack names = stack ++ names := by
  induction names generalizing stack with
  | nil => exact (List.append_nil stack).symm
  | cons name names ih =>
    rw [List.forall_mem_cons] at hnames
    rw [resolve_cons, place_name hnames.1, ih hnames.2, List.append_assoc]
    rfl

theorem resolve_filter (stack segments : List α) :
    resolve skip up rooted stack (segments.filter fun segment => !skip segment) =
      resolve skip up rooted stack segments := by
  induction segments generalizing stack with
  | nil => rfl
  | cons segment segments ih =>
    by_cases hsegment : skip segment = true
    · rw [List.filter_cons_of_neg (by simp [hsegment]), resolve_cons, ih]
      simp [place, hsegment]
    · rw [List.filter_cons_of_pos (by simpa using hsegment), resolve_cons, resolve_cons, ih]

theorem excess_filter (depth : Nat) (segments : List α) :
    excess skip up depth (segments.filter fun segment => !skip segment) =
      excess skip up depth segments := by
  induction segments generalizing depth with
  | nil => rfl
  | cons segment segments ih =>
    by_cases hsegment : skip segment = true
    · rw [List.filter_cons_of_neg (by simp [hsegment]), ih]
      simp [excess, hsegment]
    · rw [List.filter_cons_of_pos (by simpa using hsegment)]
      cases depth <;> simp [excess, ih]

theorem excess_names {names : List α} (hnames : ∀ name ∈ names, IsName skip up name)
    (depth : Nat) : excess skip up depth names = 0 := by
  induction names generalizing depth with
  | nil => rfl
  | cons name names ih =>
    rw [List.forall_mem_cons] at hnames
    simp only [excess, hnames.1.1, hnames.1.2, if_false, Bool.false_eq_true]
    exact ih hnames.2 (depth + 1)

theorem mem_resolve {stack segments : List α} {segment : α}
    (hsegment : segment ∈ resolve skip up rooted stack segments) :
    segment ∈ stack ∨
      (segment ∈ segments ∧ skip segment = false ∧ (rooted = true → segment ≠ up)) := by
  induction segments generalizing stack with
  | nil => exact .inl hsegment
  | cons first segments ih =>
    rw [resolve_cons] at hsegment
    rcases ih hsegment with hplaced | ⟨hmem, hkept⟩
    · have hfirst : segment ∈ stack ∨
          (segment = first ∧ skip first = false ∧ (rooted = true → first ≠ up)) := by
        unfold place climb at hplaced
        split at hplaced
        · exact .inl hplaced
        · next hskip =>
          split at hplaced
          · next hup =>
            split at hplaced
            · exact .inl ((List.dropLast_subset stack) hplaced)
            · next hrooted =>
              split at hplaced
              · exact .inl ((List.dropLast_subset stack) hplaced)
              · rcases List.mem_append.mp hplaced with hmem | hmem
                · exact .inl hmem
                · refine .inr ⟨(List.mem_singleton.mp hmem).trans hup.symm, by simpa using hskip,
                    fun htrue => absurd htrue hrooted⟩
          · next hup =>
            rcases List.mem_append.mp hplaced with hmem | hmem
            · exact .inl hmem
            · exact .inr ⟨List.mem_singleton.mp hmem, by simpa using hskip, fun _ => hup⟩
      rcases hfirst with hmem | ⟨rfl, hkept⟩
      · exact .inl hmem
      · exact .inr ⟨List.mem_cons_self, hkept⟩
    · exact .inr ⟨List.mem_cons_of_mem _ hmem, hkept⟩

/-- A path on top of `base` reads as from the root, but for its excess of steps up. -/
theorem resolve_append_stack (base : List α) {top : List α}
    (htop : ∀ name ∈ top, IsName skip up name) (segments : List α) :
    resolve skip up rooted (base ++ top) segments =
      (climb up rooted)^[excess skip up top.length segments] base ++
        resolve skip up true top segments := by
  induction segments generalizing base top with
  | nil => rfl
  | cons segment segments ih =>
    rw [resolve_cons, resolve_cons]
    by_cases hskip : skip segment = true
    · simp only [place, excess, hskip, if_true]
      exact ih base htop
    · by_cases hup : segment = up
      · subst hup
        simp only [place, excess, hskip, if_true]
        rcases List.eq_nil_or_concat top with rfl | ⟨front, last, rfl⟩
        · rw [List.append_nil]
          have hbase := @ih (climb segment rooted base) [] (fun _ hname => nomatch hname)
          rw [List.append_nil] at hbase
          exact hbase
        · rw [List.concat_eq_append] at htop ⊢
          have hlast : last ≠ segment := (htop last (by simp)).2
          rw [← List.append_assoc, climb_append_name hlast, climb_append_name hlast,
            List.length_append]
          exact ih base fun name hname => htop name (List.mem_append_left _ hname)
      · simp only [place, excess, hskip, hup, if_false]
        rw [List.append_assoc]
        have hnames : ∀ name ∈ top ++ [segment], IsName skip up name := by
          intro name hname
          rcases List.mem_append.mp hname with hmem | hmem
          · exact htop name hmem
          · rw [List.mem_singleton.mp hmem]
            exact ⟨by simpa using hskip, hup⟩
        have hnext := ih base hnames
        rw [List.length_append] at hnext
        exact hnext

/-- A path that is read on top of `base`. -/
theorem resolve_stack (base segments : List α) :
    resolve skip up rooted base segments =
      (climb up rooted)^[excess skip up 0 segments] base ++ resolve skip up true [] segments := by
  have happend := @resolve_append_stack _ _ skip up rooted base []
    (fun _ hname => nomatch hname) segments
  rwa [List.append_nil] at happend

theorem resolve_replicate_up (hup : skip up = false) {stack : List α}
    (hstack : ∀ name ∈ stack, IsName skip up name) :
    resolve skip up true stack (List.replicate stack.length up) = [] := by
  induction stack using List.reverseRecOn with
  | nil => rfl
  | append_singleton front last ih =>
    rw [List.length_append, List.length_singleton, List.replicate_succ, resolve_cons]
    have hplace : place skip up true (front ++ [last]) up = front := by
      rw [place, hup, if_neg Bool.false_ne_true, if_pos rfl]
      exact climb_append_name (hstack last (by simp)).2
    rw [hplace]
    exact ih fun name hname => hstack name (List.mem_append_left _ hname)

theorem iterate_climb_nil (times : Nat) :
    (climb up false)^[times] [] = List.replicate times up := by
  induction times with
  | zero => rfl
  | succ times ih =>
    rw [Function.iterate_succ_apply', ih, List.replicate_succ']
    cases times with
    | zero => rfl
    | succ times => simp [climb, List.getLast?_replicate]

/-- What is left of a path reads as itself. -/
theorem resolve_resolve (hup : skip up = false) (segments : List α) :
    resolve skip up rooted [] (resolve skip up rooted [] segments) =
      resolve skip up rooted [] segments := by
  have hnames : ∀ name ∈ resolve skip up true [] segments, IsName skip up name := by
    intro name hname
    rcases mem_resolve hname with hmem | ⟨-, hskip, hup⟩
    · cases hmem
    · exact ⟨hskip, hup rfl⟩
  have hclimbs : ∀ times, resolve skip up rooted [] ((climb up rooted)^[times] []) =
      (climb up rooted)^[times] [] := by
    intro times
    cases rooted with
    | true => rw [iterate_climb_eq_iff.mpr (.inr ⟨rfl, rfl⟩)]; rfl
    | false =>
      induction times with
      | zero => rfl
      | succ times ih =>
        rw [iterate_climb_nil] at ih ⊢
        rw [List.replicate_succ', resolve_append_segments, ih, resolve_cons, place, hup,
          if_neg Bool.false_ne_true, if_pos rfl, ← iterate_climb_nil,
          ← Function.iterate_succ_apply' (climb up false), iterate_climb_nil,
          iterate_climb_nil, List.replicate_succ']
        rfl
  rw [resolve_stack [] segments, resolve_append_segments, hclimbs, resolve_names hnames]

end Resolve

end Foundation.PathStack
