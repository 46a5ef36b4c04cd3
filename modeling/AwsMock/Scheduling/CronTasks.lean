import Mathlib.Algebra.Order.Ring.Int

/-! # Cron tasks

A cron task waits for the next instant of its schedule. The waiting time is a number of whole
seconds that is cut off, so a timer may fire early, and the task is run again for the same instant.
Times are in nanoseconds, the instants of a schedule in seconds.
-/

namespace AwsMock.Scheduling.Cron

/-- The instants of an expression, and what `cron_next` gives of them. -/
structure Schedule where
  instants : Int → Prop
  cronNext : Int → Int
  instants_cronNext : ∀ t, instants (cronNext t)
  lt_cronNext : ∀ t, t < cronNext t
  cronNext_le : ∀ t i, instants i → t < i → cronNext t ≤ i

/-- The first instant of a schedule after a time. -/
def Schedule.following (schedule : Schedule) (t : Int) : Int :=
  schedule.cronNext (t / 1000000000) * 1000000000

/-- The expression is none when `make_cron` rejects it. -/
def getNextExecutionTime (cron : Option Schedule) (now : Int) : Int :=
  match cron with
  | some schedule => schedule.following now
  | none => now

def secondsUntil (next now : Int) : Int := (next - now).tdiv 1000000000

/-- The later readings of the clock in `GetNextExecutionTimeSeconds`, which sleeps for two seconds
when there is less than one to wait. -/
structure Readings (cron : Option Schedule) (first : Int) where
  second : Int
  third : Int
  first_le : first ≤ second
  second_le : second ≤ third
  slept : secondsUntil (getNextExecutionTime cron first) second < 1 → second + 2000000000 ≤ third

/-- A timer that is set, with the runs of the task so far, the last one first: for which time, and
when. -/
structure CronEntry where
  next : Int
  armed : Int
  expiry : Int
  ran : List (Int × Int)

def arm (cron : Option Schedule) (first : Int) (readings : Readings cron first)
    (ran : List (Int × Int)) : CronEntry :=
  let next := getNextExecutionTime cron first
  ⟨next, readings.third,
    readings.third + secondsUntil next readings.third * 1000000000, ran⟩

variable (cron : Option Schedule) (schedule : Schedule) (meets : CronEntry → Prop) (begin : Int)

/-- The states of a task that began at a time, when every timer that is set meets a condition. -/
inductive Reaches : CronEntry → Prop where
  | start (readings : Readings cron begin) :
      meets (arm cron begin readings []) → Reaches (arm cron begin readings [])
  | execute {entry : CronEntry} (fired : Int) (readings : Readings cron fired) :
      Reaches entry → entry.armed ≤ fired → entry.expiry ≤ fired →
      meets (arm cron fired readings ((entry.next, fired) :: entry.ran)) →
      Reaches (arm cron fired readings ((entry.next, fired) :: entry.ran))

/-- It is time already, or there are whole seconds left. -/
def IsWhole (entry : CronEntry) : Prop :=
  entry.next ≤ entry.armed ∨ 1000000000 ∣ entry.next - entry.armed

/-- No instant is between the times of the runs. -/
def Unskipped (next : Int) : List (Int × Int) → Prop
  | [] => next = schedule.following begin
  | run :: ran => next = schedule.following run.1 ∧ Unskipped run.1 ran

/-- What is asked of the runs of a task. -/
structure IsOnTime (entry : CronEntry) : Prop where
  scheduled : ∀ run ∈ entry.ran, ∃ i, schedule.instants i ∧ run.1 = i * 1000000000
  once : (entry.ran.map Prod.fst).Pairwise (· > ·)
  not_early : ∀ run ∈ entry.ran, run.1 ≤ run.2
  unskipped : (∀ run ∈ entry.ran, run.2 < schedule.following run.1) →
    Unskipped schedule begin entry.next entry.ran

section Schedules

variable {schedule} {t u i : Int}

theorem Schedule.lt_following : t < schedule.following t := by
  have hlt := schedule.lt_cronNext (t / 1000000000)
  unfold following
  omega

/-- Within a gap of the schedule the following instant is the same. -/
theorem Schedule.following_eq (hle : t ≤ u) (hlt : u < schedule.following t) :
    schedule.following u = schedule.following t := by
  unfold following at hlt ⊢
  have hbefore : u / 1000000000 < schedule.cronNext (t / 1000000000) := by omega
  have hupper := schedule.cronNext_le _ _ (schedule.instants_cronNext _) hbefore
  have hlower := schedule.cronNext_le (t / 1000000000) _
    (schedule.instants_cronNext (u / 1000000000))
    (lt_of_le_of_lt (by omega) (schedule.lt_cronNext _))
  rw [le_antisymm hupper hlower]

end Schedules

/-- A timer cannot fire early exactly when the time is left in whole seconds. -/
theorem le_fired_iff_isWhole (entry : CronEntry)
    (hexpiry : entry.expiry = entry.armed + secondsUntil entry.next entry.armed * 1000000000) :
    (∀ fired, entry.armed ≤ fired → entry.expiry ≤ fired → entry.next ≤ fired) ↔
      IsWhole entry := by
  unfold IsWhole
  unfold secondsUntil at hexpiry
  rcases Int.le_total entry.next entry.armed with hle | hle
  · exact iff_of_true (fun fired harmed _ => hle.trans harmed) (.inl hle)
  · rw [Int.tdiv_eq_ediv_of_nonneg (by omega)] at hexpiry
    constructor
    · intro hall
      have hnext := hall (max entry.armed entry.expiry) (le_max_left _ _) (le_max_right _ _)
      omega
    · intro hwhole fired harmed hfired
      omega

theorem Reaches.expiry_eq {entry : CronEntry} (hreach : Reaches cron meets begin entry) :
    entry.expiry = entry.armed + secondsUntil entry.next entry.armed * 1000000000 := by
  cases hreach <;> rfl

/-- Where all timers are set for whole seconds, the runs are on time. -/
theorem Reaches.isOnTime {entry : CronEntry}
    (hreach : Reaches (some schedule) IsWhole begin entry) :
    IsOnTime schedule begin entry ∧ IsWhole entry ∧ (∀ run ∈ entry.ran, run.1 < entry.next) ∧
      ∃ t, entry.next = schedule.following t := by
  induction hreach with
  | start readings hwhole =>
    refine ⟨⟨?_, List.Pairwise.nil, ?_, fun _ => rfl⟩, hwhole, ?_, begin, rfl⟩
    all_goals exact fun _ hmem => absurd hmem List.not_mem_nil
  | @execute entry fired readings hreach harmed hexpiry hwhole ih =>
    obtain ⟨hontime, hentry, hbefore, t, ht⟩ := ih
    have hfired := (le_fired_iff_isWhole entry (hreach.expiry_eq _ _ _)).2 hentry fired harmed
      hexpiry
    -- the timer was not early, so the next run is for a later instant
    have hnext : entry.next < schedule.following fired :=
      lt_of_le_of_lt hfired Schedule.lt_following
    refine ⟨⟨?_, ?_, ?_, ?_⟩, hwhole, ?_, fired, rfl⟩
    · refine List.forall_mem_cons.2 ⟨⟨_, schedule.instants_cronNext _, ht⟩, hontime.scheduled⟩
    · refine List.pairwise_cons.2 ⟨fun n hn => ?_, hontime.once⟩
      obtain ⟨run, hrun, rfl⟩ := List.mem_map.1 hn
      exact hbefore run hrun
    · exact List.forall_mem_cons.2 ⟨hfired, hontime.not_early⟩
    · intro hall
      obtain ⟨hlast, hrest⟩ := List.forall_mem_cons.1 hall
      exact ⟨Schedule.following_eq hfired hlast, hontime.unskipped hrest⟩
    · refine List.forall_mem_cons.2 ⟨hnext, fun run hrun => ?_⟩
      exact (hbefore run hrun).trans hnext

/-- Runs are on time while timers are set for whole seconds; any other timer may fire early, and a
task without a schedule is run. -/
theorem cron_runs :
    (∀ entry, Reaches (some schedule) IsWhole begin entry → IsOnTime schedule begin entry) ∧
    (∀ entry, Reaches cron meets begin entry →
      ((∀ fired, entry.armed ≤ fired → entry.expiry ≤ fired → entry.next ≤ fired) ↔
        IsWhole entry)) ∧
    ∃ entry, Reaches none (fun _ => True) begin entry ∧ entry.ran ≠ [] := by
  refine ⟨fun entry hreach => (hreach.isOnTime).1,
    fun entry hreach => le_fired_iff_isWhole entry (hreach.expiry_eq _ _ _), ?_⟩
  have readings (first : Int) : Readings none first :=
    ⟨first, first + 2000000000, le_refl _, by omega, fun _ => le_refl _⟩
  have hreach : Reaches none (fun _ => True) begin _ := .start (readings begin) trivial
  let entry := arm none begin (readings begin) []
  exact ⟨_, .execute (max entry.armed entry.expiry) (readings _) hreach (le_max_left _ _)
    (le_max_right _ _) trivial, List.cons_ne_nil _ _⟩

def everyMinute : Schedule where
  instants i := 60 ∣ i
  cronNext t := (t / 60 + 1) * 60
  instants_cronNext t := Int.dvd_mul_left _ _
  lt_cronNext t := by omega
  cronNext_le t i hi hlt := by omega

/-- Half a second after a full minute, the timer is set for 59 seconds. -/
theorem exists_not_isOnTime : ∃ entry,
    Reaches (some everyMinute) (fun _ => True) 500000000 entry ∧
      ¬IsOnTime everyMinute 500000000 entry := by
  let first : Readings (some everyMinute) 500000000 :=
    ⟨500000000, 500000000, le_refl _, le_refl _, fun hlt => absurd hlt (by decide)⟩
  let later : Readings (some everyMinute) 59500000000 :=
    ⟨59500000000, 61500000000, le_refl _, by decide, fun _ => by decide⟩
  refine ⟨_, .execute 59500000000 later (.start first trivial) (by decide) (by decide) trivial,
    fun hontime => ?_⟩
  exact absurd (hontime.not_early _ List.mem_cons_self) (by decide)

/-! ## Runs that begin early -/

/-- A task takes the instants in their order, is run at most twice for each, and never begins a
second early. -/
structure IsRepeatedOnce (entry : CronEntry) : Prop where
  in_order : (entry.ran.map Prod.fst).Pairwise (· ≥ ·)
  at_most_twice : ∀ instant, (entry.ran.map Prod.fst).count instant ≤ 2
  nearly : ∀ run ∈ entry.ran, run.1 < run.2 + 1000000000

section Early

variable {schedule meets begin} {entry : CronEntry} {t fired : Int}

theorem secondsUntil_bounds (next now : Int) :
    next - now < secondsUntil next now * 1000000000 + 1000000000 ∧
      (next < now + 1000000000 → secondsUntil next now < 1) := by
  rw [secondsUntil, Int.tdiv_eq_ediv]
  split
  · omega
  · rw [Int.sign_eq_one_of_pos (by decide)]
    omega

/-- A timer fires less than a second early. -/
theorem next_lt_fired (hreach : Reaches cron meets begin entry) (hfired : entry.expiry ≤ fired) :
    entry.next < fired + 1000000000 := by
  have hbound := (secondsUntil_bounds entry.next entry.armed).1
  rw [hreach.expiry_eq] at hfired
  omega

theorem le_third (readings : Readings cron fired) : fired ≤ readings.third :=
  readings.first_le.trans readings.second_le

/-- After an early run the task sleeps past the instant. -/
theorem following_le_third (readings : Readings (some schedule) fired)
    (hnearly : schedule.following fired < fired + 1000000000) :
    schedule.following fired ≤ readings.third := by
  have hfirst := readings.first_le
  have hslept := readings.slept ((secondsUntil_bounds _ _).2 (by
    rw [getNextExecutionTime]
    omega))
  omega

/-- The time that a timer is set for is in the runs only after an early one, which was the last
before the task slept. -/
theorem Reaches.isRepeatedOnce (hreach : Reaches (some schedule) meets begin entry) :
    IsRepeatedOnce entry ∧ (∃ t ≤ entry.armed, entry.next = schedule.following t) ∧
      (∀ run ∈ entry.ran, run.1 ≤ entry.next) ∧
      (entry.armed < entry.next → (entry.ran.map Prod.fst).count entry.next = 0) ∧
      (entry.ran.map Prod.fst).count entry.next ≤ 1 := by
  induction hreach with
  | start readings =>
    refine ⟨⟨List.Pairwise.nil, fun _ => Nat.zero_le _, ?_⟩, ⟨begin, le_third _ readings, rfl⟩, ?_,
      fun _ => rfl, Nat.zero_le _⟩
    all_goals exact fun _ hmem => absurd hmem List.not_mem_nil
  | @execute entry fired readings hreach harmed hexpiry _ ih =>
    obtain ⟨hrepeated, ⟨t, htarmed, ht⟩, hbefore, hnew, honce⟩ := ih
    have hnearly := next_lt_fired _ hreach hexpiry
    have hordered : ((entry.next :: entry.ran.map Prod.fst)).Pairwise (· ≥ ·) := by
      refine List.pairwise_cons.mpr ⟨fun instant hinstant => ?_, hrepeated.in_order⟩
      obtain ⟨run, hrun, rfl⟩ := List.mem_map.mp hinstant
      exact hbefore run hrun
    have hcount : ∀ instant, (entry.next :: entry.ran.map Prod.fst).count instant ≤ 2 := by
      intro instant
      rw [List.count_cons]
      split
      next heq =>
        rw [← eq_of_beq heq]
        omega
      next => exact hrepeated.at_most_twice instant
    have hrecent : ∀ run ∈ (entry.next, fired) :: entry.ran, run.1 < run.2 + 1000000000 :=
      List.forall_mem_cons.mpr ⟨hnearly, hrepeated.nearly⟩
    have hreadings := le_third _ readings
    rcases lt_or_ge fired entry.next with hearly | hlate
    -- the same instant again, and the task sleeps past it
    · have hnext : schedule.following fired = entry.next := by
        rw [ht] at hearly ⊢
        exact Schedule.following_eq (htarmed.trans harmed) hearly
      have hthird := following_le_third readings (hnext ▸ hnearly)
      refine ⟨⟨hordered, hcount, hrecent⟩, ⟨fired, hreadings, rfl⟩, ?_, ?_, ?_⟩
      · exact List.forall_mem_cons.mpr ⟨hnext.ge, fun run hrun => hnext ▸ hbefore run hrun⟩
      · exact fun hlt => absurd hthird (not_le.mpr hlt)
      · change (entry.next :: _).count (schedule.following fired) ≤ 1
        rw [hnext, List.count_cons_self, hnew (lt_of_le_of_lt harmed hearly)]
    · have hnext : entry.next < schedule.following fired :=
        lt_of_le_of_lt hlate Schedule.lt_following
      have hall : ∀ run ∈ (entry.next, fired) :: entry.ran, run.1 < schedule.following fired :=
        List.forall_mem_cons.mpr ⟨hnext, fun run hrun => (hbefore run hrun).trans_lt hnext⟩
      have hzero : (((entry.next, fired) :: entry.ran).map Prod.fst).count
          (schedule.following fired) = 0 := by
        refine List.count_eq_zero.mpr fun hmem => ?_
        obtain ⟨run, hrun, heq⟩ := List.mem_map.mp hmem
        exact (hall run hrun).ne heq
      exact ⟨⟨hordered, hcount, hrecent⟩, ⟨fired, hreadings, rfl⟩,
        fun run hrun => (hall run hrun).le, fun _ => hzero, hzero.le.trans (Nat.zero_le 1)⟩

end Early

theorem isRepeatedOnce_of_reaches (entry : CronEntry)
    (hreach : Reaches (some schedule) meets begin entry) : IsRepeatedOnce entry :=
  hreach.isRepeatedOnce.1

theorem isRepeatedOnce_everyMinute : ∃ entry, entry.ran ≠ [] ∧ IsRepeatedOnce entry := by
  let first : Readings (some everyMinute) 30000000000 :=
    ⟨30000000000, 30000000000, le_refl _, le_refl _, fun hlt => absurd hlt (by decide)⟩
  let later : Readings (some everyMinute) 60000000000 :=
    ⟨60000000000, 60000000000, le_refl _, le_refl _, fun hlt => absurd hlt (by decide)⟩
  exact ⟨_, List.cons_ne_nil _ _, isRepeatedOnce_of_reaches everyMinute (fun _ => True) 30000000000
    _ (.execute 60000000000 later (.start first trivial) (by decide) (by decide) trivial)⟩

end AwsMock.Scheduling.Cron
