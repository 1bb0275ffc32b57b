import WkcRuntime.EvtRwSource

namespace WkcRuntime.EvtRw

open ConditionVariable

/-!
# The readers of the event

`evt_rd_wait` raises `s32Rd` before each condition wait and lowers it after, in
both branches and in every round of their loops.  The count changes hands with
the mutex, so whenever the mutex is free it is the number of threads inside a
wait, however they were woken.  A broadcast that is skipped because the count is
zero would have found nobody.
-/

/-- Every loop ends on the code `0`. -/
theorem not_repeats_zero (ulMilsecond : UInt64) :
    ¬ Repeats ulMilsecond 0 := by
  unfold Repeats
  split <;> simp

section Steps

variable {Tid : Type} [DecidableEq Tid]

/-- What one step does with the event and the threads around it. -/
inductive Progress
    (event next : State Tid) :
    Action Tid → Prop where
  | broadcasts
      {thread : Tid}
      (result : next = evtWrBroadcast thread event) :
      Progress event next (.broadcast thread)
  | answers
      {action : Action Tid}
      {thread : Tid}
      {s32Wr rc : Int32}
      {call : Call}
      (immediate : call = .reset ∨ call = .wait 0)
      (result :
        next = { event with s32Wr }.finish thread call rc) :
      Progress event next action
  | enters
      {thread : Tid}
      {ulMilsecond : UInt64}
      (outside : event.pool thread = .outside)
      (waits : ulMilsecond ≠ 0)
      (below : event.s32Rd ≠ intMax)
      (result :
        next = { event with
          s32Rd := event.s32Rd + 1
          pool :=
            Function.update event.pool thread (.asleep ulMilsecond)
          entered :=
            Function.update event.entered thread event.broadcasts }) :
      Progress event next (.wait thread ulMilsecond)
  | abandons
      {thread : Tid}
      {ulMilsecond : UInt64}
      (result : next = evtRdWaitClockFails thread ulMilsecond event) :
      Progress event next (.clockFails thread ulMilsecond)
  | wakes
      {action : Action Tid}
      {thread : Tid}
      {ulMilsecond : UInt64}
      {rc : Int32}
      (sleeping : event.pool thread = .asleep ulMilsecond)
      (spurious : rc = 0 → action = .spurious thread)
      (result :
        next = { event with
          pool := Function.update event.pool thread
            (.woken ulMilsecond rc) }) :
      Progress event next action
  | repeats
      {thread : Tid}
      {ulMilsecond : UInt64}
      {rc : Int32}
      (woken : event.pool thread = .woken ulMilsecond rc)
      (again : Repeats ulMilsecond rc)
      (result :
        next = { event with
          pool :=
            Function.update event.pool thread (.asleep ulMilsecond) }) :
      Progress event next (.resume thread)
  | leaves
      {thread : Tid}
      {ulMilsecond : UInt64}
      {rc : Int32}
      (woken : event.pool thread = .woken ulMilsecond rc)
      (free : event.mutex = none)
      (done : ¬ Repeats ulMilsecond rc)
      (result :
        next =
          { event with s32Rd := event.s32Rd - 1 }.leave thread
            ulMilsecond rc) :
      Progress event next (.resume thread)

/-- What the end of a condition wait does. -/
theorem wake_eq
    {event next : State Tid}
    {thread : Tid}
    {admits : UInt64 → Bool}
    {rc : Int32}
    (woke : wake thread admits rc event = some next) :
    ∃ ulMilsecond,
      event.pool thread = .asleep ulMilsecond ∧
        admits ulMilsecond = true ∧
        next = { event with
          pool := Function.update event.pool thread
            (.woken ulMilsecond rc) } := by
  unfold wake at woke
  cases phase : event.pool thread with
  | outside =>
      simp [phase] at woke
  | asleep ulMilsecond =>
      simp only [phase, Option.ite_none_right_eq_some,
        Option.some.injEq] at woke
      exact ⟨ulMilsecond, rfl, woke.1, woke.2.symm⟩
  | woken ulMilsecond rc =>
      simp [phase] at woke

/-- Every step is of one of these kinds. -/
theorem progress
    {event next : State Tid}
    {action : Action Tid}
    (stepped : step? event action = some next) :
    Progress event next action := by
  cases action with
  | broadcast thread =>
      simp only [step?, Option.ite_none_right_eq_some,
        Option.some.injEq] at stepped
      exact .broadcasts stepped.2.symm
  | reset thread =>
      simp only [step?, Option.ite_none_right_eq_some,
        Option.some.injEq] at stepped
      exact .answers (Or.inl rfl) stepped.2.symm
  | wait thread ulMilsecond =>
      simp only [step?, Option.ite_none_right_eq_some] at stepped
      obtain ⟨canEnter, waited⟩ := stepped
      unfold evtRdWait at waited
      by_cases polls : ulMilsecond = 0
      · rw [if_pos polls, Option.some.injEq] at waited
        subst next
        unfold poll
        split
        · exact .answers (Or.inr rfl) rfl
        · exact .answers (Or.inr rfl) rfl
      · simp only [polls, ↓reduceIte, sleep,
          Option.ite_none_left_eq_some, Option.some.injEq] at waited
        exact .enters canEnter.2 polls waited.1 waited.2.symm
  | clockFails thread ulMilsecond =>
      simp only [step?, Option.ite_none_right_eq_some,
        Option.some.injEq] at stepped
      exact .abandons stepped.2.symm
  | spurious thread =>
      obtain ⟨ulMilsecond, sleeping, _, result⟩ := wake_eq stepped
      exact .wakes sleeping (fun _ => rfl) result
  | timeout thread =>
      obtain ⟨ulMilsecond, sleeping, _, result⟩ := wake_eq stepped
      have notZero : etimedout ≠ 0 := by
        decide
      exact .wakes sleeping (fun zero => absurd zero notZero) result
  | error thread rc =>
      simp only [step?, Option.ite_none_right_eq_some] at stepped
      obtain ⟨ulMilsecond, sleeping, _, result⟩ := wake_eq stepped.2
      exact .wakes sleeping (fun zero => absurd zero stepped.1.1) result
  | resume thread =>
      simp only [step?] at stepped
      cases phase : event.pool thread with
      | outside =>
          simp [phase] at stepped
      | asleep ulMilsecond =>
          simp [phase] at stepped
      | woken ulMilsecond rc =>
          simp only [phase, Option.ite_none_right_eq_some] at stepped
          obtain ⟨free, resumed⟩ := stepped
          unfold evtRdWaitResume at resumed
          by_cases again : Repeats ulMilsecond rc
          · simp only [again, ↓reduceIte, sleep,
              Option.ite_none_left_eq_some, Option.some.injEq,
              Int32.sub_add_cancel] at resumed
            exact .repeats phase again resumed.2.symm
          · rw [if_neg again, Option.some.injEq] at resumed
            exact .leaves phase free again resumed.symm

end Steps

/-- The count is the number of threads inside a condition wait. -/
def Counted
    {Tid : Type}
    [Fintype Tid]
    (event : State Tid) :
    Prop :=
  event.s32Rd.toInt = insideCount event.pool

section Counting

variable {Tid : Type} [DecidableEq Tid] [Fintype Tid]

/-- A thread that goes to sleep is counted. -/
theorem toInt_add_one
    {s32Rd : Int32}
    (below : s32Rd ≠ intMax) :
    (s32Rd + 1).toInt = s32Rd.toInt + 1 := by
  have notMax : s32Rd.toInt ≠ 2147483647 := fun same =>
    below (Int32.toInt_inj.mp same)
  have lower := Int32.le_toInt s32Rd
  have upper := Int32.toInt_lt s32Rd
  rw [Int32.toInt_add, Int32.toInt_one]
  apply Int.bmod_eq_of_le <;> omega

/-- A thread that returns is not counted any more. -/
theorem toInt_sub_one
    {s32Rd : Int32}
    (positive : 0 < s32Rd.toInt) :
    (s32Rd - 1).toInt = s32Rd.toInt - 1 := by
  have upper := Int32.toInt_lt s32Rd
  rw [Int32.toInt_sub, Int32.toInt_one]
  apply Int.bmod_eq_of_le <;> omega

/-- Every step keeps the count. -/
theorem Counted.step
    {event next : State Tid}
    {action : Action Tid}
    (counted : Counted event)
    (stepped : step? event action = some next) :
    Counted next := by
  unfold Counted at counted ⊢
  cases progress stepped with
  | broadcasts result =>
      subst next
      simp only [evtWrBroadcast, State.finish, counted]
      split <;> simp
  | answers immediate result =>
      subst next
      exact counted
  | @enters thread ulMilsecond outside waits below result =>
      subst next
      have inside :=
        insideCount_update event.pool thread (.asleep ulMilsecond)
      simp only [outside, Phase.isInside_outside, Phase.isInside_asleep,
        Bool.toNat_false, Bool.toNat_true, Nat.add_zero] at inside
      simp only [toInt_add_one below, inside, counted]
      rfl
  | abandons result =>
      subst next
      exact counted
  | @wakes action thread ulMilsecond rc sleeping spurious result =>
      subst next
      have inside :=
        insideCount_update event.pool thread (.woken ulMilsecond rc)
      simp only [sleeping, Phase.isInside_asleep, Phase.isInside_woken,
        Nat.add_right_cancel_iff] at inside
      rw [inside]
      exact counted
  | @repeats thread ulMilsecond rc woken again result =>
      subst next
      have inside :=
        insideCount_update event.pool thread (.asleep ulMilsecond)
      simp only [woken, Phase.isInside_asleep, Phase.isInside_woken,
        Nat.add_right_cancel_iff] at inside
      rw [inside]
      exact counted
  | @leaves thread ulMilsecond rc woken free done result =>
      subst next
      have inside := insideCount_update event.pool thread .outside
      simp only [woken, Phase.isInside_outside, Phase.isInside_woken,
        Bool.toNat_false, Bool.toNat_true, Nat.add_zero] at inside
      have positive : 0 < event.s32Rd.toInt := by
        omega
      simp only [State.leave, toInt_sub_one positive]
      omega

/-- The mutex hands over the exact count in every run. -/
theorem counted_of_reachable
    {event : State Tid}
    (reachable : machine.Reachable event) :
    Counted event := by
  apply reachable.invariant
  · rintro start rfl
    have nobody : insideCount (evtRwCreate : State Tid).pool = 0 :=
      headcount_eq_zero_iff.mpr (fun _ => rfl)
    unfold Counted
    rw [nobody]
    rfl
  · intro before after action counted _ stepped
    exact counted.step stepped

end Counting

section Guard

variable {Tid : Type} [DecidableEq Tid] [Fintype Tid]

/-- `evt_wr_broadcast` without the test of `s32Rd`. -/
def evtWrBroadcastAlways
    (thread : Tid)
    (event : State Tid) :
    State Tid :=
  { event with
    s32Wr := 1
    pool := wakeAll 0 event.pool
    broadcasts := event.broadcasts + 1
  }.finish thread .broadcast 0

/-- The step function with the unguarded broadcast. -/
def stepAlways?
    (event : State Tid) :
    Action Tid → Option (State Tid)
  | .broadcast thread =>
      if CanEnter event thread then
        some (evtWrBroadcastAlways thread event)
      else
        none
  | action =>
      step? event action

/-- The same threads with the unguarded broadcast. -/
def machineAlways : Machine (State Tid) (Action Tid) where
  Initial := fun event => event = evtRwCreate
  step? := stepAlways?

omit [DecidableEq Tid] in
/-- With an exact count the guard only skips what would wake nobody. -/
theorem Counted.evtWrBroadcast_eq
    {event : State Tid}
    (counted : Counted event)
    (thread : Tid) :
    evtWrBroadcast thread event = evtWrBroadcastAlways thread event := by
  unfold evtWrBroadcast evtWrBroadcastAlways
  by_cases readers : 0 < event.s32Rd
  · rw [if_pos readers]
  · have empty : insideCount event.pool = 0 := by
      rw [Int32.lt_iff_toInt_lt, Int32.toInt_zero] at readers
      unfold Counted at counted
      omega
    rw [if_neg readers, wakeAll_of_insideCount_eq_zero 0 empty]

/-- The guard makes no difference to any step of a run. -/
theorem step?_eq_stepAlways?
    {event : State Tid}
    (action : Action Tid)
    (reachable : machine.Reachable event) :
    machine.step? event action = machineAlways.step? event action := by
  cases action with
  | broadcast thread =>
      simp only [machine, machineAlways, step?, stepAlways?,
        (counted_of_reachable reachable).evtWrBroadcast_eq]
  | reset thread => rfl
  | wait thread ulMilsecond => rfl
  | clockFails thread ulMilsecond => rfl
  | spurious thread => rfl
  | timeout thread => rfl
  | error thread rc => rfl
  | resume thread => rfl

/--
In every reachable state `s32Rd` is the number of readers inside a condition
wait, asleep or on their way to the mutex, and a broadcast that is skipped
because the count is zero leaves the state that an unguarded one would leave;
so the guarded and the unguarded event have the same runs.
-/
theorem readerGuard_unobservable :
    (∀ event : State Tid,
      machine.Reachable event →
      event.s32Rd.toInt = insideCount event.pool ∧
        ∀ thread,
          evtWrBroadcast thread event =
            evtWrBroadcastAlways thread event) ∧
      ∀ actions : List (Action Tid),
        machine.run? evtRwCreate actions =
          machineAlways.run? evtRwCreate actions := by
  constructor
  · intro event reachable
    have counted := counted_of_reachable reachable
    exact ⟨counted, counted.evtWrBroadcast_eq⟩
  · intro actions
    exact Machine.run?_congr step?_eq_stepAlways? (.initial rfl) actions

/--
Three readers: one asleep, one that timed out and has not got the mutex yet,
and one whose wait failed and that sleeps again.
-/
theorem readerGuard_unobservable_threeReaders :
    ∃ event : State (Fin 4),
      event.s32Rd = 3 ∧
        insideCount event.pool = 3 ∧
        evtWrBroadcast 3 event = evtWrBroadcastAlways 3 event := by
  obtain ⟨event, reachable, three⟩ :=
    Machine.exists_reachable
      machine
      (evtRwCreate : State (Fin 4))
      [
        .wait 0 infinite,
        .wait 1 50,
        .timeout 1,
        .wait 2 100,
        .error 2 22,
        .resume 2,
        .wait 3 0
      ]
      (fun event => decide (event.s32Rd = 3))
      rfl
      (by decide)
  rw [decide_eq_true_eq] at three
  obtain ⟨counted, unobservable⟩ :=
    readerGuard_unobservable.1 event reachable
  rw [three] at counted
  have inside : (insideCount event.pool : Int) = 3 :=
    counted.symm
  exact ⟨event, three, by omega, unobservable 3⟩

end Guard

end WkcRuntime.EvtRw
