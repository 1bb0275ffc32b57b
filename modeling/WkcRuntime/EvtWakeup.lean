import WkcRuntime.EvtSource

namespace WkcRuntime.Evt

open ConditionVariable

/-!
# Wakeups of the event

A signal wakes somebody only when it finds the event reset, so between a signal
and the wait that takes it one thread has to be on its way.  Every way of
re-taking the mutex keeps this, by resetting the event or by sleeping with the
event reset, except the return on `ETIMEDOUT`: it leaves an event that is set
behind, together with the wakeup it consumed.
-/

/-- The event is set, a thread sleeps and nobody is on the way to it. -/
def Stranded {Tid : Type} (event : State Tid) : Prop :=
  event.state = 1 ∧
    (∃ thread, (event.pool thread).isAsleep = true) ∧
    ∀ thread, (event.pool thread).isWoken = false

instance
    {Tid : Type}
    [Fintype Tid]
    (event : State Tid) :
    Decidable (Stranded event) :=
  inferInstanceAs (Decidable (_ ∧ _ ∧ _))

/-- The thread's next step is the return on `ETIMEDOUT`. -/
def State.timesOut
    {Tid : Type}
    (event : State Tid)
    (thread : Tid) :
    Bool :=
  match event.pool thread with
  | .woken ulMilsecond .timedOut => decide (ulMilsecond ≠ infinite)
  | _ => false

/-- The thread that a step lets resume its wait. -/
def Action.resumed? {Tid : Type} : Action Tid → Option Tid
  | .resume thread => some thread
  | _ => none

section Model

variable {Tid : Type} [Fintype Tid]

/--
A wait that returns on `ETIMEDOUT` finds the event reset, or nobody asleep, or
another thread woken besides itself.
-/
def SparesSignal
    (event : State Tid)
    (action : Action Tid) :
    Prop :=
  ∀ thread,
    action.resumed? = some thread →
    event.timesOut thread = true →
    event.state ≠ 1 ∨
      asleepCount event.pool = 0 ∨
      1 < wokenCount event.pool

instance
    [DecidableEq Tid]
    (event : State Tid)
    (action : Action Tid) :
    Decidable (SparesSignal event action) :=
  inferInstanceAs (Decidable (∀ _, _))

/-- A thread is on its way whenever the event is set and somebody sleeps. -/
def Covered (event : State Tid) : Prop :=
  event.state ≠ 1 ∨
    asleepCount event.pool = 0 ∨
    0 < wokenCount event.pool

/-- Nobody is stranded exactly in a covered state. -/
theorem covered_iff_notStranded
    {event : State Tid} :
    Covered event ↔ ¬ Stranded event := by
  have sleepers :
      (∃ thread, (event.pool thread).isAsleep = true) ↔
        asleepCount event.pool ≠ 0 :=
    headcount_pos_iff.symm.trans Nat.pos_iff_ne_zero
  have nobody :
      (∀ thread, (event.pool thread).isWoken = false) ↔
        ¬ 0 < wokenCount event.pool :=
    headcount_eq_zero_iff.symm.trans Nat.pos_iff_ne_zero.not_left.symm
  rw [Covered, Stranded, sleepers, nobody]
  tauto

end Model

section Preservation

variable {Tid : Type} [DecidableEq Tid] [Fintype Tid]

/-- The loop test resets the event or sleeps with the event reset. -/
theorem covered_evtMtxWait
    (thread : Tid)
    (ulMilsecond : UInt64)
    (event : State Tid) :
    Covered (evtMtxWait thread ulMilsecond event) := by
  left
  unfold evtMtxWait
  by_cases unset : event.state ≠ 1
  · rw [if_pos unset]
    exact unset
  · rw [if_neg unset]
    exact show (0 : Int32) ≠ 1 by decide

omit [DecidableEq Tid] in
/-- A thread that has just been woken is on its way. -/
theorem covered_of_woken
    {event : State Tid}
    (thread : Tid)
    (woken : (event.pool thread).isWoken = true) :
    Covered event := by
  right
  right
  exact headcount_pos_iff.mpr ⟨thread, woken⟩

omit [DecidableEq Tid] in
/-- A signal wakes somebody, or finds the event already set. -/
theorem Covered.signal
    {event next : State Tid}
    (covered : Covered event)
    {thread : Tid}
    {chosen : Tid → Option Wake}
    (signalled : evtMtxSignal thread chosen event = some next) :
    Covered next := by
  unfold evtMtxSignal at signalled
  by_cases unset : event.state = 0
  · rw [if_pos unset, Option.map_eq_some_iff] at signalled
    obtain ⟨pool, woken, rfl⟩ := signalled
    right
    exact wakeSome?_covers woken
  · rw [if_neg unset, Option.some.injEq] at signalled
    subst next
    exact covered

/--
The return on `ETIMEDOUT` takes its thread off the woken and changes neither
the event nor another thread.
-/
theorem covered_timedOut_iff
    {event : State Tid}
    {thread : Tid}
    {ulMilsecond : UInt64}
    {wake : Wake}
    (woken : event.pool thread = .woken ulMilsecond wake) :
    Covered
        ({ event with
          pool := Function.update event.pool thread .outside
        }.finish thread (.wait ulMilsecond) (-1)) ↔
      event.state ≠ 1 ∨
        asleepCount event.pool = 0 ∨
        1 < wokenCount event.pool := by
  have sleepersSame := asleepCount_update event.pool thread .outside
  have wokenFewer := wokenCount_update event.pool thread .outside
  simp only [woken, Phase.isAsleep_woken, Phase.isWoken_woken,
    Phase.isAsleep_outside, Phase.isWoken_outside, Bool.toNat_false,
    Bool.toNat_true, Nat.add_zero] at sleepersSame wokenFewer
  simp only [Covered, State.finish, sleepersSame]
  rw [← wokenFewer, Nat.lt_add_left_iff_pos]

/--
From a covered state a step leads to a covered state exactly when it spares the
signal.
-/
theorem Covered.step_iff
    {event next : State Tid}
    {action : Action Tid}
    (covered : Covered event)
    (stepped : step? event action = some next) :
    Covered next ↔ SparesSignal event action := by
  have spares :
      action.resumed? = none →
      Covered next →
      (Covered next ↔ SparesSignal event action) := by
    intro notResumed coveredNext
    apply iff_of_true coveredNext
    intro thread resumed
    rw [notResumed] at resumed
    cases resumed
  cases action with
  | signal thread chosen =>
      simp only [step?, Option.ite_none_right_eq_some] at stepped
      exact spares rfl (covered.signal stepped.2)
  | wait thread ulMilsecond =>
      simp only [step?, Option.ite_none_right_eq_some,
        Option.some.injEq] at stepped
      obtain ⟨_, rfl⟩ := stepped
      exact spares rfl (covered_evtMtxWait thread ulMilsecond event)
  | clockFails thread ulMilsecond =>
      simp only [step?, Option.ite_none_right_eq_some,
        Option.some.injEq] at stepped
      obtain ⟨_, rfl⟩ := stepped
      exact spares rfl covered
  | spurious thread =>
      apply spares rfl
      simp only [step?] at stepped
      split at stepped
      · obtain rfl := Option.some.inj stepped
        exact covered_of_woken thread (by simp)
      · cases stepped
  | timeout thread =>
      apply spares rfl
      simp only [step?] at stepped
      split at stepped
      · simp only [Option.ite_none_right_eq_some,
          Option.some.injEq] at stepped
        obtain ⟨_, rfl⟩ := stepped
        exact covered_of_woken thread (by simp)
      · cases stepped
  | resume thread =>
      simp only [step?] at stepped
      cases phase : event.pool thread with
      | outside =>
          simp [phase] at stepped
      | asleep ulMilsecond =>
          simp [phase] at stepped
      | woken ulMilsecond wake =>
          simp only [phase, Option.some.injEq] at stepped
          subst next
          unfold evtMtxWaitResume
          by_cases timedOut :
              ulMilsecond ≠ infinite ∧ wake = .timedOut
          · rw [if_pos timedOut, covered_timedOut_iff phase]
            obtain ⟨finite, rfl⟩ := timedOut
            simp [SparesSignal, Action.resumed?, State.timesOut,
              phase, finite]
          · rw [if_neg timedOut]
            apply iff_of_true (covered_evtMtxWait ..)
            rintro _ ⟨⟩ timesOut
            refine absurd ?_ timedOut
            cases wake with
            | unblocked =>
                simp [State.timesOut, phase] at timesOut
            | timedOut =>
                simpa [State.timesOut, phase] using timesOut

/-- Every run in which returns on `ETIMEDOUT` spare the signal is covered. -/
theorem covered_of_sparesSignal
    {event : State Tid}
    (reachable : machine.ReachableWhere SparesSignal event) :
    Covered event := by
  apply reachable.invariant
  · rintro start rfl
    left
    exact show (0 : Int32) ≠ 1 by decide
  · intro before after action covered spares stepped
    exact (covered.step_iff stepped).mpr spares

/--
No wakeup is lost exactly in the runs in which a wait that returns on
`ETIMEDOUT` does not leave a set event and a sleeper without any other woken
thread: such runs strand nobody, and a step strands somebody exactly when it
breaks the condition.
-/
theorem notStranded_iff_sparesSignal :
    (∀ event : State Tid,
      machine.ReachableWhere SparesSignal event →
      ¬ Stranded event) ∧
      ∀ (event next : State Tid) (action : Action Tid),
        machine.ReachableWhere SparesSignal event →
        machine.step? event action = some next →
        (¬ Stranded next ↔ SparesSignal event action) := by
  constructor
  · intro event reachable
    exact covered_iff_notStranded.mp (covered_of_sparesSignal reachable)
  · intro event next action reachable stepped
    rw [← covered_iff_notStranded]
    exact (covered_of_sparesSignal reachable).step_iff stepped

/--
A timed and an untimed wait, and a signal whose wakeup the timed one consumes
while it times out: its return strands the other one.
-/
theorem notStranded_iff_sparesSignal_consumed :
    ∃ event : State (Fin 3),
      ¬ Stranded event ∧
        ∃ next,
          machine.step? event (.resume 0) = some next ∧
            Stranded next := by
  obtain ⟨event, reachable, consumed⟩ :=
    Machine.ReachableWhere.exists_of_run
      machine
      SparesSignal
      (evtMtxCreate : State (Fin 3))
      [
        .wait 0 50,
        .wait 1 infinite,
        .signal 2 fun thread =>
          if thread = 0 then some .timedOut else none
      ]
      (fun event =>
        (machine.step? event (.resume 0)).isSome &&
          !decide (SparesSignal event (.resume 0)))
      rfl
      (by decide)
      (by decide)
  rw [Bool.and_eq_true, Option.isSome_iff_exists, Bool.not_eq_true',
    decide_eq_false_iff_not] at consumed
  obtain ⟨⟨next, stepped⟩, breaks⟩ := consumed
  refine ⟨event, notStranded_iff_sparesSignal.1 event reachable,
    next, stepped, ?_⟩
  by_contra notStranded
  exact breaks
    ((notStranded_iff_sparesSignal.2 event next _ reachable stepped).mp
      notStranded)

/--
The signal's wakeup goes to a timed wait that reports `ETIMEDOUT`, and the
other thread sleeps on with the event set.
-/
theorem timedOut_strands :
    ¬ ∀ event : State (Fin 3),
      machine.Reachable event →
      ¬ Stranded event := by
  intro neverStranded
  obtain ⟨event, reachable, stranded⟩ :=
    Machine.exists_reachable
      machine
      (evtMtxCreate : State (Fin 3))
      [
        .wait 0 50,
        .wait 1 infinite,
        .signal 2 fun thread =>
          if thread = 0 then some .timedOut else none,
        .resume 0
      ]
      (fun event => decide (Stranded event))
      rfl
      (by decide)
  exact neverStranded event reachable (of_decide_eq_true stranded)

end Preservation

end WkcRuntime.Evt
