import WkcRuntime.EvtSource

namespace WkcRuntime.Evt

open ConditionVariable

/-!
# The signals of the event

A signal that finds the event reset leaves one token, the value `1` of `state`,
and a wait that returns `0` takes it.  No other step touches `state`: a signal
that finds the event set returns at once, a wait that times out leaves through
its own branch, and going to sleep or waking up is a matter of the condition
variable.  Counting tokens along a run therefore needs nothing about the order
in which the waiters arrive.
-/

/-- The signal finds the event reset. -/
def effective
    {Tid : Type}
    (event : State Tid) :
    Action Tid → Bool
  | .signal _ _ => decide (event.state = 0)
  | _ => false

/-- The call was a wait that returned `0`. -/
def Return.isTaken
    {Tid : Type}
    (record : Return Tid) :
    Bool :=
  match record.call with
  | .signal => false
  | .wait _ => decide (record.rc = 0)

/-- The number of waits so far that returned `0`. -/
def State.takenWaits
    {Tid : Type}
    (event : State Tid) :
    Nat :=
  event.returned.countP Return.isTaken

/-- The token that is there and the tokens taken so far. -/
def State.tokens
    {Tid : Type}
    (event : State Tid) :
    Int :=
  event.state.toInt + event.takenWaits

/-- The event holds no token or one. -/
def ZeroOrOne
    {Tid : Type}
    (event : State Tid) :
    Prop :=
  event.state = 0 ∨ event.state = 1

section Steps

variable {Tid : Type} [DecidableEq Tid] [Fintype Tid]

/-- What one step does with `state` and the finished calls. -/
inductive Progress
    (event next : State Tid) :
    Action Tid → Prop where
  | sets
      {thread : Tid}
      {chosen : Tid → Option Wake}
      {pool : Pool Tid UInt64 Wake}
      (unset : event.state = 0)
      (result :
        next =
          { event with state := 1, pool }.finish thread .signal 0) :
      Progress event next (.signal thread chosen)
  | merges
      {thread : Tid}
      {chosen : Tid → Option Wake}
      (notUnset : event.state ≠ 0)
      (result : next = event.finish thread .signal 0) :
      Progress event next (.signal thread chosen)
  | takes
      {action : Action Tid}
      {thread : Tid}
      {ulMilsecond : UInt64}
      (waiting : effective event action = false)
      (isSet : event.state = 1)
      (result :
        next =
          { event with
            state := 0
            pool := Function.update event.pool thread .outside
          }.finish thread (.wait ulMilsecond) 0) :
      Progress event next action
  | waits
      {action : Action Tid}
      {pool : Pool Tid UInt64 Wake}
      (waiting : effective event action = false)
      (result : next = { event with pool }) :
      Progress event next action
  | fails
      {action : Action Tid}
      {thread : Tid}
      {ulMilsecond : UInt64}
      (waiting : effective event action = false)
      (result :
        next =
          { event with
            pool := Function.update event.pool thread .outside
          }.finish thread (.wait ulMilsecond) (-1)) :
      Progress event next action

omit [Fintype Tid] in
/-- The loop test of a wait takes the token or sends the thread to sleep. -/
theorem progress_evtMtxWait
    {event : State Tid}
    {action : Action Tid}
    (thread : Tid)
    (ulMilsecond : UInt64)
    (waiting : effective event action = false) :
    Progress event (evtMtxWait thread ulMilsecond event) action := by
  unfold evtMtxWait
  by_cases unset : event.state ≠ 1
  · rw [if_pos unset]
    exact .waits waiting rfl
  · rw [if_neg unset]
    exact .takes waiting (not_not.mp unset) rfl

/-- Every step is of one of these kinds. -/
theorem progress
    {event next : State Tid}
    {action : Action Tid}
    (stepped : step? event action = some next) :
    Progress event next action := by
  cases action with
  | signal thread chosen =>
      simp only [step?, Option.ite_none_right_eq_some] at stepped
      obtain ⟨_, signalled⟩ := stepped
      unfold evtMtxSignal at signalled
      by_cases unset : event.state = 0
      · rw [if_pos unset, Option.map_eq_some_iff] at signalled
        obtain ⟨pool, _, rfl⟩ := signalled
        exact .sets unset rfl
      · rw [if_neg unset, Option.some.injEq] at signalled
        exact .merges unset signalled.symm
  | wait thread ulMilsecond =>
      simp only [step?, Option.ite_none_right_eq_some,
        Option.some.injEq] at stepped
      obtain ⟨_, rfl⟩ := stepped
      exact progress_evtMtxWait thread ulMilsecond rfl
  | clockFails thread ulMilsecond =>
      simp only [step?, Option.ite_none_right_eq_some,
        Option.some.injEq] at stepped
      obtain ⟨⟨_, outside⟩, rfl⟩ := stepped
      apply Progress.fails rfl
      rw [← outside, Function.update_eq_self]
  | spurious thread =>
      simp only [step?] at stepped
      split at stepped
      · exact .waits rfl (Option.some.inj stepped).symm
      · cases stepped
  | timeout thread =>
      simp only [step?] at stepped
      split at stepped
      · simp only [Option.ite_none_right_eq_some,
          Option.some.injEq] at stepped
        exact .waits rfl stepped.2.symm
      · cases stepped
  | resume thread =>
      simp only [step?] at stepped
      split at stepped
      · obtain rfl := Option.some.inj stepped
        unfold evtMtxWaitResume
        split
        · exact .fails rfl rfl
        · exact progress_evtMtxWait _ _ rfl
      · cases stepped

/-- Setting, resetting and everything else leave no token or one. -/
theorem ZeroOrOne.step
    {event next : State Tid}
    {action : Action Tid}
    (zeroOrOne : ZeroOrOne event)
    (stepped : step? event action = some next) :
    ZeroOrOne next := by
  cases progress stepped with
  | sets unset result =>
      subst next
      exact Or.inr rfl
  | merges notUnset result =>
      subst next
      exact zeroOrOne
  | takes waiting isSet result =>
      subst next
      exact Or.inl rfl
  | waits waiting result =>
      subst next
      exact zeroOrOne
  | fails waiting result =>
      subst next
      exact zeroOrOne

/-- The token there is and the tokens taken grow with an effective signal only. -/
theorem tokens_step
    {event next : State Tid}
    {action : Action Tid}
    (stepped : step? event action = some next) :
    next.tokens = event.tokens + (effective event action).toNat := by
  unfold State.tokens
  cases progress stepped with
  | sets unset result =>
      subst next
      simp [State.finish, State.takenWaits, Return.isTaken, effective,
        unset]
      omega
  | merges notUnset result =>
      subst next
      simp [State.finish, State.takenWaits, Return.isTaken, effective,
        notUnset]
  | takes waiting isSet result =>
      subst next
      simp [State.finish, State.takenWaits, Return.isTaken, waiting,
        isSet]
      omega
  | waits waiting result =>
      subst next
      simp [State.takenWaits, waiting]
  | fails waiting result =>
      subst next
      simp [State.finish, State.takenWaits, Return.isTaken, waiting]

omit [Fintype Tid] in
/-- A call that fails leaves the token to the next wait. -/
theorem Progress.failed
    {event next : State Tid}
    {action : Action Tid}
    {record : Return Tid}
    (progress : Progress event next action)
    (recorded : next.returned = record :: event.returned)
    (failed : record.rc = -1) :
    next.state = event.state := by
  cases progress with
  | sets unset result =>
      subst next
      obtain ⟨rfl, _⟩ := List.cons.inj recorded
      cases failed
  | merges notUnset result =>
      subst next
      rfl
  | takes waiting isSet result =>
      subst next
      obtain ⟨rfl, _⟩ := List.cons.inj recorded
      cases failed
  | waits waiting result =>
      subst next
      rfl
  | fails waiting result =>
      subst next
      rfl

/-- A signal that finds the event set only returns. -/
theorem merged_step
    {event next : State Tid}
    {thread : Tid}
    {chosen : Tid → Option Wake}
    (isSet : event.state = 1)
    (stepped : step? event (.signal thread chosen) = some next) :
    next = event.finish thread .signal 0 := by
  have notUnset : event.state ≠ 0 := by
    simp [isSet]
  simp only [step?, evtMtxSignal, if_neg notUnset,
    Option.ite_none_right_eq_some, Option.some.injEq] at stepped
  exact stepped.2.symm

/--
The event is an auto-reset event: at the end of every run `state` is 0 or 1, and
`state` and the waits that returned `0` add up to the signals that found it
reset, so there are never more such waits than such signals.  A wait that times
out takes nothing, and a signal that finds the event set adds nothing.
-/
theorem autoReset
    {actions : List (Action Tid)}
    {event : State Tid}
    (ran : machine.run? evtMtxCreate actions = some event) :
    ZeroOrOne event ∧
      event.state.toInt + event.takenWaits =
        machine.countSteps effective evtMtxCreate actions ∧
      event.takenWaits ≤
        machine.countSteps effective evtMtxCreate actions ∧
      ∀ next action,
        machine.step? event action = some next →
        (∀ record,
          next.returned = record :: event.returned →
          record.rc = -1 →
          next.state = event.state) ∧
          ∀ thread chosen,
            action = .signal thread chosen →
            event.state = 1 →
            next = event.finish thread .signal 0 := by
  have zeroOrOne : ZeroOrOne event :=
    Machine.run?_invariant ZeroOrOne.step (Or.inl rfl) ran
  have balance :
      event.state.toInt + event.takenWaits =
        machine.countSteps effective evtMtxCreate actions := by
    have created : (evtMtxCreate : State Tid).tokens = 0 :=
      rfl
    have counted : event.tokens = _ :=
      Machine.run?_measure ZeroOrOne.step (fun _ => tokens_step)
        (Or.inl rfl) ran
    rwa [created, zero_add] at counted
  refine ⟨zeroOrOne, balance, ?_, ?_⟩
  · have notNegative : 0 ≤ event.state.toInt := by
      rcases zeroOrOne with unset | isSet
      · rw [unset]
        decide
      · rw [isSet]
        decide
    omega
  · intro next action stepped
    refine ⟨?_, ?_⟩
    · intro record recorded failed
      exact (progress stepped).failed recorded failed
    · rintro thread chosen rfl isSet
      exact merged_step isSet stepped

/--
A waiter that is overtaken: the signal wakes thread 0, thread 1 barges in and
takes the token, two more signals are merged into one, and thread 0 takes it.
-/
theorem autoReset_overtaken :
    ∃ (actions : List (Action (Fin 3))) (event : State (Fin 3)),
      machine.run? evtMtxCreate actions = some event ∧
        event.takenWaits = 2 ∧
        ZeroOrOne event ∧
        event.state.toInt + event.takenWaits =
          machine.countSteps effective evtMtxCreate actions := by
  have overtaken :
      ∃ (actions : List (Action (Fin 3))) (event : State (Fin 3)),
        machine.run? evtMtxCreate actions = some event ∧
          event.takenWaits = 2 :=
    ⟨[
      .wait 0 50,
      .signal 2 fun thread =>
        if thread = 0 then some .unblocked else none,
      .wait 1 infinite,
      .resume 0,
      .signal 2 fun thread =>
        if thread = 0 then some .unblocked else none,
      .signal 2 fun _ => none,
      .resume 0
    ], _, rfl, by decide⟩
  obtain ⟨actions, event, ran, taken⟩ := overtaken
  obtain ⟨zeroOrOne, balance, _⟩ := autoReset ran
  exact ⟨actions, event, ran, taken, zeroOrOne, balance⟩

end Steps

end WkcRuntime.Evt
