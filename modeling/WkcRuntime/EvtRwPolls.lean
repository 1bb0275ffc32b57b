import WkcRuntime.EvtRwReaders

namespace WkcRuntime.EvtRw

open ConditionVariable

/-!
# Polls and blocking reads

A poll takes the flag that the last broadcast left behind.  The branches that
wait do not look at the flag: a blocking read is for the broadcasts that are
executed while it sleeps, and each of these ends it.  A broadcast from before,
which a poll would see, does not keep it from timing out.
-/

/-- `evt_rd_wait(h, 0)` returns `0` if it runs next. -/
def PollSucceeds
    {Tid : Type}
    [DecidableEq Tid]
    (event : State Tid)
    (thread : Tid) :
    Prop :=
  ∃ next record,
    machine.step? event (.wait thread 0) = some next ∧
      next.returned = record :: event.returned ∧
      record.rc = 0

/-- The number of calls that a thread has finished. -/
def State.finishedBy
    {Tid : Type}
    [DecidableEq Tid]
    (event : State Tid)
    (thread : Tid) :
    Nat :=
  event.returned.countP fun record => decide (record.thread = thread)

/--
`evt_rd_wait` runs next and ends with a code after some steps, among which no
other return of its thread is.
-/
def EndsWith
    {Tid : Type}
    [DecidableEq Tid]
    (event : State Tid)
    (thread : Tid)
    (ulMilsecond : UInt64)
    (between : List (Action Tid))
    (rc : Int32) :
    Prop :=
  ∃ middle final record,
    machine.run? event (.wait thread ulMilsecond :: between) =
        some middle ∧
      middle.finishedBy thread = event.finishedBy thread ∧
      machine.step? middle (.resume thread) = some final ∧
      final.returned = record :: middle.returned ∧
      record.rc = rc

section Waiting

variable {Tid : Type} [DecidableEq Tid]

/-- One more finished call counts for its thread. -/
@[simp] theorem finishedBy_cons
    (event : State Tid)
    (thread : Tid)
    (record : Return Tid) :
    { event with
      returned := record :: event.returned }.finishedBy thread =
      event.finishedBy thread +
        if record.thread = thread then 1 else 0 := by
  simp [State.finishedBy, List.countP_cons]

/--
The thread has been woken by a broadcast for the call it is in, or has returned
since it had finished a given number of calls.
-/
def Answered
    (thread : Tid)
    (ulMilsecond : UInt64)
    (finished : Nat)
    (event : State Tid) :
    Prop :=
  finished ≤ event.finishedBy thread ∧
    (event.finishedBy thread = finished →
      event.pool thread = .woken ulMilsecond 0)

/-- A step after which the thread is still woken, or has returned. -/
theorem Answered.mono
    {thread : Tid}
    {ulMilsecond : UInt64}
    {finished : Nat}
    {event next : State Tid}
    (answered : Answered thread ulMilsecond finished event)
    (grows : event.finishedBy thread ≤ next.finishedBy thread)
    (kept :
      next.finishedBy thread = event.finishedBy thread →
      event.pool thread = .woken ulMilsecond 0 →
      next.pool thread = .woken ulMilsecond 0) :
    Answered thread ulMilsecond finished next := by
  obtain ⟨bound, pending⟩ := answered
  refine ⟨bound.trans grows, ?_⟩
  intro still
  have before : event.finishedBy thread = finished := by
    omega
  exact kept (still.trans before.symm) (pending before)

/-- A step of the thread's own call, or of another thread's. -/
theorem Answered.move
    {thread : Tid}
    {ulMilsecond : UInt64}
    {finished : Nat}
    {event next : State Tid}
    (answered : Answered thread ulMilsecond finished event)
    {other : Tid}
    {phase : Phase UInt64 Int32}
    (moved : next.pool = Function.update event.pool other phase)
    (grows : event.finishedBy thread ≤ next.finishedBy thread)
    (notOther :
      next.finishedBy thread = event.finishedBy thread →
      event.pool thread = .woken ulMilsecond 0 →
      thread ≠ other) :
    Answered thread ulMilsecond finished next := by
  apply answered.mono grows
  intro still woken
  rw [moved, Function.update_of_ne (notOther still woken)]
  exact woken

/-- Only its own return takes the answer from the thread. -/
theorem Answered.step
    {thread : Tid}
    {ulMilsecond : UInt64}
    {finished : Nat}
    {event next : State Tid}
    {action : Action Tid}
    (answered : Answered thread ulMilsecond finished event)
    (stepped : machine.step? event action = some next) :
    Answered thread ulMilsecond finished next := by
  cases progress stepped with
  | @broadcasts writer result =>
      subst next
      apply answered.mono
      · exact Nat.le.intro (finishedBy_cons ..).symm
      · intro _ woken
        simp only [evtWrBroadcast, State.finish]
        split
        · simp [wakeAll, woken, Phase.unblock]
        · exact woken
  | @answers action other s32Wr rc call immediate result =>
      subst next
      apply answered.mono
      · exact Nat.le.intro (finishedBy_cons ..).symm
      · intro _ woken
        exact woken
  | @enters other otherMilsecond outside waits below result =>
      subst next
      apply answered.move rfl
      · exact Nat.le_refl _
      · rintro _ woken rfl
        rw [outside] at woken
        cases woken
  | @abandons other otherMilsecond result =>
      subst next
      apply answered.mono
      · exact Nat.le.intro (finishedBy_cons ..).symm
      · intro _ woken
        exact woken
  | @wakes action other otherMilsecond rc sleeping spurious result =>
      subst next
      apply answered.move rfl
      · exact Nat.le_refl _
      · rintro _ woken rfl
        rw [sleeping] at woken
        cases woken
  | @repeats other otherMilsecond rc woken again result =>
      subst next
      apply answered.move rfl
      · exact Nat.le_refl _
      · rintro _ wokenByZero rfl
        rw [woken] at wokenByZero
        cases wokenByZero
        exact not_repeats_zero _ again
  | @leaves other otherMilsecond rc woken free done result =>
      subst next
      apply answered.move rfl
      · exact Nat.le.intro (finishedBy_cons ..).symm
      · rintro still _ rfl
        simp [State.leave, State.finishedBy] at still

/-- A thread that was woken by a broadcast returns `0`. -/
theorem rc_of_woken
    {thread : Tid}
    {ulMilsecond : UInt64}
    {event next : State Tid}
    {record : Return Tid}
    (woken : event.pool thread = .woken ulMilsecond 0)
    (stepped : machine.step? event (.resume thread) = some next)
    (recorded : next.returned = record :: event.returned) :
    record.rc = 0 := by
  simp only [machine, step?, woken, evtRdWaitResume,
    not_repeats_zero ulMilsecond, ↓reduceIte,
    Option.ite_none_right_eq_some, Option.some.injEq] at stepped
  obtain ⟨_, rfl⟩ := stepped
  obtain ⟨rfl, _⟩ := List.cons.inj recorded
  rfl

end Waiting

section Broadcasts

variable {Tid : Type} [DecidableEq Tid] [Fintype Tid]

/-- A broadcast answers every reader that sleeps. -/
theorem answered_of_broadcast
    {event next : State Tid}
    {thread writer : Tid}
    {ulMilsecond : UInt64}
    (reachable : machine.Reachable event)
    (sleeping : event.pool thread = .asleep ulMilsecond)
    (stepped : machine.step? event (.broadcast writer) = some next) :
    Answered thread ulMilsecond (event.finishedBy thread) next := by
  simp only [machine, step?, Option.ite_none_right_eq_some,
    Option.some.injEq] at stepped
  obtain ⟨_, rfl⟩ := stepped
  rw [(counted_of_reachable reachable).evtWrBroadcast_eq]
  constructor
  · exact Nat.le.intro (finishedBy_cons ..).symm
  · intro _
    simp [evtWrBroadcastAlways, State.finish, wakeAll, sleeping,
      Phase.unblock]

/-- A broadcast while the read sleeps ends it with `0`. -/
theorem rc_of_broadcast
    {event middle : State Tid}
    {thread writer : Tid}
    {ulMilsecond : UInt64}
    {first rest : List (Action Tid)}
    {rc : Int32}
    (reachable : machine.Reachable event)
    (ran :
      machine.run? event (.wait thread ulMilsecond :: first) =
        some middle)
    (pending : middle.finishedBy thread = event.finishedBy thread)
    (sleeping : middle.pool thread = .asleep ulMilsecond)
    (ends :
      EndsWith event thread ulMilsecond
        (first ++ .broadcast writer :: rest) rc) :
    rc = 0 := by
  obtain ⟨last, final, record, wholeRun, same, stepped, recorded, rfl⟩ :=
    ends
  rw [← List.cons_append, Machine.run?_append, ran, Option.bind_some,
    Machine.run?] at wholeRun
  cases broadcast : machine.step? middle (.broadcast writer) with
  | none =>
      simp [broadcast] at wholeRun
  | some heard =>
      simp only [broadcast] at wholeRun
      have answered :=
        answered_of_broadcast (reachable.run ran) sleeping broadcast
      have answeredLast :=
        Machine.run?_invariant Answered.step answered wholeRun
      have woken := answeredLast.2 (same.trans pending.symm)
      exact rc_of_woken woken stepped recorded

omit [Fintype Tid] in
/-- A read that can start may time out at once, whatever a poll would say. -/
theorem endsWith_etimedout
    {event : State Tid}
    {thread : Tid}
    {ulMilsecond : UInt64}
    (canEnter : CanEnter event thread)
    (below : event.s32Rd ≠ intMax)
    (waits : ulMilsecond ≠ 0)
    (finite : ulMilsecond ≠ infinite) :
    EndsWith event thread ulMilsecond [.timeout thread] etimedout := by
  have leaves : ¬ Repeats ulMilsecond etimedout := by
    simp [Repeats, finite]
  let asleep : State Tid :=
    { event with
      s32Rd := event.s32Rd + 1
      pool := Function.update event.pool thread (.asleep ulMilsecond)
      entered :=
        Function.update event.entered thread event.broadcasts }
  let timedOut : State Tid :=
    { asleep with
      pool := Function.update asleep.pool thread
        (.woken ulMilsecond etimedout) }
  have enters :
      machine.step? event (.wait thread ulMilsecond) = some asleep := by
    simp [machine, step?, canEnter, evtRdWait, waits, sleep, below, asleep]
  have wakes :
      machine.step? asleep (.timeout thread) = some timedOut := by
    simp [machine, step?, wake, finite, asleep, timedOut]
  have resumes :
      machine.step? timedOut (.resume thread) =
        some ({ timedOut with s32Rd := timedOut.s32Rd - 1 }.leave
          thread ulMilsecond etimedout) := by
    simp [machine, step?, evtRdWaitResume, leaves, canEnter.1, asleep,
      timedOut]
  refine ⟨timedOut, _, _, ?_, rfl, resumes, rfl, rfl⟩
  simp only [Machine.run?, enters, wakes]

omit [Fintype Tid] in
/-- A poll succeeds when it can run and finds the flag set. -/
theorem pollSucceeds_iff
    {event : State Tid}
    {thread : Tid} :
    PollSucceeds event thread ↔
      CanEnter event thread ∧ event.s32Wr = 1 := by
  unfold PollSucceeds
  simp only [machine, step?, evtRdWait, ↓reduceIte,
    Option.ite_none_right_eq_some, Option.some.injEq]
  constructor
  · rintro ⟨_, record, ⟨canEnter, rfl⟩, recorded, zero⟩
    refine ⟨canEnter, ?_⟩
    by_contra notSet
    rw [poll, if_pos notSet] at recorded
    obtain ⟨rfl, _⟩ := List.cons.inj recorded
    cases zero
  · rintro ⟨canEnter, isSet⟩
    have taken :
        poll thread event =
          { event with s32Wr := 0 }.finish thread (.wait 0) 0 := by
      rw [poll, if_neg (not_not.mpr isSet)]
    exact ⟨_, _, ⟨canEnter, taken⟩, rfl, rfl⟩

/--
A timed read never ends with a timeout when a broadcast is executed while it
sleeps: it ends with `0`.  The broadcast that only a poll would see is none of
these: in every state in which a poll would return `0`, the read that runs in
its place can time out.
-/
theorem read_hears_broadcasts_only :
    (∀ (event middle : State Tid) (thread writer : Tid)
        (ulMilsecond : UInt64) (first rest : List (Action Tid))
        (rc : Int32),
      machine.Reachable event →
      ulMilsecond ≠ 0 →
      ulMilsecond ≠ infinite →
      machine.run? event (.wait thread ulMilsecond :: first) =
        some middle →
      middle.finishedBy thread = event.finishedBy thread →
      middle.pool thread = .asleep ulMilsecond →
      EndsWith event thread ulMilsecond
        (first ++ .broadcast writer :: rest) rc →
      rc = 0) ∧
      ∀ (event : State Tid) (thread : Tid) (ulMilsecond : UInt64),
        machine.Reachable event →
        PollSucceeds event thread →
        event.s32Rd ≠ intMax →
        ulMilsecond ≠ 0 →
        ulMilsecond ≠ infinite →
        EndsWith event thread ulMilsecond [.timeout thread]
          etimedout := by
  constructor
  · intro event middle thread writer ulMilsecond first rest rc reachable
      _ _ ran pending sleeping ends
    exact rc_of_broadcast reachable ran pending sleeping ends
  · intro event thread ulMilsecond _ succeeds below waits finite
    exact endsWith_etimedout (pollSucceeds_iff.mp succeeds).1 below
      waits finite

end Broadcasts

/-- One broadcast leaves the flag behind. -/
theorem exists_flagged :
    ∃ event : State (Fin 2),
      machine.Reachable event ∧
        (CanEnter event 1 ∧ event.s32Wr = 1) ∧
        event.s32Rd ≠ intMax := by
  obtain ⟨event, reachable, isSet⟩ :=
    Machine.exists_reachable
      machine
      (evtRwCreate : State (Fin 2))
      [.broadcast 0]
      (fun event =>
        decide ((CanEnter event 1 ∧ event.s32Wr = 1) ∧
          event.s32Rd ≠ intMax))
      rfl
      (by decide)
  exact ⟨event, reachable, of_decide_eq_true isSet⟩

/--
A broadcast ends the wait of one reader; another reader times out although a
poll would succeed.
-/
theorem read_hears_broadcasts_only_later :
    (∀ rc,
      EndsWith (evtRwCreate : State (Fin 2)) 1 100
        [.broadcast 0, .reset 0] rc →
      rc = 0) ∧
      ∃ event : State (Fin 2),
        PollSucceeds event 1 ∧
          EndsWith event 1 100 [.timeout 1] etimedout := by
  constructor
  · intro rc ends
    have started : machine.Reachable (evtRwCreate : State (Fin 2)) :=
      .initial rfl
    exact read_hears_broadcasts_only.1 _ _ 1 0 100 [] [.reset 0] rc started
      (by decide) (by decide) rfl rfl rfl ends
  · obtain ⟨event, reachable, flag, below⟩ := exists_flagged
    have succeeds : PollSucceeds event 1 := pollSucceeds_iff.mpr flag
    exact ⟨event, succeeds,
      read_hears_broadcasts_only.2 event 1 100 reachable succeeds below
        (by decide) (by decide)⟩

/-- A broadcast, and then a read that times out where a poll would not. -/
theorem timedRead_missesFlag :
    ¬ ∀ (event : State (Fin 2)) (thread : Fin 2),
      machine.Reachable event →
      PollSucceeds event thread →
      ∀ ulMilsecond,
        ulMilsecond ≠ 0 →
        ulMilsecond ≠ infinite →
        ∀ between,
          ¬ EndsWith event thread ulMilsecond between etimedout := by
  intro neverTimesOut
  obtain ⟨event, reachable, flag, below⟩ := exists_flagged
  exact neverTimesOut event 1 reachable (pollSucceeds_iff.mpr flag) 100
    (by decide) (by decide) [.timeout 1]
    (endsWith_etimedout flag.1 below (by decide) (by decide))

end WkcRuntime.EvtRw
