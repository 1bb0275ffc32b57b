import WkcRuntime.EvtRwReaders

namespace WkcRuntime.EvtRw

open ConditionVariable

/-!
# What a blocking read has heard

`evt_rd_wait` takes the `0` of the condition wait for the event: its loops run
until that code and look at no predicate, where the loops of `evt_mtx_wait` look
at `state` again.  A reader that is woken by a broadcast has heard one.  A
reader that is woken spuriously returns `0` just the same, so it needs a
broadcast from before.
-/

/-- A blocking read that returns `0` has heard a broadcast. -/
def Return.Informed
    {Tid : Type}
    (record : Return Tid) :
    Prop :=
  ∀ ulMilsecond,
    record.call = .wait ulMilsecond →
    ulMilsecond ≠ 0 →
    record.rc = 0 →
    1 ≤ record.heard

/--
A reader that is woken spuriously while it can still get the mutex has heard a
broadcast since it entered.
-/
def HeardBefore
    {Tid : Type}
    (event : State Tid)
    (action : Action Tid) :
    Prop :=
  ∀ thread,
    action = .spurious thread →
    event.mutex = none →
    event.entered thread < event.broadcasts

instance
    {Tid : Type}
    [DecidableEq Tid]
    (event : State Tid)
    (action : Action Tid) :
    Decidable (HeardBefore event action) :=
  match action with
  | .spurious thread =>
      decidable_of_iff
        (event.mutex = none →
          event.entered thread < event.broadcasts)
        ⟨fun heard _ same => by
          cases same
          exact heard,
          fun heard => heard thread rfl⟩
  | .broadcast _ => isTrue fun _ impossible => by cases impossible
  | .reset _ => isTrue fun _ impossible => by cases impossible
  | .wait _ _ => isTrue fun _ impossible => by cases impossible
  | .clockFails _ _ => isTrue fun _ impossible => by cases impossible
  | .timeout _ => isTrue fun _ impossible => by cases impossible
  | .error _ _ => isTrue fun _ impossible => by cases impossible
  | .resume _ => isTrue fun _ impossible => by cases impossible

/-- What the readers and the finished calls have heard. -/
structure Informed
    {Tid : Type}
    (event : State Tid) :
    Prop where
  past :
    ∀ thread,
      event.entered thread ≤ event.broadcasts
  blocking :
    ∀ thread ulMilsecond,
      (event.pool thread).call? = some ulMilsecond →
      ulMilsecond ≠ 0
  woken :
    ∀ thread ulMilsecond,
      event.pool thread = .woken ulMilsecond 0 →
      event.mutex = none →
      event.entered thread < event.broadcasts
  returned :
    ∀ record,
      record ∈ event.returned →
      record.Informed

section Preservation

variable {Tid : Type} [DecidableEq Tid]

omit [DecidableEq Tid] in
/-- One more finished call that is informed keeps all informed. -/
theorem Informed.report
    {event : State Tid}
    (informed : Informed event)
    {record : Return Tid}
    (reported : record.Informed) :
    Informed { event with
      returned := record :: event.returned } where
  past := informed.past
  blocking := informed.blocking
  woken := informed.woken
  returned := by
    intro other member
    rcases List.mem_cons.mp member with isHead | inRest
    · subst other
      exact reported
    · exact informed.returned other inRest

/-- Moving one reader keeps what the others have heard. -/
theorem Informed.move
    {event : State Tid}
    (informed : Informed event)
    {thread : Tid}
    {phase : Phase UInt64 Int32}
    {s32Rd : Int32}
    (blocking :
      ∀ ulMilsecond,
        phase.call? = some ulMilsecond →
        ulMilsecond ≠ 0)
    (heard :
      ∀ ulMilsecond,
        phase = .woken ulMilsecond 0 →
        event.mutex = none →
        event.entered thread < event.broadcasts) :
    Informed { event with
      s32Rd
      pool := Function.update event.pool thread phase } where
  past := informed.past
  blocking := by
    intro other ulMilsecond inCall
    dsimp only at inCall
    by_cases same : other = thread
    · subst other
      rw [Function.update_self] at inCall
      exact blocking ulMilsecond inCall
    · rw [Function.update_of_ne same] at inCall
      exact informed.blocking other ulMilsecond inCall
  woken := by
    intro other ulMilsecond isWoken
    dsimp only at isWoken
    by_cases same : other = thread
    · subst other
      rw [Function.update_self] at isWoken
      exact heard ulMilsecond isWoken
    · rw [Function.update_of_ne same] at isWoken
      exact informed.woken other ulMilsecond isWoken
  returned := informed.returned

/-- A reader that enters has heard nothing yet. -/
theorem Informed.enter
    {event : State Tid}
    (informed : Informed event)
    {thread : Tid}
    (outside : event.pool thread = .outside) :
    Informed { event with
      entered :=
        Function.update event.entered thread event.broadcasts } where
  past := by
    intro other
    dsimp only
    by_cases same : other = thread
    · subst other
      rw [Function.update_self]
    · rw [Function.update_of_ne same]
      exact informed.past other
  blocking := informed.blocking
  woken := by
    intro other ulMilsecond isWoken free
    dsimp only at isWoken free ⊢
    have notSame : other ≠ thread := by
      rintro rfl
      rw [outside] at isWoken
      cases isWoken
    rw [Function.update_of_ne notSame]
    exact informed.woken other ulMilsecond isWoken free
  returned := informed.returned

omit [DecidableEq Tid] in
/-- A broadcast informs every reader. -/
theorem Informed.broadcast
    {event : State Tid}
    (informed : Informed event)
    (thread : Tid) :
    Informed (evtWrBroadcast thread event) := by
  apply Informed.report
  · constructor
    · intro other
      exact Nat.le_succ_of_le (informed.past other)
    · intro other ulMilsecond inCall
      apply informed.blocking other ulMilsecond
      dsimp only at inCall
      split at inCall
      · simpa [wakeAll] using inCall
      · exact inCall
    · intro other ulMilsecond _ _
      exact Nat.lt_succ_of_le (informed.past other)
    · exact informed.returned
  · intro ulMilsecond impossible
    cases impossible

omit [DecidableEq Tid] in
/-- A read that cannot get the time fails and keeps the mutex. -/
theorem Informed.clockFails
    {event : State Tid}
    (informed : Informed event)
    (thread : Tid)
    (ulMilsecond : UInt64) :
    Informed (evtRdWaitClockFails thread ulMilsecond event) := by
  have failed :
      Return.Informed
        { thread
          call := .wait ulMilsecond
          rc := -1
          heard := 0 } := by
    intro _ _ _ zero
    cases zero
  refine ⟨informed.past, informed.blocking, ?_,
    (informed.report failed).returned⟩
  intro other _ _ impossible
  cases impossible

/-- A reader that leaves with `0` has heard what woke it. -/
theorem Informed.leave
    {event : State Tid}
    (informed : Informed event)
    {thread : Tid}
    {ulMilsecond : UInt64}
    {rc : Int32}
    (woken : event.pool thread = .woken ulMilsecond rc)
    (free : event.mutex = none) :
    Informed ({ event with s32Rd := event.s32Rd - 1 }.leave thread
      ulMilsecond rc) := by
  have moved :
      Informed { event with
        s32Rd := event.s32Rd - 1
        pool := Function.update event.pool thread .outside } := by
    apply informed.move
    · intro _ impossible
      cases impossible
    · intro _ impossible
      cases impossible
  apply moved.report
  intro _ _ _ zero
  dsimp only at zero
  subst rc
  have heard := informed.woken thread ulMilsecond woken free
  dsimp only
  omega

/-- Every step that does not wake a reader for nothing keeps all informed. -/
theorem Informed.step
    {event next : State Tid}
    {action : Action Tid}
    (informed : Informed event)
    (heardBefore : HeardBefore event action)
    (stepped : step? event action = some next) :
    Informed next := by
  cases progress stepped with
  | @broadcasts thread result =>
      subst next
      exact informed.broadcast thread
  | @answers action thread s32Wr rc call immediate result =>
      subst next
      apply Informed.report
      · exact ⟨informed.past, informed.blocking, informed.woken,
          informed.returned⟩
      · intro ulMilsecond isWait blocks
        dsimp only at isWait
        subst call
        rcases immediate with impossible | polls
        · cases impossible
        · cases polls
          exact absurd rfl blocks
  | @enters thread ulMilsecond outside waits below result =>
      subst next
      apply (informed.enter outside).move
      · rintro _ ⟨⟩
        exact waits
      · intro _ impossible
        cases impossible
  | @abandons thread ulMilsecond result =>
      subst next
      exact informed.clockFails thread ulMilsecond
  | @wakes action thread ulMilsecond rc sleeping spurious result =>
      subst next
      apply informed.move
      · rintro _ ⟨⟩
        exact informed.blocking thread ulMilsecond
          (by simp [sleeping, Phase.call?])
      · rintro _ ⟨⟩
        exact heardBefore thread (spurious rfl)
  | @repeats thread ulMilsecond rc woken again result =>
      subst next
      apply informed.move
      · rintro _ ⟨⟩
        exact informed.blocking thread ulMilsecond
          (by simp [woken, Phase.call?])
      · intro _ impossible
        cases impossible
  | @leaves thread ulMilsecond rc woken free done result =>
      subst next
      exact informed.leave woken free

/-- Every run without useless wakeups keeps all informed. -/
theorem informed_of_heardBefore
    {event : State Tid}
    (reachable : machine.ReachableWhere HeardBefore event) :
    Informed event := by
  apply reachable.invariant
  · rintro start rfl
    constructor
    · intro thread
      exact Nat.le_refl 0
    · intro thread ulMilsecond impossible
      cases impossible
    · intro thread ulMilsecond impossible
      cases impossible
    · intro record member
      cases member
  · intro before after action informed heardBefore stepped
    exact informed.step heardBefore stepped

/-- A reader that is woken for nothing returns `0` for nothing. -/
theorem exists_uninformed
    {event next : State Tid}
    {action : Action Tid}
    (informed : Informed event)
    (breaks : ¬ HeardBefore event action)
    (stepped : step? event action = some next) :
    ∃ thread final record,
      step? next (.resume thread) = some final ∧
        final.returned = record :: next.returned ∧
        ¬ record.Informed := by
  simp only [HeardBefore, Classical.not_forall, Nat.not_lt] at breaks
  obtain ⟨thread, rfl, free, heard⟩ := breaks
  obtain ⟨ulMilsecond, sleeping, _, rfl⟩ := wake_eq stepped
  have waits : ulMilsecond ≠ 0 :=
    informed.blocking thread ulMilsecond (by simp [sleeping, Phase.call?])
  have leaves : ¬ Repeats ulMilsecond 0 := not_repeats_zero ulMilsecond
  let woke : State Tid :=
    { event with
      pool := Function.update event.pool thread
        (.woken ulMilsecond 0) }
  have resumed :
      step? woke (.resume thread) =
        some ({ woke with s32Rd := woke.s32Rd - 1 }.leave thread
          ulMilsecond 0) := by
    simp [step?, woke, free, evtRdWaitResume, leaves]
  refine ⟨thread, _, _, resumed, rfl, ?_⟩
  intro informedRecord
  have heardOne := informedRecord ulMilsecond rfl waits rfl
  simp only [woke] at heardOne
  omega

/--
A blocking read that returns `0` has heard a broadcast in exactly the runs in
which no reader is woken spuriously, while it can get the mutex, before the
first broadcast since it entered: in such runs every finished read is informed,
and after a wakeup that breaks the condition the reader can return `0` at once
without a broadcast.
-/
theorem informed_iff_heardBefore :
    (∀ event : State Tid,
      machine.ReachableWhere HeardBefore event →
      ∀ record,
        record ∈ event.returned →
        record.Informed) ∧
      ∀ (event next : State Tid) (action : Action Tid),
        machine.ReachableWhere HeardBefore event →
        machine.step? event action = some next →
        ¬ HeardBefore event action →
        ∃ thread final record,
          machine.step? next (.resume thread) = some final ∧
            final.returned = record :: next.returned ∧
            ¬ record.Informed := by
  constructor
  · intro event reachable
    exact (informed_of_heardBefore reachable).returned
  · intro event next action reachable stepped breaks
    exact exists_uninformed (informed_of_heardBefore reachable) breaks
      stepped

end Preservation

/--
One reader hears a broadcast and returns `0`; woken spuriously in its next wait,
it returns `0` again.
-/
theorem informed_iff_heardBefore_spurious :
    ∃ event next : State (Fin 2),
      (∀ record, record ∈ event.returned → record.Informed) ∧
        machine.step? event (.spurious 0) = some next ∧
        ∃ thread final record,
          machine.step? next (.resume thread) = some final ∧
            final.returned = record :: next.returned ∧
            ¬ record.Informed := by
  obtain ⟨event, reachable, breaks⟩ :=
    Machine.ReachableWhere.exists_of_run
      machine
      HeardBefore
      (evtRwCreate : State (Fin 2))
      [
        .wait 0 infinite,
        .broadcast 1,
        .resume 0,
        .wait 0 50
      ]
      (fun event =>
        (machine.step? event (.spurious 0)).isSome &&
          !decide (HeardBefore event (.spurious 0)))
      rfl
      (by decide)
      (by decide)
  rw [Bool.and_eq_true, Option.isSome_iff_exists, Bool.not_eq_true',
    decide_eq_false_iff_not] at breaks
  obtain ⟨⟨next, stepped⟩, unheard⟩ := breaks
  exact ⟨event, next, informed_iff_heardBefore.1 event reachable, stepped,
    informed_iff_heardBefore.2 event next (.spurious 0) reachable stepped
      unheard⟩

/-- A spurious wakeup of the only reader of an event that nobody broadcasts. -/
theorem spuriousRead_uninformed :
    ¬ ∀ event : State (Fin 1),
      machine.Reachable event →
      ∀ record,
        record ∈ event.returned →
        record.Informed := by
  intro allInformed
  obtain ⟨event, reachable, returned⟩ :=
    Machine.exists_reachable
      machine
      (evtRwCreate : State (Fin 1))
      [
        .wait 0 infinite,
        .spurious 0,
        .resume 0
      ]
      (fun event =>
        decide
          ({ thread := 0
             call := .wait infinite
             rc := 0
             heard := 0 } ∈ event.returned))
      rfl
      (by decide)
  have heard :=
    allInformed event reachable _ (of_decide_eq_true returned)
      infinite rfl (by decide) rfl
  cases heard

end WkcRuntime.EvtRw
