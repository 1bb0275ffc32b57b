import WkcRuntime.QueueRWakeup

namespace WkcRuntime.QueueR

open ConditionVariable

/-!
# Pops that throw

Both forms of a pop copy the front value before they call `data_queue.pop`: by
assignment to the reference, or into the object that `make_shared` allocates.
When that throws, the value stays where it is, and the destructor of the lock
releases the mutex on the way out.

What the exception takes along is the wakeup.  A waiting thread that was
notified for a value leaves it to nobody when it throws, so another sleeper is
left behind unless enough notified threads follow.
-/

/-- A step as in `Action`, or a pop whose copy throws. -/
inductive ThrowingAction (Tid T : Type) where
  | plain (action : Action Tid T)
  | tryPopThrows (thread : Tid) (form : Form)
  | waitPopThrows (thread : Tid) (form : Form)
  | resumeThrows (thread : Tid)
  deriving DecidableEq, Repr

namespace ThrowingAction

variable {Tid T : Type}

/-- The step is a pop that throws. -/
def throws : ThrowingAction Tid T → Bool
  | .plain _ => false
  | _ => true

/-- The waiting thread that throws instead of taking its value. -/
def resumed? : ThrowingAction Tid T → Option Tid
  | .resumeThrows thread => some thread
  | _ => none

end ThrowingAction

/-- No notified thread is on its way to a value that a sleeper waits for. -/
def Unattended
    {Tid T : Type}
    (state : State Tid T) :
    Prop :=
  state.dataQueue ≠ [] ∧
    (∃ thread, (state.pool thread).isAsleep = true) ∧
    ∀ thread, (state.pool thread).isWokenBy .notified = false

instance
    {Tid T : Type}
    [Fintype Tid]
    [DecidableEq T]
    (state : State Tid T) :
    Decidable (Unattended state) :=
  inferInstanceAs (Decidable (_ ∧ _ ∧ _))

/--
A notified thread that throws leaves nobody asleep, or as many other notified
threads as there are values.
-/
def SparesWakeup
    {Tid T : Type}
    [Fintype Tid]
    (state : State Tid T)
    (action : ThrowingAction Tid T) :
    Prop :=
  ∀ thread,
    action.resumed? = some thread →
    (state.pool thread).isWokenBy .notified = true →
    asleepCount state.pool = 0 ∨
      state.dataQueue.length < wokenByCount .notified state.pool

instance
    {Tid T : Type}
    [DecidableEq Tid]
    [Fintype Tid]
    (state : State Tid T)
    (action : ThrowingAction Tid T) :
    Decidable (SparesWakeup state action) :=
  inferInstanceAs (Decidable (∀ _, _))

section Steps

variable {Tid T : Type} [DecidableEq Tid] [Fintype Tid]

/-- The copy of the front value throws and the call ends. -/
def popThrows
    (thread : Tid)
    (state : State Tid T) :
    Option (State Tid T) :=
  match state.dataQueue with
  | [] =>
      none
  | _ :: _ =>
      some { state with
        pool := Function.update state.pool thread .outside }

/-- One step of the queue and the threads that use it, with throwing pops. -/
def throwingStep?
    (state : State Tid T) :
    ThrowingAction Tid T → Option (State Tid T)
  | .plain action =>
      step? state action
  | .tryPopThrows thread _ =>
      if state.pool thread = .outside then
        popThrows thread state
      else
        none
  | .waitPopThrows thread _ =>
      if state.pool thread = .outside then
        popThrows thread state
      else
        none
  | .resumeThrows thread =>
      match state.pool thread with
      | .woken _ _ =>
          popThrows thread state
      | _ =>
          none

/-- Any threads using one queue of values whose copies may throw. -/
def throwingMachine :
    Machine (State Tid T) (ThrowingAction Tid T) where
  Initial := fun state => state = construct
  step? := throwingStep?

omit [Fintype Tid] in
/-- A pop that throws found a value and only gives up its place. -/
theorem popThrows_eq
    {state next : State Tid T}
    {thread : Tid}
    (thrown : popThrows thread state = some next) :
    state.dataQueue ≠ [] ∧
      next = { state with
        pool := Function.update state.pool thread .outside } := by
  unfold popThrows at thrown
  cases queued : state.dataQueue with
  | nil =>
      simp [queued] at thrown
  | cons front rest =>
      simp only [queued, Option.some.injEq] at thrown
      exact ⟨List.cons_ne_nil front rest, thrown.symm⟩

/-- The thread that throws, which was not asleep, and the pop it was in. -/
theorem popThrows_of_throws
    {state next : State Tid T}
    {action : ThrowingAction Tid T}
    (throws : action.throws = true)
    (stepped : throwingStep? state action = some next) :
    ∃ thread,
      popThrows thread state = some next ∧
        (state.pool thread).isAsleep = false ∧
        ((state.pool thread).isWokenBy .notified = true →
          action.resumed? = some thread) := by
  cases action with
  | plain action => cases throws
  | tryPopThrows thread form =>
      simp only [throwingStep?,
        Option.ite_none_right_eq_some] at stepped
      obtain ⟨outside, thrown⟩ := stepped
      exact ⟨thread, thrown, by simp [outside], by simp [outside]⟩
  | waitPopThrows thread form =>
      simp only [throwingStep?,
        Option.ite_none_right_eq_some] at stepped
      obtain ⟨outside, thrown⟩ := stepped
      exact ⟨thread, thrown, by simp [outside], by simp [outside]⟩
  | resumeThrows thread =>
      simp only [throwingStep?] at stepped
      cases phase : state.pool thread with
      | outside =>
          simp [phase] at stepped
      | asleep form =>
          simp [phase] at stepped
      | woken form wake =>
          simp only [phase] at stepped
          exact ⟨thread, stepped, by simp [phase], fun _ => rfl⟩

/-- A pop that throws takes no value and moves none. -/
theorem dataQueue_of_throws
    {state next : State Tid T}
    {action : ThrowingAction Tid T}
    (throws : action.throws = true)
    (stepped : throwingStep? state action = some next) :
    next.dataQueue = state.dataQueue := by
  obtain ⟨thread, thrown, _⟩ := popThrows_of_throws throws stepped
  rw [(popThrows_eq thrown).2]

end Steps

section Preservation

variable {Tid T : Type} [DecidableEq Tid] [Fintype Tid]

omit [DecidableEq Tid] in
/-- A sound state leaves no value unattended. -/
theorem Sound.notUnattended
    {state : State Tid T}
    (sound : Sound state) :
    ¬ Unattended state := by
  rintro ⟨nonempty, someone, nobody⟩
  have none : wokenByCount .notified state.pool = 0 :=
    headcount_eq_zero_iff.mpr nobody
  have values := List.length_pos_iff.mpr nonempty
  exact sound.notStranded ⟨nonempty, someone, by omega⟩

/-- A thread that is not asleep leaves as many sleepers and one notified less. -/
theorem counts_of_leaving
    {pool : Pool Tid Form Wake}
    {thread : Tid}
    (notAsleep : (pool thread).isAsleep = false) :
    asleepCount (Function.update pool thread .outside) =
        asleepCount pool ∧
      wokenByCount .notified (Function.update pool thread .outside) +
          ((pool thread).isWokenBy Wake.notified).toNat =
        wokenByCount .notified pool := by
  have sleepers := asleepCount_update pool thread .outside
  have notified := wokenByCount_update .notified pool thread .outside
  simp only [notAsleep, Phase.isAsleep_outside,
    Phase.isWokenBy_outside, Bool.toNat_false,
    Nat.add_zero] at sleepers notified
  exact ⟨sleepers, notified⟩

/-- A throw that spares the wakeup leaves values and wakeups in order. -/
theorem Sound.throws
    {state next : State Tid T}
    {action : ThrowingAction Tid T}
    (sound : Sound state)
    (throws : action.throws = true)
    (spares : SparesWakeup state action)
    (stepped : throwingStep? state action = some next) :
    Sound next := by
  obtain ⟨thread, thrown, notAsleep, resumed⟩ :=
    popThrows_of_throws throws stepped
  obtain ⟨_, rfl⟩ := popThrows_eq thrown
  obtain ⟨sleepers, notified⟩ := counts_of_leaving notAsleep
  constructor
  · exact sound.inOrder
  · simp only [sleepers]
    cases wakes : (state.pool thread).isWokenBy .notified with
    | false =>
        rw [wakes, Bool.toNat_false, Nat.add_zero] at notified
        rw [notified]
        exact sound.enough
    | true =>
        rw [wakes, Bool.toNat_true] at notified
        apply (spares thread (resumed wakes) wakes).imp_right
        intro enough
        omega

/-- Steps that return keep a sound state sound, and so do sparing throws. -/
theorem Sound.throwingStep
    {state next : State Tid T}
    {action : ThrowingAction Tid T}
    (sound : Sound state)
    (spares : SparesWakeup state action)
    (stepped : throwingStep? state action = some next) :
    Sound next := by
  cases throws : action.throws with
  | true =>
      exact sound.throws throws spares stepped
  | false =>
      cases action with
      | plain action => exact sound.step stepped
      | tryPopThrows thread form => cases throws
      | waitPopThrows thread form => cases throws
      | resumeThrows thread => cases throws

/-- Every run whose throws spare the wakeup is sound. -/
theorem sound_of_sparesWakeup
    {state : State Tid T}
    (reachable : throwingMachine.ReachableWhere SparesWakeup state) :
    Sound state := by
  apply reachable.invariant
  · rintro start rfl
    constructor
    · rfl
    · left
      exact headcount_eq_zero_iff.mpr (fun _ => rfl)
  · intro before after action sound spares stepped
    exact sound.throwingStep spares stepped

/-- A throw that does not spare the wakeup leaves values for a sleeper. -/
theorem exceeds_of_not_sparesWakeup
    {state next : State Tid T}
    {action : ThrowingAction Tid T}
    (breaks : ¬ SparesWakeup state action)
    (stepped : throwingStep? state action = some next) :
    0 < asleepCount next.pool ∧
      wokenByCount .notified next.pool < next.dataQueue.length := by
  simp only [SparesWakeup, Classical.not_forall, not_or, not_lt] at breaks
  obtain ⟨thread, resumed, wakes, someAsleep, values⟩ := breaks
  cases action with
  | plain action => cases resumed
  | tryPopThrows thread form => cases resumed
  | waitPopThrows thread form => cases resumed
  | resumeThrows other =>
      cases resumed
      obtain ⟨form, phase⟩ := Phase.isWokenBy_iff.mp wakes
      simp only [throwingStep?, phase] at stepped
      obtain ⟨_, rfl⟩ := popThrows_eq stepped
      obtain ⟨sleepers, notified⟩ :=
        @counts_of_leaving Tid _ _ state.pool thread (by simp [phase])
      rw [wakes, Bool.toNat_true] at notified
      simp only [sleepers]
      omega

/--
With more values than notified threads, letting each of these take its value
leaves the rest to a sleeper that nobody wakes.
-/
theorem exists_unattended
    {state : State Tid T}
    (sleepers : 0 < asleepCount state.pool)
    (exceeds :
      wokenByCount .notified state.pool < state.dataQueue.length) :
    ∃ actions final,
      (∀ action, action ∈ actions → action.throws = false) ∧
        throwingMachine.run? state actions = some final ∧
        Unattended final := by
  induction remaining : wokenByCount .notified state.pool
    generalizing state with
  | zero =>
      refine ⟨[], state, by simp, rfl, ?_, ?_, ?_⟩
      · exact List.length_pos_iff.mp (by omega)
      · exact headcount_pos_iff.mp sleepers
      · exact headcount_eq_zero_iff.mp remaining
  | succ count inductionHypothesis =>
      obtain ⟨thread, form, woken⟩ :=
        wokenByCount_pos_iff.mp
          (show 0 < wokenByCount .notified state.pool by omega)
      cases queued : state.dataQueue with
      | nil =>
          simp [queued] at exceeds
      | cons front rest =>
          have stepped :
              throwingMachine.step? state (.plain (.resume thread)) =
                some (waitPop thread form state) := by
            simp [throwingMachine, throwingStep?, step?, woken]
          obtain ⟨sleepersSame, notifiedFewer⟩ :=
            @counts_of_leaving Tid _ _ state.pool thread
              (by simp [woken])
          simp only [woken, Phase.isWokenBy_woken, decide_true,
            Bool.toNat_true] at notifiedFewer
          simp only [queued, List.length_cons] at exceeds
          obtain ⟨later, final, calm, ran, unattended⟩ :=
            @inductionHypothesis (waitPop thread form state)
              (by simpa [waitPop, queued, sleepersSame] using sleepers)
              (by
                simp only [waitPop, queued]
                omega)
              (by
                simp only [waitPop, queued]
                omega)
          refine ⟨.plain (.resume thread) :: later, final, ?_, ?_,
            unattended⟩
          · intro action member
            rcases List.mem_cons.mp member with isHead | inLater
            · subst action
              rfl
            · exact calm action inLater
          · rw [Machine.run?, stepped]
            exact ran

/--
A pop that throws leaves the queue's values and their order alone, and no value
is left unattended in exactly the runs in which a notified thread that throws
leaves nobody asleep or as many other notified threads as values: a throw that
breaks the condition can be continued, without another throw, to a value that a
sleeper waits for and nobody comes for.
-/
theorem notUnattended_iff_sparesWakeup :
    (∀ (state next : State Tid T) (action : ThrowingAction Tid T),
      throwingMachine.Reachable state →
      action.throws = true →
      throwingMachine.step? state action = some next →
      next.dataQueue = state.dataQueue) ∧
    (∀ state : State Tid T,
      throwingMachine.ReachableWhere SparesWakeup state →
      ¬ Unattended state) ∧
      ∀ (state next : State Tid T) (action : ThrowingAction Tid T),
        throwingMachine.ReachableWhere SparesWakeup state →
        throwingMachine.step? state action = some next →
        ¬ SparesWakeup state action →
        ∃ actions final,
          (∀ later, later ∈ actions → later.throws = false) ∧
            throwingMachine.run? next actions = some final ∧
            Unattended final := by
  refine ⟨?_, ?_, ?_⟩
  · intro state next action _ throws stepped
    exact dataQueue_of_throws throws stepped
  · intro state reachable
    exact (sound_of_sparesWakeup reachable).notUnattended
  · intro state next action _ stepped breaks
    obtain ⟨sleepers, exceeds⟩ :=
      exceeds_of_not_sparesWakeup breaks stepped
    exact exists_unattended sleepers exceeds

/--
Three sleepers and two pushes, with a `try_pop` that throws in between: a throw
of the first notified thread leaves its value to the sleeper that is left.
-/
theorem notUnattended_iff_sparesWakeup_throws :
    ∃ state : State (Fin 4) Nat,
      ¬ Unattended state ∧
        ∃ actions final,
          (∀ later, later ∈ actions → later.throws = false) ∧
            throwingMachine.run? state (.resumeThrows 0 :: actions) =
              some final ∧
            Unattended final := by
  obtain ⟨state, reachable, breaks⟩ :=
    Machine.ReachableWhere.exists_of_run
      throwingMachine
      SparesWakeup
      (construct : State (Fin 4) Nat)
      [
        .plain (.waitPop 0 .sharedPtr),
        .plain (.waitPop 1 .reference),
        .plain (.waitPop 2 .reference),
        .plain (.push 3 7 (some 0)),
        .tryPopThrows 3 .reference,
        .plain (.push 3 8 (some 1))
      ]
      (fun state =>
        (throwingMachine.step? state (.resumeThrows 0)).isSome &&
          !decide (SparesWakeup state (.resumeThrows 0)))
      rfl
      (by decide)
      (by decide)
  rw [Bool.and_eq_true, Option.isSome_iff_exists, Bool.not_eq_true',
    decide_eq_false_iff_not] at breaks
  obtain ⟨⟨next, stepped⟩, unspared⟩ := breaks
  obtain ⟨actions, final, calm, ran, unattended⟩ :=
    notUnattended_iff_sparesWakeup.2.2 state next (.resumeThrows 0)
      reachable stepped unspared
  refine ⟨state, notUnattended_iff_sparesWakeup.2.1 state reachable,
    actions, final, calm, ?_, unattended⟩
  rw [Machine.run?, stepped]
  exact ran

/-- Two sleepers and one push, whose notified thread throws. -/
theorem throwingPop_strands :
    ¬ ∀ state : State (Fin 3) Nat,
      throwingMachine.Reachable state →
      ¬ Unattended state := by
  intro attended
  obtain ⟨state, reachable, unattended⟩ :=
    Machine.exists_reachable
      throwingMachine
      (construct : State (Fin 3) Nat)
      [
        .plain (.waitPop 0 .sharedPtr),
        .plain (.waitPop 1 .reference),
        .plain (.push 2 7 (some 0)),
        .resumeThrows 0
      ]
      (fun state => decide (Unattended state))
      rfl
      (by decide)
  exact attended state reachable (of_decide_eq_true unattended)

end Preservation

end WkcRuntime.QueueR
