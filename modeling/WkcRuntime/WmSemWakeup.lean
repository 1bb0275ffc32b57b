import WkcRuntime.WmSemSource

namespace WkcRuntime.WmSem

open ConditionVariable

/-!
# Wakeups of the semaphore

`wm_sem_post` and `wm_sem_broadcast` unblock sleepers only when they find the
count at zero.  Whether a sleeper can be left behind with a positive count is
decided by how many threads are already on their way to the mutex: each of them
takes one unit when it arrives.  The invariant is therefore a comparison of the
count with the number of woken threads, and the condition on a step is that the
skipped wakeup was not needed for it.
-/

/-- The amount that a call adds to the count. -/
def Action.amount? {Tid : Type} : Action Tid → Option Int32
  | .post _ _ => some 1
  | .broadcast _ s32Num => some s32Num
  | _ => none

/-- Posts, positive broadcasts and untimed waits, with spurious wakeups. -/
def Action.Untimed {Tid : Type} : Action Tid → Prop
  | .post _ _ => True
  | .broadcast _ s32Num => 0 < s32Num
  | .wait _ ulMilsecond => ulMilsecond = infinite
  | .spurious _ => True
  | .resume _ => True
  | _ => False

instance {Tid : Type} (action : Action Tid) :
    Decidable action.Untimed :=
  match action with
  | .post _ _ => isTrue trivial
  | .broadcast _ s32Num => inferInstanceAs (Decidable (0 < s32Num))
  | .wait _ ulMilsecond =>
      inferInstanceAs (Decidable (ulMilsecond = infinite))
  | .clockFails _ _ => isFalse id
  | .getvalue _ => isFalse id
  | .spurious _ => isTrue trivial
  | .timeout _ => isFalse id
  | .resume _ => isTrue trivial

/-- The count is positive, a thread sleeps and nobody is on the way to it. -/
def Stranded {Tid : Type} (state : State Tid) : Prop :=
  0 < state.cnt ∧
    (∃ thread, (state.pool thread).isAsleep = true) ∧
    ∀ thread, (state.pool thread).isWoken = false

instance
    {Tid : Type}
    [Fintype Tid]
    (state : State Tid) :
    Decidable (Stranded state) :=
  inferInstanceAs (Decidable (_ ∧ _ ∧ _))

section Model

variable {Tid : Type} [Fintype Tid]

/--
A call that skips the wakeup because the count is not zero finds nobody asleep,
or as many woken threads as the count it is about to leave.
-/
def WakesEnough
    (state : State Tid)
    (action : Action Tid) :
    Prop :=
  ∀ amount,
    action.amount? = some amount →
    state.cnt = 0 ∨
      asleepCount state.pool = 0 ∨
      (state.cnt + amount).toInt ≤ wokenCount state.pool

instance
    (state : State Tid)
    (action : Action Tid) :
    Decidable (WakesEnough state action) :=
  match adds : action.amount? with
  | none =>
      isTrue fun amount added => by
        simp [adds] at added
  | some amount =>
      decidable_of_iff
        (state.cnt = 0 ∨
          asleepCount state.pool = 0 ∨
          (state.cnt + amount).toInt ≤ wokenCount state.pool)
        ⟨fun enough other added => by
          rw [adds, Option.some.injEq] at added
          exact added ▸ enough,
          fun enough => enough amount adds⟩

/-- Every waiting thread is in an untimed wait. -/
def AllUntimed (state : State Tid) : Prop :=
  ∀ thread ulMilsecond,
    (state.pool thread).call? = some ulMilsecond →
    ulMilsecond = infinite

/-- Woken threads are enough to use up the count, unless nobody sleeps. -/
structure Covered (state : State Tid) : Prop where
  untimed :
    AllUntimed state
  enough :
    asleepCount state.pool = 0 ∨
      state.cnt.toInt ≤ wokenCount state.pool

/-- A covered state strands nobody. -/
theorem Covered.notStranded
    {state : State Tid}
    (covered : Covered state) :
    ¬ Stranded state := by
  rintro ⟨positive, ⟨thread, sleeping⟩, nobody⟩
  have noneWoken : wokenCount state.pool = 0 :=
    headcount_eq_zero_iff.mpr nobody
  have someAsleep : 0 < asleepCount state.pool :=
    headcount_pos_iff.mpr ⟨thread, sleeping⟩
  rw [Int32.lt_iff_toInt_lt, Int32.toInt_zero] at positive
  rcases covered.enough with empty | bounded <;> omega

end Model

/-- Taking one unit from a positive count cannot wrap around. -/
theorem toInt_sub_one
    {cnt : Int32}
    (positive : ¬ cnt ≤ 0) :
    (cnt - 1).toInt = cnt.toInt - 1 := by
  rw [Int32.le_iff_toInt_le, Int32.toInt_zero] at positive
  have upper := Int32.toInt_lt cnt
  rw [Int32.toInt_sub, Int32.toInt_one]
  apply Int.bmod_eq_of_le <;> omega

/-- Changing one phase within untimed calls keeps every wait untimed. -/
theorem AllUntimed.update
    {Tid : Type}
    [DecidableEq Tid]
    {state next : State Tid}
    (untimed : AllUntimed state)
    {thread : Tid}
    (phase : Phase UInt64 Wake)
    (inUntimed :
      ∀ ulMilsecond,
        phase.call? = some ulMilsecond →
        ulMilsecond = infinite)
    (nextPool :
      next.pool = Function.update state.pool thread phase) :
    AllUntimed next := by
  intro other ulMilsecond inCall
  rw [nextPool] at inCall
  by_cases same : other = thread
  · subst other
    simp only [Function.update_self] at inCall
    exact inUntimed ulMilsecond inCall
  · simp only [Function.update_of_ne same] at inCall
    exact untimed other ulMilsecond inCall

/-- Threads that stay in their calls stay in untimed ones. -/
theorem AllUntimed.sameCalls
    {Tid : Type}
    {state next : State Tid}
    (untimed : AllUntimed state)
    (same :
      ∀ thread,
        (next.pool thread).call? = (state.pool thread).call?) :
    AllUntimed next := by
  intro thread ulMilsecond inCall
  exact untimed thread ulMilsecond ((same thread).symm.trans inCall)

/-- A broadcast leaves nobody asleep or finds enough threads woken. -/
theorem Covered.broadcast
    {Tid : Type}
    [Fintype Tid]
    {state : State Tid}
    (covered : Covered state)
    {thread : Tid}
    {s32Num : Int32}
    (wakes : WakesEnough state (.broadcast thread s32Num)) :
    Covered (wmSemBroadcast thread s32Num state) := by
  unfold wmSemBroadcast
  by_cases empty : state.cnt = 0
  · simp only [empty, ↓reduceIte]
    refine ⟨covered.untimed.sameCalls ?_, Or.inl ?_⟩
    · intro other
      simp [wakeAll]
    · simp
  · simp only [empty, ↓reduceIte]
    refine ⟨covered.untimed.sameCalls ?_, ?_⟩
    · intro other
      simp
    · simpa using (wakes s32Num rfl).resolve_left empty

section Preservation

variable {Tid : Type} [DecidableEq Tid] [Fintype Tid]

/--
The loop test of an untimed wait keeps the comparison: a thread that goes to
sleep does so at a count of at most zero, and a thread that takes a unit was
either new or one of the woken.
-/
theorem Covered.waitLoop
    {state : State Tid}
    (covered : Covered state)
    (thread : Tid)
    (notAsleep : (state.pool thread).isAsleep = false) :
    Covered (waitLoop thread infinite state) := by
  have moved : (state.pool thread).isWoken.toNat ≤ 1 :=
    Bool.toNat_le _
  unfold WmSem.waitLoop
  by_cases exhausted : state.cnt ≤ 0
  · simp only [exhausted, ↓reduceIte]
    refine ⟨covered.untimed.update
      (.asleep infinite) ?_ rfl, Or.inr ?_⟩
    · intro ulMilsecond inCall
      exact (Option.some.inj inCall).symm
    · rw [Int32.le_iff_toInt_le, Int32.toInt_zero] at exhausted
      exact exhausted.trans (Int.natCast_nonneg _)
  · simp only [exhausted, ↓reduceIte]
    refine ⟨covered.untimed.update
      .outside ?_ rfl, ?_⟩
    · intro ulMilsecond inCall
      cases inCall
    · have sleepers :=
        asleepCount_update state.pool thread .outside
      have woken :=
        wokenCount_update state.pool thread .outside
      simp only [notAsleep, Phase.isAsleep_outside,
        Phase.isWoken_outside, Bool.toNat_false,
        Nat.add_zero] at sleepers woken
      simp only [State.finish, sleepers,
        toInt_sub_one exhausted]
      rcases covered.enough with empty | bounded
      · exact Or.inl empty
      · right
        omega

/-- One signalled sleeper covers the first unit that a post adds. -/
theorem Covered.post
    {state next : State Tid}
    (covered : Covered state)
    {thread : Tid}
    {chosen : Option Tid}
    (wakes : WakesEnough state (.post thread chosen))
    (posted : wmSemPost thread chosen state = some next) :
    Covered next := by
  unfold wmSemPost at posted
  by_cases empty : state.cnt = 0
  · simp only [empty, ↓reduceIte, Option.map_eq_some_iff] at posted
    obtain ⟨pool, signalled, rfl⟩ := posted
    refine ⟨covered.untimed.sameCalls ?_, ?_⟩
    · intro other
      simpa using call?_of_wakeOne? signalled other
    · simp only [State.add_cnt, State.add_pool]
      rcases wakeOne?_cases signalled with
        ⟨_, rfl, nobody⟩ | ⟨target, call, _, sleeping, rfl⟩
      · exact Or.inl nobody
      · right
        have woken :=
          wokenCount_update state.pool target (.woken call .unblocked)
        simp only [sleeping, Phase.isWoken_asleep,
          Phase.isWoken_woken, Bool.toNat_false,
          Bool.toNat_true, Nat.add_zero] at woken
        have one : ((0 : Int32) + 1).toInt = 1 := rfl
        omega
  · simp only [empty, ↓reduceIte, Option.some.injEq] at posted
    subst next
    refine ⟨covered.untimed.sameCalls ?_, ?_⟩
    · intro other
      simp
    · simpa using (wakes 1 rfl).resolve_left empty

/-- A wakeup nobody asked for only adds to the woken threads. -/
theorem Covered.spurious
    {state : State Tid}
    (covered : Covered state)
    {thread : Tid}
    {ulMilsecond : UInt64}
    (sleeping : state.pool thread = .asleep ulMilsecond) :
    Covered { state with
      pool := Function.update state.pool thread
        (.woken ulMilsecond .unblocked) } := by
  refine ⟨covered.untimed.update
    (.woken ulMilsecond .unblocked) ?_ rfl, Or.inr ?_⟩
  · intro other inCall
    apply covered.untimed thread
    simpa [sleeping, Phase.call?] using inCall
  · have woken :=
      wokenCount_update state.pool thread
        (.woken ulMilsecond .unblocked)
    simp only [sleeping, Phase.isWoken_asleep,
      Phase.isWoken_woken, Bool.toNat_false,
      Bool.toNat_true, Nat.add_zero] at woken
    have someAsleep : 0 < asleepCount state.pool :=
      asleepCount_pos_iff.mpr ⟨thread, ulMilsecond, sleeping⟩
    rcases covered.enough with empty | bounded
    · omega
    · simp only
      omega

/-- Every step of an untimed run that wakes enough keeps the comparison. -/
theorem Covered.step
    {state next : State Tid}
    {action : Action Tid}
    (covered : Covered state)
    (untimed : action.Untimed)
    (wakes : WakesEnough state action)
    (stepped : step? state action = some next) :
    Covered next := by
  cases action with
  | post thread chosen =>
      simp only [step?, Option.ite_none_right_eq_some] at stepped
      exact covered.post wakes stepped.2
  | broadcast thread s32Num =>
      simp only [step?, Option.ite_none_right_eq_some,
        Option.some.injEq] at stepped
      obtain ⟨_, rfl⟩ := stepped
      exact covered.broadcast wakes
  | wait thread ulMilsecond =>
      simp only [step?, Option.ite_none_right_eq_some,
        Option.some.injEq] at stepped
      obtain ⟨⟨_, outside⟩, rfl⟩ := stepped
      have isInfinite : ulMilsecond = infinite := untimed
      subst ulMilsecond
      exact covered.waitLoop _ (by simp [outside])
  | clockFails thread ulMilsecond =>
      exact untimed.elim
  | getvalue thread =>
      exact untimed.elim
  | spurious thread =>
      simp only [step?] at stepped
      cases phase : state.pool thread with
      | outside =>
          simp [phase] at stepped
      | asleep ulMilsecond =>
          simp only [phase, Option.some.injEq] at stepped
          subst next
          exact covered.spurious phase
      | woken ulMilsecond wake =>
          simp [phase] at stepped
  | timeout thread =>
      exact untimed.elim
  | resume thread =>
      simp only [step?] at stepped
      cases phase : state.pool thread with
      | outside =>
          simp [phase] at stepped
      | asleep ulMilsecond =>
          simp [phase] at stepped
      | woken ulMilsecond wake =>
          simp only [phase, Option.ite_none_right_eq_some,
            Option.some.injEq] at stepped
          obtain ⟨_, rfl⟩ := stepped
          have isInfinite : ulMilsecond = infinite :=
            covered.untimed thread ulMilsecond (by
              simp [phase, Phase.call?])
          subst ulMilsecond
          simpa [wmSemWaitResume] using
            covered.waitLoop thread (by simp [phase])

/--
With more units than woken threads, letting every woken thread run leaves a
positive count and the sleepers behind.
-/
theorem exists_stranded
    (s32Num : Int32)
    {state : State Tid}
    (untimed : AllUntimed state)
    (free : state.mutex = none)
    (sleepers : 0 < asleepCount state.pool)
    (exceeds : (wokenCount state.pool : Int) < state.cnt.toInt) :
    ∃ actions final,
      (∀ action, action ∈ actions → action.Untimed) ∧
        (machine s32Num).run? state actions = some final ∧
        Stranded final := by
  induction remaining : wokenCount state.pool generalizing state with
  | zero =>
      refine ⟨[], state, by simp, rfl, ?_, ?_, ?_⟩
      · rw [Int32.lt_iff_toInt_lt, Int32.toInt_zero]
        omega
      · exact headcount_pos_iff.mp sleepers
      · exact headcount_eq_zero_iff.mp remaining
  | succ count inductionHypothesis =>
      obtain ⟨thread, ulMilsecond, wake, woken⟩ :=
        wokenCount_pos_iff.mp
          (show 0 < wokenCount state.pool by omega)
      have isInfinite : ulMilsecond = infinite :=
        untimed thread ulMilsecond (by simp [woken, Phase.call?])
      subst ulMilsecond
      have positive : ¬ state.cnt ≤ 0 := by
        rw [Int32.le_iff_toInt_le, Int32.toInt_zero]
        omega
      have stepped :
          (machine s32Num).step? state (.resume thread) =
            some (waitLoop thread infinite state) := by
        simp [machine, step?, woken, free, wmSemWaitResume]
      have sleepersSame :=
        asleepCount_update state.pool thread .outside
      have wokenFewer :=
        wokenCount_update state.pool thread .outside
      simp only [woken, Phase.isAsleep_woken, Phase.isWoken_woken,
        Phase.isAsleep_outside, Phase.isWoken_outside,
        Bool.toNat_false, Bool.toNat_true,
        Nat.add_zero] at sleepersSame wokenFewer
      obtain ⟨rest, final, restUntimed, restRun, stranded⟩ :=
        @inductionHypothesis (waitLoop thread infinite state)
          (by
            simp only [waitLoop, positive, ↓reduceIte]
            refine untimed.update .outside ?_ rfl
            intro ulMilsecond inCall
            cases inCall)
          (by simpa [waitLoop, positive, State.finish] using free)
          (by
            simp only [waitLoop, positive, ↓reduceIte, State.finish]
            omega)
          (by
            simp only [waitLoop, positive, ↓reduceIte, State.finish,
              toInt_sub_one positive]
            omega)
          (by
            simp only [waitLoop, positive, ↓reduceIte, State.finish]
            omega)
      refine ⟨.resume thread :: rest, final, ?_, ?_, stranded⟩
      · intro action member
        rcases List.mem_cons.mp member with isHead | inRest
        · subst action
          trivial
        · exact restUntimed action inRest
      · simp only [Machine.run?, stepped]
        exact restRun

/-- A call that skips a needed wakeup leaves more units than woken threads. -/
theorem exceeds_of_not_wakesEnough
    {state next : State Tid}
    {action : Action Tid}
    (skips : ¬ WakesEnough state action)
    (stepped : step? state action = some next) :
    next.mutex = none ∧
      next.pool = state.pool ∧
      0 < asleepCount state.pool ∧
      (wokenCount state.pool : Int) < next.cnt.toInt := by
  simp only [WakesEnough, not_forall, not_or, not_le] at skips
  obtain ⟨amount, adds, nonzero, sleepers, exceeds⟩ := skips
  have nonneg : 0 ≤ (state.cnt + amount).toInt := by
    omega
  cases action with
  | post thread chosen =>
      simp only [Action.amount?, Option.some.injEq] at adds
      subst amount
      simp only [step?, wmSemPost, nonzero, ↓reduceIte,
        Option.ite_none_right_eq_some, Option.some.injEq] at stepped
      obtain ⟨⟨free, _⟩, rfl⟩ := stepped
      exact ⟨(State.add_mutex_of_nonneg nonneg).trans free,
        State.add_pool .., Nat.pos_of_ne_zero sleepers,
        by simpa using exceeds⟩
  | broadcast thread s32Num =>
      simp only [Action.amount?, Option.some.injEq] at adds
      subst amount
      simp only [step?, wmSemBroadcast, nonzero, ↓reduceIte,
        Option.ite_none_right_eq_some, Option.some.injEq] at stepped
      obtain ⟨⟨free, _⟩, rfl⟩ := stepped
      exact ⟨(State.add_mutex_of_nonneg nonneg).trans free,
        State.add_pool .., Nat.pos_of_ne_zero sleepers,
        by simpa using exceeds⟩
  | wait thread ulMilsecond => cases adds
  | clockFails thread ulMilsecond => cases adds
  | getvalue thread => cases adds
  | spurious thread => cases adds
  | timeout thread => cases adds
  | resume thread => cases adds

end Preservation

/-- The steps of posts, positive broadcasts and untimed waits. -/
def UntimedRun
    {Tid : Type} :
    State Tid → Action Tid → Prop :=
  fun _ action => action.Untimed

/-- Untimed runs in which no needed wakeup is skipped. -/
def WakingRun
    {Tid : Type}
    [Fintype Tid] :
    State Tid → Action Tid → Prop :=
  fun state action => action.Untimed ∧ WakesEnough state action

instance
    {Tid : Type}
    [Fintype Tid]
    (state : State Tid)
    (action : Action Tid) :
    Decidable (WakingRun state action) :=
  inferInstanceAs (Decidable (_ ∧ _))

/-- Woken threads cover the count in every state of a waking run. -/
theorem covered_of_wakingRun
    {Tid : Type}
    [DecidableEq Tid]
    [Fintype Tid]
    {s32Num : Int32}
    {state : State Tid}
    (reachable : (machine s32Num).ReachableWhere WakingRun state) :
    Covered state := by
  apply reachable.invariant
  · rintro start rfl
    refine ⟨?_, Or.inl ?_⟩
    · intro thread ulMilsecond inCall
      cases inCall
    · exact headcount_eq_zero_iff.mpr (fun _ => rfl)
  · intro before after action covered permitted stepped
    exact covered.step permitted.1 permitted.2 stepped

/--
No wakeup is lost exactly in the runs in which every post or broadcast that
finds a positive count and a sleeper also finds enough threads woken for the
count it leaves: such runs strand nobody, and a call that breaks the condition
can be continued to a stranded sleeper.
-/
theorem notStranded_iff_wakesEnough
    {Tid : Type}
    [DecidableEq Tid]
    [Fintype Tid]
    (s32Num : Int32) :
    (∀ state : State Tid,
      (machine s32Num).ReachableWhere WakingRun state →
      ¬ Stranded state) ∧
      ∀ (state next : State Tid) (action : Action Tid),
        (machine s32Num).ReachableWhere WakingRun state →
        action.Untimed →
        (machine s32Num).step? state action = some next →
        ¬ WakesEnough state action →
        ∃ actions final,
          (∀ later, later ∈ actions → later.Untimed) ∧
            (machine s32Num).run? next actions = some final ∧
            Stranded final := by
  constructor
  · intro state reachable
    exact (covered_of_wakingRun reachable).notStranded
  · intro state next action reachable _ stepped skips
    obtain ⟨free, samePool, sleepers, exceeds⟩ :=
      exceeds_of_not_wakesEnough skips stepped
    refine exists_stranded s32Num ?_ free ?_ ?_
    · apply (covered_of_wakingRun reachable).untimed.sameCalls
      intro thread
      rw [samePool]
    · rwa [samePool]
    · rwa [samePool]

/--
Two sleepers and one post: its signal leaves nobody behind, and the post after
it is the call that skips a wakeup and strands the other sleeper.
-/
theorem notStranded_iff_wakesEnough_skipped :
    ∃ state : State (Fin 3),
      ¬ Stranded state ∧
        ∃ actions final,
          (∀ later, later ∈ actions → later.Untimed) ∧
            (machine 0).run? state (.post 2 none :: actions) =
              some final ∧
            Stranded final := by
  obtain ⟨state, reachable, skips⟩ :=
    Machine.ReachableWhere.exists_of_run
      (machine (0 : Int32))
      WakingRun
      (wmSemCreate 0 : State (Fin 3))
      [
        .wait 0 infinite,
        .wait 1 infinite,
        .post 2 (some 0)
      ]
      (fun state =>
        ((machine (0 : Int32)).step? state (.post 2 none)).isSome &&
          !decide (WakesEnough state (.post 2 none)))
      rfl
      (by decide)
      (by decide)
  rw [Bool.and_eq_true, Option.isSome_iff_exists, Bool.not_eq_true',
    decide_eq_false_iff_not] at skips
  obtain ⟨⟨next, stepped⟩, skipped⟩ := skips
  obtain ⟨actions, final, untimed, ran, stranded⟩ :=
    (notStranded_iff_wakesEnough 0).2 state next (.post 2 none)
      reachable trivial stepped skipped
  refine ⟨state, (notStranded_iff_wakesEnough 0).1 state reachable,
    actions, final, untimed, ?_, stranded⟩
  rw [Machine.run?, stepped]
  exact ran

/--
Two sleepers, two posts and one signal: the second post finds the count at one
and skips the wakeup, the first waiter takes a unit, and the other one sleeps
on with the count at one.
-/
theorem secondPost_strands :
    ¬ ∀ state : State (Fin 3),
      (machine 0).ReachableWhere UntimedRun state →
      ¬ Stranded state := by
  intro neverStranded
  obtain ⟨final, reachable, stranded⟩ :=
    Machine.ReachableWhere.exists_of_run
      (machine (0 : Int32))
      UntimedRun
      (wmSemCreate 0 : State (Fin 3))
      [
        .wait 0 infinite,
        .wait 1 infinite,
        .post 2 (some 0),
        .post 2 none,
        .resume 0
      ]
      (fun state => decide (Stranded state))
      rfl
      (Machine.respects_of_forall _ (by decide) _)
      (by decide)
  exact neverStranded final reachable (of_decide_eq_true stranded)

end WkcRuntime.WmSem
