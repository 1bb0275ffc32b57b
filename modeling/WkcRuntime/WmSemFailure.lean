import WkcRuntime.WmSemTokens

namespace WkcRuntime.WmSem

open ConditionVariable

/-!
# Failing posts of the semaphore

`wm_sem_post` and `wm_sem_broadcast` store the sum first and look at its sign
afterwards, inside the critical section.  Their error return therefore leaves
the new count behind, and it skips the unlock that `wm_sem_wait` makes before
its own.  No step of another call gets past a locked mutex, so one failing call
is the last operation on the semaphore.
-/

/-- A call that returns `-1` leaves the count as it was and the mutex free. -/
def FailsClean
    {Tid : Type}
    (state next : State Tid) :
    Prop :=
  ∀ record,
    next.returned = record :: state.returned →
    record.rc = -1 →
    next.cnt = state.cnt ∧ next.mutex = none

/-- What the call adds, modulo `2 ^ 32`, leaves a count of at least zero. -/
def AddsUp
    {Tid : Type}
    (state : State Tid)
    (action : Action Tid) :
    Prop :=
  ∀ amount,
    action.amount? = some amount →
    0 ≤ state.cnt + amount

instance
    {Tid : Type}
    (state : State Tid)
    (action : Action Tid) :
    Decidable (AddsUp state action) :=
  match adds : action.amount? with
  | none =>
      isTrue fun amount added => by
        simp [adds] at added
  | some amount =>
      decidable_of_iff
        (0 ≤ state.cnt + amount)
        ⟨fun nonneg other added => by
          rw [adds, Option.some.injEq] at added
          exact added ▸ nonneg,
          fun addsUp => addsUp amount adds⟩

namespace State

variable {Tid : Type}

/-- Only a negative sum keeps the mutex. -/
theorem add_mutex
    (thread : Tid)
    (call : Call)
    (amount : Int32)
    (state : State Tid) :
    (state.add thread call amount).mutex =
      if state.cnt + amount < 0 then some thread else state.mutex := by
  unfold add
  split <;> rfl

end State

section Steps

variable {Tid : Type} [DecidableEq Tid] [Fintype Tid]

/-- A post and a broadcast take the free mutex, wake sleepers and add. -/
theorem adds_of_amount?
    {state next : State Tid}
    {action : Action Tid}
    {amount : Int32}
    (adds : action.amount? = some amount)
    (stepped : step? state action = some next) :
    state.mutex = none ∧
      ∃ thread call pool,
        next = { state with pool }.add thread call amount := by
  cases action with
  | post thread chosen =>
      simp only [Action.amount?, Option.some.injEq] at adds
      subst amount
      simp only [step?, Option.ite_none_right_eq_some] at stepped
      obtain ⟨canEnter, posted⟩ := stepped
      refine ⟨canEnter.1, thread, .post, ?_⟩
      unfold wmSemPost at posted
      by_cases empty : state.cnt = 0
      · simp only [empty, ↓reduceIte, Option.map_eq_some_iff] at posted
        obtain ⟨pool, _, rfl⟩ := posted
        exact ⟨pool, by rw [← empty]⟩
      · simp only [empty, ↓reduceIte, Option.some.injEq] at posted
        exact ⟨state.pool, posted.symm⟩
  | broadcast thread s32Num =>
      simp only [Action.amount?, Option.some.injEq] at adds
      subst amount
      simp only [step?, Option.ite_none_right_eq_some,
        Option.some.injEq] at stepped
      obtain ⟨canEnter, rfl⟩ := stepped
      refine ⟨canEnter.1, thread, .broadcast s32Num, ?_⟩
      unfold wmSemBroadcast
      by_cases empty : state.cnt = 0
      · rw [if_pos empty]
        exact ⟨_, rfl⟩
      · rw [if_neg empty]
        exact ⟨state.pool, rfl⟩
  | wait thread ulMilsecond => cases adds
  | clockFails thread ulMilsecond => cases adds
  | getvalue thread => cases adds
  | spurious thread => cases adds
  | timeout thread => cases adds
  | resume thread => cases adds

/-- Only a post or a broadcast can leave the mutex as it did not find it. -/
theorem mutex_step
    {state next : State Tid}
    {action : Action Tid}
    (addsNothing : action.amount? = none)
    (stepped : step? state action = some next) :
    next.mutex = state.mutex := by
  cases progress stepped with
  | adds adding =>
      rw [addsNothing] at adding
      cases adding
  | takes waiting positive result =>
      subst next
      rfl
  | waits waiting result =>
      subst next
      rfl
  | fails waiting result =>
      subst next
      rfl
  | reads result =>
      subst next
      rfl

/-- No step unlocks the mutex for a thread that has returned. -/
theorem locked_step
    {state next : State Tid}
    {action : Action Tid}
    {owner : Tid}
    (locked : state.mutex = some owner)
    (stepped : step? state action = some next) :
    next.mutex = some owner := by
  cases adding : action.amount? with
  | none =>
      exact (mutex_step adding stepped).trans locked
  | some amount =>
      have free := (adds_of_amount? adding stepped).1
      rw [locked] at free
      cases free

/-- Every step but a post or a broadcast to a negative count frees the mutex. -/
theorem free_step
    {state next : State Tid}
    {action : Action Tid}
    (free : state.mutex = none)
    (addsUp : AddsUp state action)
    (stepped : step? state action = some next) :
    next.mutex = none := by
  cases adding : action.amount? with
  | none =>
      exact (mutex_step adding stepped).trans free
  | some amount =>
      obtain ⟨_, thread, call, pool, rfl⟩ :=
        adds_of_amount? adding stepped
      have nonneg : ¬ state.cnt + amount < 0 :=
        Int32.not_lt.mpr (addsUp amount adding)
      rw [State.add_mutex, if_neg nonneg]
      exact free

/-- A failing call keeps the mutex in every state that follows. -/
theorem locked_run
    (s32Num : Int32)
    {state final : State Tid}
    {actions : List (Action Tid)}
    {owner : Tid}
    (locked : state.mutex = some owner)
    (ran : (machine s32Num).run? state actions = some final) :
    final.mutex = some owner := by
  have kept :
      ∀ {before after : State Tid} {action : Action Tid},
        before.mutex = some owner →
        (machine s32Num).step? before action = some after →
        after.mutex = some owner :=
    locked_step
  exact Machine.run?_invariant kept locked ran

/-- A post or a broadcast fails cleanly exactly when it does not fail. -/
theorem failsClean_iff
    {state next : State Tid}
    {action : Action Tid}
    {amount : Int32}
    (adds : action.amount? = some amount)
    (stepped : step? state action = some next) :
    FailsClean state next ↔ 0 ≤ state.cnt + amount := by
  obtain ⟨free, thread, call, pool, rfl⟩ := adds_of_amount? adds stepped
  constructor
  · intro clean
    apply Int32.not_lt.mp
    intro negative
    have unlocked :=
      (clean _ (State.add_returned ..) (if_pos negative)).2
    rw [State.add_mutex, if_pos negative] at unlocked
    cases unlocked
  · intro nonneg record finished failed
    rw [State.add_returned, List.cons.injEq] at finished
    obtain ⟨rfl, _⟩ := finished
    rw [if_neg (Int32.not_lt.mpr nonneg)] at failed
    cases failed

/--
A failing post or broadcast leaves the semaphore unchanged and usable exactly
when it does not fail, that is when the sum is not negative: runs in which
every sum is at least zero find the mutex free after each step, and a call that
makes the sum negative keeps the mutex from every later step.
-/
theorem failsClean_iff_addsUp
    (s32Num : Int32) :
    (∀ state : State Tid,
      (machine s32Num).ReachableWhere AddsUp state →
      state.mutex = none) ∧
      ∀ (state next : State Tid) (action : Action Tid) (amount : Int32),
        (machine s32Num).Reachable state →
        action.amount? = some amount →
        (machine s32Num).step? state action = some next →
        (FailsClean state next ↔ 0 ≤ state.cnt + amount) ∧
          (¬ 0 ≤ state.cnt + amount →
            ∀ actions final,
              (machine s32Num).run? next actions = some final →
              ∃ owner, final.mutex = some owner) := by
  constructor
  · intro state reachable
    apply reachable.invariant
    · rintro start rfl
      rfl
    · intro before after action free addsUp stepped
      exact free_step free addsUp stepped
  · intro state next action amount _ adds stepped
    refine ⟨failsClean_iff adds stepped, ?_⟩
    intro negative actions final ran
    obtain ⟨_, thread, call, pool, rfl⟩ := adds_of_amount? adds stepped
    have locked :
        (State.add thread call amount { state with pool }).mutex =
          some thread := by
      rw [State.add_mutex]
      exact if_pos (Int32.not_le.mp negative)
    exact ⟨thread, locked_run s32Num locked ran⟩

/--
At the largest count a post fails; an untimed wait that starts afterwards, and
every other call, finds the mutex locked.
-/
theorem failsClean_iff_addsUp_largest :
    ∃ state next : State (Fin 2),
      (machine 2147483647).step? state (.post 0 none) = some next ∧
        ¬ FailsClean state next ∧
        ∀ actions final,
          (machine 2147483647).run? next actions = some final →
          ∃ owner, final.mutex = some owner := by
  have step :
      ∃ next : State (Fin 2),
        (machine 2147483647).step? (wmSemCreate 2147483647)
          (.post 0 none) = some next :=
    ⟨_, rfl⟩
  obtain ⟨next, stepped⟩ := step
  obtain ⟨clean, locked⟩ :=
    (failsClean_iff_addsUp 2147483647).2
      (wmSemCreate 2147483647 : State (Fin 2)) next (.post 0 none) 1
      (.initial rfl) rfl stepped
  exact ⟨_, next, stepped, mt clean.mp (by decide), locked (by decide)⟩

/-- The post that overflows changes the count and keeps the mutex. -/
theorem overflowingPost_locks :
    ¬ ∀ (s32Num : Int32) (state next : State (Fin 2))
        (action : Action (Fin 2)) (amount : Int32),
      (machine s32Num).Reachable state →
      action.amount? = some amount →
      (machine s32Num).step? state action = some next →
      FailsClean state next := by
  intro failsClean
  have clean :=
    failsClean 2147483647 (wmSemCreate 2147483647) _ (.post 0 none) 1
      (.initial rfl) rfl rfl
  have unchanged := (clean _ rfl rfl).1
  revert unchanged
  decide

end Steps

end WkcRuntime.WmSem
