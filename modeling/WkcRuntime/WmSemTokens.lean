import WkcRuntime.WmSemWakeup

namespace WkcRuntime.WmSem

open ConditionVariable

/-!
# The units of the semaphore

The history of finished calls says how many units the semaphore should have:
those it was created with, one for each post and the amount of each broadcast,
less one for each wait that returned `0`.  Every step either finishes a call and
changes the count by what that call is worth, or finishes none and leaves the
count alone.
-/

/-- What one finished call added to the count. -/
def Return.units
    {Tid : Type}
    (record : Return Tid) :
    Int :=
  match record.call with
  | .post => 1
  | .broadcast s32Num => s32Num.toInt
  | .wait _ => if record.rc = 0 then -1 else 0
  | .getvalue => 0

/-- The call was a post. -/
def Return.isPost
    {Tid : Type}
    (record : Return Tid) :
    Bool :=
  match record.call with
  | .post => true
  | _ => false

/-- The amount of a broadcast, and nothing for another call. -/
def Return.broadcastAmount
    {Tid : Type}
    (record : Return Tid) :
    Int :=
  match record.call with
  | .broadcast s32Num => s32Num.toInt
  | _ => 0

/-- The call was a wait that returned `0`. -/
def Return.isTaken
    {Tid : Type}
    (record : Return Tid) :
    Bool :=
  match record.call with
  | .wait _ => record.rc == 0
  | _ => false

namespace State

variable {Tid : Type}

/-- The number of posts so far. -/
def posts (state : State Tid) : Nat :=
  state.returned.countP Return.isPost

/-- The sum of the amounts of all broadcasts so far. -/
def broadcastSum (state : State Tid) : Int :=
  (state.returned.map Return.broadcastAmount).foldr (· + ·) 0

/-- The number of waits so far that returned `0`. -/
def takenWaits (state : State Tid) : Nat :=
  state.returned.countP Return.isTaken

/-- The worth of all finished calls. -/
def unitsSum (state : State Tid) : Int :=
  (state.returned.map Return.units).foldr (· + ·) 0

end State

/-- The worth of the finished calls, by the kind of call. -/
theorem unitsSum_eq
    {Tid : Type}
    (state : State Tid) :
    state.unitsSum =
      state.posts + state.broadcastSum - state.takenWaits := by
  simp only [State.unitsSum, State.posts, State.broadcastSum,
    State.takenWaits]
  induction state.returned with
  | nil =>
      rfl
  | cons record rest inductionHypothesis =>
      simp only [List.map_cons, List.foldr_cons, List.countP_cons,
        inductionHypothesis]
      obtain ⟨thread, call, rc, value⟩ := record
      cases call with
      | post =>
          simp [Return.units, Return.isPost, Return.broadcastAmount,
            Return.isTaken]
          omega
      | broadcast s32Num =>
          simp [Return.units, Return.isPost, Return.broadcastAmount,
            Return.isTaken]
          omega
      | wait ulMilsecond =>
          by_cases taken : rc = 0
          · simp [Return.units, Return.isPost, Return.broadcastAmount,
              Return.isTaken, taken]
            omega
          · simp [Return.units, Return.isPost, Return.broadcastAmount,
              Return.isTaken, taken]
      | getvalue =>
          simp [Return.units, Return.isPost, Return.broadcastAmount,
            Return.isTaken]

/-- The thread whose wait a step is part of. -/
def Action.waiter? {Tid : Type} : Action Tid → Option Tid
  | .wait thread _ => some thread
  | .clockFails thread _ => some thread
  | .spurious thread => some thread
  | .timeout thread => some thread
  | .resume thread => some thread
  | _ => none

/-- A post or a broadcast is no part of a wait. -/
theorem Action.waiter?_of_amount?
    {Tid : Type}
    {action : Action Tid}
    {amount : Int32}
    (adding : action.amount? = some amount) :
    action.waiter? = none := by
  cases action with
  | post thread chosen =>
      rfl
  | broadcast thread s32Num =>
      rfl
  | wait thread ulMilsecond => cases adding
  | clockFails thread ulMilsecond => cases adding
  | getvalue thread => cases adding
  | spurious thread => cases adding
  | timeout thread => cases adding
  | resume thread => cases adding

section Steps

variable {Tid : Type} [DecidableEq Tid] [Fintype Tid]

/-- What one step does with the count, the mutex and the finished calls. -/
inductive Progress
    (state next : State Tid) :
    Action Tid → Prop where
  | adds
      {action : Action Tid}
      {amount : Int32}
      {record : Return Tid}
      (adding : action.amount? = some amount)
      (worth : record.units = amount.toInt)
      (notWait : record.isTaken = false)
      (cnt : next.cnt = state.cnt + amount)
      (returned : next.returned = record :: state.returned) :
      Progress state next action
  | takes
      {action : Action Tid}
      {thread : Tid}
      {ulMilsecond : UInt64}
      (waiting : action.waiter? = some thread)
      (positive : 0 < state.cnt)
      (result :
        next =
          { state with
            cnt := state.cnt - 1
            pool := Function.update state.pool thread .outside
          }.finish thread (.wait ulMilsecond) 0) :
      Progress state next action
  | waits
      {action : Action Tid}
      {thread : Tid}
      {phase : Phase UInt64 Wake}
      (waiting : action.waiter? = some thread)
      (result :
        next = { state with
          pool := Function.update state.pool thread phase }) :
      Progress state next action
  | fails
      {action : Action Tid}
      {thread : Tid}
      {ulMilsecond : UInt64}
      (waiting : action.waiter? = some thread)
      (result :
        next =
          { state with
            pool := Function.update state.pool thread .outside
          }.finish thread (.wait ulMilsecond) (-1)) :
      Progress state next action
  | reads
      {thread : Tid}
      (result : next = wmSemGetvalue thread state) :
      Progress state next (.getvalue thread)

omit [DecidableEq Tid] [Fintype Tid] in
/-- Adding to the count finishes one call, with its code by the sign. -/
theorem State.add_returned
    (thread : Tid)
    (call : Call)
    (amount : Int32)
    (state : State Tid) :
    (state.add thread call amount).returned =
      { thread
        call
        rc := if state.cnt + amount < 0 then -1 else 0
      } :: state.returned := by
  unfold State.add
  split <;> rfl

omit [Fintype Tid] in
/-- The loop test of a wait takes a unit or sends the thread to sleep. -/
theorem progress_waitLoop
    {state : State Tid}
    {action : Action Tid}
    {thread : Tid}
    (ulMilsecond : UInt64)
    (waiting : action.waiter? = some thread) :
    Progress state (waitLoop thread ulMilsecond state) action := by
  unfold waitLoop
  by_cases exhausted : state.cnt ≤ 0
  · simp only [exhausted, ↓reduceIte]
    exact .waits waiting rfl
  · simp only [exhausted, ↓reduceIte]
    exact .takes waiting (Int32.not_le.mp exhausted) rfl

/-- Every step is of one of these kinds. -/
theorem progress
    {state next : State Tid}
    {action : Action Tid}
    (stepped : step? state action = some next) :
    Progress state next action := by
  cases action with
  | post thread chosen =>
      simp only [step?, Option.ite_none_right_eq_some] at stepped
      obtain ⟨_, posted⟩ := stepped
      unfold wmSemPost at posted
      by_cases empty : state.cnt = 0
      · rw [if_pos empty, Option.map_eq_some_iff] at posted
        obtain ⟨pool, _, rfl⟩ := posted
        exact .adds rfl rfl rfl (by simp) (State.add_returned ..)
      · simp only [empty, ↓reduceIte, Option.some.injEq] at posted
        subst next
        exact .adds rfl rfl rfl (by simp) (State.add_returned ..)
  | broadcast thread s32Num =>
      simp only [step?, Option.ite_none_right_eq_some,
        Option.some.injEq] at stepped
      obtain ⟨_, rfl⟩ := stepped
      unfold wmSemBroadcast
      split
      · exact .adds rfl rfl rfl (by simp) (State.add_returned ..)
      · exact .adds rfl rfl rfl (by simp) (State.add_returned ..)
  | wait thread ulMilsecond =>
      simp only [step?, Option.ite_none_right_eq_some,
        Option.some.injEq] at stepped
      obtain ⟨_, rfl⟩ := stepped
      exact progress_waitLoop ulMilsecond rfl
  | clockFails thread ulMilsecond =>
      simp only [step?, Option.ite_none_right_eq_some,
        Option.some.injEq] at stepped
      obtain ⟨⟨_, outside⟩, rfl⟩ := stepped
      apply Progress.fails rfl
      rw [← outside, Function.update_eq_self]
  | getvalue thread =>
      simp only [step?, Option.ite_none_right_eq_some,
        Option.some.injEq] at stepped
      exact .reads stepped.2.symm
  | spurious thread =>
      simp only [step?] at stepped
      split at stepped
      · exact .waits rfl (Option.some.inj stepped).symm
      · cases stepped
  | timeout thread =>
      simp only [step?] at stepped
      split at stepped
      · simp only [Option.ite_none_right_eq_some,
          Option.some.injEq] at stepped
        exact .waits rfl stepped.2.symm
      · cases stepped
  | resume thread =>
      simp only [step?] at stepped
      split at stepped
      · simp only [Option.ite_none_right_eq_some,
          Option.some.injEq] at stepped
        obtain ⟨_, rfl⟩ := stepped
        unfold wmSemWaitResume
        split
        · exact .fails rfl rfl
        · exact progress_waitLoop _ rfl
      · cases stepped

end Steps

/-- The count stays within `int` when something is added to it. -/
def WithinInt
    {Tid : Type}
    (state : State Tid)
    (action : Action Tid) :
    Prop :=
  ∀ amount,
    action.amount? = some amount →
    -2 ^ 31 ≤ state.cnt.toInt + amount.toInt ∧
      state.cnt.toInt + amount.toInt < 2 ^ 31

instance
    {Tid : Type}
    (state : State Tid)
    (action : Action Tid) :
    Decidable (WithinInt state action) :=
  match adds : action.amount? with
  | none =>
      isTrue fun amount added => by
        simp [adds] at added
  | some amount =>
      decidable_of_iff
        (-2 ^ 31 ≤ state.cnt.toInt + amount.toInt ∧
          state.cnt.toInt + amount.toInt < 2 ^ 31)
        ⟨fun within other added => by
          rw [adds, Option.some.injEq] at added
          exact added ▸ within,
          fun within => within amount adds⟩

/-- An addition within `int` does not wrap around. -/
theorem toInt_add_of_within
    {cnt amount : Int32}
    (within :
      -2 ^ 31 ≤ cnt.toInt + amount.toInt ∧
        cnt.toInt + amount.toInt < 2 ^ 31) :
    (cnt + amount).toInt = cnt.toInt + amount.toInt := by
  obtain ⟨lower, upper⟩ := within
  rw [Int32.toInt_add]
  apply Int.bmod_eq_of_le <;> omega

section Runs

variable {Tid : Type} [DecidableEq Tid] [Fintype Tid]

/-- The count is what the finished calls say. -/
def Balanced
    (s32Num : Int32)
    (state : State Tid) :
    Prop :=
  state.cnt.toInt = s32Num.toInt + state.unitsSum

/-- A step within `int` keeps the balance. -/
theorem Balanced.step
    {s32Num : Int32}
    {state next : State Tid}
    {action : Action Tid}
    (balanced : Balanced s32Num state)
    (within : WithinInt state action)
    (stepped : step? state action = some next) :
    Balanced s32Num next := by
  unfold Balanced State.unitsSum at balanced ⊢
  cases progress stepped with
  | @adds _ amount record adding worth notWait cnt returned =>
      rw [cnt, returned, toInt_add_of_within (within amount adding),
        List.map_cons, List.foldr_cons, worth, balanced]
      omega
  | takes waiting positive result =>
      subst next
      have notEmpty : ¬ state.cnt ≤ 0 := Int32.not_le.mpr positive
      simp only [State.finish, List.map_cons, List.foldr_cons,
        toInt_sub_one notEmpty, balanced, Return.units, ↓reduceIte]
      omega
  | waits waiting result =>
      subst next
      exact balanced
  | fails waiting result =>
      subst next
      simpa [State.finish, Return.units] using balanced
  | reads result =>
      subst next
      simpa [wmSemGetvalue, Return.units] using balanced

omit [Fintype Tid] in
/-- A wait that returns `0` takes its unit from a positive count. -/
theorem Progress.taken
    {state next : State Tid}
    {action : Action Tid}
    {record : Return Tid}
    (progress : Progress state next action)
    (recorded : next.returned = record :: state.returned)
    (taken : record.isTaken = true) :
    0 < state.cnt ∧ next.cnt.toInt = state.cnt.toInt - 1 := by
  cases progress with
  | adds adding worth notWait cnt returned =>
      obtain ⟨rfl, _⟩ := List.cons.inj (returned.symm.trans recorded)
      rw [notWait] at taken
      cases taken
  | takes waiting positive result =>
      subst next
      exact ⟨positive, toInt_sub_one (Int32.not_le.mpr positive)⟩
  | waits waiting result =>
      subst next
      exact absurd recorded (List.cons_ne_self record _).symm
  | fails waiting result =>
      subst next
      obtain ⟨rfl, _⟩ := List.cons.inj recorded
      cases taken
  | reads result =>
      subst next
      obtain ⟨rfl, _⟩ := List.cons.inj recorded
      cases taken

omit [Fintype Tid] in
/-- A wait that has not taken its unit changes nothing but its own phase. -/
theorem Progress.undisturbed
    {state next : State Tid}
    {action : Action Tid}
    {thread : Tid}
    (progress : Progress state next action)
    (waits : action.waiter? = some thread)
    (notTaken : next.takenWaits = state.takenWaits) :
    next.cnt = state.cnt ∧
      next.mutex = state.mutex ∧
      ∀ other,
        other ≠ thread →
        next.pool other = state.pool other := by
  have others :
      ∀ {phase : Phase UInt64 Wake} {other},
        other ≠ thread →
        Function.update state.pool thread phase other =
          state.pool other :=
    fun different => Function.update_of_ne different ..
  cases progress with
  | adds adding worth notWait cnt returned =>
      rw [Action.waiter?_of_amount? adding] at waits
      cases waits
  | takes waiting positive result =>
      subst next
      simp [State.takenWaits, State.finish, Return.isTaken] at notTaken
  | waits waiting result =>
      obtain rfl := Option.some.inj (waiting.symm.trans waits)
      subst next
      exact ⟨rfl, rfl, fun _ different => others different⟩
  | fails waiting result =>
      obtain rfl := Option.some.inj (waiting.symm.trans waits)
      subst next
      exact ⟨rfl, rfl, fun _ different => others different⟩
  | reads result =>
      cases waits

end Runs

end WkcRuntime.WmSem
