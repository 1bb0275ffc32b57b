import WkcRuntime.Machine
import WkcRuntime.ConditionVariable

namespace WkcRuntime.WmSem

open ConditionVariable

/-!
# The counting semaphore of `ipc/wm_sem.c`

The semaphore is one `int` guarded by a mutex and a condition variable.  A step
is one stretch of code between getting and releasing the mutex;
`pthread_cond_wait` and `pthread_cond_timedwait` release it.  The handle is
valid and the pthread calls succeed, except that a condition wait may time out
and that reading the clock before a timed wait may fail.

`wm_sem_post` and `wm_sem_broadcast` return through `CHK_ARG_RE` without
unlocking when the new count is negative.  `mutex` names the thread that left
it locked in this way; nobody can take it afterwards.
-/

/-- The timeout that selects the untimed branch, `(unsigned long)-1`. -/
def infinite : UInt64 :=
  -1

/-- What the condition wait returned: `0` or `ETIMEDOUT`. -/
inductive Wake where
  | unblocked
  | timedOut
  deriving DecidableEq, Repr

/-- The four calls on a semaphore and their arguments. -/
inductive Call where
  | post
  | broadcast (s32Num : Int32)
  | wait (ulMilsecond : UInt64)
  | getvalue
  deriving DecidableEq, Repr

/-- One finished call: its code, and the value that `getvalue` stored. -/
structure Return (Tid : Type) where
  thread : Tid
  call : Call
  rc : Int32
  value : Option Int32 := none
  deriving DecidableEq, Repr

/-- The semaphore, the threads inside its waits and the calls finished so far. -/
structure State (Tid : Type) where
  cnt : Int32
  mutex : Option Tid
  pool : Pool Tid UInt64 Wake
  returned : List (Return Tid)

/-- `wm_sem_create` with a valid handle and succeeding pthread calls. -/
def wmSemCreate
    {Tid : Type}
    (s32Num : Int32) :
    State Tid where
  cnt := s32Num
  mutex := none
  pool := fun _ => .outside
  returned := []

namespace State

variable {Tid : Type}

/-- Unlock the mutex and return from the call. -/
def finish
    (thread : Tid)
    (call : Call)
    (rc : Int32)
    (state : State Tid) :
    State Tid :=
  { state with
    returned := { thread, call, rc } :: state.returned }

/-- Return from the call with the mutex still locked. -/
def abandon
    (thread : Tid)
    (call : Call)
    (rc : Int32)
    (state : State Tid) :
    State Tid :=
  { state.finish thread call rc with mutex := some thread }

/-- Add to the count, then reject a negative one inside the critical section. -/
def add
    (thread : Tid)
    (call : Call)
    (amount : Int32)
    (state : State Tid) :
    State Tid :=
  if state.cnt + amount < 0 then
    { state with
      cnt := state.cnt + amount
    }.abandon thread call (-1)
  else
    { state with
      cnt := state.cnt + amount
    }.finish thread call 0

@[simp] theorem add_cnt
    (thread : Tid)
    (call : Call)
    (amount : Int32)
    (state : State Tid) :
    (state.add thread call amount).cnt = state.cnt + amount := by
  unfold add
  split <;> rfl

@[simp] theorem add_pool
    (thread : Tid)
    (call : Call)
    (amount : Int32)
    (state : State Tid) :
    (state.add thread call amount).pool = state.pool := by
  unfold add
  split <;> rfl

/-- A call that leaves a count of at least zero releases the mutex. -/
theorem add_mutex_of_nonneg
    {thread : Tid}
    {call : Call}
    {amount : Int32}
    {state : State Tid}
    (nonneg : 0 ≤ (state.cnt + amount).toInt) :
    (state.add thread call amount).mutex = state.mutex := by
  have notNegative : ¬ state.cnt + amount < 0 := by
    rw [Int32.lt_iff_toInt_lt, Int32.toInt_zero]
    omega
  simp [add, notNegative, finish]

end State

section Calls

variable {Tid : Type} [DecidableEq Tid] [Fintype Tid]

/-- `wm_sem_post`; `chosen` is the sleeper that `pthread_cond_signal` unblocks. -/
def wmSemPost
    (thread : Tid)
    (chosen : Option Tid)
    (state : State Tid) :
    Option (State Tid) :=
  if state.cnt = 0 then
    (wakeOne? .unblocked chosen state.pool).map fun pool =>
      { state with pool }.add thread .post 1
  else
    some (state.add thread .post 1)

/-- `wm_sem_broadcast`. -/
def wmSemBroadcast
    (thread : Tid)
    (s32Num : Int32)
    (state : State Tid) :
    State Tid :=
  if state.cnt = 0 then
    { state with
      pool := wakeAll .unblocked state.pool
    }.add thread (.broadcast s32Num) s32Num
  else
    state.add thread (.broadcast s32Num) s32Num

/-- The loop test of `wm_sem_wait`, made with the mutex held. -/
def waitLoop
    (thread : Tid)
    (ulMilsecond : UInt64)
    (state : State Tid) :
    State Tid :=
  if state.cnt ≤ 0 then
    { state with
      pool :=
        Function.update state.pool thread (.asleep ulMilsecond) }
  else
    { state with
      cnt := state.cnt - 1
      pool := Function.update state.pool thread .outside
    }.finish thread (.wait ulMilsecond) 0

/-- `wm_sem_wait` up to its first release of the mutex. -/
def wmSemWait
    (thread : Tid)
    (ulMilsecond : UInt64)
    (state : State Tid) :
    State Tid :=
  waitLoop thread ulMilsecond state

/--
The rest of `wm_sem_wait` once the condition wait holds the mutex again.  Only
the timed branch looks at the code that the wait returned.
-/
def wmSemWaitResume
    (thread : Tid)
    (ulMilsecond : UInt64)
    (wake : Wake)
    (state : State Tid) :
    State Tid :=
  if ulMilsecond ≠ infinite ∧ wake = .timedOut then
    { state with
      pool := Function.update state.pool thread .outside
    }.finish thread (.wait ulMilsecond) (-1)
  else
    waitLoop thread ulMilsecond state

/-- `wm_sem_getvalue` with a valid result pointer. -/
def wmSemGetvalue
    (thread : Tid)
    (state : State Tid) :
    State Tid :=
  { state with
    returned :=
      { thread
        call := .getvalue
        rc := 0
        value := some state.cnt } :: state.returned }

end Calls

/-- One scheduled step of one thread, or of the condition variable. -/
inductive Action (Tid : Type) where
  | post (thread : Tid) (chosen : Option Tid)
  | broadcast (thread : Tid) (s32Num : Int32)
  | wait (thread : Tid) (ulMilsecond : UInt64)
  | clockFails (thread : Tid) (ulMilsecond : UInt64)
  | getvalue (thread : Tid)
  | spurious (thread : Tid)
  | timeout (thread : Tid)
  | resume (thread : Tid)
  deriving DecidableEq, Repr

section Steps

variable {Tid : Type} [DecidableEq Tid] [Fintype Tid]

/-- The thread may start a call that begins with locking the free mutex. -/
def CanEnter
    (state : State Tid)
    (thread : Tid) :
    Prop :=
  state.mutex = none ∧ state.pool thread = .outside

instance (state : State Tid) (thread : Tid) :
    Decidable (CanEnter state thread) :=
  inferInstanceAs (Decidable (_ ∧ _))

/-- One step of the semaphore and the threads that use it. -/
def step?
    (state : State Tid) :
    Action Tid → Option (State Tid)
  | .post thread chosen =>
      if CanEnter state thread then
        wmSemPost thread chosen state
      else
        none
  | .broadcast thread s32Num =>
      if CanEnter state thread then
        some (wmSemBroadcast thread s32Num state)
      else
        none
  | .wait thread ulMilsecond =>
      if CanEnter state thread then
        some (wmSemWait thread ulMilsecond state)
      else
        none
  | .clockFails thread ulMilsecond =>
      if ulMilsecond ≠ infinite ∧ state.pool thread = .outside then
        some (state.finish thread (.wait ulMilsecond) (-1))
      else
        none
  | .getvalue thread =>
      if CanEnter state thread then
        some (wmSemGetvalue thread state)
      else
        none
  | .spurious thread =>
      match state.pool thread with
      | .asleep ulMilsecond =>
          some { state with
            pool := Function.update state.pool thread
              (.woken ulMilsecond .unblocked) }
      | _ =>
          none
  | .timeout thread =>
      match state.pool thread with
      | .asleep ulMilsecond =>
          if ulMilsecond ≠ infinite then
            some { state with
              pool := Function.update state.pool thread
                (.woken ulMilsecond .timedOut) }
          else
            none
      | _ =>
          none
  | .resume thread =>
      match state.pool thread with
      | .woken ulMilsecond wake =>
          if state.mutex = none then
            some (wmSemWaitResume thread ulMilsecond wake state)
          else
            none
      | _ =>
          none

/-- Any threads using one semaphore created with a given count. -/
def machine (s32Num : Int32) : Machine (State Tid) (Action Tid) where
  Initial := fun state => state = wmSemCreate s32Num
  step? := step?

end Steps

end WkcRuntime.WmSem
