import WkcRuntime.Tally
import Mathlib.Data.Fintype.Defs

namespace WkcRuntime.ConditionVariable

/-!
# Threads around one mutex and condition variable

A monitor is used by any finite family of threads.  Seen from the condition
variable a thread is outside every wait, asleep in one, or unblocked and still
on its way to re-take the mutex.  The call a waiting thread has to resume and
the way it was unblocked stay with its phase.

Only the wait set is modelled here.  Which threads a signal unblocks is decided
by the caller of these operations; the mutex belongs to the program that uses
them.
-/

/-- What one thread is doing with respect to the condition variable. -/
inductive Phase (Call Wake : Type) where
  | outside : Phase Call Wake
  | asleep : Call → Phase Call Wake
  | woken : Call → Wake → Phase Call Wake
  deriving DecidableEq, Repr

namespace Phase

variable {Call Wake : Type}

/-- The thread is blocked and nothing has unblocked it yet. -/
def isAsleep : Phase Call Wake → Bool
  | .asleep _ => true
  | _ => false

/-- The thread was unblocked and has not re-taken the mutex. -/
def isWoken : Phase Call Wake → Bool
  | .woken _ _ => true
  | _ => false

/-- The thread was unblocked in one particular way. -/
def isWokenBy
    [DecidableEq Wake]
    (wake : Wake) :
    Phase Call Wake → Bool
  | .woken _ reason => decide (reason = wake)
  | _ => false

/-- The thread has entered a wait and not returned from it. -/
def isInside : Phase Call Wake → Bool
  | .outside => false
  | _ => true

/-- Unblock a sleeper and leave every other phase as it is. -/
def unblock
    (wake : Wake) :
    Phase Call Wake → Phase Call Wake
  | .asleep call => .woken call wake
  | phase => phase

/-- Unblock a thread in the way that was chosen for it, if one was. -/
def unblockWith :
    Option Wake → Phase Call Wake → Phase Call Wake
  | none, phase => phase
  | some wake, phase => phase.unblock wake

/-- Only a sleeper is unblocked, and only in a way that its call admits. -/
def admitsWake
    (admits : Call → Wake → Bool) :
    Option Wake → Phase Call Wake → Bool
  | none, _ => true
  | some wake, .asleep call => admits call wake
  | some _, _ => false

/-- The call that a thread inside a wait has to resume. -/
def call? : Phase Call Wake → Option Call
  | .outside => none
  | .asleep call => some call
  | .woken call _ => some call

@[simp] theorem isAsleep_outside :
    (outside : Phase Call Wake).isAsleep = false :=
  rfl

@[simp] theorem isAsleep_asleep
    (call : Call) :
    (asleep call : Phase Call Wake).isAsleep = true :=
  rfl

@[simp] theorem isAsleep_woken
    (call : Call)
    (wake : Wake) :
    (woken call wake).isAsleep = false :=
  rfl

@[simp] theorem isWoken_outside :
    (outside : Phase Call Wake).isWoken = false :=
  rfl

@[simp] theorem isWoken_asleep
    (call : Call) :
    (asleep call : Phase Call Wake).isWoken = false :=
  rfl

@[simp] theorem isWoken_woken
    (call : Call)
    (wake : Wake) :
    (woken call wake).isWoken = true :=
  rfl

@[simp] theorem isWokenBy_outside
    [DecidableEq Wake]
    (wake : Wake) :
    (outside : Phase Call Wake).isWokenBy wake = false :=
  rfl

@[simp] theorem isWokenBy_asleep
    [DecidableEq Wake]
    (wake : Wake)
    (call : Call) :
    (asleep call : Phase Call Wake).isWokenBy wake = false :=
  rfl

@[simp] theorem isWokenBy_woken
    [DecidableEq Wake]
    (wake reason : Wake)
    (call : Call) :
    (woken call reason : Phase Call Wake).isWokenBy wake =
      decide (reason = wake) :=
  rfl

@[simp] theorem isInside_outside :
    (outside : Phase Call Wake).isInside = false :=
  rfl

@[simp] theorem isInside_asleep
    (call : Call) :
    (asleep call : Phase Call Wake).isInside = true :=
  rfl

@[simp] theorem isInside_woken
    (call : Call)
    (wake : Wake) :
    (woken call wake).isInside = true :=
  rfl

@[simp] theorem isInside_unblock
    (wake : Wake)
    (phase : Phase Call Wake) :
    (phase.unblock wake).isInside = phase.isInside := by
  cases phase <;> rfl

@[simp] theorem isAsleep_unblock
    (wake : Wake)
    (phase : Phase Call Wake) :
    (phase.unblock wake).isAsleep = false := by
  cases phase <;> rfl

@[simp] theorem call?_unblock
    (wake : Wake)
    (phase : Phase Call Wake) :
    (phase.unblock wake).call? = phase.call? := by
  cases phase <;> rfl

/-- A sleeper is exactly a thread in the `asleep` phase of some call. -/
theorem isAsleep_iff
    {phase : Phase Call Wake} :
    phase.isAsleep = true ↔ ∃ call, phase = .asleep call := by
  cases phase <;> simp [isAsleep]

/-- A woken thread is exactly one in the `woken` phase of some call. -/
theorem isWoken_iff
    {phase : Phase Call Wake} :
    phase.isWoken = true ↔ ∃ call wake, phase = .woken call wake := by
  cases phase <;> simp [isWoken]

/-- The same for a thread unblocked in one particular way. -/
theorem isWokenBy_iff
    [DecidableEq Wake]
    {wake : Wake}
    {phase : Phase Call Wake} :
    phase.isWokenBy wake = true ↔
      ∃ call, phase = .woken call wake := by
  cases phase with
  | outside => simp
  | asleep call => simp
  | woken call reason => simp

end Phase

/-- The phase of every thread that uses the monitor. -/
abbrev Pool (Tid Call Wake : Type) :=
  Tid → Phase Call Wake

section Counting

variable {Tid Call Wake : Type} [Fintype Tid]

/-- The number of threads asleep and un-woken. -/
def asleepCount (pool : Pool Tid Call Wake) : Nat :=
  headcount Phase.isAsleep pool

/-- The number of threads unblocked and on their way to the mutex. -/
def wokenCount (pool : Pool Tid Call Wake) : Nat :=
  headcount Phase.isWoken pool

/-- The number of threads unblocked in one particular way. -/
def wokenByCount
    [DecidableEq Wake]
    (wake : Wake)
    (pool : Pool Tid Call Wake) :
    Nat :=
  headcount (Phase.isWokenBy wake) pool

/-- The number of threads inside a wait, asleep or on their way. -/
def insideCount (pool : Pool Tid Call Wake) : Nat :=
  headcount Phase.isInside pool

/-- Changing one thread's phase changes the number of sleepers by that thread. -/
theorem asleepCount_update
    [DecidableEq Tid]
    (pool : Pool Tid Call Wake)
    (thread : Tid)
    (phase : Phase Call Wake) :
    asleepCount (Function.update pool thread phase) +
        (pool thread).isAsleep.toNat =
      asleepCount pool + phase.isAsleep.toNat :=
  headcount_update _ pool thread phase

/-- Changing one thread's phase changes the number of woken by that thread. -/
theorem wokenCount_update
    [DecidableEq Tid]
    (pool : Pool Tid Call Wake)
    (thread : Tid)
    (phase : Phase Call Wake) :
    wokenCount (Function.update pool thread phase) +
        (pool thread).isWoken.toNat =
      wokenCount pool + phase.isWoken.toNat :=
  headcount_update _ pool thread phase

/-- The same for the threads unblocked in one particular way. -/
theorem wokenByCount_update
    [DecidableEq Tid]
    [DecidableEq Wake]
    (wake : Wake)
    (pool : Pool Tid Call Wake)
    (thread : Tid)
    (phase : Phase Call Wake) :
    wokenByCount wake (Function.update pool thread phase) +
        ((pool thread).isWokenBy wake).toNat =
      wokenByCount wake pool + (phase.isWokenBy wake).toNat :=
  headcount_update _ pool thread phase

/-- The same for the threads inside a wait. -/
theorem insideCount_update
    [DecidableEq Tid]
    (pool : Pool Tid Call Wake)
    (thread : Tid)
    (phase : Phase Call Wake) :
    insideCount (Function.update pool thread phase) +
        (pool thread).isInside.toNat =
      insideCount pool + phase.isInside.toNat :=
  headcount_update _ pool thread phase

/-- There is a sleeper exactly when the number of sleepers is positive. -/
theorem asleepCount_pos_iff
    {pool : Pool Tid Call Wake} :
    0 < asleepCount pool ↔
      ∃ thread call, pool thread = .asleep call := by
  simp only [asleepCount, headcount_pos_iff, Phase.isAsleep_iff]

/-- A woken thread exists exactly when the number of woken is positive. -/
theorem wokenCount_pos_iff
    {pool : Pool Tid Call Wake} :
    0 < wokenCount pool ↔
      ∃ thread call wake, pool thread = .woken call wake := by
  simp only [wokenCount, headcount_pos_iff, Phase.isWoken_iff]

/-- The same for the threads unblocked in one particular way. -/
theorem wokenByCount_pos_iff
    [DecidableEq Wake]
    {wake : Wake}
    {pool : Pool Tid Call Wake} :
    0 < wokenByCount wake pool ↔
      ∃ thread call, pool thread = .woken call wake := by
  simp only [wokenByCount, headcount_pos_iff, Phase.isWokenBy_iff]

end Counting

section Waking

variable {Tid Call Wake : Type}

/-- Unblock every sleeper. -/
def wakeAll
    (wake : Wake)
    (pool : Pool Tid Call Wake) :
    Pool Tid Call Wake :=
  fun thread => (pool thread).unblock wake

/--
Unblock one chosen sleeper.  `none` may be chosen only when nobody sleeps, so a
signal reaches one thread whenever there is one.
-/
def wakeOne?
    [DecidableEq Tid]
    [Fintype Tid]
    (wake : Wake)
    (chosen : Option Tid)
    (pool : Pool Tid Call Wake) :
    Option (Pool Tid Call Wake) :=
  match chosen with
  | none =>
      if ∀ thread, (pool thread).isAsleep = false then
        some pool
      else
        none
  | some thread =>
      match pool thread with
      | .asleep call =>
          some (Function.update pool thread (.woken call wake))
      | _ =>
          none

/--
Unblock the sleepers for which a way was chosen.  None may be chosen only when
nobody sleeps, so a signal reaches at least one thread whenever there is one.
-/
def wakeSome?
    [Fintype Tid]
    (admits : Call → Wake → Bool)
    (chosen : Tid → Option Wake)
    (pool : Pool Tid Call Wake) :
    Option (Pool Tid Call Wake) :=
  if (∀ thread,
        (pool thread).admitsWake admits (chosen thread) = true) ∧
      ((∀ thread, (pool thread).isAsleep = false) ∨
        ∃ thread, (chosen thread).isSome = true) then
    some fun thread => (pool thread).unblockWith (chosen thread)
  else
    none

/-- Nobody is left asleep after all sleepers were unblocked. -/
@[simp] theorem asleepCount_wakeAll
    [Fintype Tid]
    (wake : Wake)
    (pool : Pool Tid Call Wake) :
    asleepCount (wakeAll wake pool) = 0 := by
  unfold asleepCount
  rw [headcount_eq_zero_iff]
  intro thread
  exact Phase.isAsleep_unblock wake (pool thread)

/-- Unblocking the sleepers takes nobody out of a wait. -/
@[simp] theorem insideCount_wakeAll
    [Fintype Tid]
    (wake : Wake)
    (pool : Pool Tid Call Wake) :
    insideCount (wakeAll wake pool) = insideCount pool := by
  simp only [insideCount, headcount, wakeAll, tally,
    Phase.isInside_unblock]

/-- With nobody inside a wait there is nobody to unblock. -/
theorem wakeAll_of_insideCount_eq_zero
    [Fintype Tid]
    (wake : Wake)
    {pool : Pool Tid Call Wake}
    (empty : insideCount pool = 0) :
    wakeAll wake pool = pool := by
  funext thread
  have outside := headcount_eq_zero_iff.mp empty thread
  unfold wakeAll
  cases phase : pool thread with
  | outside => rfl
  | asleep call => simp [phase] at outside
  | woken call reason => rfl

/-- The two ways in which one signal can act. -/
theorem wakeOne?_cases
    [DecidableEq Tid]
    [Fintype Tid]
    {wake : Wake}
    {chosen : Option Tid}
    {pool next : Pool Tid Call Wake}
    (signalled : wakeOne? wake chosen pool = some next) :
    (chosen = none ∧ next = pool ∧ asleepCount pool = 0) ∨
      ∃ thread call,
        chosen = some thread ∧
          pool thread = .asleep call ∧
          next = Function.update pool thread (.woken call wake) := by
  unfold wakeOne? at signalled
  cases chosen with
  | none =>
      left
      by_cases nobody :
          ∀ thread, (pool thread).isAsleep = false
      · simp only [nobody, implies_true, ↓reduceIte,
          Option.some.injEq] at signalled
        exact ⟨rfl, signalled.symm,
          headcount_eq_zero_iff.mpr nobody⟩
      · simp [nobody] at signalled
  | some thread =>
      right
      cases phase : pool thread with
      | outside =>
          simp [phase] at signalled
      | asleep call =>
          simp only [phase, Option.some.injEq] at signalled
          exact ⟨thread, call, rfl, phase, signalled.symm⟩
      | woken call reason =>
          simp [phase] at signalled

/-- A signal to some finds nobody asleep, or leaves a thread on its way. -/
theorem wakeSome?_covers
    [Fintype Tid]
    {admits : Call → Wake → Bool}
    {chosen : Tid → Option Wake}
    {pool next : Pool Tid Call Wake}
    (signalled : wakeSome? admits chosen pool = some next) :
    asleepCount next = 0 ∨ 0 < wokenCount next := by
  simp only [wakeSome?, Option.ite_none_right_eq_some,
    Option.some.injEq] at signalled
  obtain ⟨⟨admitted, nobody | ⟨thread, isChosen⟩⟩, rfl⟩ := signalled
  · left
    apply headcount_eq_zero_iff.mpr
    intro thread
    cases chosen thread with
    | none => exact nobody thread
    | some wake => exact Phase.isAsleep_unblock wake (pool thread)
  · right
    obtain ⟨wake, way⟩ := Option.isSome_iff_exists.mp isChosen
    have sleeping := admitted thread
    apply headcount_pos_iff.mpr
    refine ⟨thread, ?_⟩
    rw [way] at sleeping ⊢
    cases phase : pool thread with
    | outside =>
        simp [phase, Phase.admitsWake] at sleeping
    | asleep call =>
        rfl
    | woken call reason =>
        simp [phase, Phase.admitsWake] at sleeping

/-- A signal leaves every thread in the call it was in. -/
theorem call?_of_wakeOne?
    [DecidableEq Tid]
    [Fintype Tid]
    {wake : Wake}
    {chosen : Option Tid}
    {pool next : Pool Tid Call Wake}
    (signalled : wakeOne? wake chosen pool = some next)
    (thread : Tid) :
    (next thread).call? = (pool thread).call? := by
  rcases wakeOne?_cases signalled with
    ⟨_, rfl, _⟩ | ⟨target, call, _, sleeping, rfl⟩
  · rfl
  · by_cases same : thread = target
    · subst thread
      simp [sleeping, Phase.call?]
    · simp [same]

end Waking

end WkcRuntime.ConditionVariable
