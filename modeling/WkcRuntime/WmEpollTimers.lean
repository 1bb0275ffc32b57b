import WkcRuntime.WmEpollLoopSource

namespace WkcRuntime.WmEpollLoop

open TimedWaits (Timespec)

/-!
# Milliseconds in and timers out

`wm_epoll_timer_set` cuts its milliseconds into seconds and nanoseconds in
`int` arithmetic.  The result is exact for every `int`; `timerfd_settime`
refuses it exactly where an argument is negative.
-/

section Milliseconds

/-- The seconds are the whole ones. -/
theorem tvSec_timespecOf (ms : Int32) :
    (timespecOf ms).tvSec.toInt = ms.toInt.tdiv 1000 := by
  rw [timespecOf, Int32.toInt_toInt64,
    Int32.toInt_div_of_ne_right _ _ (by decide)]
  rfl

/-- The nanoseconds are those of the remaining milliseconds. -/
theorem tvNsec_timespecOf (ms : Int32) :
    (timespecOf ms).tvNsec.toInt = ms.toInt.tmod 1000 * 1000000 := by
  have below : ms.toInt.tmod 1000 < 1000 :=
    Int.tmod_lt_of_pos _ (by decide)
  have above : -1000 < ms.toInt.tmod 1000 := by
    have reflected := Int.tmod_lt_of_pos (-ms.toInt) (b := 1000) (by decide)
    rw [Int.neg_tmod] at reflected
    omega
  have small :
      (ms.toInt.tmod 1000 * 1000).bmod (2 ^ 32) =
        ms.toInt.tmod 1000 * 1000 :=
    Int.bmod_eq_of_le (by omega) (by omega)
  have fits :
      (ms.toInt.tmod 1000 * 1000 * 1000).bmod (2 ^ 32) =
        ms.toInt.tmod 1000 * 1000 * 1000 :=
    Int.bmod_eq_of_le (by omega) (by omega)
  have thousand : (1000 : Int32).toInt = 1000 := by decide
  rw [timespecOf, Int32.toInt_toInt64, Int32.toInt_mul, Int32.toInt_mul,
    Int32.toInt_mod, thousand, small, fits, Int.mul_assoc]
  rfl

/-- A timespec of milliseconds is that many milliseconds. -/
theorem nanoseconds_timespecOf (ms : Int32) :
    (timespecOf ms).nanoseconds = ms.toInt * 1000000 := by
  rw [Timespec.nanoseconds, tvSec_timespecOf, tvNsec_timespecOf]
  have split := Int.mul_tdiv_add_tmod ms.toInt 1000
  omega

/-- It is in range exactly if it is not negative. -/
theorem valid_timespecOf (ms : Int32) :
    ((timespecOf ms).Valid ∧ 0 ≤ (timespecOf ms).tvSec) ↔ 0 ≤ ms := by
  have split := Int.mul_tdiv_add_tmod ms.toInt 1000
  have below : ms.toInt.tmod 1000 < 1000 :=
    Int.tmod_lt_of_pos _ (by decide)
  have zero : (0 : Int64).toInt = 0 := by decide
  have zero' : (0 : Int32).toInt = 0 := by decide
  have limit : (1000000000 : Int64).toInt = 1000000000 := by decide
  rw [Timespec.Valid, Int64.le_iff_toInt_le, Int64.lt_iff_toInt_lt,
    Int64.le_iff_toInt_le, Int32.le_iff_toInt_le, tvSec_timespecOf,
    tvNsec_timespecOf, zero, zero', limit]
  constructor
  · rintro ⟨⟨nonneg, _⟩, seconds⟩
    omega
  · intro nonneg
    have remainder := Int.tmod_nonneg 1000 nonneg
    have quotient := Int.tdiv_nonneg nonneg (by decide : (0 : Int) ≤ 1000)
    omega

/-- Only no milliseconds are no time. -/
theorem timespecOf_eq_zero (ms : Int32) :
    timespecOf ms = ⟨0, 0⟩ ↔ ms = 0 := by
  constructor
  · intro same
    have none : ms.toInt * 1000000 = 0 := by
      rw [← nanoseconds_timespecOf, same]
      rfl
    apply Int32.toInt_inj.mp
    change ms.toInt = 0
    omega
  · rintro rfl
    rfl

end Milliseconds

section Timers

variable {files : Files}
variable {fd : Int32}

/-- The times that `wm_epoll_timer_set` gives to the kernel. -/
def itimerspecOf (msDelay msInterval : Int32) : Itimerspec :=
  ⟨timespecOf msInterval, timespecOf msDelay⟩

/-- The kernel takes them if neither argument is negative. -/
theorem valid_itimerspecOf (msDelay msInterval : Int32) :
    (itimerspecOf msDelay msInterval).Valid ↔
      0 ≤ msInterval ∧ 0 ≤ msDelay := by
  rw [Itimerspec.Valid, itimerspecOf, valid_timespecOf, valid_timespecOf]

/-- The timer runs if the delay is not zero. -/
theorem armed_itimerspecOf (msDelay msInterval : Int32) :
    (itimerspecOf msDelay msInterval).armed = true ↔ msDelay ≠ 0 := by
  rw [Itimerspec.armed, decide_eq_true_iff, itimerspecOf, Ne,
    timespecOf_eq_zero]

/-- What `wm_epoll_timer_set` does to a timer. -/
theorem wmEpollTimerSet_timer
    {old : Itimerspec}
    {opener : Option Nat}
    (opened : files fd = some ⟨.timer old, opener⟩)
    (msDelay msInterval : Int32) :
    wmEpollTimerSet files fd msDelay msInterval =
      if 0 ≤ msInterval ∧ 0 ≤ msDelay then
        (Function.update files fd
          (some ⟨.timer (itimerspecOf msDelay msInterval), opener⟩), 0)
      else
        (files, -1) := by
  rw [wmEpollTimerSet, timerfdSettime, opened]
  by_cases positive : 0 ≤ msInterval ∧ 0 ≤ msDelay
  · rw [if_pos positive]
    have valid := (valid_itimerspecOf msDelay msInterval).mpr positive
    simp only [itimerspecOf] at valid
    simp only [if_pos valid]
    rfl
  · rw [if_neg positive]
    have invalid := mt (valid_itimerspecOf msDelay msInterval).mp positive
    simp only [itimerspecOf] at invalid
    simp only [if_neg invalid]

/-- What `wm_epoll_timer_set` can do at all. -/
theorem wmEpollTimerSet_cases
    (files : Files)
    (fd msDelay msInterval : Int32) :
    wmEpollTimerSet files fd msDelay msInterval = (files, -1) ∨
      ∃ old opener,
        files fd = some ⟨.timer old, opener⟩ ∧
          (0 ≤ msInterval ∧ 0 ≤ msDelay) ∧
          wmEpollTimerSet files fd msDelay msInterval =
            (Function.update files fd
              (some ⟨.timer (itimerspecOf msDelay msInterval), opener⟩),
              0) := by
  cases opened : files fd with
  | none =>
      left
      simp only [wmEpollTimerSet, timerfdSettime, opened]
  | some file =>
      obtain ⟨kind, opener⟩ := file
      cases kind with
      | epoll | other =>
          left
          simp only [wmEpollTimerSet, timerfdSettime, opened]
      | timer old =>
          rw [wmEpollTimerSet_timer opened]
          by_cases positive : 0 ≤ msInterval ∧ 0 ≤ msDelay
          · rw [if_pos positive]
            exact .inr ⟨old, opener, rfl, positive, rfl⟩
          · rw [if_neg positive]
            exact .inl rfl

/-- What `wm_epoll_timer_open` does with a new descriptor. -/
theorem wmEpollTimerOpen_some
    (files : Files)
    (opener : Option Nat)
    (fd msDelay msInterval : Int32) :
    wmEpollTimerOpen files opener (some fd) msDelay msInterval =
      if 0 ≤ msDelay ∧ 0 ≤ msInterval then
        (Function.update files fd
          (some ⟨.timer (itimerspecOf msDelay msInterval), opener⟩), fd)
      else
        (Function.update files fd
          (some ⟨.timer ⟨⟨0, 0⟩, ⟨0, 0⟩⟩, opener⟩), -1) := by
  have opened :
      (Function.update files fd
          (some ⟨.timer ⟨⟨0, 0⟩, ⟨0, 0⟩⟩, opener⟩ : Option OpenFile)) fd =
        some ⟨.timer ⟨⟨0, 0⟩, ⟨0, 0⟩⟩, opener⟩ :=
    Function.update_self ..
  have set := wmEpollTimerSet_timer opened msDelay msInterval
  rw [wmEpollTimerOpen]
  by_cases positive : 0 ≤ msDelay ∧ 0 ≤ msInterval
  · rw [if_pos positive.symm, Function.update_idem] at set
    rw [if_pos positive]
    simp only [set, ne_eq, not_true, if_false]
  · rw [if_neg (mt And.symm positive)] at set
    rw [if_neg positive]
    simp only [set, if_pos (by decide : (-1 : Int32) ≠ 0)]

/--
`wm_epoll_timer_open` gives a timer of exactly these milliseconds, armed unless
the delay is zero.  Where an argument is negative it answers `-1` and leaves a
disarmed timer behind that nobody can close.
-/
theorem timerOpen_exact
    (files : Files)
    (opener : Option Nat)
    (fd msDelay msInterval : Int32) :
    ∃ its,
      (wmEpollTimerOpen files opener (some fd) msDelay msInterval).1 =
          Function.update files fd (some ⟨.timer its, opener⟩) ∧
        if 0 ≤ msDelay ∧ 0 ≤ msInterval then
          (wmEpollTimerOpen files opener (some fd) msDelay msInterval).2 =
              fd ∧
            its.itValue.nanoseconds = msDelay.toInt * 1000000 ∧
            its.itInterval.nanoseconds = msInterval.toInt * 1000000 ∧
            (its.armed = true ↔ msDelay ≠ 0)
        else
          (wmEpollTimerOpen files opener (some fd) msDelay msInterval).2 =
              -1 ∧
            its.armed = false := by
  rw [wmEpollTimerOpen_some]
  by_cases positive : 0 ≤ msDelay ∧ 0 ≤ msInterval
  · simp only [if_pos positive]
    exact ⟨itimerspecOf msDelay msInterval, rfl, trivial,
      nanoseconds_timespecOf _, nanoseconds_timespecOf _,
      armed_itimerspecOf _ _⟩
  · simp only [if_neg positive]
    exact ⟨⟨⟨0, 0⟩, ⟨0, 0⟩⟩, rfl, trivial, by decide⟩

end Timers

end WkcRuntime.WmEpollLoop
