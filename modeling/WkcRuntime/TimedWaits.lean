import WkcRuntime.EvtSource
import WkcRuntime.WmSemSource
import Mathlib.Data.Int.Basic

namespace WkcRuntime.TimedWaits

/-!
# The deadlines of the timed waits

`evt_mtx_wait`, `evt_rd_wait` and `wm_sem_wait` read the clock into a
`struct timespec`, add their milliseconds to it and pass the result to
`pthread_cond_timedwait`.  The sums are made in `unsigned long` and stored in
`long`, both of 64 bits.

`pthread_cond_timedwait` refuses a deadline whose nanoseconds are out of range
with `EINVAL` before it releases the mutex.  The loops around the call leave on
`ETIMEDOUT` and on a change that only another thread with the mutex can make.
-/

/-- `struct timespec` with `time_t` and `long` of 64 bits. -/
structure Timespec where
  tvSec : Int64
  tvNsec : Int64
  deriving DecidableEq, Repr

/-- The codes of `errno.h` that the loops meet. -/
def etimedout : Int32 :=
  110

/-- The deadline was out of range. -/
def einval : Int32 :=
  22

namespace Timespec

/-- The nanoseconds lie within one second. -/
def Valid (tp : Timespec) : Prop :=
  0 ≤ tp.tvNsec ∧ tp.tvNsec < 1000000000

instance (tp : Timespec) : Decidable tp.Valid :=
  inferInstanceAs (Decidable (_ ∧ _))

/-- The time that a timespec denotes, in nanoseconds. -/
def nanoseconds (tp : Timespec) : Int :=
  tp.tvSec.toInt * 1000000000 + tp.tvNsec.toInt

/-- The two additions, before the carry. -/
def add
    (tp : Timespec)
    (ulMilsecond : UInt64) :
    Timespec where
  tvSec := (tp.tvSec.toUInt64 + ulMilsecond / 1000).toInt64
  tvNsec :=
    (tp.tvNsec.toUInt64 + ulMilsecond % 1000 * 1000000).toInt64

/-- The test of the carry. -/
def Carries (tp : Timespec) : Prop :=
  1000000000 < tp.tvNsec

instance (tp : Timespec) : Decidable tp.Carries :=
  inferInstanceAs (Decidable (_ < _))

/-- Move one second from the nanoseconds to the seconds. -/
def carry (tp : Timespec) : Timespec :=
  if tp.Carries then
    { tvNsec := tp.tvNsec - 1000000000
      tvSec := tp.tvSec + 1 }
  else
    tp

end Timespec

/-- The deadline that all three waits compute from a clock reading. -/
def deadline
    (tp : Timespec)
    (ulMilsecond : UInt64) :
    Timespec :=
  (tp.add ulMilsecond).carry

/-- The timespec that `evt_mtx_wait` passes on, if it waits with a timeout. -/
def evtMtxWaitDeadline?
    (tp : Timespec)
    (ulMilsecond : UInt64) :
    Option Timespec :=
  if ulMilsecond = Evt.infinite then
    none
  else
    some (deadline tp ulMilsecond)

/-- The same for `evt_rd_wait`, which polls with the timeout `0`. -/
def evtRdWaitDeadline?
    (tp : Timespec)
    (ulMilsecond : UInt64) :
    Option Timespec :=
  if ulMilsecond = 0 then
    none
  else if ulMilsecond = Evt.infinite then
    none
  else
    some (deadline tp ulMilsecond)

/-- The same for `wm_sem_wait`. -/
def wmSemWaitDeadline?
    (tp : Timespec)
    (ulMilsecond : UInt64) :
    Option Timespec :=
  if ulMilsecond = WmSem.infinite then
    none
  else
    some (deadline tp ulMilsecond)

/-- The calls with a timed wait in them. -/
inductive TimedWait where
  | evtMtxWait
  | evtRdWait
  | wmSemWait
  deriving DecidableEq, Repr

namespace TimedWait

/-- The timespec that a call passes to `pthread_cond_timedwait`. -/
def deadline? : TimedWait → Timespec → UInt64 → Option Timespec
  | .evtMtxWait => evtMtxWaitDeadline?
  | .evtRdWait => evtRdWaitDeadline?
  | .wmSemWait => wmSemWaitDeadline?

/-- The loop calls again after this answer, as long as nothing else changed. -/
def Retries : TimedWait → Int32 → Prop
  | .evtMtxWait, rc => rc ≠ etimedout
  | .evtRdWait, rc => rc ≠ 0 ∧ rc ≠ etimedout
  | .wmSemWait, rc => rc ≠ etimedout

end TimedWait

/--
The answer that `pthread_cond_timedwait` gives at once, with the mutex held all
the time; nothing when it releases the mutex and blocks.
-/
def immediateAnswer? (abstime : Timespec) : Option Int32 :=
  if abstime.Valid then
    none
  else
    some einval

/-- The loop makes this many rounds without ever releasing the mutex. -/
def Spins
    (wait : TimedWait)
    (abstime : Timespec) :
    Nat → Prop
  | 0 =>
      True
  | rounds + 1 =>
      ∃ rc,
        immediateAnswer? abstime = some rc ∧
          wait.Retries rc ∧
          Spins wait abstime rounds

/-- The seconds of the deadline are within `time_t`. -/
def SecondsFit
    (tp : Timespec)
    (ulMilsecond : UInt64) :
    Prop :=
  tp.tvSec.toInt + (ulMilsecond.toNat / 1000 : Nat) +
      (if (tp.add ulMilsecond).Carries then 1 else 0) <
    2 ^ 63

instance (tp : Timespec) (ulMilsecond : UInt64) :
    Decidable (SecondsFit tp ulMilsecond) :=
  inferInstanceAs (Decidable (_ < _))

/-- A sum with an unsigned amount that fits `long` is not reduced. -/
theorem toInt_addUnsigned
    {value : Int64}
    {amount : UInt64}
    (fits : value.toInt + amount.toNat < 2 ^ 63) :
    (value.toUInt64 + amount).toInt64.toInt =
      value.toInt + amount.toNat := by
  have lower := Int64.le_toInt value
  have sum :
      (value.toUInt64 + amount).toInt64.toInt =
        (value.toInt + amount.toNat).bmod (2 ^ 64) := by
    rw [← Int64.toInt_toBitVec, UInt64.toBitVec_toInt64,
      UInt64.toBitVec_add, BitVec.toInt_add, Int64.toBitVec_toUInt64,
      Int64.toInt_toBitVec, BitVec.toInt_eq_toNat_bmod]
    simp
  rw [sum]
  apply Int.bmod_eq_of_le <;> omega

namespace Timespec

/-- A valid timespec has its nanoseconds in the range, as numbers. -/
theorem valid_iff
    {tp : Timespec} :
    tp.Valid ↔
      0 ≤ tp.tvNsec.toInt ∧ tp.tvNsec.toInt < 1000000000 := by
  unfold Valid
  rw [Int64.le_iff_toInt_le, Int64.lt_iff_toInt_lt]
  rfl

/-- The carry is taken past one second, and not at it. -/
theorem carries_iff
    {tp : Timespec} :
    tp.Carries ↔ 1000000000 < tp.tvNsec.toInt := by
  unfold Carries
  rw [Int64.lt_iff_toInt_lt]
  rfl

/-- The remainder of the milliseconds, in nanoseconds. -/
theorem toNat_remainder (ulMilsecond : UInt64) :
    (ulMilsecond % 1000 * 1000000).toNat =
      ulMilsecond.toNat % 1000 * 1000000 := by
  rw [UInt64.toNat_mul, UInt64.toNat_mod]
  apply Nat.mod_eq_of_lt
  have remainder := Nat.mod_lt ulMilsecond.toNat (show 0 < 1000 by decide)
  change ulMilsecond.toNat % 1000 * 1000000 < 2 ^ 64
  omega

/-- The nanoseconds before the carry. -/
theorem add_tvNsec
    {tp : Timespec}
    (reading : tp.Valid)
    (ulMilsecond : UInt64) :
    (tp.add ulMilsecond).tvNsec.toInt =
      tp.tvNsec.toInt + (ulMilsecond.toNat % 1000 * 1000000 : Nat) := by
  rw [valid_iff] at reading
  have remainder := Nat.mod_lt ulMilsecond.toNat (show 0 < 1000 by decide)
  rw [← toNat_remainder]
  apply toInt_addUnsigned
  rw [toNat_remainder]
  omega

/-- The seconds before the carry. -/
theorem add_tvSec
    {tp : Timespec}
    {ulMilsecond : UInt64}
    (fits :
      tp.tvSec.toInt + (ulMilsecond.toNat / 1000 : Nat) < 2 ^ 63) :
    (tp.add ulMilsecond).tvSec.toInt =
      tp.tvSec.toInt + (ulMilsecond.toNat / 1000 : Nat) := by
  have quotient :
      (ulMilsecond / 1000).toNat = ulMilsecond.toNat / 1000 :=
    UInt64.toNat_div ..
  rw [← quotient] at fits ⊢
  exact toInt_addUnsigned fits

/-- The nanoseconds after the carry. -/
theorem carry_tvNsec
    {tp : Timespec}
    (below : tp.tvNsec.toInt < 2000000000) :
    tp.carry.tvNsec.toInt =
      tp.tvNsec.toInt - if tp.Carries then 1000000000 else 0 := by
  unfold carry
  by_cases carries : tp.Carries
  · rw [if_pos carries, if_pos carries, Int64.toInt_sub]
    rw [carries_iff] at carries
    change (tp.tvNsec.toInt - 1000000000).bmod (2 ^ 64) = _
    apply Int.bmod_eq_of_le <;> omega
  · rw [if_neg carries, if_neg carries, Int.sub_zero]

/-- The seconds after the carry. -/
theorem carry_tvSec
    {tp : Timespec}
    (fits :
      tp.tvSec.toInt + (if tp.Carries then 1 else 0) < 2 ^ 63) :
    tp.carry.tvSec.toInt =
      tp.tvSec.toInt + if tp.Carries then 1 else 0 := by
  unfold carry
  by_cases carries : tp.Carries
  · rw [if_pos carries] at fits ⊢
    rw [if_pos carries, Int64.toInt_add]
    have lower := Int64.le_toInt tp.tvSec
    change (tp.tvSec.toInt + 1).bmod (2 ^ 64) = _
    apply Int.bmod_eq_of_le <;> omega
  · rw [if_neg carries, if_neg carries, Int.add_zero]

end Timespec

/-- The deadline denotes the clock reading plus the milliseconds. -/
theorem deadline_nanoseconds
    {tp : Timespec}
    {ulMilsecond : UInt64}
    (reading : tp.Valid)
    (fits : SecondsFit tp ulMilsecond) :
    (deadline tp ulMilsecond).nanoseconds =
      tp.nanoseconds + ulMilsecond.toNat * 1000000 := by
  have range := Timespec.valid_iff.mp reading
  have nanos := Timespec.add_tvNsec reading ulMilsecond
  unfold SecondsFit at fits
  have secs :
      (tp.add ulMilsecond).tvSec.toInt =
        tp.tvSec.toInt + (ulMilsecond.toNat / 1000 : Nat) := by
    apply Timespec.add_tvSec
    split at fits <;> omega
  rw [← secs] at fits
  unfold deadline Timespec.nanoseconds
  rw [Timespec.carry_tvSec fits, Timespec.carry_tvNsec (by omega), secs,
    nanos]
  by_cases carries : (tp.add ulMilsecond).Carries
  · simp only [carries, ↓reduceIte]
    omega
  · simp only [carries, ↓reduceIte]
    omega

/-- The deadline is valid unless the nanoseconds add up to one second exactly. -/
theorem deadline_valid_iff
    {tp : Timespec}
    (reading : tp.Valid)
    (ulMilsecond : UInt64) :
    (deadline tp ulMilsecond).Valid ↔
      tp.tvNsec.toInt + (ulMilsecond.toNat % 1000 * 1000000 : Nat) ≠
        1000000000 := by
  have range := Timespec.valid_iff.mp reading
  have nanos := Timespec.add_tvNsec reading ulMilsecond
  unfold deadline
  rw [Timespec.valid_iff, Timespec.carry_tvNsec (by omega)]
  by_cases carries : (tp.add ulMilsecond).Carries
  · have past := Timespec.carries_iff.mp carries
    simp only [carries, ↓reduceIte]
    omega
  · have upTo := mt Timespec.carries_iff.mpr carries
    simp only [carries, ↓reduceIte]
    omega

/-- Every call that waits with a timeout passes this deadline on. -/
theorem TimedWait.deadline_eq
    {wait : TimedWait}
    {tp abstime : Timespec}
    {ulMilsecond : UInt64}
    (passed : wait.deadline? tp ulMilsecond = some abstime) :
    abstime = deadline tp ulMilsecond := by
  cases wait with
  | evtMtxWait =>
      simp only [TimedWait.deadline?, evtMtxWaitDeadline?,
        Option.ite_none_left_eq_some, Option.some.injEq] at passed
      exact passed.2.symm
  | evtRdWait =>
      simp only [TimedWait.deadline?, evtRdWaitDeadline?,
        Option.ite_none_left_eq_some, Option.some.injEq] at passed
      exact passed.2.2.symm
  | wmSemWait =>
      simp only [TimedWait.deadline?, wmSemWaitDeadline?,
        Option.ite_none_left_eq_some, Option.some.injEq] at passed
      exact passed.2.symm

/-- No loop leaves on `EINVAL`. -/
theorem TimedWait.retries_einval (wait : TimedWait) :
    wait.Retries einval := by
  cases wait with
  | evtMtxWait => exact show einval ≠ etimedout by decide
  | evtRdWait => exact show einval ≠ 0 ∧ einval ≠ etimedout by decide
  | wmSemWait => exact show einval ≠ etimedout by decide

/-- A refused deadline keeps the loop going, round after round. -/
theorem spins_of_refused
    (wait : TimedWait)
    {abstime : Timespec}
    (refused : ¬ abstime.Valid)
    (rounds : Nat) :
    Spins wait abstime rounds := by
  induction rounds with
  | zero =>
      trivial
  | succ rounds inductionHypothesis =>
      exact ⟨einval, if_neg refused, wait.retries_einval,
        inductionHypothesis⟩

/--
The deadlines are valid exactly when the nanoseconds of the clock and of the
millisecond remainder do not add up to one second: then the deadline is in
range, is not refused and denotes the clock reading plus the milliseconds.
Otherwise the wait is refused in every round, with the mutex held.
-/
theorem deadline_valid_iff_not_oneSecond
    {wait : TimedWait}
    {tp abstime : Timespec}
    {ulMilsecond : UInt64}
    (reading : tp.Valid)
    (fits : SecondsFit tp ulMilsecond)
    (passed : wait.deadline? tp ulMilsecond = some abstime) :
    ((abstime.Valid ∧
          abstime.nanoseconds =
            tp.nanoseconds + ulMilsecond.toNat * 1000000 ∧
          immediateAnswer? abstime ≠ some einval) ↔
        tp.tvNsec.toInt + (ulMilsecond.toNat % 1000 * 1000000 : Nat) ≠
          1000000000) ∧
      (tp.tvNsec.toInt + (ulMilsecond.toNat % 1000 * 1000000 : Nat) =
          1000000000 →
        ∀ rounds, Spins wait abstime rounds) := by
  obtain rfl := TimedWait.deadline_eq passed
  have inRange := deadline_valid_iff reading ulMilsecond
  constructor
  · rw [← inRange]
    constructor
    · rintro ⟨valid, _, _⟩
      exact valid
    · intro valid
      refine ⟨valid, deadline_nanoseconds reading fits, ?_⟩
      simp [immediateAnswer?, valid]
  · intro oneSecond rounds
    apply spins_of_refused
    rw [inRange]
    exact not_not.mpr oneSecond

/-- Half a second past a full one and 700 ms: the carry is taken. -/
theorem deadline_valid_iff_not_oneSecond_carried :
    ∃ abstime,
      TimedWait.evtRdWait.deadline? ⟨5, 500000000⟩ 700 = some abstime ∧
        abstime.Valid ∧
        abstime.nanoseconds =
          (⟨5, 500000000⟩ : Timespec).nanoseconds + 700 * 1000000 := by
  obtain ⟨valid, denotes, _⟩ :=
    (@deadline_valid_iff_not_oneSecond
      .evtRdWait ⟨5, 500000000⟩ ⟨6, 200000000⟩ 700
      (by decide) (by decide) rfl).1.mpr (by decide)
  exact ⟨_, rfl, valid, denotes⟩

/-- One millisecond before a full second, a wait of one millisecond is refused. -/
theorem oneSecond_refused :
    ¬ ∀ (wait : TimedWait) (tp abstime : Timespec) (ulMilsecond : UInt64),
      tp.Valid →
      SecondsFit tp ulMilsecond →
      wait.deadline? tp ulMilsecond = some abstime →
      abstime.Valid := by
  intro valid
  have refused :=
    valid .evtMtxWait ⟨0, 999000000⟩ ⟨0, 1000000000⟩ 1
      (by decide) (by decide) rfl
  revert refused
  decide

end WkcRuntime.TimedWaits
