import Mathlib.Algebra.Order.Ring.Nat
import Mathlib.Order.MinMax

namespace WkcRuntime.RingCounters

/-!
# Counters of any width that count positions

A counter of `width` bits stores a growing position modulo `2 ^ width`.  While
two positions are at most a small capacity apart, their counters determine the
distance, and masking a counter with a capacity less one gives the cell.
-/

variable {width exponent : Nat}

/-- A counter that has counted to a position. -/
abbrev counter
    (width position : Nat) :
    BitVec width :=
  BitVec.ofNat width position

theorem pow_lt_pow
    (small : exponent < width) :
    2 ^ exponent < 2 ^ width :=
  Nat.pow_lt_pow_right (by decide) small

/-- A small number is its own counter value. -/
theorem toNat_counter
    {position : Nat}
    (small : position < 2 ^ width) :
    (counter width position).toNat = position := by
  rw [BitVec.toNat_ofNat]
  exact Nat.mod_eq_of_lt small

/-- A counter moves on by the number added to it. -/
theorem counter_add
    (position : Nat)
    (len : BitVec width) :
    counter width position + len =
      counter width (position + len.toNat) := by
  rw [counter, counter, BitVec.ofNat_add, BitVec.ofNat_toNat,
    BitVec.setWidth_eq]

/-- The difference of two counters is the distance of their positions. -/
theorem toNat_distance
    {first second : Nat}
    (ordered : first ≤ second)
    (near : second - first < 2 ^ width) :
    (counter width second - counter width first).toNat =
      second - first := by
  have split : second = first + (second - first) := by omega
  have shifted :
      counter width second =
        counter width first + counter width (second - first) := by
    rw [counter, counter, counter, ← BitVec.ofNat_add, ← split]
  rw [shifted, BitVec.add_comm, BitVec.add_sub_cancel]
  exact toNat_counter near

/-- What is left of the capacity. -/
theorem toNat_room
    {first second : Nat}
    (small : exponent < width)
    (ordered : first ≤ second)
    (bounded : second ≤ first + 2 ^ exponent) :
    (counter width (2 ^ exponent) -
        (counter width second - counter width first)).toNat =
      2 ^ exponent - (second - first) := by
  have limit := pow_lt_pow small
  have distance :=
    @toNat_distance width first second ordered (by omega)
  have capacity := @toNat_counter width (2 ^ exponent) limit
  rw [BitVec.toNat_sub_of_le (by
    rw [BitVec.le_def, distance, capacity]
    omega), distance, capacity]

/-- The mask of a capacity. -/
theorem toNat_mask
    (small : exponent < width) :
    (counter width (2 ^ exponent) - 1).toNat = 2 ^ exponent - 1 := by
  have limit := pow_lt_pow small
  have positive := Nat.two_pow_pos exponent
  have one : (1 : BitVec width).toNat = 1 :=
    @toNat_counter width 1 (by omega)
  rw [BitVec.toNat_sub_of_le (by
    rw [BitVec.le_def, toNat_counter limit, one]
    omega), toNat_counter limit, one]

/-- Masking a counter gives the cell of its position. -/
theorem toNat_and_mask
    (small : exponent < width)
    (position : Nat) :
    (counter width position &&&
        (counter width (2 ^ exponent) - 1)).toNat =
      position % 2 ^ exponent := by
  rw [BitVec.toNat_and, toNat_mask small, Nat.and_two_pow_sub_one_eq_mod,
    BitVec.toNat_ofNat]
  exact Nat.mod_mod_of_dvd _ (Nat.pow_dvd_pow 2 small.le)

/-- The cells from the one of a counter to the end of the ring. -/
theorem toNat_tail
    (small : exponent < width)
    (position : Nat) :
    (counter width (2 ^ exponent) -
        (counter width position &&&
          (counter width (2 ^ exponent) - 1))).toNat =
      2 ^ exponent - position % 2 ^ exponent := by
  have inside := Nat.mod_lt position (Nat.two_pow_pos exponent)
  rw [BitVec.toNat_sub_of_le (by
    rw [BitVec.le_def, toNat_and_mask small,
      toNat_counter (pow_lt_pow small)]
    exact inside.le), toNat_and_mask small,
    toNat_counter (pow_lt_pow small)]

end WkcRuntime.RingCounters
