import Mathlib.Algebra.Order.Ring.Nat
import Mathlib.Data.Nat.ModEq
import Mathlib.Order.MinMax

namespace WkcRuntime.RingPositions

/-!
# Positions in a power-of-two ring

A stream position is a natural number that only grows.  A ring of `2 ^ exponent`
cells stores position `p` in cell `p % 2 ^ exponent`; a 32-bit counter stores it
modulo `2 ^ 32`.  The lemmas say that the counters determine distances up to the
capacity, that masking a counter gives the cell, and that a block of at most the
capacity falls into two runs of consecutive cells.
-/

/-- A counter that has counted to a position, wrapping at `2 ^ 32`. -/
abbrev counter (position : Nat) : UInt32 :=
  UInt32.ofNat position

/-- The capacity of a ring. -/
abbrev capacity (exponent : Nat) : Nat :=
  2 ^ exponent

section Counters

variable {exponent : Nat}

theorem capacity_lt
    (small : exponent ≤ 31) :
    capacity exponent < 2 ^ 32 :=
  Nat.pow_lt_pow_right (by decide) (by omega)

/-- A small number is its own counter value. -/
theorem toNat_counter_of_lt
    {position : Nat}
    (small : position < 2 ^ 32) :
    (counter position).toNat = position := by
  rw [UInt32.toNat_ofNat']
  exact Nat.mod_eq_of_lt small

/-- A counter moves on by the number added to it. -/
theorem counter_add
    (position : Nat)
    (len : UInt32) :
    counter position + len = counter (position + len.toNat) := by
  rw [counter, counter, UInt32.ofNat_add, UInt32.ofNat_toNat]

/-- The difference of two counters is the distance of their positions. -/
theorem counter_sub
    {first second : Nat}
    (ordered : first ≤ second) :
    counter second - counter first = counter (second - first) := by
  rw [counter, counter, counter, UInt32.ofNat_sub ordered]

/-- What is left of the capacity between two counters. -/
theorem counter_free
    {first second : Nat}
    (ordered : first ≤ second)
    (bounded : second ≤ first + capacity exponent) :
    counter (capacity exponent) - counter second + counter first =
      counter (capacity exponent - (second - first)) := by
  have distance : second - first ≤ capacity exponent := by omega
  rw [counter, counter, counter, counter, UInt32.ofNat_sub distance,
    UInt32.ofNat_sub ordered]
  grind

/-- Masking a counter with the capacity less one gives the cell. -/
theorem toNat_mask
    (small : exponent ≤ 31)
    (position : Nat) :
    (counter position &&& (counter (capacity exponent) - 1)).toNat =
      position % capacity exponent := by
  have positive : 1 ≤ capacity exponent := Nat.one_le_two_pow
  have mask :
      (counter (capacity exponent) - 1).toNat = capacity exponent - 1 := by
    have shape :
        counter (capacity exponent) - 1 =
          counter (capacity exponent - 1) :=
      (UInt32.ofNat_sub positive).symm
    rw [shape]
    exact toNat_counter_of_lt (by have := capacity_lt small; omega)
  rw [UInt32.toNat_and, mask, UInt32.toNat_ofNat',
    Nat.and_two_pow_sub_one_eq_mod]
  exact Nat.mod_mod_of_dvd _ (Nat.pow_dvd_pow 2 (by omega))

/-- The cells from the one of a counter to the end of the ring. -/
theorem toNat_tail
    (small : exponent ≤ 31)
    (position : Nat) :
    (counter (capacity exponent) -
        (counter position &&& (counter (capacity exponent) - 1))).toNat =
      capacity exponent - position % capacity exponent := by
  have bound := capacity_lt small
  have inside :
      position % capacity exponent ≤ capacity exponent :=
    (Nat.mod_lt position (Nat.two_pow_pos exponent)).le
  have cell :
      counter position &&& (counter (capacity exponent) - 1) =
        counter (position % capacity exponent) := by
    rw [← toNat_mask small]
    exact UInt32.ofNat_toNat.symm
  rw [cell, counter_sub inside]
  exact toNat_counter_of_lt (by omega)

/-- A power of two that is a 32-bit number is the capacity of a small ring. -/
theorem exists_capacity
    {size : UInt32}
    (isPower : size.toNat = 2 ^ exponent) :
    exponent ≤ 31 ∧ size = counter (capacity exponent) := by
  constructor
  · have bound := size.toNat_lt
    rw [isPower] at bound
    have smaller := (Nat.pow_lt_pow_iff_right (by decide)).mp bound
    omega
  · rw [capacity, ← isPower]
    exact UInt32.ofNat_toNat.symm

end Counters

section Cells

variable {size position offset : Nat}

/-- Two positions less than the size apart have different cells. -/
theorem cell_ne
    {first second : Nat}
    (before : first < second)
    (near : second < first + size) :
    first % size ≠ second % size := by
  intro same
  have multiple : size ∣ second - first :=
    (Nat.modEq_iff_dvd' before.le).mp same
  have tooFar : size ≤ second - first :=
    Nat.le_of_dvd (by omega) multiple
  omega

/-- The cells up to the end of the ring follow the first cell. -/
theorem cell_before_wrap
    (fits : position % size + offset < size) :
    (position + offset) % size = position % size + offset := by
  rw [← Nat.mod_add_mod]
  exact Nat.mod_eq_of_lt fits

/-- Behind the end of the ring the cells start again at zero. -/
theorem cell_after_wrap
    (wraps : size ≤ position % size + offset)
    (within : offset ≤ size)
    (positive : 0 < size) :
    (position + offset) % size = position % size + offset - size := by
  have inside := Nat.mod_lt position positive
  rw [← Nat.mod_add_mod, Nat.mod_eq_sub_mod wraps]
  exact Nat.mod_eq_of_lt (by omega)

/--
A block of at most the capacity, cut at the end of the ring: the first part
follows the first cell and the rest starts again at zero.
-/
theorem cell_of_block
    {len first : Nat}
    (positive : 0 < size)
    (short : len ≤ size)
    (cut : first = min len (size - position % size))
    (inside : offset < len) :
    (position + offset) % size =
      if offset < first then
        position % size + offset
      else
        offset - first := by
  have cell := Nat.mod_lt position positive
  by_cases beforeCut : offset < first
  · rw [if_pos beforeCut]
    exact cell_before_wrap (by omega)
  · rw [if_neg beforeCut,
      cell_after_wrap (by omega) (by omega) positive]
    omega

end Cells

end WkcRuntime.RingPositions
