import Mathlib.Algebra.BigOperators.Group.Finset.Basic
import Mathlib.Algebra.BigOperators.Group.Finset.Piecewise
import Mathlib.Algebra.Order.BigOperators.Group.Finset
import Mathlib.Data.Fintype.BigOperators

namespace WkcRuntime

/-!
# Totals over a finite family

A family assigns one entry (a thread phase, a message, a queue) to every member
of a finite index type.  `tally` sums a weight over the entries and `headcount`
counts the entries with a property.  Steps of a concurrent system replace one
entry at a time, so the lemma that matters is what a replacement does to the
total.
-/

variable {ι Entry : Type} [Fintype ι]

/-- The sum of a weight over all entries of a family. -/
def tally
    (weight : Entry → Nat)
    (family : ι → Entry) :
    Nat :=
  ∑ index, weight (family index)

/-- The number of entries with a property. -/
def headcount
    (property : Entry → Bool)
    (family : ι → Entry) :
    Nat :=
  tally (fun entry => (property entry).toNat) family

/-- Replacing one entry exchanges its weight for the new one. -/
theorem tally_update
    [DecidableEq ι]
    (weight : Entry → Nat)
    (family : ι → Entry)
    (index : ι)
    (entry : Entry) :
    tally weight (Function.update family index entry) +
        weight (family index) =
      tally weight family + weight entry := by
  have shape :
      (fun other =>
          weight (Function.update family index entry other)) =
        Function.update (weight ∘ family) index (weight entry) :=
    Function.comp_update weight family index entry
  have after :
      tally weight (Function.update family index entry) =
        weight entry +
          ∑ other ∈ Finset.univ \ {index}, weight (family other) := by
    unfold tally
    rw [shape]
    exact Finset.sum_update_of_mem (Finset.mem_univ index) _ _
  have before :
      tally weight family =
        weight (family index) +
          ∑ other ∈ Finset.univ \ {index}, weight (family other) := by
    unfold tally
    rw [← Finset.erase_eq]
    exact (Finset.add_sum_erase Finset.univ
      (fun other => weight (family other))
      (Finset.mem_univ index)).symm
  omega

/-- Replacing one entry exchanges its vote for the new one. -/
theorem headcount_update
    [DecidableEq ι]
    (property : Entry → Bool)
    (family : ι → Entry)
    (index : ι)
    (entry : Entry) :
    headcount property (Function.update family index entry) +
        (property (family index)).toNat =
      headcount property family + (property entry).toNat :=
  tally_update _ family index entry

/-- A total is zero exactly when every entry weighs nothing. -/
theorem tally_eq_zero_iff
    {weight : Entry → Nat}
    {family : ι → Entry} :
    tally weight family = 0 ↔ ∀ index, weight (family index) = 0 := by
  simp [tally]

/-- No entry has the property exactly when the count is zero. -/
theorem headcount_eq_zero_iff
    {property : Entry → Bool}
    {family : ι → Entry} :
    headcount property family = 0 ↔
      ∀ index, property (family index) = false := by
  unfold headcount
  rw [tally_eq_zero_iff]
  simp

/-- Some entry has the property exactly when the count is positive. -/
theorem headcount_pos_iff
    {property : Entry → Bool}
    {family : ι → Entry} :
    0 < headcount property family ↔
      ∃ index, property (family index) = true := by
  rw [Nat.pos_iff_ne_zero, ne_eq, headcount_eq_zero_iff]
  simp

end WkcRuntime
