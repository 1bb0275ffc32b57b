import Mathlib.Algebra.GroupWithZero.Nat
import Mathlib.Algebra.Group.Pi.Basic
import Mathlib.Logic.Function.Basic

namespace WkcRuntime

/-!
# One holder for every live resource

A store says which resources are live and what they contain; a count says how
many holders name each resource.  The two are in custody when every live
resource has exactly one holder and a dead one has none: nothing leaks, nothing
dangles and nothing is shared.

The count is built by addition, so an operation on one holder is verified with
the counts of all others as an arbitrary summand.
-/

variable {Resource Value : Type}

/-- Every live resource has one holder and every dead one has none. -/
def Custody
    (store : Resource → Option Value)
    (holders : Resource → Nat) :
    Prop :=
  ∀ resource, holders resource = (store resource).isSome.toNat

/-- A resource that some holder names is live. -/
theorem Custody.live_of_held
    {store : Resource → Option Value}
    {holders : Resource → Nat}
    (custody : Custody store holders)
    (resource : Resource)
    (held : 0 < holders resource) :
    ∃ value, store resource = some value := by
  have counted := custody resource
  cases stored : store resource with
  | none =>
      simp only [stored, Option.isSome_none, Bool.toNat_false] at counted
      omega
  | some value =>
      exact ⟨value, rfl⟩

/-- Nobody names a resource that is not live. -/
theorem Custody.holders_eq_zero
    {store : Resource → Option Value}
    {holders : Resource → Nat}
    {resource : Resource}
    (custody : Custody store holders)
    (dead : store resource = none) :
    holders resource = 0 := by
  simpa [dead] using custody resource

/-- A resource that some holder names is not one that is not live. -/
theorem Custody.ne_of_held
    {store : Resource → Option Value}
    {holders : Resource → Nat}
    {resource dead : Resource}
    (custody : Custody store holders)
    (held : 0 < holders resource)
    (isDead : store dead = none) :
    resource ≠ dead := by
  rintro rfl
  exact Nat.ne_of_gt held (custody.holders_eq_zero isDead)

variable [DecidableEq Resource]

/-- The count contributed by one holder with at most one pointer. -/
def holding (pointer : Option Resource) : Resource → Nat :=
  fun resource => (decide (pointer = some resource)).toNat

@[simp] theorem holding_none :
    holding (none : Option Resource) = 0 := by
  funext resource
  simp [holding]

@[simp] theorem holding_self
    (resource : Resource) :
    holding (some resource) resource = 1 := by
  simp [holding]

theorem holding_of_ne
    {pointed resource : Resource}
    (different : resource ≠ pointed) :
    holding (some pointed) resource = 0 := by
  simp [holding, Ne.symm different]

namespace Custody

variable {store : Resource → Option Value}
variable {rest : Resource → Nat}
variable {resource : Resource}

/-- A resource held by one holder is not among the others' resources. -/
theorem rest_eq_zero
    (custody : Custody store (rest + holding (some resource))) :
    rest resource = 0 := by
  have counted := custody resource
  have atMostOne := Bool.toNat_le (store resource).isSome
  simp only [Pi.add_apply, holding_self] at counted
  omega

/-- The only holder of a resource releases it. -/
theorem release
    (custody : Custody store (rest + holding (some resource))) :
    Custody (Function.update store resource none) rest := by
  intro other
  by_cases same : other = resource
  · subst other
    simp [custody.rest_eq_zero]
  · have counted := custody other
    simp only [Pi.add_apply, holding_of_ne same] at counted
    simpa [same] using counted

/-- A new resource gets its first holder. -/
theorem acquire
    (custody : Custody store rest)
    (fresh : store resource = none)
    (value : Value) :
    Custody (Function.update store resource (some value))
      (rest + holding (some resource)) := by
  intro other
  by_cases same : other = resource
  · subst other
    simp [custody.holders_eq_zero fresh]
  · simpa [same, holding_of_ne same] using custody other

end Custody

end WkcRuntime
