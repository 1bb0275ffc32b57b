import Mathlib.Algebra.Order.Group.Nat
import Mathlib.Data.List.Basic

namespace WkcRuntime.BlockStream

/-!
# Streams taken block by block

A step function consumes blocks of a fixed size.  What a stream does to the
state is the fold of its complete blocks; what is left is shorter than a block
and waits for the rest of the stream.  The lemmas say that a stream may be
handed over in pieces: only the concatenation matters.
-/

variable {State Item : Type}

/-- Consume the first so many blocks of the data. -/
def absorb
    (step : State → List Item → State)
    (size : Nat) :
    Nat → State → List Item → State
  | 0, state, _ =>
      state
  | count + 1, state, data =>
      absorb step size count
        (step state (data.take size)) (data.drop size)

/-- Consume all complete blocks of the data. -/
def consume
    (step : State → List Item → State)
    (size : Nat)
    (state : State)
    (data : List Item) :
    State :=
  absorb step size (data.length / size) state data

/-- What is left behind the last complete block. -/
def remainder
    (size : Nat)
    (data : List Item) :
    List Item :=
  data.drop (data.length / size * size)

section Blocks

variable (step : State → List Item → State)
variable (size : Nat)
variable (state : State)
variable (data more : List Item)

/-- Blocks behind the first ones are consumed from where those ended. -/
theorem absorb_add
    (first second : Nat) :
    absorb step size (first + second) state data =
      absorb step size second
        (absorb step size first state data)
        (data.drop (first * size)) := by
  induction first generalizing state data with
  | zero =>
      simp [absorb]
  | succ first inductionHypothesis =>
      rw [Nat.succ_add, absorb, absorb, inductionHypothesis,
        List.drop_drop, Nat.succ_mul, Nat.add_comm size]

/-- Data behind the consumed blocks does not matter. -/
theorem absorb_append
    {count : Nat}
    (inside : count * size ≤ data.length) :
    absorb step size count state (data ++ more) =
      absorb step size count state data := by
  induction count generalizing state data with
  | zero =>
      rfl
  | succ count inductionHypothesis =>
      rw [Nat.succ_mul] at inside
      have firstInside : size ≤ data.length := by omega
      rw [absorb, absorb, List.take_append_of_le_length firstInside,
        List.drop_append_of_le_length firstInside]
      apply inductionHypothesis
      rw [List.length_drop]
      omega

/-- Only the consumed blocks matter. -/
theorem absorb_take
    {count length : Nat}
    (inside : count * size ≤ length)
    (available : length ≤ data.length) :
    absorb step size count state (data.take length) =
      absorb step size count state data := by
  have enough : count * size ≤ (data.take length).length := by
    rw [List.length_take]
    omega
  have whole := absorb_append step size state _ (data.drop length) enough
  rw [List.take_append_drop] at whole
  exact whole.symm

/-- The number of left items. -/
theorem length_remainder :
    (remainder size data).length = data.length % size := by
  rw [remainder, List.length_drop, Nat.mod_eq_sub_mul_div,
    Nat.mul_comm]

/-- Fewer items than a block are all left. -/
theorem remainder_of_lt
    (short : data.length < size) :
    remainder size data = data := by
  rw [remainder, Nat.div_eq_of_lt short, Nat.zero_mul, List.drop_zero]

/-- Fewer items than a block change nothing. -/
theorem consume_of_lt
    (short : data.length < size) :
    consume step size state data = state := by
  rw [consume, Nat.div_eq_of_lt short]
  rfl

variable {size}

/-- The blocks of data in two pieces. -/
theorem length_append_div
    (positive : 0 < size) :
    (data ++ more).length / size =
      data.length / size + (remainder size data ++ more).length / size := by
  have cut := Nat.div_add_mod data.length size
  have total :
      (data ++ more).length =
        (remainder size data ++ more).length +
          size * (data.length / size) := by
    rw [List.length_append, List.length_append, length_remainder]
    omega
  rw [total, Nat.add_mul_div_left _ _ positive, Nat.add_comm]

/-- The left items of a first piece stay in front of the second one. -/
theorem drop_append_remainder :
    (data ++ more).drop (data.length / size * size) =
      remainder size data ++ more :=
  List.drop_append_of_le_length (Nat.div_mul_le_self _ _)

/-- Data may be consumed in two pieces. -/
theorem consume_append
    (positive : 0 < size) :
    consume step size state (data ++ more) =
      consume step size (consume step size state data)
        (remainder size data ++ more) := by
  rw [consume, length_append_div data more positive, absorb_add,
    drop_append_remainder,
    absorb_append step size state data more (Nat.div_mul_le_self _ _)]
  rfl

/-- What is left of data in two pieces. -/
theorem remainder_append
    (positive : 0 < size) :
    remainder size (data ++ more) =
      remainder size (remainder size data ++ more) := by
  rw [remainder, length_append_div data more positive, Nat.add_mul,
    ← List.drop_drop, drop_append_remainder]
  rfl

/-- Pending items that the next data complete to a block. -/
theorem consume_fill
    {pending : List Item}
    (short : pending.length < size)
    (fills : size ≤ pending.length + data.length) :
    consume step size state (pending ++ data) =
      absorb step size ((data.length - (size - pending.length)) / size)
        (step state (pending ++ data.take (size - pending.length)))
        (data.drop (size - pending.length)) := by
  have count :
      (pending ++ data).length / size =
        (data.length - (size - pending.length)) / size + 1 := by
    have total :
        (pending ++ data).length =
          data.length - (size - pending.length) + size := by
      rw [List.length_append]
      omega
    rw [total, Nat.add_div_right _ (by omega)]
  rw [consume, count, absorb, List.take_append, List.drop_append,
    List.take_of_length_le short.le, List.drop_eq_nil_of_le short.le,
    List.nil_append]

/-- What is left behind pending items and the data that complete a block. -/
theorem remainder_fill
    {pending : List Item}
    (short : pending.length < size)
    (fills : size ≤ pending.length + data.length) :
    remainder size (pending ++ data) =
      (data.drop (size - pending.length)).drop
        ((data.length - (size - pending.length)) / size * size) := by
  have count :
      (pending ++ data).length / size =
        (data.length - (size - pending.length)) / size + 1 := by
    have total :
        (pending ++ data).length =
          data.length - (size - pending.length) + size := by
      rw [List.length_append]
      omega
    rw [total, Nat.add_div_right _ (by omega)]
  rw [remainder, count, Nat.succ_mul, Nat.add_comm, ← List.drop_drop,
    List.drop_append, List.drop_eq_nil_of_le short.le, List.nil_append]

end Blocks

end WkcRuntime.BlockStream
