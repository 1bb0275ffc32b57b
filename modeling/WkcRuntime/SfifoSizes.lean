import Mathlib.Data.Nat.Bitwise
import WkcRuntime.Machine
import WkcRuntime.SfifoRefinement

namespace WkcRuntime.Sfifo

/-!
# Fifos of every size

Neither `sfifo_init` nor `sfifo_alloc` looks at the size.  The counters and the
bounds of the copies are right for every size: the distance of the counters
never exceeds it and no copy leaves the two buffers.  The cells are not.  When
`size - 1` has a clear bit below its highest one, two stored positions share a
cell, so a fifo delivers what it accepted only for the powers of two and for the
size 0, which accepts nothing.
-/

/-- A fifo with the bytes that its calls have accepted and delivered so far. -/
structure Traffic where
  fifo : SfifoT
  accepted : List UInt8
  delivered : List UInt8
  deriving DecidableEq, Repr

/-- One call; `none` when it copies from or to outside of its buffers. -/
def Traffic.step? (traffic : Traffic) : Op → Option Traffic
  | .put buffer len =>
      (sfifoPut traffic.fifo buffer len).map fun result =>
        { traffic with
          fifo := result.1
          accepted := traffic.accepted ++ buffer.take result.2.toNat }
  | .get buffer len =>
      (sfifoGet traffic.fifo buffer len).map fun result =>
        { traffic with
          fifo := result.1
          delivered :=
            traffic.delivered ++ result.2.1.take result.2.2.toNat }
  | .rest =>
      some traffic

/-- What `sfifo_init` and `sfifo_alloc` make of a buffer of `size` bytes. -/
def Fresh (size : UInt32) (fifo : SfifoT) : Prop :=
  ∃ buffer allocated,
    buffer.length = size.toNat ∧
      (sfifoInit buffer size allocated = some fifo ∨
        sfifoAlloc size (some buffer) allocated = some fifo)

/-- Calls in any order on a fifo of the given size. -/
def callMachine (size : UInt32) : Machine Traffic Op where
  Initial traffic :=
    Fresh size traffic.fifo ∧
      traffic.accepted = [] ∧
      traffic.delivered = []
  step? := Traffic.step?

/-- Both constructors only store the buffer and the size. -/
theorem Fresh.exists_buffer
    {size : UInt32}
    {fifo : SfifoT}
    (fresh : Fresh size fifo) :
    ∃ buffer,
      buffer.length = size.toNat ∧ fifo = ⟨buffer, size, 0, 0⟩ := by
  obtain ⟨buffer, allocated, length, made⟩ := fresh
  have initialised : sfifoInit buffer size allocated = some fifo :=
    made.elim id id
  refine ⟨buffer, length, ?_⟩
  cases allocated with
  | false =>
      cases initialised
  | true =>
      exact (Option.some.inj initialised).symm

section Bounds

/-- The counters are no further apart than the size. -/
structure InBounds (size : UInt32) (fifo : SfifoT) : Prop where
  sizeEq :
    fifo.size = size
  room :
    fifo.buffer.length = size.toNat
  stored :
    (sfifoRest fifo).toNat ≤ size.toNat
  unused :
    size = 0 →
    fifo.in_ = 0 ∧ fifo.out = 0

variable {size : UInt32}
variable {fifo : SfifoT}

/-- The free bytes, computed without an overflow. -/
theorem InBounds.toNat_free
    (bounded : InBounds size fifo) :
    (fifo.size - fifo.in_ + fifo.out).toNat =
      size.toNat - (sfifoRest fifo).toNat := by
  have shape :
      fifo.size - fifo.in_ + fifo.out = size - sfifoRest fifo := by
    rw [bounded.sizeEq, sfifoRest]
    grind
  rw [shape, toNat_sub_of_toNat_le bounded.stored]

/-- The masked counter of a fifo with bytes is one of its cells. -/
theorem toNat_mask_lt
    (position : UInt32)
    (notEmpty : size ≠ 0) :
    (position &&& (size - 1)).toNat < size.toNat := by
  have positive : 0 < size.toNat :=
    Nat.pos_of_ne_zero fun zero =>
      notEmpty (UInt32.toNat_inj.mp zero)
  have below : (size - 1).toNat = size.toNat - 1 :=
    toNat_sub_of_toNat_le positive
  have masked : (position &&& (size - 1)).toNat ≤ (size - 1).toNat := by
    rw [UInt32.toNat_and]
    exact Nat.and_le_right
  omega

/--
A transfer of no more bytes than the size stays in the ring: the part before the
end and the part behind it.
-/
theorem split_in_ring
    (position len : UInt32)
    (short : len.toNat ≤ size.toNat)
    (unused : size = 0 → position = 0) :
    (position &&& (size - 1)).toNat +
          (minMacro len (size - (position &&& (size - 1)))).toNat ≤
        size.toNat ∧
      (minMacro len (size - (position &&& (size - 1)))).toNat +
          (len -
            minMacro len (size - (position &&& (size - 1)))).toNat =
        len.toNat := by
  have cut :=
    toNat_minMacro len (size - (position &&& (size - 1)))
  have rest :=
    @toNat_sub_of_toNat_le len
      (minMacro len (size - (position &&& (size - 1)))) (by omega)
  refine ⟨?_, by omega⟩
  by_cases empty : size = 0
  · have none : len.toNat = 0 := by
      rw [empty] at short
      exact Nat.le_zero.mp short
    have start : (position &&& (size - 1)).toNat = 0 := by
      rw [unused empty, UInt32.zero_and]
      rfl
    omega
  · have inside := toNat_mask_lt position empty
    have tail :
        (size - (position &&& (size - 1))).toNat =
          size.toNat - (position &&& (size - 1)).toNat :=
      toNat_sub_of_toNat_le inside.le
    omega

/-- A counter that nothing is added to stays where it is. -/
theorem add_eq_zero_of_short
    {position len : UInt32}
    (short : len.toNat ≤ size.toNat)
    (empty : size = 0)
    (zero : position = 0) :
    position + len = 0 := by
  have none : len = 0 := by
    apply UInt32.toNat_inj.mp
    rw [empty] at short
    exact Nat.le_zero.mp short
  rw [zero, none]
  rfl

/--
`sfifo_put` takes the bytes that fit.  It needs no more of the caller's buffer
than it takes.
-/
theorem InBounds.put
    (bounded : InBounds size fifo)
    {buffer : List UInt8}
    {len : UInt32}
    (available :
      min len.toNat (size.toNat - (sfifoRest fifo).toNat) ≤
        buffer.length) :
    ∃ next taken,
      sfifoPut fifo buffer len = some (next, taken) ∧
        taken.toNat =
          min len.toNat (size.toNat - (sfifoRest fifo).toNat) ∧
        (sfifoRest next).toNat =
          (sfifoRest fifo).toNat + taken.toNat ∧
        InBounds size next := by
  let taken := minMacro len (fifo.size - fifo.in_ + fifo.out)
  have takenEq :
      taken.toNat =
        min len.toNat (size.toNat - (sfifoRest fifo).toNat) := by
    rw [toNat_minMacro, bounded.toNat_free]
  have sizeEq := bounded.sizeEq
  have room := bounded.room
  have stored := bounded.stored
  have short : taken.toNat ≤ size.toNat := by omega
  obtain ⟨beforeEnd, parts⟩ :=
    split_in_ring fifo.in_ taken short
      (fun empty => (bounded.unused empty).1)
  obtain ⟨half, firstCopy, halfLength, _⟩ :=
    memcpy_spec fifo.buffer buffer
      (fifo.in_ &&& (size - 1)).toNat 0
      (minMacro taken (size - (fifo.in_ &&& (size - 1)))).toNat
      (by omega) (by omega)
  obtain ⟨whole, secondCopy, wholeLength, _⟩ :=
    memcpy_spec half buffer 0
      (minMacro taken (size - (fifo.in_ &&& (size - 1)))).toNat
      (taken -
        minMacro taken (size - (fifo.in_ &&& (size - 1)))).toNat
      (by omega) (by omega)
  have moved :
      (sfifoRest { fifo with buffer := whole, in_ := fifo.in_ + taken }).toNat =
        (sfifoRest fifo).toNat + taken.toNat := by
    have shape :
        fifo.in_ + taken - fifo.out = sfifoRest fifo + taken := by
      rw [sfifoRest]
      grind
    have small := size.toNat_lt
    rw [sfifoRest, shape, UInt32.toNat_add]
    exact Nat.mod_eq_of_lt (by omega)
  refine ⟨{ fifo with buffer := whole, in_ := fifo.in_ + taken }, taken,
    ?_, takenEq, moved, ?_⟩
  · rw [← sizeEq] at firstCopy secondCopy
    simp only [sfifoPut, bind, Option.bind]
    rw [firstCopy]
    simp only
    rw [secondCopy]
  · refine ⟨sizeEq, (wholeLength.trans halfLength).trans room,
      by omega, ?_⟩
    intro empty
    exact ⟨add_eq_zero_of_short short empty (bounded.unused empty).1,
      (bounded.unused empty).2⟩

/--
`sfifo_get` delivers the bytes that are there.  It needs no more of the caller's
buffer than it delivers and changes nothing behind that.
-/
theorem InBounds.get
    (bounded : InBounds size fifo)
    {buffer : List UInt8}
    {len : UInt32}
    (available :
      min len.toNat (sfifoRest fifo).toNat ≤ buffer.length) :
    ∃ next filled taken,
      sfifoGet fifo buffer len = some (next, filled, taken) ∧
        taken.toNat = min len.toNat (sfifoRest fifo).toNat ∧
        filled.length = buffer.length ∧
        filled.drop taken.toNat = buffer.drop taken.toNat ∧
        (sfifoRest next).toNat + taken.toNat =
          (sfifoRest fifo).toNat ∧
        InBounds size next := by
  let taken := minMacro len (fifo.in_ - fifo.out)
  have takenEq :
      taken.toNat = min len.toNat (sfifoRest fifo).toNat := by
    rw [toNat_minMacro, sfifoRest]
  have sizeEq := bounded.sizeEq
  have room := bounded.room
  have stored := bounded.stored
  have short : taken.toNat ≤ size.toNat := by omega
  obtain ⟨beforeEnd, parts⟩ :=
    split_in_ring fifo.out taken short
      (fun empty => (bounded.unused empty).2)
  obtain ⟨half, firstCopy, halfLength, halfAt⟩ :=
    memcpy_spec buffer fifo.buffer 0
      (fifo.out &&& (size - 1)).toNat
      (minMacro taken (size - (fifo.out &&& (size - 1)))).toNat
      (by omega) (by omega)
  obtain ⟨whole, secondCopy, wholeLength, wholeAt⟩ :=
    memcpy_spec half fifo.buffer
      (minMacro taken (size - (fifo.out &&& (size - 1)))).toNat 0
      (taken -
        minMacro taken (size - (fifo.out &&& (size - 1)))).toNat
      (by omega) (by omega)
  have moved :
      (sfifoRest { fifo with out := fifo.out + taken }).toNat + taken.toNat =
        (sfifoRest fifo).toNat := by
    have shape :
        fifo.in_ - (fifo.out + taken) = sfifoRest fifo - taken := by
      rw [sfifoRest]
      grind
    rw [sfifoRest, shape, toNat_sub_of_toNat_le (by omega)]
    omega
  refine ⟨{ fifo with out := fifo.out + taken }, whole, taken,
    ?_, takenEq, by omega, ?_, moved, ?_⟩
  · rw [← sizeEq] at firstCopy secondCopy
    simp only [sfifoGet, bind, Option.bind]
    rw [firstCopy]
    simp only
    rw [secondCopy]
  · apply List.ext_getElem?
    intro index
    rw [List.getElem?_drop, List.getElem?_drop, wholeAt,
      if_neg (by omega), halfAt, if_neg (by omega)]
  · refine ⟨sizeEq, room, by omega, ?_⟩
    intro empty
    exact ⟨(bounded.unused empty).1,
      add_eq_zero_of_short short empty (bounded.unused empty).2⟩

/-- A `memcpy` that is carried out stays within both operands. -/
theorem bounds_of_memcpy
    {dst src copied : List UInt8}
    {target start n : Nat}
    (carriedOut : memcpy dst target src start n = some copied) :
    target + n ≤ dst.length ∧ start + n ≤ src.length := by
  by_contra outside
  rw [memcpy, if_neg outside] at carriedOut
  cases carriedOut

/-- A put that returns has been given the bytes that it takes. -/
theorem InBounds.available_of_put
    (bounded : InBounds size fifo)
    {buffer : List UInt8}
    {len : UInt32}
    {result : SfifoT × UInt32}
    (called : sfifoPut fifo buffer len = some result) :
    min len.toNat (size.toNat - (sfifoRest fifo).toNat) ≤
      buffer.length := by
  simp only [sfifoPut, Option.bind_eq_bind, Option.bind_eq_some_iff]
    at called
  obtain ⟨half, _, whole, secondCopy, _⟩ := called
  have bounds := (bounds_of_memcpy secondCopy).2
  have stored := bounded.stored
  have takenEq :=
    toNat_minMacro len (fifo.size - fifo.in_ + fifo.out)
  rw [bounded.toNat_free] at takenEq
  have parts :=
    (@split_in_ring size fifo.in_
      (minMacro len (fifo.size - fifo.in_ + fifo.out)) (by omega)
      (fun empty => (bounded.unused empty).1)).2
  rw [bounded.sizeEq] at bounds parts takenEq
  omega

/-- A get that returns has been given room for the bytes that it delivers. -/
theorem InBounds.available_of_get
    (bounded : InBounds size fifo)
    {buffer : List UInt8}
    {len : UInt32}
    {result : SfifoT × List UInt8 × UInt32}
    (called : sfifoGet fifo buffer len = some result) :
    min len.toNat (sfifoRest fifo).toNat ≤ buffer.length := by
  simp only [sfifoGet, Option.bind_eq_bind, Option.bind_eq_some_iff]
    at called
  obtain ⟨half, firstCopy, whole, secondCopy, _⟩ := called
  have firstBounds := bounds_of_memcpy firstCopy
  obtain ⟨copied, sameCopy, halfLength, _⟩ :=
    memcpy_spec _ _ _ _ _ firstBounds.1 firstBounds.2
  obtain rfl : half = copied :=
    Option.some.inj (firstCopy.symm.trans sameCopy)
  have bounds := (bounds_of_memcpy secondCopy).1
  have stored := bounded.stored
  have takenEq := toNat_minMacro len (fifo.in_ - fifo.out)
  have parts :=
    (@split_in_ring size fifo.out
      (minMacro len (fifo.in_ - fifo.out)) (by
        rw [sfifoRest] at stored
        omega)
      (fun empty => (bounded.unused empty).2)).2
  rw [bounded.sizeEq] at bounds
  rw [sfifoRest]
  omega

/-- The copies stay in the buffers and the counters count what went through. -/
structure Traffic.Counted
    (size : UInt32)
    (traffic : Traffic) :
    Prop where
  bounded :
    InBounds size traffic.fifo
  counted :
    (sfifoRest traffic.fifo).toNat + traffic.delivered.length =
      traffic.accepted.length

/-- The counters start together. -/
theorem Fresh.counted
    {start : SfifoT}
    (fresh : Fresh size start) :
    Traffic.Counted size ⟨start, [], []⟩ := by
  obtain ⟨buffer, length, rfl⟩ := fresh.exists_buffer
  have empty : (sfifoRest ⟨buffer, size, 0, 0⟩).toNat = 0 := by
    simp [sfifoRest]
  refine ⟨⟨rfl, length, ?_, fun _ => ⟨rfl, rfl⟩⟩, ?_⟩
  · simp only [empty, Nat.zero_le]
  · simp only [empty, List.length_nil]

/-- One call keeps the bounds and the count. -/
theorem Traffic.Counted.step
    {traffic next : Traffic}
    {op : Op}
    (holds : traffic.Counted size)
    (stepped : traffic.step? op = some next) :
    next.Counted size := by
  have counted := holds.counted
  cases op with
  | put buffer len =>
      obtain ⟨result, called, rfl⟩ := Option.map_eq_some_iff.mp stepped
      have available := holds.bounded.available_of_put called
      obtain ⟨_, _, same, takenEq, moved, bounded⟩ :=
        holds.bounded.put available
      cases Option.some.inj (called.symm.trans same)
      refine ⟨bounded, ?_⟩
      simp only [List.length_append, List.length_take]
      omega
  | get buffer len =>
      obtain ⟨result, called, rfl⟩ := Option.map_eq_some_iff.mp stepped
      have available := holds.bounded.available_of_get called
      obtain ⟨_, _, _, same, takenEq, length, _, moved, bounded⟩ :=
        holds.bounded.get available
      cases Option.some.inj (called.symm.trans same)
      refine ⟨bounded, ?_⟩
      simp only [List.length_append, List.length_take]
      omega
  | rest =>
      obtain rfl := Option.some.inj stepped
      exact holds

/-- Every sequence of calls keeps the bounds and the count. -/
theorem counted_of_reachable
    {traffic : Traffic}
    (reachable : (callMachine size).Reachable traffic) :
    traffic.Counted size := by
  apply reachable.invariant
  · rintro ⟨start, _, _⟩ ⟨fresh, rfl, rfl⟩
    exact fresh.counted
  · intro before after op holds _ stepped
    exact holds.step stepped

/--
Whatever the size and whatever was put and taken before, a put with at least the
bytes that it will take and a get with room for those that it will deliver stay
in their buffers; they return the smaller of the length and of what is free or
stored, and `sfifo_rest` tells what was accepted and not delivered yet.
-/
theorem sfifo_in_bounds
    (size : UInt32)
    {traffic : Traffic}
    (reachable : (callMachine size).Reachable traffic) :
    traffic.fifo.buffer.length = size.toNat ∧
      (traffic.fifo.in_ - traffic.fifo.out).toNat ≤ size.toNat ∧
      ((sfifoRest traffic.fifo).toNat : Int) =
        traffic.accepted.length - traffic.delivered.length ∧
      (∀ buffer len,
        min len.toNat (size.toNat - (sfifoRest traffic.fifo).toNat) ≤
          buffer.length →
        ∃ next taken,
          sfifoPut traffic.fifo buffer len = some (next, taken) ∧
            taken.toNat =
              min len.toNat
                (size.toNat - (sfifoRest traffic.fifo).toNat)) ∧
      ∀ buffer len,
        min len.toNat (sfifoRest traffic.fifo).toNat ≤ buffer.length →
        ∃ next filled taken,
          sfifoGet traffic.fifo buffer len = some (next, filled, taken) ∧
            taken.toNat = min len.toNat (sfifoRest traffic.fifo).toNat ∧
            filled.length = buffer.length ∧
            filled.drop taken.toNat = buffer.drop taken.toNat := by
  have holds := counted_of_reachable reachable
  have counted := holds.counted
  refine ⟨holds.bounded.room, holds.bounded.stored, by omega, ?_, ?_⟩
  · intro buffer len available
    obtain ⟨next, taken, called, takenEq, _⟩ :=
      holds.bounded.put available
    exact ⟨next, taken, called, takenEq⟩
  · intro buffer len available
    obtain ⟨next, filled, taken, called, takenEq, length, kept, _⟩ :=
      holds.bounded.get available
    exact ⟨next, filled, taken, called, takenEq, length, kept⟩

/-- Three cells, of which the mask keeps two apart. -/
theorem sfifo_in_bounds_three :
    ∃ traffic : Traffic,
      traffic.accepted = [1, 2] ∧
        (traffic.fifo.in_ - traffic.fifo.out).toNat ≤ 3 ∧
        ∃ next taken,
          sfifoPut traffic.fifo [3] 7 = some (next, taken) ∧
            taken.toNat = 1 := by
  have start :
      (callMachine 3).Reachable ⟨⟨[0, 0, 0], 3, 0, 0⟩, [], []⟩ :=
    .initial ⟨⟨[0, 0, 0], true, rfl, .inl rfl⟩, rfl, rfl⟩
  have stepped :
      (callMachine 3).step? ⟨⟨[0, 0, 0], 3, 0, 0⟩, [], []⟩
          (.put [1, 2] 2) =
        some ⟨⟨[1, 2, 0], 3, 2, 0⟩, [1, 2], []⟩ := by
    decide
  obtain ⟨_, stored, _, put, _⟩ :=
    sfifo_in_bounds 3 (start.step trivial stepped)
  exact ⟨_, rfl, stored, put [3] 7 (by decide)⟩

end Bounds

section Faithfulness

/-- What is delivered was accepted before, and the rest can be taken out. -/
def Faithful (size : UInt32) : Prop :=
  ∀ traffic,
    (callMachine size).Reachable traffic →
    traffic.delivered <+: traffic.accepted ∧
      ∀ buffer,
        (sfifoRest traffic.fifo).toNat ≤ buffer.length →
        ∃ next,
          traffic.step? (.get buffer (sfifoRest traffic.fifo)) =
              some next ∧
            next.delivered = next.accepted

variable {size : UInt32}
variable {traffic : Traffic}

/-- A number whose bits are all set up to its highest one ends a power of two. -/
theorem succ_eq_two_pow_of_testBit
    {mask : Nat}
    (positive : 0 < mask)
    (allSet :
      ∀ bit,
        2 ^ bit ≤ mask →
        mask.testBit bit = true) :
    mask + 1 = 2 ^ (mask.log2 + 1) := by
  have allOnes : mask = 2 ^ (mask.log2 + 1) - 1 := by
    apply Nat.eq_of_testBit_eq
    intro bit
    rw [Nat.testBit_two_pow_sub_one]
    by_cases below : bit < mask.log2 + 1
    · have small : 2 ^ bit ≤ mask :=
        (Nat.pow_le_pow_right (by decide) (Nat.le_of_lt_succ below)).trans
          (Nat.log2_self_le positive.ne')
      rw [allSet bit small, decide_eq_true below]
    · have large : mask < 2 ^ bit :=
        Nat.lt_log2_self.trans_le
          (Nat.pow_le_pow_right (by decide) (Nat.not_lt.mp below))
      rw [Nat.testBit_lt_two_pow large, decide_eq_false below]
  have onePower : 0 < 2 ^ (mask.log2 + 1) := Nat.two_pow_pos _
  omega

/-- Any other size has a position below it that the mask sends to cell 0. -/
theorem exists_masked_out
    (notEmpty : size ≠ 0)
    (notPower : ∀ exponent, size.toNat ≠ 2 ^ exponent) :
    ∃ position : UInt32,
      0 < position.toNat ∧
        position.toNat < size.toNat ∧
        position &&& (size - 1) = 0 := by
  have positive : 0 < size.toNat :=
    Nat.pos_of_ne_zero fun zero =>
      notEmpty (UInt32.toNat_inj.mp zero)
  have below : (size - 1).toNat = size.toNat - 1 :=
    toNat_sub_of_toNat_le positive
  have notOne := notPower 0
  obtain ⟨bit, small, clear⟩ :
      ∃ bit,
        2 ^ bit ≤ (size - 1).toNat ∧
          (size - 1).toNat.testBit bit = false := by
    by_contra allSet
    apply notPower ((size - 1).toNat.log2 + 1)
    rw [← succ_eq_two_pow_of_testBit (by omega)]
    · omega
    · intro bit small
      by_contra clear
      exact allSet ⟨bit, small, Bool.eq_false_of_not_eq_true clear⟩
  have bound := (size - 1).toNat_lt
  have position : (UInt32.ofNat (2 ^ bit)).toNat = 2 ^ bit :=
    RingPositions.toNat_counter_of_lt (by omega)
  refine ⟨UInt32.ofNat (2 ^ bit), ?_, by omega, ?_⟩
  · rw [position]
    exact Nat.two_pow_pos bit
  · apply UInt32.toNat_inj.mp
    rw [UInt32.toNat_and, position, Nat.two_pow_and, clear]
    rfl

/-- A `memcpy` of no bytes changes nothing. -/
theorem memcpy_zero
    {dst src : List UInt8}
    {target start : Nat}
    (inDst : target ≤ dst.length)
    (inSrc : start ≤ src.length) :
    memcpy dst target src start 0 = some dst := by
  rw [memcpy, if_pos ⟨inDst, inSrc⟩, List.take_zero, List.nil_append,
    Nat.add_zero, List.take_append_drop]

/-- A number that is not larger is the smaller one. -/
theorem minMacro_eq_left
    {a b : UInt32}
    (smaller : a.toNat ≤ b.toNat) :
    minMacro a b = a := by
  apply UInt32.toNat_inj.mp
  rw [toNat_minMacro]
  exact min_eq_left smaller

/-- A put at cell 0 stores its bytes from there. -/
theorem sfifoPut_at_start
    {fifo : SfifoT}
    {data : List UInt8}
    {len : UInt32}
    (room : fifo.buffer.length = fifo.size.toNat)
    (atStart : fifo.in_ &&& (fifo.size - 1) = 0)
    (length : data.length = len.toNat)
    (free : len.toNat ≤ (fifo.size - fifo.in_ + fifo.out).toNat)
    (short : len.toNat ≤ fifo.size.toNat) :
    sfifoPut fifo data len =
      some
        ({ fifo with
            buffer := data ++ fifo.buffer.drop len.toNat
            in_ := fifo.in_ + len },
          len) := by
  have copied :
      memcpy fifo.buffer 0 data 0 len.toNat =
        some (data ++ fifo.buffer.drop len.toNat) := by
    rw [memcpy, if_pos (by omega), List.take_zero, List.nil_append,
      List.drop_zero, ← length, List.take_length, Nat.zero_add]
  have rest :
      memcpy (data ++ fifo.buffer.drop len.toNat) 0 data len.toNat 0 =
        some (data ++ fifo.buffer.drop len.toNat) :=
    memcpy_zero (Nat.zero_le _) length.ge
  simp only [sfifoPut, bind, Option.bind, minMacro_eq_left free, atStart,
    UInt32.sub_zero, minMacro_eq_left short, UInt32.sub_self,
    UInt32.toNat_zero, copied, rest]

/-- A get at cell 0 delivers the bytes from there. -/
theorem sfifoGet_at_start
    {fifo : SfifoT}
    {data : List UInt8}
    {len : UInt32}
    (room : fifo.buffer.length = fifo.size.toNat)
    (atStart : fifo.out &&& (fifo.size - 1) = 0)
    (length : data.length = len.toNat)
    (stored : len.toNat ≤ (fifo.in_ - fifo.out).toNat)
    (short : len.toNat ≤ fifo.size.toNat) :
    sfifoGet fifo data len =
      some
        ({ fifo with out := fifo.out + len },
          fifo.buffer.take len.toNat,
          len) := by
  have copied :
      memcpy data 0 fifo.buffer 0 len.toNat =
        some (fifo.buffer.take len.toNat) := by
    rw [memcpy, if_pos (by omega), List.take_zero, List.nil_append,
      List.drop_zero, Nat.zero_add, ← length, List.drop_length,
      List.append_nil]
  have rest :
      memcpy (fifo.buffer.take len.toNat) len.toNat fifo.buffer 0 0 =
        some (fifo.buffer.take len.toNat) := by
    apply memcpy_zero _ (Nat.zero_le _)
    rw [List.length_take]
    omega
  simp only [sfifoGet, bind, Option.bind, minMacro_eq_left stored, atStart,
    UInt32.sub_zero, minMacro_eq_left short, UInt32.sub_self,
    UInt32.toNat_zero, copied, rest]

/--
Two puts that a fresh fifo of any other size takes whole: the byte of the second
one is stored over the first byte of the first one, and a get delivers it.
-/
theorem Fresh.overwritten
    {start : SfifoT}
    (fresh : Fresh size start)
    (notEmpty : size ≠ 0)
    (notPower : ∀ exponent, size.toNat ≠ 2 ^ exponent) :
    ∃ len middle full after,
      0 < len.toNat ∧
        len.toNat + 1 ≤ size.toNat ∧
        sfifoPut start (List.replicate len.toNat 0) len =
          some (middle, len) ∧
        sfifoPut middle [1] 1 = some (full, 1) ∧
        sfifoGet full [0] 1 = some (after, [1], 1) := by
  obtain ⟨buffer, room, rfl⟩ := fresh.exists_buffer
  obtain ⟨len, positive, small, masked⟩ :=
    exists_masked_out notEmpty notPower
  have bound := size.toNat_lt
  have length : (List.replicate len.toNat (0 : UInt8)).length = len.toNat :=
    List.length_replicate
  have lenNext : (len + 1).toNat = len.toNat + 1 := by
    rw [UInt32.toNat_add]
    exact Nat.mod_eq_of_lt (by change len.toNat + 1 < 2 ^ 32; omega)
  have free : (size - len).toNat = size.toNat - len.toNat :=
    toNat_sub_of_toNat_le small.le
  have firstPut :=
    @sfifoPut_at_start ⟨buffer, size, 0, 0⟩ (List.replicate len.toNat 0)
      len room UInt32.zero_and length (by simpa using small.le) small.le
  simp only [UInt32.zero_add] at firstPut
  have secondPut :=
    @sfifoPut_at_start
      ⟨List.replicate len.toNat 0 ++ buffer.drop len.toNat, size, len, 0⟩
      [1] 1 (by
        change _ = size.toNat
        rw [List.length_append, List.length_drop, length]
        omega)
      masked rfl
      (by
        rw [UInt32.add_zero, free]
        exact Nat.sub_pos_of_lt small)
      (positive.trans small)
  have got :=
    @sfifoGet_at_start
      ⟨[1] ++
          (List.replicate len.toNat 0 ++ buffer.drop len.toNat).drop 1,
        size, len + 1, 0⟩
      [0] 1 (by
        change _ = size.toNat
        simp only [List.length_append, List.length_drop, length,
          List.length_singleton]
        omega)
      UInt32.zero_and rfl
      (by
        rw [UInt32.sub_zero, lenNext]
        exact Nat.succ_le_succ (Nat.zero_le _))
      (positive.trans small)
  exact ⟨len, _, _, _, positive, small, firstPut, secondPut, got⟩

/-- The bytes accepted by a fifo of a power-of-two size are in their cells. -/
structure Traffic.Kept
    (size : UInt32)
    (exponent : Nat)
    (traffic : Traffic) :
    Prop where
  counted :
    traffic.Counted size
  held :
    ∃ stored released,
      Holds exponent traffic.fifo stored released ∧
        traffic.accepted = traffic.delivered ++ stored

/-- Taking the smaller number twice is taking it once. -/
theorem minMacro_minMacro
    (a b : UInt32) :
    minMacro (minMacro a b) b = minMacro a b := by
  apply minMacro_eq_left
  rw [toNat_minMacro]
  exact min_le_right _ _

/-- A length beyond the free bytes makes no difference. -/
theorem sfifoPut_trim
    (fifo : SfifoT)
    (buffer : List UInt8)
    (len : UInt32) :
    sfifoPut fifo buffer
        (minMacro len (fifo.size - fifo.in_ + fifo.out)) =
      sfifoPut fifo buffer len := by
  unfold sfifoPut
  rw [minMacro_minMacro]

/-- A length beyond the stored bytes makes no difference. -/
theorem sfifoGet_trim
    (fifo : SfifoT)
    (buffer : List UInt8)
    (len : UInt32) :
    sfifoGet fifo buffer (minMacro len (fifo.in_ - fifo.out)) =
      sfifoGet fifo buffer len := by
  unfold sfifoGet
  rw [minMacro_minMacro]

/-- A put appends to the bytes held what it accepts. -/
theorem Traffic.Kept.put
    {exponent : Nat}
    (small : exponent ≤ 31)
    (kept : traffic.Kept size exponent)
    {buffer : List UInt8}
    {len : UInt32}
    {result : SfifoT × UInt32}
    (called : sfifoPut traffic.fifo buffer len = some result) :
    ∃ stored released,
      Holds exponent result.1 stored released ∧
        traffic.accepted ++ buffer.take result.2.toNat =
          traffic.delivered ++ stored := by
  obtain ⟨stored, released, holds, accepted⟩ := kept.held
  have bounded := kept.counted.bounded
  have available := bounded.available_of_put called
  rw [← bounded.toNat_free, ← toNat_minMacro] at available
  obtain ⟨next, taken, same, takenEq, holdsNext⟩ :=
    holds.put small available
  rw [sfifoPut_trim, called] at same
  obtain rfl := Option.some.inj same
  refine ⟨_, released, holdsNext, ?_⟩
  rw [accepted, List.append_assoc]
  dsimp only
  rw [takenEq]
  rfl

/-- A get delivers the oldest of the bytes held. -/
theorem Traffic.Kept.get
    {exponent : Nat}
    (small : exponent ≤ 31)
    (kept : traffic.Kept size exponent)
    {buffer : List UInt8}
    {len : UInt32}
    {result : SfifoT × List UInt8 × UInt32}
    (called : sfifoGet traffic.fifo buffer len = some result) :
    ∃ stored released,
      Holds exponent result.1 stored released ∧
        traffic.accepted =
          traffic.delivered ++ result.2.1.take result.2.2.toNat ++
            stored := by
  obtain ⟨stored, released, holds, accepted⟩ := kept.held
  have bounded := kept.counted.bounded
  have available := bounded.available_of_get called
  rw [sfifoRest, ← toNat_minMacro] at available
  obtain ⟨next, filled, taken, same, takenEq, filledEq, holdsNext⟩ :=
    holds.get small available
  rw [sfifoGet_trim, called] at same
  obtain rfl := Option.some.inj same
  refine ⟨_, _, holdsNext, ?_⟩
  dsimp only
  rw [accepted, filledEq, takenEq, List.take_left, List.append_assoc]
  congr 1
  exact (List.take_append_drop _ _).symm

/-- Every sequence of calls keeps the bytes in their cells. -/
theorem kept_of_reachable
    {exponent : Nat}
    (isPower : size.toNat = 2 ^ exponent)
    (reachable : (callMachine size).Reachable traffic) :
    traffic.Kept size exponent := by
  obtain ⟨small, sizeEq⟩ := RingPositions.exists_capacity isPower
  apply reachable.invariant
  · rintro ⟨start, _, _⟩ ⟨fresh, rfl, rfl⟩
    refine ⟨fresh.counted, [], 0, ?_, rfl⟩
    obtain ⟨buffer, length, rfl⟩ := fresh.exists_buffer
    refine ⟨sizeEq, ?_, Nat.zero_le _, rfl, rfl, ?_⟩
    · rw [RingPositions.capacity, ← isPower]
      exact length.ge
    · intro index inside
      cases inside
  · intro before after op holds _ stepped
    refine ⟨holds.counted.step stepped, ?_⟩
    cases op with
    | put buffer len =>
        obtain ⟨result, called, rfl⟩ := Option.map_eq_some_iff.mp stepped
        exact holds.put small called
    | get buffer len =>
        obtain ⟨result, called, rfl⟩ := Option.map_eq_some_iff.mp stepped
        exact holds.get small called
    | rest =>
        obtain rfl := Option.some.inj stepped
        exact holds.held

/-- A fifo of size 0 has accepted nothing. -/
structure Traffic.Unused (traffic : Traffic) : Prop where
  counted :
    traffic.Counted 0
  accepted :
    traffic.accepted = []

/-- No sequence of calls puts a byte into a fifo of size 0. -/
theorem unused_of_reachable
    (reachable : (callMachine 0).Reachable traffic) :
    traffic.Unused := by
  apply reachable.invariant
  · rintro ⟨start, _, _⟩ ⟨fresh, rfl, rfl⟩
    exact ⟨fresh.counted, rfl⟩
  · intro before after op holds _ stepped
    refine ⟨holds.counted.step stepped, ?_⟩
    cases op with
    | put buffer len =>
        obtain ⟨result, called, rfl⟩ := Option.map_eq_some_iff.mp stepped
        have bounded := holds.counted.bounded
        obtain ⟨_, _, same, takenEq, _⟩ :=
          bounded.put (bounded.available_of_put called)
        cases Option.some.inj (called.symm.trans same)
        rw [UInt32.toNat_zero, Nat.zero_sub, Nat.min_zero] at takenEq
        simp only [takenEq, List.take_zero, List.append_nil,
          holds.accepted]
    | get buffer len =>
        obtain ⟨result, called, rfl⟩ := Option.map_eq_some_iff.mp stepped
        exact holds.accepted
    | rest =>
        obtain rfl := Option.some.inj stepped
        exact holds.accepted

/-- A put that returns leads to a reachable state. -/
theorem reachable_put
    (reachable : (callMachine size).Reachable traffic)
    {buffer : List UInt8}
    {len taken : UInt32}
    {next : SfifoT}
    (called : sfifoPut traffic.fifo buffer len = some (next, taken)) :
    (callMachine size).Reachable
      ⟨next, traffic.accepted ++ buffer.take taken.toNat,
        traffic.delivered⟩ := by
  have stepped :
      (callMachine size).step? traffic (.put buffer len) =
        some ⟨next, traffic.accepted ++ buffer.take taken.toNat,
          traffic.delivered⟩ :=
    congrArg (Option.map _) called
  exact reachable.step trivial stepped

/-- A get that returns leads to a reachable state. -/
theorem reachable_get
    (reachable : (callMachine size).Reachable traffic)
    {buffer filled : List UInt8}
    {len taken : UInt32}
    {next : SfifoT}
    (called :
      sfifoGet traffic.fifo buffer len = some (next, filled, taken)) :
    (callMachine size).Reachable
      ⟨next, traffic.accepted,
        traffic.delivered ++ filled.take taken.toNat⟩ := by
  have stepped :
      (callMachine size).step? traffic (.get buffer len) =
        some ⟨next, traffic.accepted,
          traffic.delivered ++ filled.take taken.toNat⟩ :=
    congrArg (Option.map _) called
  exact reachable.step trivial stepped

/-- What has been delivered up to the last byte is what was accepted. -/
theorem faithful_of_prefix
    (ordered :
      ∀ traffic,
        (callMachine size).Reachable traffic →
        traffic.delivered <+: traffic.accepted) :
    Faithful size := by
  intro traffic reachable
  refine ⟨ordered traffic reachable, ?_⟩
  intro buffer room
  have holds := counted_of_reachable reachable
  obtain ⟨next, filled, taken, called, takenEq, _, _, moved, _⟩ :=
    @InBounds.get _ _ holds.bounded buffer (sfifoRest traffic.fifo)
      (by omega)
  have later := reachable_get reachable called
  refine ⟨_, congrArg (Option.map _) called,
    (ordered _ later).eq_of_length ?_⟩
  have counted := (counted_of_reachable later).counted
  dsimp only at counted ⊢
  omega

/-- The powers of two and 0 lose and alter nothing. -/
theorem faithful_of_sound_size
    (sound : size = 0 ∨ ∃ exponent, size.toNat = 2 ^ exponent) :
    Faithful size := by
  apply faithful_of_prefix
  intro traffic reachable
  rcases sound with rfl | ⟨exponent, isPower⟩
  · have unused := unused_of_reachable reachable
    have counted := unused.counted.counted
    have nothing : traffic.delivered = [] := by
      apply List.eq_nil_of_length_eq_zero
      rw [unused.accepted, List.length_nil] at counted
      omega
    rw [nothing]
    exact List.nil_prefix
  · obtain ⟨stored, released, _, accepted⟩ :=
      (kept_of_reachable isPower reachable).held
    exact ⟨stored, accepted.symm⟩

/-- Every other size delivers a byte that was not put there. -/
theorem not_faithful
    (notEmpty : size ≠ 0)
    (notPower : ∀ exponent, size.toNat ≠ 2 ^ exponent) :
    ¬ Faithful size := by
  intro faithful
  obtain ⟨start, fresh⟩ : ∃ start, Fresh size start :=
    ⟨_, List.replicate size.toNat 0, true, List.length_replicate, .inl rfl⟩
  obtain ⟨len, middle, full, after, positive, _, firstPut, secondPut, got⟩ :=
    fresh.overwritten notEmpty notPower
  have started : (callMachine size).Reachable ⟨start, [], []⟩ :=
    .initial ⟨fresh, rfl, rfl⟩
  have ordered :=
    (faithful _
      (reachable_get
        (reachable_put (reachable_put started firstPut) secondPut)
        got)).1
  obtain ⟨count, lenEq⟩ := Nat.exists_eq_succ_of_ne_zero positive.ne'
  simp [lenEq, List.replicate_succ] at ordered

/--
Both constructors accept every size.  On a fresh fifo whose size is neither 0 nor
a power of two, two puts that are both taken whole, and together no larger than
the size, are followed by a get that delivers other bytes.  So the powers of two
and 0 are the sizes that lose and alter nothing.
-/
theorem faithful_iff
    (size : UInt32) :
    (∀ buffer : List UInt8,
        buffer.length = size.toNat →
        ∃ fifo,
          sfifoInit buffer size true = some fifo ∧
            sfifoAlloc size (some buffer) true = some fifo ∧
            Fresh size fifo) ∧
      (size ≠ 0 →
        (∀ exponent, size.toNat ≠ 2 ^ exponent) →
        ∀ start,
          Fresh size start →
          ∃ first second firstLen secondLen middle full filled after,
            first.length = firstLen.toNat ∧
              second.length = secondLen.toNat ∧
              first.length + second.length ≤ size.toNat ∧
              sfifoPut start first firstLen = some (middle, firstLen) ∧
              sfifoPut middle second secondLen =
                some (full, secondLen) ∧
              sfifoGet full [0] 1 = some (after, filled, 1) ∧
              filled ≠ (first ++ second).take 1) ∧
      (Faithful size ↔
        size = 0 ∨ ∃ exponent, size.toNat = 2 ^ exponent) := by
  refine ⟨?_, ?_, ?_, faithful_of_sound_size⟩
  · intro buffer length
    exact ⟨⟨buffer, size, 0, 0⟩, rfl, rfl, buffer, true, length, .inl rfl⟩
  · intro notEmpty notPower start fresh
    obtain ⟨len, middle, full, after, positive, small, puts⟩ :=
      fresh.overwritten notEmpty notPower
    refine ⟨List.replicate len.toNat 0, [1], len, 1, middle, full, [1],
      after, List.length_replicate, rfl, ?_, puts.1, puts.2.1,
      puts.2.2, ?_⟩
    · rw [List.length_replicate, List.length_singleton]
      exact small
    · obtain ⟨count, lenEq⟩ := Nat.exists_eq_succ_of_ne_zero positive.ne'
      simp [lenEq, List.replicate_succ]
  · intro faithful
    by_contra unsound
    rw [not_or, not_exists] at unsound
    exact not_faithful unsound.1 unsound.2 faithful

/-- Six cells alter what is put into them, four do not. -/
theorem faithful_iff_six_four :
    ¬ Faithful 6 ∧ Faithful 4 := by
  have notPower : ∀ exponent, (6 : UInt32).toNat ≠ 2 ^ exponent := by
    intro exponent power
    change 6 = 2 ^ exponent at power
    have above : 2 < exponent :=
      (Nat.pow_lt_pow_iff_right (by decide)).mp
        (show 2 ^ 2 < 2 ^ exponent by omega)
    have below : exponent < 3 :=
      (Nat.pow_lt_pow_iff_right (by decide)).mp
        (show 2 ^ exponent < 2 ^ 3 by omega)
    omega
  constructor
  · intro faithful
    rcases (faithful_iff 6).2.2.mp faithful with zero | ⟨exponent, power⟩
    · cases zero
    · exact notPower exponent power
  · exact (faithful_iff 4).2.2.mpr (.inr ⟨2, rfl⟩)

end Faithfulness

end WkcRuntime.Sfifo
