import WkcRuntime.RingPositions
import WkcRuntime.SfifoSource

namespace WkcRuntime.Sfifo

open RingPositions

/-!
# The fifo is a bounded queue of bytes

The stored bytes are a list; `released` counts the bytes that have left the
fifo.  The fifo holds a list when its counters stand at `released` and at
`released` plus the length, and the cell of each position in between has the
byte of that position.  `sfifo_put` and `sfifo_get` never leave their buffers
and keep this relation, whatever the counters have wrapped to.
-/

/-- Append what fits, and tell how much that was. -/
def queuePut
    (bound : Nat)
    (stored data : List UInt8)
    (len : Nat) :
    List UInt8 × Nat :=
  let taken := min len (bound - stored.length)
  (stored ++ data.take taken, taken)

/-- Remove the oldest bytes, as far as there are any. -/
def queueGet
    (stored : List UInt8)
    (len : Nat) :
    List UInt8 × List UInt8 :=
  let taken := min len stored.length
  (stored.drop taken, stored.take taken)

/-- One call of a client. -/
inductive Op where
  | put (buffer : List UInt8) (len : UInt32)
  | get (buffer : List UInt8) (len : UInt32)
  | rest
  deriving DecidableEq, Repr

/-- What a call returns; a get also returns its buffer. -/
inductive Output where
  | put (taken : Nat)
  | get (buffer : List UInt8) (taken : Nat)
  | rest (stored : Nat)
  deriving DecidableEq, Repr

/-- The buffer of the call has at least the announced length. -/
def Op.Fits : Op → Prop
  | .put buffer len =>
      len.toNat ≤ buffer.length
  | .get buffer len =>
      len.toNat ≤ buffer.length
  | .rest =>
      True

/-- One call on the fifo. -/
def callCode (fifo : SfifoT) : Op → Option (SfifoT × Output)
  | .put buffer len =>
      (sfifoPut fifo buffer len).map fun result =>
        (result.1, .put result.2.toNat)
  | .get buffer len =>
      (sfifoGet fifo buffer len).map fun result =>
        (result.1, .get result.2.1 result.2.2.toNat)
  | .rest =>
      some (fifo, .rest (sfifoRest fifo).toNat)

/-- One call on the queue. -/
def callQueue
    (bound : Nat)
    (stored : List UInt8) :
    Op → List UInt8 × Output
  | .put buffer len =>
      let result := queuePut bound stored buffer len.toNat
      (result.1, .put result.2)
  | .get buffer len =>
      let result := queueGet stored len.toNat
      (result.1,
        .get (result.2 ++ buffer.drop result.2.length) result.2.length)
  | .rest =>
      (stored, .rest stored.length)

/-- A sequence of calls on the fifo. -/
def runCode : SfifoT → List Op → Option (SfifoT × List Output)
  | fifo, [] =>
      some (fifo, [])
  | fifo, op :: rest =>
      match callCode fifo op with
      | none =>
          none
      | some (next, output) =>
          (runCode next rest).map fun result =>
            (result.1, output :: result.2)

/-- A sequence of calls on the queue. -/
def runQueue
    (bound : Nat) :
    List UInt8 → List Op → List UInt8 × List Output
  | stored, [] =>
      (stored, [])
  | stored, op :: rest =>
      let called := callQueue bound stored op
      let result := runQueue bound called.1 rest
      (result.1, called.2 :: result.2)

section Copying

/-- What a `memcpy` within bounds leaves behind. -/
theorem memcpy_spec
    (dst src : List UInt8)
    (target start n : Nat)
    (room : target + n ≤ dst.length)
    (available : start + n ≤ src.length) :
    ∃ copied,
      memcpy dst target src start n = some copied ∧
        copied.length = dst.length ∧
        ∀ index,
          copied[index]? =
            if target ≤ index ∧ index < target + n then
              src[start + (index - target)]?
            else
              dst[index]? := by
  refine ⟨_, if_pos ⟨room, available⟩, ?_, ?_⟩
  · simp only [List.length_append, List.length_take, List.length_drop]
    omega
  · intro index
    by_cases before : index < target
    · have outside : ¬ (target ≤ index ∧ index < target + n) := by omega
      rw [if_neg outside, List.getElem?_append_left
        (by simp only [List.length_take]; omega)]
      exact List.getElem?_take_of_lt before
    · have prefixLength : (dst.take target).length = target := by
        simp only [List.length_take]
        omega
      rw [List.getElem?_append_right (by omega), prefixLength]
      by_cases inside : index < target + n
      · rw [if_pos ⟨by omega, inside⟩, List.getElem?_append_left
          (by simp only [List.length_take, List.length_drop]; omega),
          List.getElem?_take_of_lt (by omega), List.getElem?_drop]
      · have blockLength : ((src.drop start).take n).length = n := by
          simp only [List.length_take, List.length_drop]
          omega
        have outside : ¬ (target ≤ index ∧ index < target + n) := by omega
        rw [if_neg outside, List.getElem?_append_right (by omega),
          blockLength, List.getElem?_drop]
        congr 1
        omega

variable (ring data : List UInt8)
variable (size position len : Nat)
variable {first : Nat}

/-- Two copies put a block into the ring, cut at its end. -/
theorem memcpy_into_ring
    (positive : 0 < size)
    (room : size ≤ ring.length)
    (short : len ≤ size)
    (available : len ≤ data.length)
    (cut : first = min len (size - position % size)) :
    ∃ half whole,
      memcpy ring (position % size) data 0 first = some half ∧
        memcpy half 0 data first (len - first) = some whole ∧
        whole.length = ring.length ∧
        (∀ offset < len,
          whole[(position + offset) % size]? = data[offset]?) ∧
        ∀ cell,
          (∀ offset < len, cell ≠ (position + offset) % size) →
          whole[cell]? = ring[cell]? := by
  have inRing := Nat.mod_lt position positive
  have cell :
      ∀ offset < len,
        (position + offset) % size =
          if offset < first then
            position % size + offset
          else
            offset - first :=
    fun offset inside => cell_of_block positive short cut inside
  obtain ⟨half, firstCopied, halfLength, halfAt⟩ :=
    memcpy_spec ring data (position % size) 0 first (by omega)
      (by omega)
  obtain ⟨whole, secondCopied, wholeLength, wholeAt⟩ :=
    memcpy_spec half data 0 first (len - first) (by omega) (by omega)
  refine ⟨half, whole, firstCopied, secondCopied,
    wholeLength.trans halfLength, ?_, ?_⟩
  · intro offset inside
    rw [cell offset inside, wholeAt, halfAt]
    by_cases beforeCut : offset < first
    · rw [if_pos beforeCut, if_neg (by omega), if_pos (by omega)]
      congr 1
      omega
    · rw [if_neg beforeCut, if_pos (by omega)]
      congr 1
      omega
  · intro other untouched
    have behindWrap : ¬ (0 ≤ other ∧ other < 0 + (len - first)) := by
      rintro ⟨_, low⟩
      apply untouched (first + other) (by omega)
      rw [cell _ (by omega), if_neg (by omega)]
      omega
    have beforeWrap :
        ¬ (position % size ≤ other ∧
          other < position % size + first) := by
      rintro ⟨low, high⟩
      apply untouched (other - position % size) (by omega)
      rw [cell _ (by omega), if_pos (by omega)]
      omega
    rw [wholeAt, if_neg behindWrap, halfAt, if_neg beforeWrap]

/-- Two copies take a block out of the ring, cut at its end. -/
theorem memcpy_from_ring
    (positive : 0 < size)
    (room : size ≤ ring.length)
    (short : len ≤ size)
    (available : len ≤ data.length)
    (cut : first = min len (size - position % size)) :
    ∃ half whole,
      memcpy data 0 ring (position % size) first = some half ∧
        memcpy half first ring 0 (len - first) = some whole ∧
        ∀ offset,
          whole[offset]? =
            if offset < len then
              ring[(position + offset) % size]?
            else
              data[offset]? := by
  have inRing := Nat.mod_lt position positive
  obtain ⟨half, firstCopied, halfLength, halfAt⟩ :=
    memcpy_spec data ring 0 (position % size) first (by omega)
      (by omega)
  obtain ⟨whole, secondCopied, wholeLength, wholeAt⟩ :=
    memcpy_spec half ring first 0 (len - first) (by omega) (by omega)
  refine ⟨half, whole, firstCopied, secondCopied, ?_⟩
  intro offset
  rw [wholeAt, halfAt]
  by_cases inside : offset < len
  · rw [if_pos inside, cell_of_block positive short cut inside]
    by_cases beforeCut : offset < first
    · rw [if_pos beforeCut, if_neg (by omega), if_pos (by omega)]
      congr 1
    · rw [if_neg beforeCut, if_pos (by omega)]
      congr 1
      omega
  · rw [if_neg inside, if_neg (by omega), if_neg (by omega)]

end Copying

section Refinement

/-- The fifo stores these bytes, oldest first. -/
structure Holds
    (exponent : Nat)
    (fifo : SfifoT)
    (stored : List UInt8)
    (released : Nat) :
    Prop where
  size :
    fifo.size = counter (capacity exponent)
  room :
    capacity exponent ≤ fifo.buffer.length
  fits :
    stored.length ≤ capacity exponent
  out :
    fifo.out = counter released
  in_ :
    fifo.in_ = counter (released + stored.length)
  cells :
    ∀ index < stored.length,
      fifo.buffer[(released + index) % capacity exponent]? =
        stored[index]?

variable {exponent released : Nat}
variable {fifo : SfifoT}
variable {stored : List UInt8}

/-- The macro computes the smaller number. -/
theorem toNat_minMacro
    (a b : UInt32) :
    (minMacro a b).toNat = min a.toNat b.toNat := by
  unfold minMacro
  rw [apply_ite UInt32.toNat]
  split
  · rename_i less
    exact (min_eq_left (UInt32.lt_iff_toNat_lt.mp less).le).symm
  · rename_i notLess
    exact (min_eq_right
      (Nat.not_lt.mp (fun less =>
        notLess (UInt32.lt_iff_toNat_lt.mpr less)))).symm

/-- A number of bytes bounded by another number subtracts without wrapping. -/
theorem toNat_sub_of_toNat_le
    {a b : UInt32}
    (smaller : b.toNat ≤ a.toNat) :
    (a - b).toNat = a.toNat - b.toNat :=
  UInt32.toNat_sub_of_le a b (UInt32.le_iff_toNat_le.mpr smaller)

/-- The number of stored bytes, from the counters. -/
theorem Holds.toNat_stored
    (small : exponent ≤ 31)
    (holds : Holds exponent fifo stored released) :
    (fifo.in_ - fifo.out).toNat = stored.length := by
  have bound := capacity_lt small
  have fits := holds.fits
  rw [holds.in_, holds.out, counter_sub (Nat.le_add_right _ _),
    Nat.add_sub_cancel_left]
  exact toNat_counter_of_lt (by omega)

/-- The number of free bytes, from the counters. -/
theorem Holds.toNat_free
    (small : exponent ≤ 31)
    (holds : Holds exponent fifo stored released) :
    (fifo.size - fifo.in_ + fifo.out).toNat =
      capacity exponent - stored.length := by
  have bound := capacity_lt small
  have fits := holds.fits
  rw [holds.size, holds.in_, holds.out,
    counter_free (Nat.le_add_right _ _) (by omega),
    Nat.add_sub_cancel_left]
  exact toNat_counter_of_lt (by omega)

/-- `sfifo_put` appends what fits and stays within its buffers. -/
theorem Holds.put
    (small : exponent ≤ 31)
    (holds : Holds exponent fifo stored released)
    {buffer : List UInt8}
    {len : UInt32}
    (available : len.toNat ≤ buffer.length) :
    ∃ next taken,
      sfifoPut fifo buffer len = some (next, taken) ∧
        taken.toNat =
          (queuePut (capacity exponent) stored buffer len.toNat).2 ∧
        Holds exponent next
          (queuePut (capacity exponent) stored buffer len.toNat).1
          released := by
  let taken := minMacro len (fifo.size - fifo.in_ + fifo.out)
  let first :=
    minMacro taken (fifo.size - (fifo.in_ &&& (fifo.size - 1)))
  have fits := holds.fits
  have takenEq :
      taken.toNat = min len.toNat (capacity exponent - stored.length) := by
    rw [toNat_minMacro, holds.toNat_free small]
  have maskEq :
      (fifo.in_ &&& (fifo.size - 1)).toNat =
        (released + stored.length) % capacity exponent := by
    rw [holds.in_, holds.size, toNat_mask small]
  have firstEq :
      first.toNat =
        min taken.toNat
          (capacity exponent -
            (released + stored.length) % capacity exponent) := by
    rw [toNat_minMacro, holds.in_, holds.size, toNat_tail small]
  have restEq :
      (taken - first).toNat = taken.toNat - first.toNat :=
    toNat_sub_of_toNat_le (by omega)
  obtain ⟨half, whole, firstCopy, secondCopy, length, written, kept⟩ :=
    memcpy_into_ring fifo.buffer buffer (capacity exponent) _ taken.toNat
      (Nat.two_pow_pos exponent) holds.room (by omega) (by omega) firstEq
  have takenLength : (buffer.take taken.toNat).length = taken.toNat := by
    rw [List.length_take]
    omega
  refine ⟨{ fifo with buffer := whole, in_ := fifo.in_ + taken },
    taken, ?_, takenEq, ?_⟩
  · rw [← maskEq] at firstCopy
    rw [← restEq] at secondCopy
    simp only [sfifoPut, bind, Option.bind]
    rw [firstCopy]
    simp only
    rw [secondCopy]
  · have appended :
        (queuePut (capacity exponent) stored buffer len.toNat).1 =
          stored ++ buffer.take taken.toNat := by
      rw [takenEq]
      rfl
    rw [appended]
    refine ⟨holds.size, length ▸ holds.room, ?_, holds.out, ?_, ?_⟩
    · rw [List.length_append, takenLength]
      omega
    · rw [holds.in_, counter_add, List.length_append, takenLength,
        Nat.add_assoc]
    · intro index inside
      rw [List.length_append, takenLength] at inside
      by_cases old : index < stored.length
      · rw [List.getElem?_append_left old, ← holds.cells index old]
        apply kept _
        intro offset short
        exact cell_ne (by omega) (by omega)
      · have position :
            released + index =
              released + stored.length + (index - stored.length) := by
          omega
        rw [List.getElem?_append_right (by omega), position,
          written _ (by omega), List.getElem?_take_of_lt (by omega)]

/-- `sfifo_get` removes the oldest bytes and stays within its buffers. -/
theorem Holds.get
    (small : exponent ≤ 31)
    (holds : Holds exponent fifo stored released)
    {buffer : List UInt8}
    {len : UInt32}
    (available : len.toNat ≤ buffer.length) :
    ∃ next filled taken,
      sfifoGet fifo buffer len = some (next, filled, taken) ∧
        taken.toNat = (queueGet stored len.toNat).2.length ∧
        filled =
          (queueGet stored len.toNat).2 ++ buffer.drop taken.toNat ∧
        Holds exponent next
          (queueGet stored len.toNat).1 (released + taken.toNat) := by
  let taken := minMacro len (fifo.in_ - fifo.out)
  let first :=
    minMacro taken (fifo.size - (fifo.out &&& (fifo.size - 1)))
  have fits := holds.fits
  have takenEq : taken.toNat = min len.toNat stored.length := by
    rw [toNat_minMacro, holds.toNat_stored small]
  have maskEq :
      (fifo.out &&& (fifo.size - 1)).toNat =
        released % capacity exponent := by
    rw [holds.out, holds.size, toNat_mask small]
  have firstEq :
      first.toNat =
        min taken.toNat
          (capacity exponent - released % capacity exponent) := by
    rw [toNat_minMacro, holds.out, holds.size, toNat_tail small]
  have restEq :
      (taken - first).toNat = taken.toNat - first.toNat :=
    toNat_sub_of_toNat_le (by omega)
  obtain ⟨half, whole, firstCopy, secondCopy, read⟩ :=
    memcpy_from_ring fifo.buffer buffer (capacity exponent) _ taken.toNat
      (Nat.two_pow_pos exponent) holds.room (by omega) (by omega) firstEq
  have oldest :
      (queueGet stored len.toNat).2 = stored.take taken.toNat := by
    rw [takenEq]
    rfl
  have remaining :
      (queueGet stored len.toNat).1 = stored.drop taken.toNat := by
    rw [takenEq]
    rfl
  have oldestLength : (stored.take taken.toNat).length = taken.toNat := by
    rw [List.length_take]
    omega
  refine ⟨{ fifo with out := fifo.out + taken }, whole, taken,
    ?_, ?_, ?_, ?_⟩
  · rw [← maskEq] at firstCopy
    rw [← restEq] at secondCopy
    simp only [sfifoGet, bind, Option.bind]
    rw [firstCopy]
    simp only
    rw [secondCopy]
  · rw [oldest, oldestLength]
  · rw [oldest]
    apply List.ext_getElem?
    intro index
    rw [read]
    by_cases inside : index < taken.toNat
    · rw [if_pos inside, holds.cells index (by omega),
        List.getElem?_append_left (by omega),
        List.getElem?_take_of_lt inside]
    · rw [if_neg inside, List.getElem?_append_right (by omega),
        oldestLength, List.getElem?_drop]
      congr 1
      omega
  · rw [remaining]
    have length :
        (stored.drop taken.toNat).length =
          stored.length - taken.toNat :=
      List.length_drop
    refine ⟨holds.size, holds.room, by omega, ?_, ?_, ?_⟩
    · rw [holds.out, counter_add]
    · rw [holds.in_, length]
      congr 1
      omega
    · intro index inside
      rw [List.getElem?_drop, Nat.add_assoc]
      exact holds.cells _ (by omega)

/-- One call on the fifo returns what the same call on the queue returns. -/
theorem Holds.call
    (small : exponent ≤ 31)
    (holds : Holds exponent fifo stored released)
    {op : Op}
    (opFits : op.Fits) :
    ∃ next releasedNext,
      callCode fifo op =
          some (next, (callQueue (capacity exponent) stored op).2) ∧
        Holds exponent next
          (callQueue (capacity exponent) stored op).1 releasedNext := by
  cases op with
  | put buffer len =>
      obtain ⟨next, taken, put, takenEq, holdsNext⟩ :=
        holds.put small opFits
      refine ⟨next, released, ?_, holdsNext⟩
      simp only [callCode, put, Option.map_some, takenEq, callQueue]
  | get buffer len =>
      obtain ⟨next, filled, taken, got, takenEq, filledEq, holdsNext⟩ :=
        holds.get small opFits
      refine ⟨next, released + taken.toNat, ?_, holdsNext⟩
      simp only [callCode, got, Option.map_some, filledEq, takenEq,
        callQueue]
  | rest =>
      refine ⟨fifo, released, ?_, holds⟩
      simp only [callCode, sfifoRest, holds.toNat_stored small, callQueue]

/-- So does every sequence of calls. -/
theorem Holds.run
    (small : exponent ≤ 31)
    (holds : Holds exponent fifo stored released)
    {ops : List Op}
    (opsFit : ∀ op ∈ ops, op.Fits) :
    ∃ next releasedNext,
      runCode fifo ops =
          some (next, (runQueue (capacity exponent) stored ops).2) ∧
        Holds exponent next
          (runQueue (capacity exponent) stored ops).1 releasedNext := by
  induction ops generalizing fifo stored released with
  | nil =>
      exact ⟨fifo, released, rfl, holds⟩
  | cons op rest inductionHypothesis =>
      obtain ⟨middle, releasedMiddle, called, holdsMiddle⟩ :=
        holds.call small (opsFit op (by simp))
      obtain ⟨next, releasedNext, ran, holdsNext⟩ :=
        inductionHypothesis holdsMiddle
          (fun later member => opsFit later (by simp [member]))
      refine ⟨next, releasedNext, ?_, holdsNext⟩
      simp only [runCode, called, ran, Option.map_some, runQueue]

/--
From `sfifo_init` on, every sequence of calls on a fifo of a power-of-two size
stays within its buffers, returns what the same calls on a bounded queue of
bytes return, and leaves as many bytes as `sfifo_rest` then tells.
-/
theorem sfifo_refines_queue
    (exponent : Nat)
    {buffer : List UInt8}
    {size : UInt32}
    (isPower : size.toNat = 2 ^ exponent)
    (room : size.toNat ≤ buffer.length)
    {ops : List Op}
    (opsFit : ∀ op ∈ ops, op.Fits) :
    ∃ start final,
      sfifoInit buffer size true = some start ∧
        runCode start ops =
          some (final, (runQueue (2 ^ exponent) [] ops).2) ∧
        (sfifoRest final).toNat =
          (runQueue (2 ^ exponent) [] ops).1.length := by
  obtain ⟨small, sizeEq⟩ := exists_capacity isPower
  have empty : Holds exponent ⟨buffer, size, 0, 0⟩ [] 0 := by
    refine ⟨sizeEq, ?_, Nat.zero_le _, rfl, rfl, ?_⟩
    · rw [capacity, ← isPower]
      exact room
    · intro index inside
      cases inside
  obtain ⟨final, released, ran, holds⟩ := empty.run small opsFit
  exact ⟨⟨buffer, size, 0, 0⟩, final, rfl, ran, holds.toNat_stored small⟩

/-- A put cut at the end of a ring of four bytes, and the get behind it. -/
theorem sfifo_refines_queue_wrapped :
    ∃ start final,
      sfifoInit [0, 0, 0, 0] 4 true = some start ∧
        runCode start
            [.put [1, 2, 3] 3, .get [0, 0] 2, .put [4, 5, 6, 7] 4,
              .rest, .get [0, 0, 0, 0, 0] 5] =
          some (final,
            [.put 3, .get [1, 2] 2, .put 3, .rest 4,
              .get [3, 4, 5, 6, 0] 4]) ∧
        (sfifoRest final).toNat = 0 := by
  exact sfifo_refines_queue 2 rfl (by decide) (by
    intro op member
    simp only [List.mem_cons, List.not_mem_nil, or_false] at member
    rcases member with rfl | rfl | rfl | rfl | rfl
    · exact Nat.le_refl _
    · exact Nat.le_refl _
    · exact Nat.le_refl _
    · trivial
    · exact Nat.le_refl _)

end Refinement

end WkcRuntime.Sfifo
