import Mathlib.Logic.Function.Iterate

namespace WkcRuntime.ShiftRegister

/-!
# Shift registers

A register of `width` bits moves to the left one bit at a time.  The bit that
leaves it is compared with the next message bit; when they differ the generator
is added to what is left, without carries.  The step is linear in the register
and the message, so several message bits can be added in one place before the
shifts, and the part of the register that does not reach the top during these
shifts only moves.
-/

variable {width : Nat}

/-- Move the register by one bit; the bit that leaves brings the generator in. -/
def shift
    (generator register : BitVec width) :
    BitVec width :=
  if register.msb then
    (register <<< 1) ^^^ generator
  else
    register <<< 1

/-- Move the register by one bit against the next bit of the message. -/
def feed
    (generator register : BitVec width)
    (bit : Bool) :
    BitVec width :=
  if register.msb != bit then
    (register <<< 1) ^^^ generator
  else
    register <<< 1

/-- Feed the bits of a message in their order. -/
def feedAll
    (generator : BitVec width) :
    BitVec width → List Bool → BitVec width :=
  List.foldl (feed generator)

/-- The bits of a word, the most significant one first. -/
def bits
    {size : Nat}
    (word : BitVec size) :
    List Bool :=
  List.ofFn fun index : Fin size => word.getMsbD index

/-- A register with the given bits at its top and zeros below. -/
def place
    (message : List Bool) :
    BitVec width :=
  (BitVec.ofBoolListBE message).setWidth width <<<
    (width - message.length)

@[simp] theorem length_bits
    {size : Nat}
    (word : BitVec size) :
    (bits word).length = size :=
  List.length_ofFn

/-- Feeding two messages is feeding the one and then the other. -/
theorem feedAll_append
    (generator register : BitVec width)
    (first second : List Bool) :
    feedAll generator register (first ++ second) =
      feedAll generator (feedAll generator register first) second :=
  List.foldl_append

/-- Bits at the top of a register are read back in their order. -/
theorem getMsbD_place
    {message : List Bool}
    (fits : message.length ≤ width)
    (index : Nat) :
    (place message : BitVec width).getMsbD index =
      message.getD index false := by
  have aligned :
      index + (width - message.length) + message.length - width =
        index := by
    omega
  simp [place, BitVec.getMsbD_setWidth, aligned]

/-- The bits of a word are read back in their order. -/
theorem getD_bits
    {size : Nat}
    (word : BitVec size)
    (index : Nat) :
    (bits word).getD index false = word.getMsbD index := by
  by_cases inside : index < size
  · simp [bits, List.getD, inside]
  · simp [bits, List.getD, inside,
      BitVec.getMsbD_of_ge word index (by omega)]

/-- The generator cancels when both sides bring it in. -/
theorem xor_generator_cancel
    (generator first second : BitVec width) :
    first ^^^ generator ^^^ (second ^^^ generator) = first ^^^ second := by
  calc
    first ^^^ generator ^^^ (second ^^^ generator) =
        first ^^^ second ^^^ (generator ^^^ generator) := by
      ac_rfl
    _ = first ^^^ second := by
      rw [BitVec.xor_self, BitVec.xor_zero]

/-- The step is linear. -/
theorem shift_xor
    (generator first second : BitVec width) :
    shift generator (first ^^^ second) =
      shift generator first ^^^ shift generator second := by
  unfold shift
  rw [BitVec.msb_xor, BitVec.shiftLeft_xor_distrib]
  cases first.msb <;> cases second.msb
  · rfl
  · exact BitVec.xor_assoc ..
  · change
      first <<< 1 ^^^ second <<< 1 ^^^ generator =
        first <<< 1 ^^^ generator ^^^ second <<< 1
    ac_rfl
  · exact (xor_generator_cancel generator _ _).symm

/-- Any number of steps is linear. -/
theorem shift_iterate_xor
    (generator first second : BitVec width)
    (count : Nat) :
    (shift generator)^[count] (first ^^^ second) =
      (shift generator)^[count] first ^^^
        (shift generator)^[count] second := by
  induction count generalizing first second with
  | zero =>
      rfl
  | succ count inductionHypothesis =>
      simp only [Function.iterate_succ_apply, shift_xor,
        inductionHypothesis]

/-- A register that is clear at the top only moves. -/
theorem shift_iterate_of_clear
    (generator : BitVec width)
    {register : BitVec width}
    {count : Nat}
    (clear :
      ∀ index,
        index < count →
        register.getMsbD index = false) :
    (shift generator)^[count] register = register <<< count := by
  induction count with
  | zero =>
      simp
  | succ count inductionHypothesis =>
      have top : (register <<< count).msb = false := by
        rw [BitVec.msb_eq_getMsbD_zero, BitVec.getMsbD_shiftLeft]
        exact clear _ (by omega)
      rw [Function.iterate_succ_apply',
        inductionHypothesis
          (fun index below => clear index (by omega))]
      simp only [shift, top, Bool.false_eq_true, ↓reduceIte]
      rw [← BitVec.shiftLeft_add]

/-- One message bit is fed by adding it, and the bits behind it, at the top. -/
theorem shift_xor_place
    (generator register : BitVec width)
    {bit : Bool}
    {rest : List Bool}
    (fits : rest.length < width) :
    shift generator (register ^^^ place (bit :: rest)) =
      feed generator register bit ^^^ place rest := by
  have top : (place (bit :: rest) : BitVec width).msb = bit := by
    rw [BitVec.msb_eq_getMsbD_zero, getMsbD_place fits]
    rfl
  have moved :
      (place (bit :: rest) : BitVec width) <<< 1 = place rest := by
    apply BitVec.eq_of_getMsbD_eq
    intro index _
    rw [BitVec.getMsbD_shiftLeft, getMsbD_place fits,
      getMsbD_place (Nat.le_of_lt fits)]
    rfl
  unfold shift feed
  rw [BitVec.msb_xor, top, BitVec.shiftLeft_xor_distrib, moved]
  split
  · ac_rfl
  · rfl

/-- A message that fits the register can be added first and shifted after. -/
theorem feedAll_eq_shift_iterate
    (generator register : BitVec width)
    {message : List Bool}
    (fits : message.length ≤ width) :
    feedAll generator register message =
      (shift generator)^[message.length] (register ^^^ place message) := by
  induction message generalizing register with
  | nil =>
      simp [feedAll, place]
  | cons bit rest inductionHypothesis =>
      simp only [List.length_cons] at fits ⊢
      rw [Function.iterate_succ_apply, shift_xor_place generator _ fits,
        ← inductionHypothesis _ (by omega)]
      rfl

/-- A generator with its lowest bit set keeps apart from zero. -/
theorem eq_zero_of_shift
    {generator register : BitVec width}
    (odd : generator.getLsbD 0 = true)
    (zero : shift generator register = BitVec.ofNat width 0) :
    register = BitVec.ofNat width 0 := by
  unfold shift at zero
  cases top : register.msb with
  | true =>
      simp only [top, ↓reduceIte] at zero
      have lowest := congrArg (fun word => word.getLsbD 0) zero
      simp [odd] at lowest
  | false =>
      simp only [top, Bool.false_eq_true, ↓reduceIte] at zero
      apply BitVec.eq_of_getMsbD_eq
      intro index _
      rw [BitVec.getMsbD_zero]
      cases index with
      | zero =>
          rw [← BitVec.msb_eq_getMsbD_zero]
          exact top
      | succ index =>
          have moved := congrArg (fun word => word.getMsbD index) zero
          simpa [BitVec.getMsbD_shiftLeft] using moved

/-- With an odd generator the step loses nothing. -/
theorem shift_injective
    {generator : BitVec width}
    (odd : generator.getLsbD 0 = true) :
    Function.Injective (shift generator) := by
  intro first second same
  have zero : shift generator (first ^^^ second) = BitVec.ofNat width 0 := by
    rw [shift_xor, same, BitVec.xor_self]
  exact BitVec.xor_eq_zero_iff.mp (eq_zero_of_shift odd zero)

/-- Different registers stay different while the same message is fed. -/
theorem feedAll_injective
    {generator : BitVec width}
    (odd : generator.getLsbD 0 = true)
    (message : List Bool) :
    Function.Injective
      (fun register => feedAll generator register message) := by
  have wide :
      ∀ bit : Bool,
        [bit].length ≤ width := by
    intro bit
    apply Nat.succ_le_of_lt
    apply Nat.pos_of_ne_zero
    rintro rfl
    rw [BitVec.getLsbD_of_ge generator 0 (Nat.le_refl 0)] at odd
    cases odd
  induction message with
  | nil =>
      exact Function.injective_id
  | cons bit rest inductionHypothesis =>
      intro first second same
      have afterBit :
          feedAll generator first [bit] = feedAll generator second [bit] :=
        inductionHypothesis same
      rw [feedAll_eq_shift_iterate generator first (wide bit),
        feedAll_eq_shift_iterate generator second (wide bit)] at afterBit
      exact (BitVec.xor_left_inj _).mp (shift_injective odd afterBit)

/-- Messages of one length that fit the register are told apart by it. -/
theorem place_injective
    {first second : List Bool}
    (sameLength : first.length = second.length)
    (fits : first.length ≤ width)
    (same : (place first : BitVec width) = place second) :
    first = second := by
  apply List.ext_getElem sameLength
  intro index inFirst inSecond
  have sameBit :=
    congrArg (fun word : BitVec width => word.getMsbD index) same
  simp only [getMsbD_place fits, getMsbD_place (sameLength ▸ fits)] at sameBit
  simpa [List.getD, inFirst, inSecond] using sameBit

/-- Different messages that fit the register leave different registers. -/
theorem eq_of_feedAll_eq
    {generator register : BitVec width}
    (odd : generator.getLsbD 0 = true)
    {first second : List Bool}
    (sameLength : first.length = second.length)
    (fits : first.length ≤ width)
    (same :
      feedAll generator register first =
        feedAll generator register second) :
    first = second := by
  rw [feedAll_eq_shift_iterate generator register fits,
    feedAll_eq_shift_iterate generator register (sameLength ▸ fits),
    ← sameLength] at same
  have added := (shift_injective odd).iterate first.length same
  exact place_injective sameLength fits ((BitVec.xor_right_inj register).mp added)

/--
Messages of one length that differ only within as many consecutive bits as the
register has leave different registers.
-/
theorem feedAll_ne_of_burst
    {generator register : BitVec width}
    (odd : generator.getLsbD 0 = true)
    {first second : List Bool}
    (sameLength : first.length = second.length)
    (differ : first ≠ second)
    (start : Nat)
    (burst :
      ∀ index,
        first.getD index false ≠ second.getD index false →
        start ≤ index ∧ index < start + width) :
    feedAll generator register first ≠
      feedAll generator register second := by
  have agree :
      ∀ index,
        index < start ∨ start + width ≤ index →
        first[index]? = second[index]? := by
    intro index outside
    by_cases inside : index < first.length
    · have insideSecond : index < second.length := sameLength ▸ inside
      have same : first.getD index false = second.getD index false := by
        by_contra different
        have within := burst index different
        omega
      simpa [List.getD, inside, insideSecond] using same
    · rw [List.getElem?_eq_none (by omega),
        List.getElem?_eq_none (by omega)]
  have before : first.take start = second.take start := by
    apply List.ext_getElem?
    intro index
    rw [List.getElem?_take, List.getElem?_take]
    split
    · next below =>
        exact agree index (.inl below)
    · rfl
  have behind :
      (first.drop start).drop width = (second.drop start).drop width := by
    apply List.ext_getElem?
    intro index
    rw [List.drop_drop, List.drop_drop, List.getElem?_drop,
      List.getElem?_drop]
    exact agree (start + width + index) (.inr (by omega))
  intro same
  rw [← List.take_append_drop start first,
    ← List.take_append_drop start second,
    ← List.take_append_drop width (first.drop start),
    ← List.take_append_drop width (second.drop start),
    before, behind] at same
  simp only [feedAll_append] at same
  have window := eq_of_feedAll_eq odd (by simp [sameLength])
    (List.length_take_le width (first.drop start))
    (feedAll_injective odd _ same)
  apply differ
  rw [← List.take_append_drop start first,
    ← List.take_append_drop start second,
    ← List.take_append_drop width (first.drop start),
    ← List.take_append_drop width (second.drop start),
    before, behind, window]

/-- The part of the register that does not reach the top. -/
theorem getMsbD_low
    (register : BitVec width)
    (size index : Nat) :
    ((register <<< size) >>> size).getMsbD index =
      (decide (index < width) &&
        (!decide (index < size) && register.getMsbD index)) := by
  rw [BitVec.getMsbD_ushiftRight, BitVec.getMsbD_shiftLeft]
  by_cases below : index < size
  · simp [below]
  · rw [Nat.sub_add_cancel (Nat.le_of_not_lt below)]

/-- The top of the register against a word, back at the top. -/
theorem getMsbD_top
    {size : Nat}
    (register : BitVec width)
    (word : BitVec size)
    (fits : size ≤ width)
    (index : Nat) :
    (((register >>> (width - size)) ^^^ word.setWidth width) <<<
        (width - size)).getMsbD index =
      (decide (index < size) &&
        (register.getMsbD index ^^ word.getMsbD index)) := by
  have back :
      index + (width - size) + size - width = index := by
    omega
  rw [BitVec.getMsbD_shiftLeft, BitVec.getMsbD_xor,
    BitVec.getMsbD_ushiftRight, BitVec.getMsbD_setWidth, back,
    Nat.add_sub_cancel]
  by_cases below : index < size
  · have inside : index + (width - size) < width := by
      omega
    simp [below, inside]
  · have outside : ¬ index + (width - size) < width := by
      omega
    simp [below, outside, BitVec.getMsbD_of_ge word index (by omega)]

/--
A word is fed by one lookup: the top of the register and the word together
select the effect of the shifts, and the rest of the register moves.
-/
theorem feedAll_bits
    {size : Nat}
    (generator register : BitVec width)
    (word : BitVec size)
    (fits : size ≤ width) :
    feedAll generator register (bits word) =
      (register <<< size) ^^^
        (shift generator)^[size]
          (((register >>> (width - size)) ^^^ word.setWidth width) <<<
            (width - size)) := by
  have clear :
      ∀ index,
        index < size →
        ((register <<< size) >>> size).getMsbD index = false := by
    intro index below
    rw [getMsbD_low]
    simp [below]
  have parts :
      register ^^^ place (bits word) =
        ((register <<< size) >>> size) ^^^
          (((register >>> (width - size)) ^^^ word.setWidth width) <<<
            (width - size)) := by
    apply BitVec.eq_of_getMsbD_eq
    intro index inside
    rw [BitVec.getMsbD_xor, BitVec.getMsbD_xor, getMsbD_low,
      getMsbD_top _ _ fits, getMsbD_place (by simpa using fits),
      getD_bits]
    by_cases below : index < size
    · simp [below]
    · simp [below, inside, BitVec.getMsbD_of_ge word index (by omega)]
  have moved :
      ((register <<< size) >>> size) <<< size = register <<< size := by
    apply BitVec.eq_of_getMsbD_eq
    intro index _
    rw [BitVec.getMsbD_shiftLeft, BitVec.getMsbD_shiftLeft, getMsbD_low]
    by_cases inside : index + size < width
    · simp [inside]
    · simp [inside,
        BitVec.getMsbD_of_ge register (index + size) (by omega)]
  rw [feedAll_eq_shift_iterate _ _ (by simpa using fits), length_bits,
    parts, shift_iterate_xor, shift_iterate_of_clear _ clear, moved]

end WkcRuntime.ShiftRegister
