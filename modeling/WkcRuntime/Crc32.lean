import WkcRuntime.Crc32Source
import WkcRuntime.ShiftRegister

namespace WkcRuntime.Crc32

open ShiftRegister

/-!
# The checksum and its shift register

The checksum of a message is a register of 32 bits, started with ones only and
fed with the bits of the message, the most significant bit of each byte first.
An entry of the table is the effect of eight shifts on one byte at the top of
the register, so one round of the loop feeds one byte.  The table is the same
after every sequence of calls that has filled it.
-/

/-- `POLYNOMIAL` as a register. -/
def generator : BitVec 32 :=
  0x04c11db7#32

/-- The bits of a message in the order in which they are fed. -/
def messageBits (message : List UInt8) : List Bool :=
  message.flatMap fun byte => bits byte.toBitVec

/-- The register after the whole message. -/
def register (message : List UInt8) : BitVec 32 :=
  feedAll generator 0xffffffff#32 (messageBits message)

/-- The register after the digits from 1 to 9 in ASCII. -/
example :
    register [0x31, 0x32, 0x33, 0x34, 0x35, 0x36, 0x37, 0x38, 0x39] =
      0x0376e6e7#32 := by
  decide +kernel

/-- The test of the inner loop looks at the bit that leaves the register. -/
theorem and_top_ne_zero_iff (crcAccum : UInt32) :
    crcAccum &&& 0x80000000 ≠ 0 ↔ crcAccum.toBitVec.msb = true := by
  have top :
      (crcAccum &&& 0x80000000).toBitVec =
        if crcAccum.toBitVec.getLsbD 31 then BitVec.twoPow 32 31
        else 0#32 :=
    BitVec.and_twoPow crcAccum.toBitVec 31
  rw [BitVec.msb_eq_getLsbD_last, ne_eq, ← UInt32.toBitVec_inj, top]
  cases crcAccum.toBitVec.getLsbD 31
  · simp
  · simp

/-- One round of the inner loop is one shift. -/
theorem toBitVec_accumulate (crcAccum : UInt32) :
    (accumulate crcAccum).toBitVec = shift generator crcAccum.toBitVec := by
  unfold accumulate shift
  by_cases top : crcAccum.toBitVec.msb = true
  · rw [if_pos ((and_top_ne_zero_iff crcAccum).mpr top), if_pos top]
    rfl
  · rw [if_neg (mt (and_top_ne_zero_iff crcAccum).mp top), if_neg top]
    rfl

/-- Any number of rounds is as many shifts. -/
theorem toBitVec_accumulate_iterate
    (crcAccum : UInt32)
    (count : Nat) :
    (accumulate^[count] crcAccum).toBitVec =
      (shift generator)^[count] crcAccum.toBitVec := by
  induction count generalizing crcAccum with
  | zero =>
      rfl
  | succ count inductionHypothesis =>
      rw [Function.iterate_succ_apply, Function.iterate_succ_apply,
        inductionHypothesis, toBitVec_accumulate]

/-- The outer loop stores the entries of its indices and keeps those stored. -/
theorem get_fillFrom
    {indices : List (Fin 256)}
    {mTable : Vector UInt32 256}
    {i : Fin 256}
    (stored : mTable.get i = tableEntry i ∨ i ∈ indices) :
    (fillFrom indices mTable).get i = tableEntry i := by
  induction indices generalizing mTable with
  | nil =>
      exact stored.resolve_right (List.not_mem_nil)
  | cons first rest inductionHypothesis =>
      change
        (fillFrom rest (mTable.set first (tableEntry first))).get i =
          tableEntry i
      apply inductionHypothesis
      by_cases isFirst : i = first
      · subst first
        left
        exact Vector.getElem_set_self i.isLt
      · have kept :
            (mTable.set first (tableEntry first)).get i = mTable.get i :=
          Vector.getElem_set_ne first.isLt i.isLt
            (fun same => isFirst (Fin.ext same.symm))
        rw [kept]
        exact stored.imp_right
          (fun member => (List.mem_cons.mp member).resolve_left isFirst)

/-- The variables hold the table, or the next call fills it. -/
def Statics.Ready (statics : Statics) : Prop :=
  statics.isFirst ≠ 0 ∨
    ∀ i : Fin 256, statics.mTable.get i = tableEntry i

/-- The prologue leaves the table behind. -/
theorem Statics.Ready.prepare
    {statics : Statics}
    (ready : statics.Ready)
    (i : Fin 256) :
    statics.prepare.mTable.get i = tableEntry i := by
  unfold Statics.prepare
  by_cases isFirst : statics.isFirst ≠ 0
  · rw [if_pos isFirst]
    dsimp only
    exact get_fillFrom (Or.inr (List.mem_finRange i))
  · rw [if_neg isFirst]
    exact ready.resolve_left isFirst i

/-- Every sequence of calls keeps the table. -/
theorem ready_of_reachable
    {statics : Statics}
    (reachable : machine.Reachable statics) :
    statics.Ready := by
  apply reachable.invariant
  · rintro start rfl
    exact Or.inl (by decide)
  · intro before after call ready _ stepped
    simp only [machine, crc32, Option.map_map, Option.map_eq_some_iff,
      Function.comp_apply] at stepped
    obtain ⟨_, _, rfl⟩ := stepped
    exact Or.inr ready.prepare

/-- The top byte of the register against a byte is a byte. -/
theorem toNat_lookup_lt
    (crc : UInt32)
    (byte : UInt8) :
    ((crc >>> 24) ^^^ byte.toUInt32).toNat < 256 := by
  have top : (crc >>> 24).toNat < 256 := by
    have bound := crc.toNat_lt
    rw [UInt32.toNat_shiftRight]
    change crc.toNat >>> 24 < 256
    rw [Nat.shiftRight_eq_div_pow]
    omega
  have low : byte.toUInt32.toNat < 256 := by
    rw [UInt8.toNat_toUInt32]
    exact byte.toNat_lt
  rw [UInt32.toNat_xor]
  exact @Nat.xor_lt_two_pow _ _ 8 top low

/-- The mask changes nothing. -/
theorem ofNat_tableIndex
    (crc : UInt32)
    (byte : UInt8) :
    UInt32.ofNat (tableIndex crc byte) =
      (crc >>> 24) ^^^ byte.toUInt32 := by
  have masked :
      (tableIndex crc byte : Nat) =
        ((crc >>> 24) ^^^ byte.toUInt32).toNat :=
    (UInt32.toNat_and ..).trans
      (@Nat.and_two_pow_sub_one_of_lt_two_pow 8 _
        (toNat_lookup_lt crc byte))
  rw [masked, UInt32.ofNat_toNat]

/-- One round of the loop over the buffer feeds one byte. -/
theorem toBitVec_update
    {mTable : Vector UInt32 256}
    (filled : ∀ i : Fin 256, mTable.get i = tableEntry i)
    (crc : UInt32)
    (byte : UInt8) :
    (update mTable crc byte).toBitVec =
      feedAll generator crc.toBitVec (bits byte.toBitVec) := by
  have entry :
      (tableEntry (tableIndex crc byte)).toBitVec =
        (shift generator)^[8]
          (((crc.toBitVec >>> 24) ^^^ byte.toBitVec.setWidth 32) <<<
            24) := by
    rw [tableEntry, toBitVec_accumulate_iterate, ofNat_tableIndex]
    rfl
  rw [feedAll_bits generator crc.toBitVec byte.toBitVec (by decide),
    update, filled, UInt32.toBitVec_xor, entry]
  rfl

/-- The loop feeds the bytes that its length argument tells it to. -/
theorem crcLoop_eq
    {mTable : Vector UInt32 256}
    (filled : ∀ i : Fin 256, mTable.get i = tableEntry i)
    {buf : List UInt8}
    {len : Int32}
    (nonneg : 0 ≤ len.toInt)
    (within : len.toInt ≤ buf.length)
    (crc : UInt32) :
    ∃ result,
      crcLoop mTable buf len crc = some result ∧
        result.toBitVec =
          feedAll generator crc.toBitVec
            (messageBits (buf.take len.toInt.toNat)) := by
  induction buf generalizing len crc with
  | nil =>
      have zero : len.toInt = 0 := by
        simp only [List.length_nil] at within
        omega
      refine ⟨crc, ?_, ?_⟩
      · simp [crcLoop, ← Int32.toInt_inj, zero]
      · simp [messageBits, feedAll]
  | cons byte rest inductionHypothesis =>
      by_cases zero : len = 0
      · subst len
        exact ⟨crc, by simp [crcLoop], by simp [messageBits, feedAll]⟩
      · have positive : 0 < len.toInt := by
          have notZero : len.toInt ≠ 0 := fun same =>
            zero (Int32.toInt_inj.mp same)
          omega
        have upper := Int32.toInt_lt len
        have fewer : (len - 1).toInt = len.toInt - 1 := by
          rw [Int32.toInt_sub, Int32.toInt_one]
          apply Int.bmod_eq_of_le <;> omega
        simp only [List.length_cons] at within
        obtain ⟨result, ran, fed⟩ :=
          @inductionHypothesis (len - 1) (by omega) (by omega)
            (update mTable crc byte)
        refine ⟨result, ?_, ?_⟩
        · simpa [crcLoop, zero] using ran
        · have taken :
              len.toInt.toNat = (len - 1).toInt.toNat + 1 := by
            omega
          rw [fed, toBitVec_update filled, taken, List.take_succ_cons,
            messageBits, messageBits, List.flatMap_cons, feedAll_append]

/--
With whatever earlier calls left in the static variables, `crc32` of a buffer
that holds `len` bytes is the register after these bytes.
-/
theorem crc32_eq_register
    {statics : Statics}
    (reachable : machine.Reachable statics)
    {buf : List UInt8}
    {len : Int32}
    (nonneg : 0 ≤ len.toInt)
    (within : len.toInt ≤ buf.length) :
    ∃ result next,
      crc32 statics buf len = some (result, next) ∧
        result.toBitVec = register (buf.take len.toInt.toNat) := by
  obtain ⟨result, ran, fed⟩ :=
    crcLoop_eq (ready_of_reachable reachable).prepare nonneg within
      0xffffffff
  refine ⟨result, statics.prepare, ?_, fed⟩
  rw [crc32, ran]
  rfl

/-- The second call on one buffer, with the table that the first one built. -/
theorem crc32_eq_register_again :
    ∃ statics result next,
      machine.step? .initial ⟨[0x31, 0x32, 0x33], 3⟩ = some statics ∧
        crc32 statics [0x31, 0x32, 0x33] 2 = some (result, next) ∧
        result.toBitVec = register [0x31, 0x32] := by
  have start : machine.Reachable Statics.initial :=
    .initial rfl
  obtain ⟨first, statics, called, _⟩ :=
    @crc32_eq_register _ start [0x31, 0x32, 0x33] 3
      (by decide) (by decide)
  have stepped :
      machine.step? .initial ⟨[0x31, 0x32, 0x33], 3⟩ = some statics := by
    simp only [machine, called]
    rfl
  obtain ⟨result, next, again, fed⟩ :=
    @crc32_eq_register _ (start.step trivial stepped)
      [0x31, 0x32, 0x33] 2 (by decide) (by decide)
  exact ⟨statics, result, next, stepped, again, fed⟩

@[simp] theorem length_messageBits (message : List UInt8) :
    (messageBits message).length = 8 * message.length := by
  induction message with
  | nil =>
      rfl
  | cons byte rest inductionHypothesis =>
      have split :
          messageBits (byte :: rest) =
            bits byte.toBitVec ++ messageBits rest :=
        List.flatMap_cons
      rw [split, List.length_append, length_bits, inductionHypothesis,
        List.length_cons]
      omega

/-- A message is known from its bits. -/
theorem messageBits_injective
    {first second : List UInt8}
    (sameLength : first.length = second.length)
    (same : messageBits first = messageBits second) :
    first = second := by
  induction first generalizing second with
  | nil =>
      exact (List.eq_nil_of_length_eq_zero sameLength.symm).symm
  | cons byte rest inductionHypothesis =>
      cases second with
      | nil =>
          cases sameLength
      | cons otherByte otherRest =>
          have split :
              bits byte.toBitVec ++ messageBits rest =
                bits otherByte.toBitVec ++ messageBits otherRest :=
            same
          obtain ⟨sameBits, restBits⟩ :=
            List.append_inj split (by rw [length_bits, length_bits])
          have sameByte : byte = otherByte := by
            apply UInt8.toBitVec_inj.mp
            apply BitVec.eq_of_getMsbD_eq
            intro index _
            rw [← getD_bits, ← getD_bits, sameBits]
          have sameRest : rest = otherRest :=
            inductionHypothesis (Nat.succ.inj sameLength) restBits
          rw [sameByte, sameRest]

/-- Messages that differ only within 32 consecutive bits are told apart. -/
theorem register_ne_of_burst
    {first second : List UInt8}
    (sameLength : first.length = second.length)
    (differ : first ≠ second)
    (start : Nat)
    (burst :
      ∀ index,
        (messageBits first).getD index false ≠
          (messageBits second).getD index false →
        start ≤ index ∧ index < start + 32) :
    register first ≠ register second := by
  apply feedAll_ne_of_burst (by decide) _ _ start burst
  · rw [length_messageBits, length_messageBits, sameLength]
  · exact mt (messageBits_injective sameLength) differ

/--
Two buffers of one length that differ, and only within 32 consecutive bits, have
different checksums, whatever earlier calls left in the static variables.
-/
theorem crc32_detects_burst
    {statics otherStatics : Statics}
    (reachable : machine.Reachable statics)
    (otherReachable : machine.Reachable otherStatics)
    {first second : List UInt8}
    {len : Int32}
    (firstLength : (first.length : Int) = len.toInt)
    (secondLength : (second.length : Int) = len.toInt)
    (differ : first ≠ second)
    (start : Nat)
    (burst :
      ∀ index,
        (messageBits first).getD index false ≠
          (messageBits second).getD index false →
        start ≤ index ∧ index < start + 32) :
    ∃ firstResult firstNext secondResult secondNext,
      crc32 statics first len = some (firstResult, firstNext) ∧
        crc32 otherStatics second len =
          some (secondResult, secondNext) ∧
        firstResult ≠ secondResult := by
  have whole :
      ∀ buf : List UInt8,
        (buf.length : Int) = len.toInt →
        buf.take len.toInt.toNat = buf := by
    intro buf length
    apply List.take_of_length_le
    omega
  obtain ⟨firstResult, firstNext, firstRan, firstFed⟩ :=
    @crc32_eq_register _ reachable first len (by omega) (by omega)
  obtain ⟨secondResult, secondNext, secondRan, secondFed⟩ :=
    @crc32_eq_register _ otherReachable second len (by omega) (by omega)
  refine ⟨firstResult, firstNext, secondResult, secondNext, firstRan,
    secondRan, ?_⟩
  intro same
  rw [whole first firstLength] at firstFed
  rw [whole second secondLength] at secondFed
  apply register_ne_of_burst (by omega) differ start burst
  rw [← firstFed, ← secondFed, same]

/-- A burst of three bits across the border of two bytes. -/
theorem crc32_detects_burst_across :
    ∃ firstResult firstNext secondResult secondNext,
      crc32 .initial [0x31, 0x32, 0x33] 3 =
          some (firstResult, firstNext) ∧
        crc32 .initial [0x31, 0x31, 0xb3] 3 =
          some (secondResult, secondNext) ∧
        firstResult ≠ secondResult := by
  have start : machine.Reachable Statics.initial :=
    .initial rfl
  apply crc32_detects_burst start start (by decide) (by decide) (by decide) 14
  intro index differ
  by_cases inside : index < 24
  · revert differ
    revert index
    decide
  · have past :
        ∀ message : List UInt8,
          message.length = 3 →
          (messageBits message).getD index false = false := by
      intro message length
      rw [List.getD_eq_getElem?_getD, List.getElem?_eq_none]
      · rfl
      · rw [length_messageBits]
        omega
    rw [past _ rfl, past _ rfl] at differ
    exact absurd rfl differ

end WkcRuntime.Crc32
