import WkcRuntime.BlockStream
import WkcRuntime.LittleEndian
import WkcRuntime.Md5Rounds
import Mathlib.Data.List.GetD

namespace WkcRuntime.Md5

open BlockStream LittleEndian

/-!
# The digest of a message handed over in pieces

`digestOf` is the digest of a whole message: the padded message is taken block
by block.  A context that has absorbed a message knows its state after the
complete blocks, its length in bits and the bytes behind the last block; every
call of `MD5::update` that ends keeps this for the longer message.
-/

/-- A word of a block. -/
def wordAt
    (block : List UInt8)
    (index : Nat) :
    UInt32 :=
  UInt32.ofNat (fromBytes ((block.drop (4 * index)).take 4))

/-- The compression function on a block of bytes. -/
def compressBlock
    (state : State)
    (block : List UInt8) :
    State :=
  compress (wordAt block) state

/-- The state before the first block. -/
def initialState : State where
  a := 0x67452301
  b := 0xefcdab89
  c := 0x98badcfe
  d := 0x10325476

/-- A one bit, zeros up to eight bytes before the end of a block. -/
def paddingFor (length : Nat) : List UInt8 :=
  0x80 :: List.replicate ((119 - length % 64) % 64) 0

/-- The message, the padding and the length in bits. -/
def padded (message : List UInt8) : List UInt8 :=
  message ++ paddingFor message.length ++ toBytes 8 (8 * message.length)

/-- The bytes of the four words. -/
def stateBytes (state : State) : List UInt8 :=
  state.words.flatMap fun (word : UInt32) => toBytes 4 word.toNat

/-- The digest of a message. -/
def digestOf (message : List UInt8) : List UInt8 :=
  stateBytes (consume compressBlock 64 initialState (padded message))

section Copying

/-- A `memcpy` within bounds replaces a piece of the array. -/
theorem memcpy_eq
    {size : Nat}
    (output : Vector UInt8 size)
    {target start len : Nat}
    {input : List UInt8}
    (room : target + len ≤ size)
    (available : start + len ≤ input.length) :
    ∃ copied,
      memcpy output target input start len = some copied ∧
        copied.toList =
          output.toList.take target ++ (input.drop start).take len ++
            output.toList.drop (target + len) := by
  induction len with
  | zero =>
      exact ⟨output, rfl, by simp⟩
  | succ len inductionHypothesis =>
      obtain ⟨copied, copiedEq, content⟩ :=
        inductionHypothesis (by omega) (by omega)
      have byteEq : input[start + len]? = some input[start + len] :=
        List.getElem?_eq_getElem (by omega)
      refine ⟨copied.set (target + len) input[start + len] (by omega), ?_, ?_⟩
      · simp only [memcpy, copiedEq, byteEq, bind, Option.bind]
        rw [dif_pos (by omega)]
      · have front :
            (output.toList.take target ++
              (input.drop start).take len).length = target + len := by
          simp only [List.length_append, List.length_take,
            List.length_drop, Vector.length_toList]
          omega
        have inside : target + len < output.toList.length := by
          rw [Vector.length_toList]
          omega
        have rest :
            output.toList.drop (target + len) =
              output.toList[target + len] ::
                output.toList.drop (target + len + 1) :=
          List.drop_eq_getElem_cons inside
        have taken :
            (input.drop start).take (len + 1) =
              (input.drop start).take len ++ [input[start + len]] := by
          rw [List.take_add_one, List.getElem?_drop, byteEq]
          rfl
        rw [Vector.toList_set, content, List.set_append_right _ _ front.le,
          front, Nat.sub_self, rest, List.set_cons_zero, taken]
        simp only [List.append_assoc, List.singleton_append,
          Nat.add_assoc]

end Copying

section Words

/-- A word joined with a higher byte. -/
theorem toNat_or_shiftLeft
    {low high shift : UInt32}
    (inside : low.toNat < 2 ^ shift.toNat)
    (fits : high.toNat * 2 ^ shift.toNat < 2 ^ 32)
    (small : shift.toNat < 32) :
    (low ||| (high <<< shift)).toNat =
      low.toNat + high.toNat * 2 ^ shift.toNat := by
  rw [UInt32.toNat_or, UInt32.toNat_shiftLeft, Nat.mod_eq_of_lt small,
    Nat.shiftLeft_eq, Nat.mod_eq_of_lt fits, Nat.or_comm,
    ← Nat.shiftLeft_eq, ← Nat.shiftLeft_add_eq_or_of_lt inside,
    Nat.add_comm]

/-- Four bytes joined by shifts. -/
theorem join_bytes
    (byte0 byte1 byte2 byte3 : UInt8) :
    byte0.toUInt32 ||| (byte1.toUInt32 <<< 8) |||
        (byte2.toUInt32 <<< 16) ||| (byte3.toUInt32 <<< 24) =
      UInt32.ofNat (fromBytes [byte0, byte1, byte2, byte3]) := by
  have small0 := byte0.toNat_lt
  have small1 := byte1.toNat_lt
  have small2 := byte2.toNat_lt
  have small3 := byte3.toNat_lt
  have shift8 : (8 : UInt32).toNat = 8 := rfl
  have shift16 : (16 : UInt32).toNat = 16 := rfl
  have shift24 : (24 : UInt32).toNat = 24 := rfl
  have join1 :
      (byte0.toUInt32 ||| (byte1.toUInt32 <<< 8)).toNat =
        byte0.toNat + byte1.toNat * 2 ^ 8 :=
    toNat_or_shiftLeft (by simpa [shift8] using small0)
      (by rw [shift8, UInt8.toNat_toUInt32]; omega) (by decide)
  have join2 :
      (byte0.toUInt32 ||| (byte1.toUInt32 <<< 8) |||
          (byte2.toUInt32 <<< 16)).toNat =
        byte0.toNat + byte1.toNat * 2 ^ 8 + byte2.toNat * 2 ^ 16 := by
    rw [toNat_or_shiftLeft (by rw [join1, shift16]; omega)
      (by rw [shift16, UInt8.toNat_toUInt32]; omega) (by decide), join1]
    rfl
  apply UInt32.toNat_inj.mp
  rw [toNat_or_shiftLeft (by rw [join2, shift24]; omega)
    (by rw [shift24, UInt8.toNat_toUInt32]; omega) (by decide), join2,
    UInt32.toNat_ofNat', UInt8.toNat_toUInt32, shift24]
  simp only [fromBytes]
  omega

/-- A byte cut out of a word. -/
theorem cut_byte
    (word shift : UInt32)
    (small : shift.toNat < 32) :
    ((word >>> shift) &&& 0xff).toUInt8 =
      UInt8.ofNat (word.toNat / 2 ^ shift.toNat) := by
  apply UInt8.toNat_inj.mp
  have mask : (0xff : UInt32).toNat = 2 ^ 8 - 1 := rfl
  rw [UInt32.toNat_toUInt8, UInt32.toNat_and, mask,
    Nat.and_two_pow_sub_one_eq_mod, UInt32.toNat_shiftRight,
    Nat.mod_eq_of_lt small, Nat.shiftRight_eq_div_pow,
    UInt8.toNat_ofNat', Nat.mod_mod]

/-- `MD5::encode` gives the bytes of the words. -/
theorem encode_eq (words : List UInt32) :
    encode words =
      words.flatMap fun (word : UInt32) => toBytes 4 word.toNat := by
  have each (word : UInt32) :
      [(word &&& 0xff).toUInt8,
          ((word >>> 8) &&& 0xff).toUInt8,
          ((word >>> 16) &&& 0xff).toUInt8,
          ((word >>> 24) &&& 0xff).toUInt8] =
        toBytes 4 word.toNat := by
    have first := cut_byte word 0 (by decide)
    rw [show word >>> 0 = word by simp] at first
    rw [first, cut_byte word 8 (by decide), cut_byte word 16 (by decide),
      cut_byte word 24 (by decide)]
    simp [toBytes, Nat.div_div_eq_div_mul]
  simp only [encode, each]

/-- `MD5::decode` gives the words of the bytes. -/
theorem decode_eq
    {input : List UInt8}
    {start count : Nat}
    (available : start + 4 * count ≤ input.length) :
    decode input start count =
      some ((List.range count).map (wordAt (input.drop start))) := by
  induction count generalizing start with
  | zero =>
      rfl
  | succ count inductionHypothesis =>
      have bytes :
          (input.drop start).take 4 =
            [input[start], input[start + 1], input[start + 2],
              input[start + 3]] := by
        rw [List.drop_eq_getElem_cons (by omega : start < input.length),
          List.drop_eq_getElem_cons (by omega : start + 1 < input.length),
          List.drop_eq_getElem_cons (by omega : start + 2 < input.length),
          List.drop_eq_getElem_cons (by omega : start + 3 < input.length)]
        rfl
      have later :
          wordAt (input.drop (start + 4)) =
            wordAt (input.drop start) ∘ Nat.succ := by
        funext index
        simp only [wordAt, Function.comp_apply, List.drop_drop]
        congr 4
        omega
      rw [decode, inductionHypothesis (by omega), List.range_succ_eq_map,
        List.map_cons, List.map_map, ← later,
        List.getElem?_eq_getElem (by omega : start < input.length),
        List.getElem?_eq_getElem (by omega : start + 1 < input.length),
        List.getElem?_eq_getElem (by omega : start + 2 < input.length),
        List.getElem?_eq_getElem (by omega : start + 3 < input.length)]
      simp only [bind, Option.bind, join_bytes, ← bytes]
      rfl

/-- `MD5::transform` compresses the block it points to. -/
theorem transform_eq
    {state : State}
    {input : List UInt8}
    {start : Nat}
    (available : start + 64 ≤ input.length) :
    transform state input start =
      some (compressBlock state ((input.drop start).take 64)) := by
  have words :
      (fun index =>
          ((List.range 16).map (wordAt (input.drop start))).getD index 0) =
        wordAt ((input.drop start).take 64) := by
    funext index
    by_cases inside : index < 16
    · have cut :
          (((input.drop start).take 64).drop (4 * index)).take 4 =
            ((input.drop start).drop (4 * index)).take 4 := by
        rw [List.drop_take, List.take_take, min_eq_left (by omega)]
      rw [List.getD_eq_getElem _ _ (by simpa using inside), wordAt, cut]
      simp [wordAt]
    · have behind :
          ((input.drop start).take 64).drop (4 * index) = [] :=
        List.drop_eq_nil_of_le (by rw [List.length_take]; omega)
      rw [List.getD_eq_default _ _ (by simpa using inside), wordAt, behind]
      rfl
  rw [transform_eq_schedules,
    decode_eq (by omega : start + 4 * 16 ≤ input.length),
    Option.map_some, words, compressBlock]

end Words

section Update

/-- What a context knows of the message that it has absorbed. -/
structure Absorbed
    (ctx : MD5)
    (message : List UInt8) :
    Prop where
  running :
    ctx.finalized = false
  state :
    ctx.state = consume compressBlock 64 initialState message
  counted :
    ctx.count0.toNat + 2 ^ 32 * ctx.count1.toNat =
      8 * message.length % 2 ^ 64
  buffered :
    ctx.buffer.toList.take (message.length % 64) = remainder 64 message

/-- A fresh context has absorbed the empty message. -/
theorem absorbed_init (storage : MD5) : Absorbed (init storage) [] where
  running := rfl
  state := rfl
  counted := rfl
  buffered := rfl

variable {ctx : MD5}
variable {message : List UInt8}

/-- The number of bytes in the buffer, from the bit count. -/
theorem Absorbed.bufferIndex
    (absorbed : Absorbed ctx message) :
    ((ctx.count0 >>> 3) &&& 0x3f).toNat = message.length % 64 := by
  have counted := absorbed.counted
  have mask : (0x3f : UInt32).toNat = 2 ^ 6 - 1 := rfl
  have shift : (3 : UInt32).toNat % 32 = 3 := rfl
  have small := ctx.count0.toNat_lt
  rw [UInt32.toNat_and, mask, Nat.and_two_pow_sub_one_eq_mod,
    UInt32.toNat_shiftRight, shift, Nat.shiftRight_eq_div_pow]
  omega

/-- The bit count after an update, carry included. -/
theorem count_add
    (count0 count1 len : UInt32) :
    let low := count0 + (len <<< 3)
    let carried := if low < len <<< 3 then count1 + 1 else count1
    low.toNat + 2 ^ 32 * (carried + (len >>> 29)).toNat =
      (count0.toNat + 2 ^ 32 * count1.toNat + 8 * len.toNat) % 2 ^ 64 := by
  intro low carried
  have shift3 : (len <<< 3).toNat = len.toNat * 2 ^ 3 % 2 ^ 32 := by
    have amount : (3 : UInt32).toNat % 32 = 3 := rfl
    rw [UInt32.toNat_shiftLeft, amount, Nat.shiftLeft_eq]
  have shift29 : (len >>> 29).toNat = len.toNat / 2 ^ 29 := by
    have amount : (29 : UInt32).toNat % 32 = 29 := rfl
    rw [UInt32.toNat_shiftRight, amount, Nat.shiftRight_eq_div_pow]
  have lowEq : low.toNat = (count0.toNat + (len <<< 3).toNat) % 2 ^ 32 :=
    UInt32.toNat_add _ _
  have highEq :
      (carried + (len >>> 29)).toNat =
        (carried.toNat + (len >>> 29).toNat) % 2 ^ 32 :=
    UInt32.toNat_add _ _
  have small0 := count0.toNat_lt
  have small1 := count1.toNat_lt
  have smallLen := len.toNat_lt
  by_cases overflow : low < len <<< 3
  · have less := UInt32.lt_iff_toNat_lt.mp overflow
    have carriedEq : carried.toNat = (count1.toNat + 1) % 2 ^ 32 := by
      rw [show carried = count1 + 1 from if_pos overflow]
      exact UInt32.toNat_add _ _
    omega
  · have notLess := mt UInt32.lt_iff_toNat_lt.mpr overflow
    have carriedEq : carried = count1 := if_neg overflow
    rw [carriedEq] at highEq ⊢
    omega

/-- A sum that does not wrap. -/
theorem toNat_add_of_lt
    {a b : UInt32}
    (fits : a.toNat + b.toNat < 2 ^ 32) :
    (a + b).toNat = a.toNat + b.toNat := by
  rw [UInt32.toNat_add]
  exact Nat.mod_eq_of_lt fits

/-- The loop compresses the complete blocks, unless its index would wrap. -/
theorem transformLoop_eq
    {input : List UInt8}
    {len index : UInt32}
    {count fuel : Nat}
    {state : State}
    (inInput : len.toNat ≤ input.length)
    (inside : index.toNat ≤ len.toNat)
    (distance : (len.toNat - index.toNat) / 64 = count)
    (noWrap : index.toNat + 64 * count + 63 < 2 ^ 32)
    (enough : count < fuel) :
    ∃ final : UInt32,
      transformLoop input len fuel state index =
          some
            (absorb compressBlock 64 count state
              (input.drop index.toNat), final) ∧
        final.toNat = index.toNat + 64 * count := by
  have ahead : (index + 63).toNat = index.toNat + 63 :=
    toNat_add_of_lt (by change _ + 63 < _; omega)
  induction count generalizing index fuel state with
  | zero =>
      obtain ⟨fuel, rfl⟩ := Nat.exists_eq_add_one.mpr enough
      have stops : ¬ index + 63 < len := by
        rw [UInt32.lt_iff_toNat_lt, ahead]
        omega
      refine ⟨index, ?_, rfl⟩
      rw [transformLoop, if_neg stops]
      rfl
  | succ count inductionHypothesis =>
      obtain ⟨fuel, rfl⟩ := Nat.exists_eq_add_one.mpr (by omega : 0 < fuel)
      have goesOn : index + 63 < len := by
        rw [UInt32.lt_iff_toNat_lt, ahead]
        omega
      have next : (index + 64).toNat = index.toNat + 64 :=
        toNat_add_of_lt (by change _ + 64 < _; omega)
      obtain ⟨final, loopEq, finalEq⟩ :=
        @inductionHypothesis (index + 64) fuel
          (compressBlock state ((input.drop index.toNat).take 64))
          (by omega) (by omega) (by omega) (by omega)
          (toNat_add_of_lt (by change _ + 63 < _; omega))
      refine ⟨final, ?_, by omega⟩
      rw [transformLoop, if_pos goesOn,
        transform_eq (by omega : index.toNat + 64 ≤ input.length)]
      simp only [bind, Option.bind]
      rw [loopEq, next, absorb, List.drop_drop]

/-- The call neither lets the index of the loop wrap nor reads too far. -/
def Ends
    (message : List UInt8)
    (len : UInt32) :
    Prop :=
  message.length % 64 = 0 ∨ message.length % 64 + len.toNat < 2 ^ 32

instance (message : List UInt8) (len : UInt32) :
    Decidable (Ends message len) :=
  inferInstanceAs (Decidable (_ ∨ _))

/-- The free bytes of the buffer. -/
theorem Absorbed.bufferSpace
    (absorbed : Absorbed ctx message) :
    ((64 : UInt32) - ((ctx.count0 >>> 3) &&& 0x3f)).toNat =
      64 - message.length % 64 := by
  have index := absorbed.bufferIndex
  have small := Nat.mod_lt message.length (by decide : 0 < 64)
  have smaller : ((ctx.count0 >>> 3) &&& 0x3f) ≤ (64 : UInt32) := by
    rw [UInt32.le_iff_toNat_le, index]
    exact small.le
  rw [UInt32.toNat_sub_of_le _ _ smaller, index]
  rfl

/-- The context after an update that ends with a state and a buffer. -/
def MD5.grown
    (ctx : MD5)
    (len : UInt32)
    (state : State)
    (buffer : Vector UInt8 64) :
    MD5 :=
  { ctx with
    state
    count0 := ctx.count0 + (len <<< 3)
    count1 :=
      (if ctx.count0 + (len <<< 3) < len <<< 3 then
        ctx.count1 + 1
      else
        ctx.count1) + (len >>> 29)
    buffer }

/-- What the state and the buffer have to be after an update. -/
theorem Absorbed.grow
    (absorbed : Absorbed ctx message)
    {piece : List UInt8}
    {len : UInt32}
    (pieceLength : piece.length = len.toNat)
    {state : State}
    {buffer : Vector UInt8 64}
    (stateEq :
      state =
        consume compressBlock 64 ctx.state (remainder 64 message ++ piece))
    (bufferEq :
      buffer.toList.take ((message.length + len.toNat) % 64) =
        remainder 64 (remainder 64 message ++ piece)) :
    Absorbed (ctx.grown len state buffer) (message ++ piece) where
  running := absorbed.running
  state := by
    rw [consume_append _ _ _ _ (by decide), ← absorbed.state]
    exact stateEq
  counted := by
    have count := count_add ctx.count0 ctx.count1 len
    have counted := absorbed.counted
    rw [List.length_append, pieceLength]
    exact count.trans (by omega)
  buffered := by
    rw [remainder_append _ _ (by decide), List.length_append, pieceLength]
    exact bufferEq

/-- An update that does not fill the buffer appends to it. -/
theorem Absorbed.update_short
    (absorbed : Absorbed ctx message)
    {input : List UInt8}
    {len : UInt32}
    (available : len.toNat ≤ input.length)
    (short : message.length % 64 + len.toNat < 64) :
    ∃ next,
      update ctx input len = some next ∧
        Absorbed next (message ++ input.take len.toNat) := by
  have index := absorbed.bufferIndex
  have space := absorbed.bufferSpace
  have pending := length_remainder 64 message
  have pieceLength : (input.take len.toNat).length = len.toNat := by
    rw [List.length_take]
    omega
  have notFull :
      ¬ len ≥ (64 : UInt32) - ((ctx.count0 >>> 3) &&& 0x3f) := by
    rw [ge_iff_le, UInt32.le_iff_toNat_le, space]
    omega
  obtain ⟨buffer, copied, content⟩ :=
    @memcpy_eq 64 ctx.buffer ((ctx.count0 >>> 3) &&& 0x3f).toNat 0
      len.toNat input (by omega) (by omega)
  have together :
      (remainder 64 message ++ input.take len.toNat).length < 64 := by
    rw [List.length_append]
    omega
  refine ⟨ctx.grown len ctx.state buffer, ?_,
    absorbed.grow pieceLength ?_ ?_⟩
  · simp only [update, absorbed.running, Bool.false_eq_true, if_false,
      if_neg notFull, copied, bind, Option.bind, MD5.grown]
  · rw [consume_of_lt _ _ _ _ together]
  · have filled :
        (message.length + len.toNat) % 64 =
          (remainder 64 message ++ input.take len.toNat).length := by
      rw [List.length_append]
      omega
    rw [remainder_of_lt _ _ together, filled, content, index,
      absorbed.buffered, List.drop_zero]
    exact List.take_left

/-- An update that fills the buffer compresses the complete blocks. -/
theorem Absorbed.update_full
    (absorbed : Absorbed ctx message)
    {input : List UInt8}
    {len : UInt32}
    (available : len.toNat ≤ input.length)
    (full : 64 ≤ message.length % 64 + len.toNat)
    (ends : Ends message len) :
    ∃ next,
      update ctx input len = some next ∧
        Absorbed next (message ++ input.take len.toNat) ∧
        (message.length % 64 + len.toNat = 64 →
          next.buffer.toList =
            remainder 64 message ++ input.take len.toNat) := by
  have index := absorbed.bufferIndex
  have space := absorbed.bufferSpace
  have pending := length_remainder 64 message
  have small := Nat.mod_lt message.length (by decide : 0 < 64)
  have pieceLength : (input.take len.toNat).length = len.toNat := by
    rw [List.length_take]
    omega
  have isFull :
      len ≥ (64 : UInt32) - ((ctx.count0 >>> 3) &&& 0x3f) := by
    rw [ge_iff_le, UInt32.le_iff_toNat_le, space]
    omega
  obtain ⟨filled, filledEq, filledContent⟩ :=
    @memcpy_eq 64 ctx.buffer ((ctx.count0 >>> 3) &&& 0x3f).toNat 0
      ((64 : UInt32) - ((ctx.count0 >>> 3) &&& 0x3f)).toNat input
      (by omega) (by omega)
  have filledBlock :
      filled.toList =
        remainder 64 message ++
          (input.take len.toNat).take (64 - message.length % 64) := by
    rw [filledContent, index, absorbed.buffered, space, List.drop_zero,
      List.take_take, min_eq_left (by omega),
      List.drop_eq_nil_of_le (by rw [Vector.length_toList]; omega),
      List.append_nil]
  have firstEq :
      transform ctx.state filled.toList 0 =
        some (compressBlock ctx.state filled.toList) := by
    rw [transform_eq (by rw [Vector.length_toList]), List.drop_zero,
      List.take_of_length_le (by rw [Vector.length_toList])]
  obtain ⟨final, loopEq, finalEq⟩ :=
    @transformLoop_eq input len
      ((64 : UInt32) - ((ctx.count0 >>> 3) &&& 0x3f)) _
      (len.toNat / 64 + 1) (compressBlock ctx.state filled.toList)
      available (by omega) rfl
      (by
        rw [space]
        have limit := len.toNat_lt
        unfold Ends at ends
        omega)
      (by omega)
  rw [space] at loopEq finalEq
  have finalLe : final.toNat ≤ len.toNat := by omega
  have restEq : (len - final).toNat = len.toNat - final.toNat :=
    UInt32.toNat_sub_of_le _ _ (UInt32.le_iff_toNat_le.mpr finalLe)
  obtain ⟨buffer, copied, content⟩ :=
    @memcpy_eq 64 filled 0 final.toNat (len - final).toNat input
      (by omega) (by omega)
  have rest :
      (input.take len.toNat).drop (64 - message.length % 64) =
        (input.drop (64 - message.length % 64)).take
          (len.toNat - (64 - message.length % 64)) :=
    List.drop_take
  refine ⟨ctx.grown len
      (absorb compressBlock 64
        ((len.toNat - (64 - message.length % 64)) / 64)
        (compressBlock ctx.state filled.toList)
        (input.drop (64 - message.length % 64)))
      buffer, ?_, absorbed.grow pieceLength ?_ ?_, ?_⟩
  · simp only [update, absorbed.running, Bool.false_eq_true, if_false,
      if_pos isFull, filledEq, firstEq, loopEq, copied, bind, Option.bind,
      MD5.grown]
  · rw [consume_fill _ _ _ (by omega) (by omega), pending, pieceLength,
      ← filledBlock, rest]
    exact (absorb_take _ _ _ _ (by omega)
      (by rw [List.length_drop]; omega)).symm
  · rw [remainder_fill _ (by omega) (by omega), pending, pieceLength,
      content, rest, List.drop_take, List.drop_drop, restEq, finalEq,
      List.take_zero, List.nil_append, Nat.mul_comm 64]
    have left :
        (message.length + len.toNat) % 64 =
          len.toNat - (64 - message.length % 64) -
            (len.toNat - (64 - message.length % 64)) / 64 * 64 := by
      omega
    rw [left, ← Nat.sub_sub, List.take_append_of_le_length (by
      rw [List.length_take, List.length_drop]
      omega), List.take_take, min_self]
  · intro exactly
    have nothing : (len - final).toNat = 0 := by omega
    have whole :
        (input.take len.toNat).take (64 - message.length % 64) =
          input.take len.toNat :=
      List.take_of_length_le (by omega)
    rw [MD5.grown, content, nothing, filledBlock, whole]
    rfl

/-- An update that ends has absorbed the longer message. -/
theorem Absorbed.update
    (absorbed : Absorbed ctx message)
    {input : List UInt8}
    {len : UInt32}
    (available : len.toNat ≤ input.length)
    (ends : Ends message len) :
    ∃ next,
      Md5.update ctx input len = some next ∧
        Absorbed next (message ++ input.take len.toNat) := by
  by_cases short : message.length % 64 + len.toNat < 64
  · exact absorbed.update_short available short
  · obtain ⟨next, updated, grown, _⟩ :=
      absorbed.update_full available (by omega) ends
    exact ⟨next, updated, grown⟩

/-- An index that wraps before it reaches the end goes round forever. -/
theorem transformLoop_none
    {input : List UInt8}
    {len index : UInt32}
    {pending : Nat}
    (pendingPos : 0 < pending)
    (pendingLt : pending < 64)
    (long : 2 ^ 32 ≤ pending + len.toNat)
    (aligned : (index.toNat + pending) % 64 = 0)
    (fuel : Nat)
    (state : State) :
    transformLoop input len fuel state index = none := by
  induction fuel generalizing index state with
  | zero =>
      rfl
  | succ fuel inductionHypothesis =>
      have limit := index.toNat_lt
      have ahead : (index + 63).toNat = (index.toNat + 63) % 2 ^ 32 :=
        UInt32.toNat_add _ _
      have next : (index + 64).toNat = (index.toNat + 64) % 2 ^ 32 :=
        UInt32.toNat_add _ _
      have goesOn : index + 63 < len := by
        rw [UInt32.lt_iff_toNat_lt, ahead]
        omega
      rw [transformLoop, if_pos goesOn]
      cases transform state input index.toNat with
      | none =>
          rfl
      | some next =>
          exact inductionHypothesis (by omega) _

/-- An update whose index would wrap does not end. -/
theorem Absorbed.update_none
    (absorbed : Absorbed ctx message)
    {input : List UInt8}
    {len : UInt32}
    (endless : ¬ Ends message len) :
    Md5.update ctx input len = none := by
  have space := absorbed.bufferSpace
  have small := Nat.mod_lt message.length (by decide : 0 < 64)
  simp only [Ends, not_or, Nat.not_lt] at endless
  have limit := len.toNat_lt
  have isFull :
      len ≥ (64 : UInt32) - ((ctx.count0 >>> 3) &&& 0x3f) := by
    rw [ge_iff_le, UInt32.le_iff_toNat_le, space]
    omega
  have loop (fuel : Nat) (state : State) :
      transformLoop input len fuel state
          ((64 : UInt32) - ((ctx.count0 >>> 3) &&& 0x3f)) =
        none :=
    transformLoop_none (Nat.pos_of_ne_zero endless.1) small endless.2
      (by rw [space]; omega) fuel state
  simp only [Md5.update, absorbed.running, Bool.false_eq_true, if_false,
    if_pos isFull, Option.bind_eq_bind, Option.bind_eq_none_iff]
  intro filled _ first _ result looped
  rw [loop] at looped
  cases looped

end Update

section Finalize

variable {ctx : MD5}
variable {message : List UInt8}

/-- The number of padding bytes that `MD5::finalize` computes. -/
theorem Absorbed.padLen
    (absorbed : Absorbed ctx message) :
    (if (ctx.count0 >>> 3) &&& 0x3f < 56 then
        (56 : UInt32) - ((ctx.count0 >>> 3) &&& 0x3f)
      else
        (120 : UInt32) - ((ctx.count0 >>> 3) &&& 0x3f)).toNat =
      (paddingFor message.length).length := by
  have index := absorbed.bufferIndex
  have small := Nat.mod_lt message.length (by decide : 0 < 64)
  rw [paddingFor, List.length_cons, List.length_replicate]
  split
  · next less =>
      have inside := UInt32.lt_iff_toNat_lt.mp less
      rw [index, show (56 : UInt32).toNat = 56 from rfl] at inside
      rw [UInt32.toNat_sub_of_le _ _ (UInt32.le_of_lt less), index,
        show (56 : UInt32).toNat = 56 from rfl]
      omega
  · next notLess =>
      have outside := mt UInt32.lt_iff_toNat_lt.mpr notLess
      rw [index, show (56 : UInt32).toNat = 56 from rfl] at outside
      have smaller : ((ctx.count0 >>> 3) &&& 0x3f) ≤ (120 : UInt32) := by
        rw [UInt32.le_iff_toNat_le, index]
        exact small.le.trans (by decide)
      rw [UInt32.toNat_sub_of_le _ _ smaller, index,
        show (120 : UInt32).toNat = 120 from rfl]
      omega

/-- The padding is taken from the front of the array. -/
theorem take_PADDING
    (length : Nat) :
    PADDING.take (paddingFor length).length = paddingFor length := by
  have small := Nat.mod_lt (119 - length % 64) (by decide : 0 < 64)
  rw [paddingFor, List.length_cons, List.length_replicate, PADDING,
    List.take_succ_cons, List.take_replicate, min_eq_left (by omega)]

/-- The bit count as eight bytes. -/
theorem Absorbed.bits
    (absorbed : Absorbed ctx message) :
    encode [ctx.count0, ctx.count1] = toBytes 8 (8 * message.length) := by
  have small := ctx.count0.toNat_lt
  have small1 := ctx.count1.toNat_lt
  have counted := absorbed.counted
  have whole := toBytes_mod 8 (8 * message.length)
  have parts := toBytes_add 4 4 (8 * message.length % 256 ^ 8)
  have low := toBytes_mod 4 (8 * message.length % 256 ^ 8)
  rw [encode_eq, ← whole, parts, ← low]
  have lowEq :
      8 * message.length % 256 ^ 8 % 256 ^ 4 = ctx.count0.toNat := by
    omega
  have highEq :
      8 * message.length % 256 ^ 8 / 256 ^ 4 = ctx.count1.toNat := by
    omega
  rw [lowEq, highEq]
  simp

/-- The number of padding bytes. -/
theorem length_paddingFor
    (length : Nat) :
    (paddingFor length).length = (119 - length % 64) % 64 + 1 := by
  rw [paddingFor, List.length_cons, List.length_replicate]

/-- The padding leaves room for the length in the last block. -/
theorem length_padding_mod
    (message : List UInt8) :
    (message ++ paddingFor message.length).length % 64 = 56 := by
  have small := Nat.mod_lt message.length (by decide : 0 < 64)
  rw [List.length_append, length_paddingFor]
  omega

/-- The last block of the padded message. -/
theorem lastBlock
    (message : List UInt8) :
    remainder 64 (message ++ paddingFor message.length) ++
        toBytes 8 (8 * message.length) =
      (padded message).drop ((padded message).length - 64) := by
  have aligned := length_padding_mod message
  have whole :
      (padded message).length =
        (message ++ paddingFor message.length).length + 8 := by
    rw [padded, List.length_append, length_toBytes]
  have cut :
      (padded message).length - 64 =
        (message ++ paddingFor message.length).length / 64 * 64 := by
    omega
  rw [cut]
  exact (List.drop_append_of_le_length (Nat.div_mul_le_self _ _)).symm

/-- Clearing the first byte of the last block. -/
theorem set_lastBlock
    {buffer : Vector UInt8 64}
    (block :
      buffer.toList = (padded message).drop ((padded message).length - 64)) :
    (buffer.set 0 0).toList =
      0 :: (padded message).drop ((padded message).length - 63) := by
  have lengths := congrArg List.length block
  rw [Vector.length_toList, List.length_drop] at lengths
  have next :
      (padded message).length - 64 + 1 = (padded message).length - 63 := by
    omega
  rw [Vector.toList_set, block,
    List.drop_eq_getElem_cons (by omega :
      (padded message).length - 64 < (padded message).length),
    List.set_cons_zero, next]

/-- `MD5::finalize` stores the digest and clears one byte of the buffer. -/
theorem Absorbed.finalize
    (absorbed : Absorbed ctx message) :
    ∃ final,
      Md5.finalize ctx = some final ∧
        final.finalized = true ∧
        final.digest = digestOf message ∧
        final.buffer.toList =
          0 :: (padded message).drop ((padded message).length - 63) := by
  have padLen := absorbed.padLen
  have taken := take_PADDING message.length
  have aligned := length_padding_mod message
  have eight : (8 : UInt32).toNat = 8 := rfl
  have bitsLength : (toBytes 8 (8 * message.length)).length = 8 :=
    length_toBytes _ _
  have available : (paddingFor message.length).length ≤ PADDING.length := by
    rw [← taken, List.length_take]
    exact min_le_right _ _
  obtain ⟨first, firstEq, firstAbsorbed⟩ :=
    absorbed.update (padLen.trans_le available)
      (Or.inr (by rw [padLen, length_paddingFor]; omega))
  rw [padLen, taken] at firstAbsorbed
  obtain ⟨second, secondEq, secondAbsorbed, content⟩ :=
    @Absorbed.update_full _ _ firstAbsorbed
      (toBytes 8 (8 * message.length)) 8
      (by rw [eight, bitsLength]) (by rw [aligned, eight])
      (Or.inr (by rw [aligned, eight]; decide))
  have bitsTaken :
      (toBytes 8 (8 * message.length)).take (8 : UInt32).toNat =
        toBytes 8 (8 * message.length) :=
    List.take_of_length_le bitsLength.le
  rw [bitsTaken] at secondAbsorbed content
  have block := content (by rw [aligned, eight])
  refine ⟨{ second with
      digest := encode second.state.words
      buffer := second.buffer.set 0 0
      finalized := true }, ?_, rfl, ?_,
    set_lastBlock (block.trans (lastBlock message))⟩
  · simp only [Md5.finalize, absorbed.running, Bool.false_eq_true,
      if_false, firstEq, absorbed.bits, secondEq, bind, Option.bind, memset]
    rfl
  · rw [encode_eq, secondAbsorbed.state]
    rfl

end Finalize

end WkcRuntime.Md5
