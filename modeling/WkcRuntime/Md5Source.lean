import Mathlib.Algebra.Order.Group.Nat

namespace WkcRuntime.Md5

/-!
# The message digest

The class `MD5` of `3rd/md5-cc/md5-cc/md5.cc` and its caller `common::getMd5` in
`utils/utils.cpp`.  The caller's bytes are a list; `none` stands for an access
outside of the list or of an array, and for a loop that does not end.
-/

/-- The array `state`. -/
structure State where
  a : UInt32
  b : UInt32
  c : UInt32
  d : UInt32
  deriving DecidableEq, Repr

/-- The four words in their order. -/
def State.words (state : State) : List UInt32 :=
  [state.a, state.b, state.c, state.d]

/-- An object of class `MD5`; `count0` and `count1` are the array `count`. -/
structure MD5 where
  state : State
  count0 : UInt32
  count1 : UInt32
  buffer : Vector UInt8 64
  digest : List UInt8
  finalized : Bool
  deriving DecidableEq

section Helpers

/-- `MD5::encode`; `len` is always four times the number of words. -/
def encode (input : List UInt32) : List UInt8 :=
  input.flatMap fun (word : UInt32) =>
    [(word &&& 0xff).toUInt8,
      ((word >>> 8) &&& 0xff).toUInt8,
      ((word >>> 16) &&& 0xff).toUInt8,
      ((word >>> 24) &&& 0xff).toUInt8]

/-- `MD5::decode(output, input + start, 4 * count)`. -/
def decode
    (input : List UInt8) :
    Nat → Nat → Option (List UInt32)
  | _, 0 =>
      some []
  | start, count + 1 => do
      let byte0 ← input[start]?
      let byte1 ← input[start + 1]?
      let byte2 ← input[start + 2]?
      let byte3 ← input[start + 3]?
      let rest ← decode input (start + 4) count
      some
        ((byte0.toUInt32 ||| (byte1.toUInt32 <<< 8) |||
          (byte2.toUInt32 <<< 16) ||| (byte3.toUInt32 <<< 24)) :: rest)

/-- `MD5::memcpy(output + target, input + start, len)`. -/
def memcpy
    {size : Nat}
    (output : Vector UInt8 size)
    (target : Nat)
    (input : List UInt8)
    (start : Nat) :
    Nat → Option (Vector UInt8 size)
  | 0 =>
      some output
  | len + 1 => do
      let copied ← memcpy output target input start len
      let byte ← input[start + len]?
      if inside : target + len < size then
        some (copied.set (target + len) byte inside)
      else
        none

/-- `MD5::memset(output, value, len)`. -/
def memset
    {size : Nat}
    (output : Vector UInt8 size)
    (value : UInt8) :
    Nat → Option (Vector UInt8 size)
  | 0 =>
      some output
  | len + 1 => do
      let cleared ← memset output value len
      if inside : len < size then
        some (cleared.set len value inside)
      else
        none

/-- `MD5::rotate_left`. -/
def rotateLeft (x n : UInt32) : UInt32 :=
  (x <<< n) ||| (x >>> (32 - n))

/-- `MD5::F`. -/
def F (x y z : UInt32) : UInt32 :=
  (x &&& y) ||| (~~~x &&& z)

/-- `MD5::G`. -/
def G (x y z : UInt32) : UInt32 :=
  (x &&& z) ||| (y &&& ~~~z)

/-- `MD5::H`. -/
def H (x y z : UInt32) : UInt32 :=
  x ^^^ y ^^^ z

/-- `MD5::I`. -/
def I (x y z : UInt32) : UInt32 :=
  y ^^^ (x ||| ~~~z)

/-- `MD5::FF`, giving the new value of `a`. -/
def FF (a b c d x s ac : UInt32) : UInt32 :=
  rotateLeft (a + (F b c d + x + ac)) s + b

/-- `MD5::GG`. -/
def GG (a b c d x s ac : UInt32) : UInt32 :=
  rotateLeft (a + (G b c d + x + ac)) s + b

/-- `MD5::HH`. -/
def HH (a b c d x s ac : UInt32) : UInt32 :=
  rotateLeft (a + (H b c d + x + ac)) s + b

/-- `MD5::II`. -/
def II (a b c d x s ac : UInt32) : UInt32 :=
  rotateLeft (a + (I b c d + x + ac)) s + b

end Helpers

section Transform

/-! The shift amounts. -/

/-- `S11`. -/
abbrev S11 : UInt32 := 7

/-- `S12`. -/
abbrev S12 : UInt32 := 12

/-- `S13`. -/
abbrev S13 : UInt32 := 17

/-- `S14`. -/
abbrev S14 : UInt32 := 22

/-- `S21`. -/
abbrev S21 : UInt32 := 5

/-- `S22`. -/
abbrev S22 : UInt32 := 9

/-- `S23`. -/
abbrev S23 : UInt32 := 14

/-- `S24`. -/
abbrev S24 : UInt32 := 20

/-- `S31`. -/
abbrev S31 : UInt32 := 4

/-- `S32`. -/
abbrev S32 : UInt32 := 11

/-- `S33`. -/
abbrev S33 : UInt32 := 16

/-- `S34`. -/
abbrev S34 : UInt32 := 23

/-- `S41`. -/
abbrev S41 : UInt32 := 6

/-- `S42`. -/
abbrev S42 : UInt32 := 10

/-- `S43`. -/
abbrev S43 : UInt32 := 15

/-- `S44`. -/
abbrev S44 : UInt32 := 21

/-- Round 1 of `MD5::transform`. -/
def round1 (x : Nat → UInt32) (state : State) : State :=
  let a := state.a
  let b := state.b
  let c := state.c
  let d := state.d
  let a := FF a b c d (x 0) S11 0xd76aa478
  let d := FF d a b c (x 1) S12 0xe8c7b756
  let c := FF c d a b (x 2) S13 0x242070db
  let b := FF b c d a (x 3) S14 0xc1bdceee
  let a := FF a b c d (x 4) S11 0xf57c0faf
  let d := FF d a b c (x 5) S12 0x4787c62a
  let c := FF c d a b (x 6) S13 0xa8304613
  let b := FF b c d a (x 7) S14 0xfd469501
  let a := FF a b c d (x 8) S11 0x698098d8
  let d := FF d a b c (x 9) S12 0x8b44f7af
  let c := FF c d a b (x 10) S13 0xffff5bb1
  let b := FF b c d a (x 11) S14 0x895cd7be
  let a := FF a b c d (x 12) S11 0x6b901122
  let d := FF d a b c (x 13) S12 0xfd987193
  let c := FF c d a b (x 14) S13 0xa679438e
  let b := FF b c d a (x 15) S14 0x49b40821
  { a, b, c, d }

/-- Round 2 of `MD5::transform`. -/
def round2 (x : Nat → UInt32) (state : State) : State :=
  let a := state.a
  let b := state.b
  let c := state.c
  let d := state.d
  let a := GG a b c d (x 1) S21 0xf61e2562
  let d := GG d a b c (x 6) S22 0xc040b340
  let c := GG c d a b (x 11) S23 0x265e5a51
  let b := GG b c d a (x 0) S24 0xe9b6c7aa
  let a := GG a b c d (x 5) S21 0xd62f105d
  let d := GG d a b c (x 10) S22 0x2441453
  let c := GG c d a b (x 15) S23 0xd8a1e681
  let b := GG b c d a (x 4) S24 0xe7d3fbc8
  let a := GG a b c d (x 9) S21 0x21e1cde6
  let d := GG d a b c (x 14) S22 0xc33707d6
  let c := GG c d a b (x 3) S23 0xf4d50d87
  let b := GG b c d a (x 8) S24 0x455a14ed
  let a := GG a b c d (x 13) S21 0xa9e3e905
  let d := GG d a b c (x 2) S22 0xfcefa3f8
  let c := GG c d a b (x 7) S23 0x676f02d9
  let b := GG b c d a (x 12) S24 0x8d2a4c8a
  { a, b, c, d }

/-- Round 3 of `MD5::transform`. -/
def round3 (x : Nat → UInt32) (state : State) : State :=
  let a := state.a
  let b := state.b
  let c := state.c
  let d := state.d
  let a := HH a b c d (x 5) S31 0xfffa3942
  let d := HH d a b c (x 8) S32 0x8771f681
  let c := HH c d a b (x 11) S33 0x6d9d6122
  let b := HH b c d a (x 14) S34 0xfde5380c
  let a := HH a b c d (x 1) S31 0xa4beea44
  let d := HH d a b c (x 4) S32 0x4bdecfa9
  let c := HH c d a b (x 7) S33 0xf6bb4b60
  let b := HH b c d a (x 10) S34 0xbebfbc70
  let a := HH a b c d (x 13) S31 0x289b7ec6
  let d := HH d a b c (x 0) S32 0xeaa127fa
  let c := HH c d a b (x 3) S33 0xd4ef3085
  let b := HH b c d a (x 6) S34 0x4881d05
  let a := HH a b c d (x 9) S31 0xd9d4d039
  let d := HH d a b c (x 12) S32 0xe6db99e5
  let c := HH c d a b (x 15) S33 0x1fa27cf8
  let b := HH b c d a (x 2) S34 0xc4ac5665
  { a, b, c, d }

/-- Round 4 of `MD5::transform`. -/
def round4 (x : Nat → UInt32) (state : State) : State :=
  let a := state.a
  let b := state.b
  let c := state.c
  let d := state.d
  let a := II a b c d (x 0) S41 0xf4292244
  let d := II d a b c (x 7) S42 0x432aff97
  let c := II c d a b (x 14) S43 0xab9423a7
  let b := II b c d a (x 5) S44 0xfc93a039
  let a := II a b c d (x 12) S41 0x655b59c3
  let d := II d a b c (x 3) S42 0x8f0ccc92
  let c := II c d a b (x 10) S43 0xffeff47d
  let b := II b c d a (x 1) S44 0x85845dd1
  let a := II a b c d (x 8) S41 0x6fa87e4f
  let d := II d a b c (x 15) S42 0xfe2ce6e0
  let c := II c d a b (x 6) S43 0xa3014314
  let b := II b c d a (x 13) S44 0x4e0811a1
  let a := II a b c d (x 4) S41 0xf7537e82
  let d := II d a b c (x 11) S42 0xbd3af235
  let c := II c d a b (x 2) S43 0x2ad7d2bb
  let b := II b c d a (x 9) S44 0xeb86d391
  { a, b, c, d }

/-- `MD5::transform(input + start)`, giving the new `state`. -/
def transform
    (state : State)
    (input : List UInt8)
    (start : Nat) :
    Option State := do
  let words ← decode input start 16
  let x := fun index => words.getD index 0
  let final := round4 x (round3 x (round2 x (round1 x state)))
  some
    { a := state.a + final.a
      b := state.b + final.b
      c := state.c + final.c
      d := state.d + final.d }

end Transform

section Methods

/-- `MD5::init` on an object with arbitrary content. -/
def init (ctx : MD5) : MD5 :=
  { ctx with
    finalized := false
    count0 := 0
    count1 := 0
    state :=
      { a := 0x67452301
        b := 0xefcdab89
        c := 0x98badcfe
        d := 0x10325476 } }

/-- The loop of `MD5::update`: the new state and the final `input_index`. -/
def transformLoop
    (input : List UInt8)
    (inputLength : UInt32) :
    Nat → State → UInt32 → Option (State × UInt32)
  | 0, _, _ =>
      none
  | fuel + 1, state, inputIndex =>
      if inputIndex + 63 < inputLength then do
        let next ← transform state input inputIndex.toNat
        transformLoop input inputLength fuel next (inputIndex + 64)
      else
        some (state, inputIndex)

/-- `MD5::update(input, input_length)`. -/
def update
    (ctx : MD5)
    (input : List UInt8)
    (inputLength : UInt32) :
    Option MD5 :=
  if ctx.finalized then
    some ctx
  else
    let bufferIndex := (ctx.count0 >>> 3) &&& 0x3f
    let count0 := ctx.count0 + (inputLength <<< 3)
    let carried :=
      if count0 < inputLength <<< 3 then
        ctx.count1 + 1
      else
        ctx.count1
    let count1 := carried + (inputLength >>> 29)
    let bufferSpace := 64 - bufferIndex
    if inputLength ≥ bufferSpace then do
      let filled ←
        memcpy ctx.buffer bufferIndex.toNat input 0 bufferSpace.toNat
      let first ← transform ctx.state filled.toList 0
      let (state, inputIndex) ←
        transformLoop input inputLength (inputLength.toNat / 64 + 1)
          first bufferSpace
      let buffer ←
        memcpy filled 0 input inputIndex.toNat
          (inputLength - inputIndex).toNat
      some { ctx with state, count0, count1, buffer }
    else do
      let buffer ←
        memcpy ctx.buffer bufferIndex.toNat input 0 inputLength.toNat
      some { ctx with count0, count1, buffer }

/-- `PADDING`. -/
def PADDING : List UInt8 :=
  0x80 :: List.replicate 63 0

/-- `MD5::finalize`; `sizeof(*buffer)` is the size of one element. -/
def finalize (ctx : MD5) : Option MD5 :=
  if ctx.finalized then
    some ctx
  else do
    let bits := encode [ctx.count0, ctx.count1]
    let index := (ctx.count0 >>> 3) &&& 0x3f
    let padLen := if index < 56 then 56 - index else 120 - index
    let padded ← update ctx PADDING padLen
    let counted ← update padded bits 8
    let buffer ← memset counted.buffer 0 1
    some
      { counted with
        digest := encode counted.state.words
        buffer
        finalized := true }

/-- `MD5::raw_digest`; `none` stands for the empty literal. -/
def rawDigest (ctx : MD5) : Option (List UInt8) :=
  if ctx.finalized then
    some ctx.digest
  else
    none

/-- `sprintf(s, "%02x", byte)`. -/
def hexByte (byte : UInt8) : List Char :=
  [Nat.digitChar (byte.toNat / 16), Nat.digitChar (byte.toNat % 16)]

/-- `MD5::hex_digest`; `none` stands for `NULL`. -/
def hexDigest (ctx : MD5) : Option (List Char) :=
  if ctx.finalized then
    some (ctx.digest.flatMap hexByte)
  else
    none

/--
`MD5::update(FILE *)`; the list has what the calls of `fread` give before the
file ends.
-/
def updateFile
    (ctx : MD5) :
    List (List UInt8) → Option MD5
  | [] =>
      some ctx
  | chunk :: rest =>
      if chunk.length = 0 then
        some ctx
      else do
        let next ← update ctx chunk (UInt32.ofNat chunk.length)
        updateFile next rest

/--
`MD5::update(istream &)`; a read that gives less than the buffer holds makes
the stream bad.
-/
def updateStream
    (ctx : MD5) :
    List (List UInt8) → Option MD5
  | [] =>
      some ctx
  | chunk :: rest => do
      let next ← update ctx chunk (UInt32.ofNat chunk.length)
      if chunk.length < 1024 then
        some next
      else
        updateStream next rest

end Methods

/-- `ERR_ARG.err_string`. -/
def errArg : String :=
  "argument invalid"

/--
`common::getMd5`: the text of the exception or the result.  `storage` is what
the object's memory holds before its constructor runs.
-/
def getMd5
    (storage : MD5)
    (data : List UInt8) :
    Option (Except String (List Char)) :=
  if data.length = 0 then
    some (.error errArg)
  else do
    -- `c_str` ends with a zero, and the length is cut to 32 bits
    let md5 ←
      update (init storage) (data ++ [0]) (UInt32.ofNat data.length)
    let final ← finalize md5
    let result ← hexDigest final
    some (.ok result)

end WkcRuntime.Md5
