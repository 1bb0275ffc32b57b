import WkcRuntime.Machine
import Mathlib.Logic.Function.Iterate

namespace WkcRuntime.Crc32

/-!
# `common::crc32` of `utils/utils.cpp`

The function keeps its table in a static array, which the first call fills.  A
run is a sequence of calls on the same static variables.  The buffer is the
list of the bytes from `buf` on; a call that reads behind it has no result.
-/

/-- The static variables of the function. -/
structure Statics where
  isFirst : UInt8
  mTable : Vector UInt32 256

/-- The static variables before the first call. -/
def Statics.initial : Statics where
  isFirst := 1
  mTable := Vector.replicate 256 0

/-- `POLYNOMIAL`. -/
def polynomial : UInt32 :=
  0x04c11db7

/-- One round of the inner loop. -/
def accumulate (crcAccum : UInt32) : UInt32 :=
  if crcAccum &&& 0x80000000 ≠ 0 then
    (crcAccum <<< 1) ^^^ polynomial
  else
    crcAccum <<< 1

/-- What the outer loop stores at `i`. -/
def tableEntry (i : Fin 256) : UInt32 :=
  accumulate^[8] (UInt32.ofNat i <<< 24)

/-- The outer loop over the given indices. -/
def fillFrom
    (indices : List (Fin 256))
    (mTable : Vector UInt32 256) :
    Vector UInt32 256 :=
  indices.foldl
    (fun (mTable : Vector UInt32 256) (i : Fin 256) =>
      mTable.set i (tableEntry i))
    mTable

/-- The statements under `if (isFirst)`. -/
def Statics.prepare (statics : Statics) : Statics :=
  if statics.isFirst ≠ 0 then
    { isFirst := 0
      mTable := fillFrom (List.finRange 256) statics.mTable }
  else
    statics

/-- The index that the mask keeps within the table. -/
def tableIndex
    (crc : UInt32)
    (byte : UInt8) :
    Fin 256 where
  val := (((crc >>> 24) ^^^ byte.toUInt32) &&& 0xff).toNat
  isLt := by
    rw [UInt32.toNat_and]
    exact Nat.lt_succ_of_le Nat.and_le_right

/-- One round of the loop over the buffer. -/
def update
    (mTable : Vector UInt32 256)
    (crc : UInt32)
    (byte : UInt8) :
    UInt32 :=
  (crc <<< 8) ^^^ mTable.get (tableIndex crc byte)

/-- `while (len--)`, with what is left of the buffer. -/
def crcLoop
    (mTable : Vector UInt32 256) :
    List UInt8 → Int32 → UInt32 → Option UInt32
  | [], len, crc =>
      if len = 0 then some crc else none
  | byte :: rest, len, crc =>
      if len = 0 then
        some crc
      else
        crcLoop mTable rest (len - 1) (update mTable crc byte)

/-- `common::crc32`: the result and the static variables it leaves behind. -/
def crc32
    (statics : Statics)
    (buf : List UInt8)
    (len : Int32) :
    Option (UInt32 × Statics) :=
  let prepared := statics.prepare
  (crcLoop prepared.mTable buf len 0xffffffff).map fun crc =>
    (crc, prepared)

/-- One call: its buffer and its length argument. -/
structure Call where
  buf : List UInt8
  len : Int32

/-- The calls of one process, one after another. -/
def machine : Machine Statics Call where
  Initial := fun statics => statics = .initial
  step? := fun statics call =>
    (crc32 statics call.buf call.len).map Prod.snd

end WkcRuntime.Crc32
