import Mathlib.Algebra.Order.Group.Nat

namespace WkcRuntime.LittleEndian

/-!
# Numbers as bytes, the lowest byte first

The two directions are inverse to each other on numbers that fit and on byte
strings of the given length; the bytes of a number fall into the bytes of its
parts.
-/

/-- The lowest bytes of a number. -/
def toBytes : Nat → Nat → List UInt8
  | 0, _ =>
      []
  | width + 1, value =>
      UInt8.ofNat value :: toBytes width (value / 256)

/-- The number that bytes stand for. -/
def fromBytes : List UInt8 → Nat
  | [] =>
      0
  | byte :: rest =>
      byte.toNat + 256 * fromBytes rest

/-- A number has as many bytes as it is asked for. -/
@[simp] theorem length_toBytes
    (width value : Nat) :
    (toBytes width value).length = width := by
  induction width generalizing value with
  | zero =>
      rfl
  | succ width inductionHypothesis =>
      rw [toBytes, List.length_cons, inductionHypothesis]

/-- The bytes of a number stand for it, as far as it fits. -/
theorem fromBytes_toBytes
    (width value : Nat) :
    fromBytes (toBytes width value) = value % 256 ^ width := by
  induction width generalizing value with
  | zero =>
      simp [toBytes, fromBytes, Nat.mod_one]
  | succ width inductionHypothesis =>
      have low : (UInt8.ofNat value).toNat = value % 256 :=
        UInt8.toNat_ofNat'
      rw [toBytes, fromBytes, inductionHypothesis, low, Nat.pow_succ',
        Nat.mod_mul]

/-- Bytes are the bytes of the number that they stand for. -/
theorem toBytes_fromBytes
    (bytes : List UInt8) :
    toBytes bytes.length (fromBytes bytes) = bytes := by
  induction bytes with
  | nil =>
      rfl
  | cons byte rest inductionHypothesis =>
      have low : UInt8.ofNat (fromBytes (byte :: rest)) = byte := by
        apply UInt8.toNat_inj.mp
        rw [UInt8.toNat_ofNat', fromBytes]
        have small := byte.toNat_lt
        omega
      have high : fromBytes (byte :: rest) / 256 = fromBytes rest := by
        rw [fromBytes]
        have small := byte.toNat_lt
        omega
      rw [List.length_cons, toBytes, low, high, inductionHypothesis]

/-- The bytes of a number are the bytes of its low and of its high part. -/
theorem toBytes_add
    (low high value : Nat) :
    toBytes (low + high) value =
      toBytes low value ++ toBytes high (value / 256 ^ low) := by
  induction low generalizing value with
  | zero =>
      simp [toBytes]
  | succ low inductionHypothesis =>
      rw [Nat.succ_add, toBytes, toBytes, inductionHypothesis,
        Nat.div_div_eq_div_mul, Nat.pow_succ', List.cons_append]

/-- Only the part of a number that fits has an influence. -/
theorem toBytes_mod
    (width value : Nat) :
    toBytes width (value % 256 ^ width) = toBytes width value := by
  rw [← fromBytes_toBytes]
  have same := toBytes_fromBytes (toBytes width value)
  rwa [length_toBytes] at same

end WkcRuntime.LittleEndian
