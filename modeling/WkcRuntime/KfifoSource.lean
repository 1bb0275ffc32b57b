import Mathlib.Algebra.Group.Nat.Defs

namespace WkcRuntime.Kfifo

/-!
# The element fifo

`utils/kfifo.hpp`: a ring of `1 << K` elements with two free running counters of
type `size_t`.  The array is a vector, so its size is part of its type; the
caller's buffers are lists.  `memcpy` counts whole elements here, and outside of
either operand it is `none`.
-/

/-- `size_t`. -/
abbrev SizeT :=
  BitVec 64

/-- `kfifo_t<T, K>`. -/
structure KfifoT (T : Type) (K : Nat) where
  data : Vector T (2 ^ K)
  in_ : SizeT
  out_ : SizeT

variable {T : Type}
variable {K : Nat}

/-- `memcpy(&data[target], &src[start], len * esize())`. -/
def memcpyIn
    {size : Nat}
    (data : Vector T size)
    (target : Nat)
    (src : List T)
    (start len : Nat) :
    Option (Vector T size) :=
  if room : target + len ≤ size ∧ start + len ≤ src.length then
    some
      (Vector.ofFn fun (cell : Fin size) =>
        if inside : target ≤ cell.val ∧ cell.val < target + len then
          src.get ⟨start + (cell.val - target), by omega⟩
        else
          data[cell.val])
  else
    none

/-- `memcpy(&dst[target], &data[start], len * esize())`. -/
def memcpyOut
    {size : Nat}
    (dst : List T)
    (target : Nat)
    (data : Vector T size)
    (start len : Nat) :
    Option (List T) :=
  if target + len ≤ dst.length ∧ start + len ≤ size then
    some
      (dst.take target ++
        ((data.toList.drop start).take len ++ dst.drop (target + len)))
  else
    none

/-- `std::min`. -/
def stdMin (a b : SizeT) : SizeT :=
  if b < a then
    b
  else
    a

namespace KfifoT

/-- The constructor, which leaves the array as it is. -/
def new (data : Vector T (2 ^ K)) : KfifoT T K where
  data := data
  in_ := 0
  out_ := 0

/-- `reset`. -/
def reset (fifo : KfifoT T K) : KfifoT T K :=
  { fifo with in_ := 0, out_ := 0 }

/-- `reset_out`. -/
def resetOut (fifo : KfifoT T K) : KfifoT T K :=
  { fifo with out_ := fifo.in_ }

/-- `size`: `1 << K` as an `int`, converted. -/
def size (_ : KfifoT T K) : SizeT :=
  BitVec.signExtend 64 (1 <<< K : BitVec 32)

/-- `mask`. -/
def mask (fifo : KfifoT T K) : SizeT :=
  fifo.size - 1

/-- `len`. -/
def len (fifo : KfifoT T K) : SizeT :=
  fifo.in_ - fifo.out_

/-- `unused`. -/
def unused (fifo : KfifoT T K) : SizeT :=
  fifo.size - (fifo.in_ - fifo.out_)

/-- `is_empty`. -/
def isEmpty (fifo : KfifoT T K) : Bool :=
  decide (fifo.in_ = fifo.out_)

/-- `is_full`. -/
def isFull (fifo : KfifoT T K) : Bool :=
  decide (fifo.mask < fifo.len)

/-- `put`. -/
def put
    (fifo : KfifoT T K)
    (val : T) :
    Option (KfifoT T K × Bool) :=
  if fifo.isFull then
    some (fifo, false)
  else
    let cell := (fifo.in_ &&& fifo.mask).toNat
    if inside : cell < 2 ^ K then
      some
        ({ fifo with
            data := fifo.data.set cell val inside
            in_ := fifo.in_ + 1 },
          true)
    else
      none

/-- `peek`: the answer and the value that `val` has afterwards. -/
def peek
    (fifo : KfifoT T K)
    (val : T) :
    Option (Bool × T) :=
  if fifo.isEmpty then
    some (false, val)
  else do
    let found ← fifo.data[(fifo.out_ &&& fifo.mask).toNat]?
    some (true, found)

/-- `get`. -/
def get
    (fifo : KfifoT T K)
    (val : T) :
    Option (KfifoT T K × Bool × T) :=
  if fifo.isEmpty then
    some (fifo, false, val)
  else do
    let found ← fifo.data[(fifo.out_ &&& fifo.mask).toNat]?
    some ({ fifo with out_ := fifo.out_ + 1 }, true, found)

/-- `copy_in`. -/
def copyIn
    (fifo : KfifoT T K)
    (src : List T)
    (len off : SizeT) :
    Option (KfifoT T K) := do
  let off := off &&& fifo.mask
  let l := stdMin len (fifo.size - off)
  let first ← memcpyIn fifo.data off.toNat src 0 l.toNat
  let second ← memcpyIn first 0 src l.toNat (len - l).toNat
  some { fifo with data := second }

/-- `copy_out`. -/
def copyOut
    (fifo : KfifoT T K)
    (dst : List T)
    (len off : SizeT) :
    Option (List T) := do
  let off := off &&& fifo.mask
  let l := stdMin len (fifo.size - off)
  let first ← memcpyOut dst 0 fifo.data off.toNat l.toNat
  memcpyOut first l.toNat fifo.data 0 (len - l).toNat

/-- `in`: the new fifo and the number of elements taken. -/
def inBulk
    (fifo : KfifoT T K)
    (buf : List T)
    (len : SizeT) :
    Option (KfifoT T K × SizeT) := do
  let l := fifo.unused
  let len := if len > l then l else len
  let copied ← fifo.copyIn buf len fifo.in_
  some ({ copied with in_ := copied.in_ + len }, len)

/-- `out_peek`: the buffer and the number of elements. -/
def outPeek
    (fifo : KfifoT T K)
    (buf : List T)
    (len : SizeT) :
    Option (List T × SizeT) := do
  let l := fifo.in_ - fifo.out_
  let len := if len > l then l else len
  let filled ← fifo.copyOut buf len fifo.out_
  some (filled, len)

/-- `out`. -/
def outBulk
    (fifo : KfifoT T K)
    (buf : List T)
    (len : SizeT) :
    Option (KfifoT T K × List T × SizeT) := do
  let (filled, len) ← fifo.outPeek buf len
  some ({ fifo with out_ := fifo.out_ + len }, filled, len)

end KfifoT

end WkcRuntime.Kfifo
