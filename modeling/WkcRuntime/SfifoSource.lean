namespace WkcRuntime.Sfifo

/-!
# The byte fifo

`utils/sfifo.c`: a ring of bytes with two free running 32-bit counters.  Memory
is a list of bytes; `memcpy` outside of either operand is `none`.  The caller's
buffers are lists as well, so reading or writing behind their end is `none` too.
-/

/-- `sfifo_t`; the fields `in` and `out` are the two counters. -/
structure SfifoT where
  buffer : List UInt8
  size : UInt32
  in_ : UInt32
  out : UInt32
  deriving DecidableEq, Repr

/-- The macro `min`. -/
def minMacro (a b : UInt32) : UInt32 :=
  if a < b then
    a
  else
    b

/-- `memcpy(dst + target, src + from, n)`, giving the new content of `dst`. -/
def memcpy
    (dst : List UInt8)
    (target : Nat)
    (src : List UInt8)
    (start n : Nat) :
    Option (List UInt8) :=
  if target + n ≤ dst.length ∧ start + n ≤ src.length then
    some
      (dst.take target ++
        ((src.drop start).take n ++ dst.drop (target + n)))
  else
    none

/-- `sfifo_init`; `none` when its `malloc` fails. -/
def sfifoInit
    (buffer : List UInt8)
    (size : UInt32)
    (allocated : Bool) :
    Option SfifoT :=
  if allocated then
    some { buffer, size, in_ := 0, out := 0 }
  else
    none

/--
`sfifo_alloc`; `buffer` is what its own `malloc` gives, `allocated` what the one
in `sfifo_init` answers.
-/
def sfifoAlloc
    (size : UInt32)
    (buffer : Option (List UInt8))
    (allocated : Bool) :
    Option SfifoT :=
  match buffer with
  | none =>
      none
  | some buffer =>
      sfifoInit buffer size allocated

/-- `sfifo_put`: the new fifo and the number of bytes taken from `buffer`. -/
def sfifoPut
    (fifo : SfifoT)
    (buffer : List UInt8)
    (len : UInt32) :
    Option (SfifoT × UInt32) := do
  let len := minMacro len (fifo.size - fifo.in_ + fifo.out)
  let l := minMacro len (fifo.size - (fifo.in_ &&& (fifo.size - 1)))
  let first ← memcpy fifo.buffer
    (fifo.in_ &&& (fifo.size - 1)).toNat buffer 0 l.toNat
  let second ← memcpy first 0 buffer l.toNat (len - l).toNat
  some ({ fifo with buffer := second, in_ := fifo.in_ + len }, len)

/-- `sfifo_get`: the new fifo, the caller's buffer and the number of bytes. -/
def sfifoGet
    (fifo : SfifoT)
    (buffer : List UInt8)
    (len : UInt32) :
    Option (SfifoT × List UInt8 × UInt32) := do
  let len := minMacro len (fifo.in_ - fifo.out)
  let l := minMacro len (fifo.size - (fifo.out &&& (fifo.size - 1)))
  let first ← memcpy buffer 0 fifo.buffer
    (fifo.out &&& (fifo.size - 1)).toNat l.toNat
  let second ← memcpy first l.toNat fifo.buffer 0 (len - l).toNat
  some ({ fifo with out := fifo.out + len }, second, len)

/-- `sfifo_rest`. -/
def sfifoRest (fifo : SfifoT) : UInt32 :=
  fifo.in_ - fifo.out

end WkcRuntime.Sfifo
