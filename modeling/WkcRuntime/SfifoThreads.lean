import Mathlib.Logic.Function.Basic
import WkcRuntime.Machine
import WkcRuntime.RingPositions
import WkcRuntime.SfifoSource

namespace WkcRuntime.Sfifo

open RingPositions

/-!
# One writer thread and one reader thread

`sfifo_put` and `sfifo_get` again, cut into their shared accesses: every load
of `in` or `out` written in the code, with each textual evaluation that the
macro `min` makes, every store of them and every copied byte is one step.  The
two functions have the same steps and differ in the counter that they own and
in the number of bytes available to them, so `Phase` is their common program
counter.  The barriers have no effect between sequentially consistent steps.

The fields of the history record, beside the program, which position a cell was
last written for, how many bytes were published and released, what was copied
and what every finished call moved.
-/

/--
Where a call stands.  `cmp` is the comparison of the first `min`, `sel` the
second evaluation of its smaller operand and `wrap` the second `min`; `l`,
`origin` and `own` are loaded values and `moved` counts the bytes copied so far.
-/
inductive Phase where
  | idle
  | cmpIn (asked : UInt32)
  | cmpOut (asked in1 : UInt32)
  | selIn (asked : UInt32)
  | selOut (asked in1 : UInt32)
  | wrapCmp (asked len : UInt32)
  | wrapSel (asked len : UInt32)
  | base (asked len l : UInt32)
  | copy (asked len l origin : UInt32) (moved : Nat)
  | store (asked len own : UInt32) (moved : Nat)
  deriving DecidableEq, Repr

/-- What one step does beside moving on. -/
inductive Effect where
  | silent
  | copy (cell moved : Nat)
  | store (asked len value : UInt32) (moved : Nat)
  deriving DecidableEq, Repr

/-- How many bytes of the caller's buffer the call has accessed. -/
def Phase.moved : Phase → Nat
  | .copy _ _ _ _ moved =>
      moved
  | .store _ _ _ moved =>
      moved
  | _ =>
      0

/--
One step of a call that owns the counter `own` and computes the bytes available
to it from the two counters.
-/
def Phase.step?
    (size in_ out own : UInt32)
    (available : UInt32 → UInt32 → UInt32) :
    Phase → Option (Phase × Effect)
  | .idle =>
      none
  | .cmpIn asked =>
      some (.cmpOut asked in_, .silent)
  | .cmpOut asked in1 =>
      if asked < available in1 out then
        some (.wrapCmp asked asked, .silent)
      else
        some (.selIn asked, .silent)
  | .selIn asked =>
      some (.selOut asked in_, .silent)
  | .selOut asked in1 =>
      some (.wrapCmp asked (available in1 out), .silent)
  | .wrapCmp asked len =>
      if len < size - (own &&& (size - 1)) then
        some (.base asked len len, .silent)
      else
        some (.wrapSel asked len, .silent)
  | .wrapSel asked len =>
      some (.base asked len (size - (own &&& (size - 1))), .silent)
  | .base asked len l =>
      some (.copy asked len l (own &&& (size - 1)) 0, .silent)
  | .copy asked len l origin moved =>
      if moved < l.toNat then
        some (.copy asked len l origin (moved + 1),
          .copy (origin.toNat + moved) moved)
      else if moved < l.toNat + (len - l).toNat then
        some (.copy asked len l origin (moved + 1),
          .copy (moved - l.toNat) moved)
      else
        some (.store asked len own moved, .silent)
  | .store asked len own moved =>
      some (.idle, .store asked len (own + len) moved)

/-- One finished call: what it was asked, moved and returned. -/
structure Transfer where
  asked : UInt32
  moved : Nat
  returned : UInt32
  deriving DecidableEq, Repr

/-- The shared fifo, the two threads and the history. -/
structure State where
  buffer : Nat → UInt8
  in_ : UInt32
  out : UInt32
  writer : Phase
  reader : Phase
  source : Nat → UInt8
  stamp : Nat → Option Nat
  published : Nat
  released : Nat
  copiedIn : List UInt8
  copiedOut : List UInt8
  puts : List Transfer
  gets : List Transfer

/-- A thread calls its function or takes its next step. -/
inductive Action where
  | put (buffer : Nat → UInt8) (len : UInt32)
  | get (len : UInt32)
  | writer
  | reader

/-- `fifo->size - in + out`. -/
def putAvailable (size in_ out : UInt32) : UInt32 :=
  size - in_ + out

/-- `in - out`. -/
def getAvailable (in_ out : UInt32) : UInt32 :=
  in_ - out

/-- The next phase of the writer and its effect. -/
def State.writerStep?
    (size : UInt32)
    (state : State) :
    Option (Phase × Effect) :=
  state.writer.step? size state.in_ state.out state.in_
    (putAvailable size)

/-- The next phase of the reader and its effect. -/
def State.readerStep?
    (size : UInt32)
    (state : State) :
    Option (Phase × Effect) :=
  state.reader.step? size state.in_ state.out state.out getAvailable

/-- The effect of a step of `sfifo_put`. -/
def State.applyPut
    (state : State)
    (phase : Phase) :
    Effect → State
  | .silent =>
      { state with writer := phase }
  | .copy cell moved =>
      { state with
        writer := phase
        buffer :=
          Function.update state.buffer cell (state.source moved)
        stamp :=
          Function.update state.stamp cell (some state.copiedIn.length)
        copiedIn := state.copiedIn ++ [state.source moved] }
  | .store asked len value moved =>
      { state with
        writer := phase
        in_ := value
        published := state.published + len.toNat
        puts := state.puts ++ [⟨asked, moved, len⟩] }

/-- The effect of a step of `sfifo_get`. -/
def State.applyGet
    (state : State)
    (phase : Phase) :
    Effect → State
  | .silent =>
      { state with reader := phase }
  | .copy cell _ =>
      { state with
        reader := phase
        copiedOut := state.copiedOut ++ [state.buffer cell] }
  | .store asked len value moved =>
      { state with
        reader := phase
        out := value
        released := state.released + len.toNat
        gets := state.gets ++ [⟨asked, moved, len⟩] }

/-- One step of the two threads. -/
def step?
    (size : UInt32)
    (state : State) :
    Action → Option State
  | .put buffer len =>
      if state.writer = .idle then
        some { state with writer := .cmpIn len, source := buffer }
      else
        none
  | .get len =>
      if state.reader = .idle then
        some { state with reader := .cmpIn len }
      else
        none
  | .writer =>
      (state.writerStep? size).map fun result =>
        state.applyPut result.1 result.2
  | .reader =>
      (state.readerStep? size).map fun result =>
        state.applyGet result.1 result.2

/-- Both counters at zero, no call running and nothing recorded. -/
structure State.Fresh (state : State) : Prop where
  in_ : state.in_ = 0
  out : state.out = 0
  writer : state.writer = .idle
  reader : state.reader = .idle
  stamp : ∀ cell, state.stamp cell = none
  published : state.published = 0
  released : state.released = 0
  copiedIn : state.copiedIn = []
  copiedOut : state.copiedOut = []
  puts : state.puts = []
  gets : state.gets = []

/-- The two threads on a fifo that `sfifo_init` has just made. -/
def machine (size : UInt32) : Machine State Action where
  Initial := State.Fresh
  step? := step? size

/-- The cell that the writer is about to write. -/
def State.writes
    (size : UInt32)
    (state : State) :
    Option Nat :=
  match state.writerStep? size with
  | some (_, .copy cell _) =>
      some cell
  | _ =>
      none

/-- The cell that the reader is about to read. -/
def State.reads
    (size : UInt32)
    (state : State) :
    Option Nat :=
  match state.readerStep? size with
  | some (_, .copy cell _) =>
      some cell
  | _ =>
      none

end WkcRuntime.Sfifo
