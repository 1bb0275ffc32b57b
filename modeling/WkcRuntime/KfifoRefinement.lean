import WkcRuntime.KfifoSource
import WkcRuntime.RingCounters
import WkcRuntime.RingPositions

namespace WkcRuntime.Kfifo

open RingCounters

/-!
# The element fifo is a bounded queue

The stored elements are a list; `released` counts the elements that have left
the fifo since its counters last were zero.  Single elements and blocks may be
mixed in any order, and the counters may wrap: every call returns what it
returns on a queue of at most `1 << K` elements, and no copy leaves its
operands.
-/

variable {T : Type}

/-- One call of a client; the last argument of a getter is what `val` holds. -/
inductive Op (T : Type) where
  | put (val : T)
  | get (val : T)
  | peek (val : T)
  | inBulk (buf : List T) (len : SizeT)
  | outPeek (buf : List T) (len : SizeT)
  | outBulk (buf : List T) (len : SizeT)
  | reset
  | resetOut
  | len
  | unused
  | isEmpty
  | isFull
  deriving DecidableEq

/-- What a call returns, with the values that it writes for the caller. -/
inductive Output (T : Type) where
  | none
  | flag (answer : Bool)
  | value (answer : Bool) (val : T)
  | count (elements : Nat)
  | block (buf : List T) (elements : Nat)
  deriving DecidableEq

/-- The buffer of the call has the announced length. -/
def Op.Fits : Op T → Prop
  | .inBulk buf asked =>
      asked.toNat ≤ buf.length
  | .outPeek buf asked =>
      asked.toNat ≤ buf.length
  | .outBulk buf asked =>
      asked.toNat ≤ buf.length
  | _ =>
      True

/-- One call in the code. -/
def callCode
    {K : Nat}
    (fifo : KfifoT T K) :
    Op T → Option (KfifoT T K × Output T)
  | .put val =>
      (fifo.put val).map fun result => (result.1, .flag result.2)
  | .get val =>
      (fifo.get val).map fun result =>
        (result.1, .value result.2.1 result.2.2)
  | .peek val =>
      (fifo.peek val).map fun result => (fifo, .value result.1 result.2)
  | .inBulk buf len =>
      (fifo.inBulk buf len).map fun result =>
        (result.1, .count result.2.toNat)
  | .outPeek buf len =>
      (fifo.outPeek buf len).map fun result =>
        (fifo, .block result.1 result.2.toNat)
  | .outBulk buf len =>
      (fifo.outBulk buf len).map fun result =>
        (result.1, .block result.2.1 result.2.2.toNat)
  | .reset =>
      some (fifo.reset, .none)
  | .resetOut =>
      some (fifo.resetOut, .none)
  | .len =>
      some (fifo, .count fifo.len.toNat)
  | .unused =>
      some (fifo, .count fifo.unused.toNat)
  | .isEmpty =>
      some (fifo, .flag fifo.isEmpty)
  | .isFull =>
      some (fifo, .flag fifo.isFull)

/-- The oldest elements, and the rest of the caller's buffer. -/
def takeBlock
    (stored buf : List T)
    (len : Nat) :
    Output T :=
  let taken := min len stored.length
  .block (stored.take taken ++ buf.drop taken) taken

/-- One call on a queue of at most `bound` elements. -/
def callQueue
    (bound : Nat)
    (stored : List T) :
    Op T → List T × Output T
  | .put val =>
      if stored.length < bound then
        (stored ++ [val], .flag true)
      else
        (stored, .flag false)
  | .get val =>
      match stored with
      | [] =>
          ([], .value false val)
      | first :: rest =>
          (rest, .value true first)
  | .peek val =>
      match stored with
      | [] =>
          ([], .value false val)
      | first :: rest =>
          (first :: rest, .value true first)
  | .inBulk buf len =>
      let taken := min len.toNat (bound - stored.length)
      (stored ++ buf.take taken, .count taken)
  | .outPeek buf len =>
      (stored, takeBlock stored buf len.toNat)
  | .outBulk buf len =>
      (stored.drop (min len.toNat stored.length),
        takeBlock stored buf len.toNat)
  | .reset =>
      ([], .none)
  | .resetOut =>
      ([], .none)
  | .len =>
      (stored, .count stored.length)
  | .unused =>
      (stored, .count (bound - stored.length))
  | .isEmpty =>
      (stored, .flag (decide (stored.length = 0)))
  | .isFull =>
      (stored, .flag (decide (bound ≤ stored.length)))

/-- A sequence of calls in the code. -/
def runCode
    {K : Nat} :
    KfifoT T K → List (Op T) → Option (KfifoT T K × List (Output T))
  | fifo, [] =>
      some (fifo, [])
  | fifo, op :: rest => do
      let (next, output) ← callCode fifo op
      let (final, outputs) ← runCode next rest
      some (final, output :: outputs)

/-- A sequence of calls on the queue. -/
def runQueue
    (bound : Nat) :
    List T → List (Op T) → List T × List (Output T)
  | stored, [] =>
      (stored, [])
  | stored, op :: rest =>
      let called := callQueue bound stored op
      let result := runQueue bound called.1 rest
      (result.1, called.2 :: result.2)

section Copying

variable {size : Nat}

/-- What a `memcpy` into the ring leaves behind. -/
theorem memcpyIn_spec
    (data : Vector T size)
    (src : List T)
    {target start len : Nat}
    (room : target + len ≤ size)
    (available : start + len ≤ src.length) :
    ∃ copied,
      memcpyIn data target src start len = some copied ∧
        ∀ cell,
          copied[cell]? =
            if target ≤ cell ∧ cell < target + len then
              src[start + (cell - target)]?
            else
              data[cell]? := by
  refine ⟨_, dif_pos ⟨room, available⟩, ?_⟩
  intro cell
  by_cases inside : cell < size
  · rw [Vector.getElem?_eq_getElem inside, Vector.getElem_ofFn]
    split
    · next within =>
        exact (List.getElem?_eq_getElem _).symm
    · exact (Vector.getElem?_eq_getElem inside).symm
  · have outside : ¬ (target ≤ cell ∧ cell < target + len) := by omega
    rw [if_neg outside, Vector.getElem?_eq_none (by omega),
      Vector.getElem?_eq_none (by omega)]

/-- What a `memcpy` out of the ring gives. -/
theorem memcpyOut_spec
    (dst : List T)
    (data : Vector T size)
    {target start len : Nat}
    (room : target + len ≤ dst.length)
    (available : start + len ≤ size) :
    ∃ copied,
      memcpyOut dst target data start len = some copied ∧
        copied.length = dst.length ∧
        ∀ index,
          copied[index]? =
            if target ≤ index ∧ index < target + len then
              data[start + (index - target)]?
            else
              dst[index]? := by
  refine ⟨_, if_pos ⟨room, available⟩, ?_, ?_⟩
  · simp only [List.length_append, List.length_take, List.length_drop,
      Vector.length_toList]
    omega
  · intro index
    have frontLength : (dst.take target).length = target := by
      rw [List.length_take]
      omega
    have blockLength :
        ((data.toList.drop start).take len).length = len := by
      simp only [List.length_take, List.length_drop, Vector.length_toList]
      omega
    by_cases before : index < target
    · rw [if_neg (by omega), List.getElem?_append_left (by omega)]
      exact List.getElem?_take_of_lt before
    · rw [List.getElem?_append_right (by omega), frontLength]
      by_cases inside : index < target + len
      · rw [if_pos ⟨by omega, inside⟩,
          List.getElem?_append_left (by omega),
          List.getElem?_take_of_lt (by omega), List.getElem?_drop,
          Vector.getElem?_toList]
      · rw [if_neg (by omega), List.getElem?_append_right (by omega),
          blockLength, List.getElem?_drop]
        congr 1
        omega

variable (data : Vector T size)
variable {position len first : Nat}

/-- Two copies put a block into the ring, cut at its end. -/
theorem memcpyIn_ring
    (src : List T)
    (positive : 0 < size)
    (short : len ≤ size)
    (available : len ≤ src.length)
    (cut : first = min len (size - position % size)) :
    ∃ half whole,
      memcpyIn data (position % size) src 0 first = some half ∧
        memcpyIn half 0 src first (len - first) = some whole ∧
        (∀ offset < len,
          whole[(position + offset) % size]? = src[offset]?) ∧
        ∀ cell,
          (∀ offset < len, cell ≠ (position + offset) % size) →
          whole[cell]? = data[cell]? := by
  have inRing := Nat.mod_lt position positive
  have cell {offset : Nat} (inside : offset < len) :=
    RingPositions.cell_of_block positive short cut inside
  obtain ⟨half, firstCopied, halfAt⟩ :=
    @memcpyIn_spec T size data src (position % size) 0 first (by omega)
      (by omega)
  obtain ⟨whole, secondCopied, wholeAt⟩ :=
    @memcpyIn_spec T size half src 0 first (len - first) (by omega)
      (by omega)
  refine ⟨half, whole, firstCopied, secondCopied, ?_, ?_⟩
  · intro offset inside
    rw [cell inside, wholeAt, halfAt]
    by_cases beforeCut : offset < first
    · rw [if_pos beforeCut, if_neg (by omega), if_pos (by omega)]
      congr 1
      omega
    · rw [if_neg beforeCut, if_pos (by omega)]
      congr 1
      omega
  · intro other untouched
    have behindWrap : ¬ (0 ≤ other ∧ other < 0 + (len - first)) := by
      rintro ⟨_, low⟩
      apply untouched (first + other) (by omega)
      rw [cell (by omega), if_neg (by omega)]
      omega
    have beforeWrap :
        ¬ (position % size ≤ other ∧
          other < position % size + first) := by
      rintro ⟨low, high⟩
      apply untouched (other - position % size) (by omega)
      rw [cell (by omega), if_pos (by omega)]
      omega
    rw [wholeAt, if_neg behindWrap, halfAt, if_neg beforeWrap]

/-- Two copies take a block out of the ring, cut at its end. -/
theorem memcpyOut_ring
    (dst : List T)
    (positive : 0 < size)
    (short : len ≤ size)
    (room : len ≤ dst.length)
    (cut : first = min len (size - position % size)) :
    ∃ half whole,
      memcpyOut dst 0 data (position % size) first = some half ∧
        memcpyOut half first data 0 (len - first) = some whole ∧
        ∀ offset,
          whole[offset]? =
            if offset < len then
              data[(position + offset) % size]?
            else
              dst[offset]? := by
  have inRing := Nat.mod_lt position positive
  obtain ⟨half, firstCopied, halfLength, halfAt⟩ :=
    @memcpyOut_spec T size dst data 0 (position % size) first (by omega)
      (by omega)
  obtain ⟨whole, secondCopied, wholeLength, wholeAt⟩ :=
    @memcpyOut_spec T size half data first 0 (len - first) (by omega)
      (by omega)
  refine ⟨half, whole, firstCopied, secondCopied, ?_⟩
  intro offset
  rw [wholeAt, halfAt]
  by_cases inside : offset < len
  · rw [if_pos inside,
      RingPositions.cell_of_block positive short cut inside]
    by_cases beforeCut : offset < first
    · rw [if_pos beforeCut, if_neg (by omega), if_pos (by omega)]
      congr 1
    · rw [if_neg beforeCut, if_pos (by omega)]
      congr 1
      omega
  · rw [if_neg inside, if_neg (by omega), if_neg (by omega)]

end Copying

section Refinement

variable {K : Nat}

/-- The fifo stores these elements, oldest first. -/
structure Holds
    (fifo : KfifoT T K)
    (stored : List T)
    (released : Nat) :
    Prop where
  fits :
    stored.length ≤ 2 ^ K
  out_ :
    fifo.out_ = counter 64 released
  in_ :
    fifo.in_ = counter 64 (released + stored.length)
  cells :
    ∀ index < stored.length,
      fifo.data[(released + index) % 2 ^ K]? = stored[index]?

variable {fifo : KfifoT T K}
variable {stored : List T}
variable {released : Nat}

/-- The capacity as a counter. -/
theorem size_eq
    (small : K ≤ 30)
    (fifo : KfifoT T K) :
    fifo.size = counter 64 (2 ^ K) := by
  have shifts :
      ∀ shift : Fin 31,
        BitVec.signExtend 64 (1 <<< shift.val : BitVec 32) =
          BitVec.ofNat 64 (2 ^ shift.val) := by
    decide
  exact shifts ⟨K, by omega⟩

/-- The smaller of two sizes. -/
theorem toNat_stdMin (a b : SizeT) :
    (stdMin a b).toNat = min a.toNat b.toNat := by
  rw [stdMin]
  split
  · next less =>
      exact (min_eq_right (BitVec.lt_def.mp less).le).symm
  · next notLess =>
      exact (min_eq_left (Nat.not_lt.mp notLess)).symm

/-- A size that is cut to another one. -/
theorem toNat_cut (len limit : SizeT) :
    (if len > limit then limit else len).toNat =
      min len.toNat limit.toNat := by
  split
  · next more =>
      exact (min_eq_right (BitVec.lt_def.mp more).le).symm
  · next notMore =>
      exact (min_eq_left (Nat.not_lt.mp notMore)).symm

namespace Holds

/-- The number of stored elements, from the counters. -/
theorem toNat_len
    (small : K ≤ 30)
    (holds : Holds fifo stored released) :
    (fifo.in_ - fifo.out_).toNat = stored.length := by
  have limit := @pow_lt_pow 64 K (by omega)
  have fits := holds.fits
  rw [holds.in_, holds.out_, toNat_distance (Nat.le_add_right _ _)
    (by omega), Nat.add_sub_cancel_left]

/-- The number of free elements, from the counters. -/
theorem toNat_unused
    (small : K ≤ 30)
    (holds : Holds fifo stored released) :
    fifo.unused.toNat = 2 ^ K - stored.length := by
  have fits := holds.fits
  rw [KfifoT.unused, size_eq small, holds.in_, holds.out_,
    toNat_room (by omega) (Nat.le_add_right _ _) (by omega),
    Nat.add_sub_cancel_left]

/-- The counters are equal when nothing is stored. -/
theorem isEmpty_eq
    (small : K ≤ 30)
    (holds : Holds fifo stored released) :
    fifo.isEmpty = decide (stored.length = 0) := by
  rw [KfifoT.isEmpty]
  apply decide_eq_decide.mpr
  have length := holds.toNat_len small
  constructor
  · intro same
    rw [same, BitVec.sub_self] at length
    exact length.symm
  · intro empty
    rw [holds.in_, holds.out_, empty, Nat.add_zero]

/-- The fifo is full when the queue is. -/
theorem isFull_eq
    (small : K ≤ 30)
    (holds : Holds fifo stored released) :
    fifo.isFull = decide (2 ^ K ≤ stored.length) := by
  rw [KfifoT.isFull]
  apply decide_eq_decide.mpr
  have positive := Nat.two_pow_pos K
  rw [BitVec.lt_def, KfifoT.len, holds.toNat_len small, KfifoT.mask,
    size_eq small, toNat_mask (by omega)]
  omega

/-- The cell behind the last stored element. -/
theorem toNat_in_
    (small : K ≤ 30)
    (holds : Holds fifo stored released) :
    (fifo.in_ &&& fifo.mask).toNat =
      (released + stored.length) % 2 ^ K := by
  rw [KfifoT.mask, size_eq small, holds.in_, toNat_and_mask (by omega)]

/-- The cell of the oldest element. -/
theorem toNat_out_
    (small : K ≤ 30)
    (holds : Holds fifo stored released) :
    (fifo.out_ &&& fifo.mask).toNat = released % 2 ^ K := by
  rw [KfifoT.mask, size_eq small, holds.out_, toNat_and_mask (by omega)]

/-- A block written behind the stored elements. -/
theorem append
    (holds : Holds fifo stored released)
    {piece : List T}
    {data : Vector T (2 ^ K)}
    {in_ : SizeT}
    (room : stored.length + piece.length ≤ 2 ^ K)
    (written :
      ∀ offset < piece.length,
        data[(released + stored.length + offset) % 2 ^ K]? =
          piece[offset]?)
    (kept :
      ∀ cell,
        (∀ offset < piece.length,
          cell ≠ (released + stored.length + offset) % 2 ^ K) →
        data[cell]? = fifo.data[cell]?)
    (moved :
      in_ = counter 64 (released + stored.length + piece.length)) :
    Holds { data, in_, out_ := fifo.out_ } (stored ++ piece) released where
  fits := by
    rw [List.length_append]
    exact room
  out_ := holds.out_
  in_ := by
    rw [List.length_append, ← Nat.add_assoc]
    exact moved
  cells := by
    intro index below
    rw [List.length_append] at below
    by_cases old : index < stored.length
    · rw [List.getElem?_append_left old, ← holds.cells index old]
      apply kept
      intro offset short
      exact RingPositions.cell_ne (by omega) (by omega)
    · have position :
          released + index =
            released + stored.length + (index - stored.length) := by
        omega
      rw [List.getElem?_append_right (by omega), position]
      exact written _ (by omega)

/-- `put` appends unless the queue is full. -/
theorem put
    (small : K ≤ 30)
    (holds : Holds fifo stored released)
    (val : T) :
    ∃ next,
      fifo.put val =
          some (next, decide (stored.length < 2 ^ K)) ∧
        Holds next
          (if stored.length < 2 ^ K then stored ++ [val] else stored)
          released := by
  have full := holds.isFull_eq small
  by_cases room : stored.length < 2 ^ K
  · have notFull : fifo.isFull = false := by
      rw [full]
      exact decide_eq_false (by omega)
    have cell := holds.toNat_in_ small
    have inside : (fifo.in_ &&& fifo.mask).toNat < 2 ^ K := by
      rw [cell]
      exact Nat.mod_lt _ (Nat.two_pow_pos K)
    refine ⟨{ fifo with
        data := fifo.data.set (fifo.in_ &&& fifo.mask).toNat val inside
        in_ := fifo.in_ + 1 }, ?_, ?_⟩
    · rw [KfifoT.put, notFull, if_neg Bool.false_ne_true, dif_pos inside,
        decide_eq_true room]
    · rw [if_pos room]
      apply holds.append
      · rw [List.length_singleton]
        omega
      · intro offset first
        rw [List.length_singleton, Nat.lt_one_iff] at first
        rw [first, Nat.add_zero, ← cell]
        exact Vector.getElem?_set_self inside
      · intro other untouched
        have apart := untouched 0 (by simp)
        rw [Nat.add_zero, ← cell] at apart
        exact Vector.getElem?_set_ne inside (Ne.symm apart)
      · rw [holds.in_, counter_add]
        rfl
  · refine ⟨fifo, ?_, ?_⟩
    · rw [KfifoT.put, full, decide_eq_true (by omega), if_pos rfl,
        decide_eq_false room]
    · rw [if_neg room]
      exact holds

/-- `in` appends what fits. -/
theorem inBulk
    (small : K ≤ 30)
    (holds : Holds fifo stored released)
    {buf : List T}
    {len : SizeT}
    (available : len.toNat ≤ buf.length) :
    ∃ next taken,
      fifo.inBulk buf len = some (next, taken) ∧
        taken.toNat = min len.toNat (2 ^ K - stored.length) ∧
        Holds next
          (stored ++ buf.take (min len.toNat (2 ^ K - stored.length)))
          released := by
  let taken := if len > fifo.unused then fifo.unused else len
  let off := fifo.in_ &&& fifo.mask
  let first := stdMin taken (fifo.size - off)
  have fits := holds.fits
  have takenEq :
      taken.toNat = min len.toNat (2 ^ K - stored.length) := by
    rw [toNat_cut, holds.toNat_unused small]
  have cell : off.toNat = (released + stored.length) % 2 ^ K :=
    holds.toNat_in_ small
  have firstEq :
      first.toNat =
        min taken.toNat
          (2 ^ K - (released + stored.length) % 2 ^ K) := by
    have tail :
        (fifo.size - off).toNat =
          2 ^ K - (released + stored.length) % 2 ^ K := by
      change (fifo.size - (fifo.in_ &&& fifo.mask)).toNat = _
      rw [KfifoT.mask, size_eq small, holds.in_, toNat_tail (by omega)]
    rw [toNat_stdMin, tail]
  have restEq : (taken - first).toNat = taken.toNat - first.toNat := by
    apply BitVec.toNat_sub_of_le
    rw [BitVec.le_def]
    omega
  obtain ⟨half, whole, firstCopy, secondCopy, written, kept⟩ :=
    memcpyIn_ring fifo.data buf (Nat.two_pow_pos K)
      (by omega : taken.toNat ≤ 2 ^ K) (by omega) firstEq
  have pieceLength :
      (buf.take (min len.toNat (2 ^ K - stored.length))).length =
        taken.toNat := by
    rw [List.length_take]
    omega
  refine ⟨{ data := whole, in_ := fifo.in_ + taken, out_ := fifo.out_ },
    taken, ?_, takenEq, ?_⟩
  · rw [← cell] at firstCopy
    rw [← restEq] at secondCopy
    simp only [KfifoT.inBulk, KfifoT.copyIn, bind, Option.bind]
    rw [firstCopy]
    dsimp only
    rw [secondCopy]
  · apply holds.append
    · omega
    · intro offset inside
      rw [pieceLength] at inside
      rw [written offset inside, List.getElem?_take_of_lt (by omega)]
    · intro other untouched
      rw [pieceLength] at untouched
      exact kept other untouched
    · rw [holds.in_, counter_add, pieceLength]

/-- The fifo after the oldest elements have left. -/
theorem drop
    (holds : Holds fifo stored released)
    {taken : Nat}
    {out_ : SizeT}
    (inside : taken ≤ stored.length)
    (moved : out_ = counter 64 (released + taken)) :
    Holds { fifo with out_ } (stored.drop taken) (released + taken) where
  fits := by
    have fits := holds.fits
    rw [List.length_drop]
    omega
  out_ := moved
  in_ := by
    rw [List.length_drop]
    have position :
        released + taken + (stored.length - taken) =
          released + stored.length := by
      omega
    rw [position]
    exact holds.in_
  cells := by
    intro index below
    rw [List.length_drop] at below
    rw [List.getElem?_drop, Nat.add_assoc]
    exact holds.cells (taken + index) (by omega)

/-- The element in the oldest cell. -/
theorem oldest
    (small : K ≤ 30)
    (holds : Holds fifo stored released)
    {first : T}
    {rest : List T}
    (shape : stored = first :: rest) :
    fifo.data[(fifo.out_ &&& fifo.mask).toNat]? = some first := by
  have content := holds.cells 0 (by rw [shape]; exact Nat.succ_pos _)
  rw [holds.toNat_out_ small]
  rw [Nat.add_zero, shape] at content
  exact content

/-- `out_peek` gives the oldest elements. -/
theorem outPeek
    (small : K ≤ 30)
    (holds : Holds fifo stored released)
    {buf : List T}
    {len : SizeT}
    (available : len.toNat ≤ buf.length) :
    ∃ filled taken,
      fifo.outPeek buf len = some (filled, taken) ∧
        taken.toNat = min len.toNat stored.length ∧
        filled =
          stored.take (min len.toNat stored.length) ++
            buf.drop (min len.toNat stored.length) := by
  let taken :=
    if len > fifo.in_ - fifo.out_ then fifo.in_ - fifo.out_ else len
  let off := fifo.out_ &&& fifo.mask
  let first := stdMin taken (fifo.size - off)
  have fits := holds.fits
  have takenEq : taken.toNat = min len.toNat stored.length := by
    rw [toNat_cut, holds.toNat_len small]
  have cell : off.toNat = released % 2 ^ K := holds.toNat_out_ small
  have firstEq :
      first.toNat = min taken.toNat (2 ^ K - released % 2 ^ K) := by
    have tail :
        (fifo.size - off).toNat = 2 ^ K - released % 2 ^ K := by
      change (fifo.size - (fifo.out_ &&& fifo.mask)).toNat = _
      rw [KfifoT.mask, size_eq small, holds.out_, toNat_tail (by omega)]
    rw [toNat_stdMin, tail]
  have restEq : (taken - first).toNat = taken.toNat - first.toNat := by
    apply BitVec.toNat_sub_of_le
    rw [BitVec.le_def]
    omega
  obtain ⟨half, whole, firstCopy, secondCopy, read⟩ :=
    memcpyOut_ring fifo.data buf (Nat.two_pow_pos K)
      (by omega : taken.toNat ≤ 2 ^ K) (by omega) firstEq
  refine ⟨whole, taken, ?_, takenEq, ?_⟩
  · rw [← cell] at firstCopy
    rw [← restEq] at secondCopy
    simp only [KfifoT.outPeek, KfifoT.copyOut, bind, Option.bind]
    rw [firstCopy]
    dsimp only
    rw [secondCopy]
  · apply List.ext_getElem?
    intro index
    have frontLength :
        (stored.take (min len.toNat stored.length)).length =
          taken.toNat := by
      rw [List.length_take]
      omega
    rw [read]
    by_cases inside : index < taken.toNat
    · rw [if_pos inside, List.getElem?_append_left (by omega),
        List.getElem?_take_of_lt (by omega)]
      exact holds.cells index (by omega)
    · rw [if_neg inside, List.getElem?_append_right (by omega),
        frontLength, List.getElem?_drop]
      congr 1
      omega

/-- Every call returns what it returns on the queue. -/
theorem call
    (small : K ≤ 30)
    (holds : Holds fifo stored released)
    {op : Op T}
    (fits : op.Fits) :
    ∃ next later,
      callCode fifo op =
          some (next, (callQueue (2 ^ K) stored op).2) ∧
        Holds next (callQueue (2 ^ K) stored op).1 later := by
  cases op with
  | put val =>
      obtain ⟨next, done, after⟩ := holds.put small val
      refine ⟨next, released, ?_, ?_⟩
      · rw [callCode, done, callQueue]
        split
        · next room => rw [decide_eq_true room]; rfl
        · next full => rw [decide_eq_false full]; rfl
      · rw [callQueue]
        split
        · next room => rwa [if_pos room] at after
        · next full => rwa [if_neg full] at after
  | get val =>
      have empty := holds.isEmpty_eq small
      cases shape : stored with
      | nil =>
          rw [shape] at empty holds
          refine ⟨fifo, released, ?_, holds⟩
          rw [callCode, KfifoT.get, empty]
          rfl
      | cons first rest =>
          have oldest := holds.oldest small shape
          have notEmpty : ¬ fifo.isEmpty = true := by
            rw [empty, shape]
            simp
          refine ⟨{ fifo with out_ := fifo.out_ + 1 }, released + 1,
            ?_, ?_⟩
          · simp only [callCode, KfifoT.get, if_neg notEmpty, oldest,
              bind, Option.bind, Option.map_some, callQueue]
          · have dropped :=
              @holds.drop _ _ _ _ _ 1 (fifo.out_ + 1)
                (by rw [shape]; exact Nat.succ_pos _)
                (by rw [holds.out_, counter_add]; rfl)
            rw [shape] at dropped
            exact dropped
  | peek val =>
      have empty := holds.isEmpty_eq small
      cases shape : stored with
      | nil =>
          rw [shape] at empty holds
          refine ⟨fifo, released, ?_, holds⟩
          rw [callCode, KfifoT.peek, empty]
          rfl
      | cons first rest =>
          have oldest := holds.oldest small shape
          have notEmpty : ¬ fifo.isEmpty = true := by
            rw [empty, shape]
            simp
          rw [shape] at holds
          refine ⟨fifo, released, ?_, holds⟩
          simp only [callCode, KfifoT.peek, if_neg notEmpty, oldest, bind,
            Option.bind, Option.map_some, callQueue]
  | inBulk buf len =>
      obtain ⟨next, taken, done, takenEq, after⟩ :=
        holds.inBulk small fits
      exact ⟨next, released, by rw [callCode, done, callQueue, ← takenEq]; rfl, after⟩
  | outPeek buf len =>
      obtain ⟨filled, taken, done, takenEq, filledEq⟩ :=
        holds.outPeek small fits
      exact ⟨fifo, released,
        by rw [callCode, done, filledEq, callQueue, takeBlock, ← takenEq]
           rfl, holds⟩
  | outBulk buf len =>
      obtain ⟨filled, taken, done, takenEq, filledEq⟩ :=
        holds.outPeek small fits
      refine ⟨{ fifo with out_ := fifo.out_ + taken },
        released + taken.toNat, ?_, ?_⟩
      · rw [callCode, KfifoT.outBulk, done, filledEq, callQueue, takeBlock,
          ← takenEq]
        rfl
      · have dropped :=
          @holds.drop _ _ _ _ _ taken.toNat (fifo.out_ + taken)
            (by omega) (by rw [holds.out_, counter_add])
        rw [takenEq] at dropped
        rw [takenEq]
        exact dropped
  | reset =>
      refine ⟨fifo.reset, 0, rfl, Nat.zero_le _, rfl, rfl, ?_⟩
      intro index below
      exact absurd below (Nat.not_lt_zero _)
  | resetOut =>
      refine ⟨fifo.resetOut, released + stored.length, rfl,
        Nat.zero_le _, holds.in_, holds.in_, ?_⟩
      intro index below
      exact absurd below (Nat.not_lt_zero _)
  | len =>
      exact ⟨fifo, released,
        by rw [callCode, KfifoT.len, holds.toNat_len small]; rfl, holds⟩
  | unused =>
      exact ⟨fifo, released,
        by rw [callCode, holds.toNat_unused small]; rfl, holds⟩
  | isEmpty =>
      exact ⟨fifo, released,
        by rw [callCode, holds.isEmpty_eq small]; rfl, holds⟩
  | isFull =>
      exact ⟨fifo, released,
        by rw [callCode, holds.isFull_eq small]; rfl, holds⟩

/-- Every sequence of calls returns what it returns on the queue. -/
theorem run
    (small : K ≤ 30)
    {ops : List (Op T)}
    (holds : Holds fifo stored released)
    (fits : ∀ op ∈ ops, op.Fits) :
    ∃ final later,
      runCode fifo ops =
          some (final, (runQueue (2 ^ K) stored ops).2) ∧
        Holds final (runQueue (2 ^ K) stored ops).1 later := by
  induction ops generalizing fifo stored released with
  | nil =>
      exact ⟨fifo, released, rfl, holds⟩
  | cons op rest inductionHypothesis =>
      obtain ⟨next, later, called, nextHolds⟩ :=
        holds.call small (fits op List.mem_cons_self)
      obtain ⟨final, last, ran, finalHolds⟩ :=
        inductionHypothesis nextHolds
          (fun other member => fits other (List.mem_cons_of_mem _ member))
      refine ⟨final, last, ?_, finalHolds⟩
      simp only [runCode, runQueue, called, ran, bind, Option.bind]

end Holds

/-- A new fifo stores nothing. -/
theorem holds_new (data : Vector T (2 ^ K)) :
    Holds (KfifoT.new data) [] 0 where
  fits := Nat.zero_le _
  out_ := rfl
  in_ := rfl
  cells := by
    intro index below
    exact absurd below (Nat.not_lt_zero _)

/--
On a new fifo of any capacity every sequence of calls, single elements and
blocks mixed in any order, returns what it returns on a queue of at most
`1 << K` elements, however often the counters wrap.
-/
theorem calls_refine_queue
    {T : Type}
    {K : Nat}
    (small : K ≤ 30)
    (data : Vector T (2 ^ K))
    (ops : List (Op T))
    (fits : ∀ op ∈ ops, op.Fits) :
    (runCode (KfifoT.new data) ops).map Prod.snd =
      some (runQueue (2 ^ K) [] ops).2 := by
  obtain ⟨final, later, ran, _⟩ := (holds_new data).run small fits
  rw [ran]
  rfl

/-- A put that finds the ring full, and a block that wraps round its end. -/
theorem calls_refine_queue_wrapping :
    (runCode (KfifoT.new (Vector.replicate (2 ^ 1) 0))
        [.put 5, .inBulk [6, 7] 2, .put 8, .get 0, .inBulk [9] 1,
          .outBulk [0, 0, 0] 3, .isEmpty]).map Prod.snd =
      some
        [.flag true, .count 1, .flag false, .value true 5, .count 1,
          .block [6, 9, 0] 2, .flag true] :=
  calls_refine_queue (by decide) _ _ (by simp [Op.Fits])

end Refinement

end WkcRuntime.Kfifo
