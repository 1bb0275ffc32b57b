import WkcRuntime.Md5Source

namespace WkcRuntime.Md5

/-!
# The compression function as one recurrence

`MD5::transform` is written out as sixty-four assignments that rename the four
registers from line to line.  Here one step of a recurrence moves the registers
on, and tables give what the number of the step selects: the mixing function,
the word of the block, the shift and the constant.
-/

/-- The signature of `MD5::FF`, `MD5::GG`, `MD5::HH` and `MD5::II`. -/
abbrev Line :=
  UInt32 → UInt32 → UInt32 → UInt32 → UInt32 → UInt32 → UInt32 → UInt32

/-- The assignment that mixes with a function. -/
def assign (mix : UInt32 → UInt32 → UInt32 → UInt32) : Line :=
  fun a b c d x s ac =>
    rotateLeft (a + (mix b c d + x + ac)) s + b

/-- One step: the new register is `b`, the others move on. -/
def turn
    (line : Line)
    (x s ac : UInt32)
    (state : State) :
    State where
  a := state.d
  b := line state.a state.b state.c state.d x s ac
  c := state.b
  d := state.c

/-- What the number of a step selects in one round. -/
structure Schedule where
  mix : UInt32 → UInt32 → UInt32 → UInt32
  word : Nat → Nat
  shifts : List UInt32
  constants : List UInt32

/-- The first round takes the words in their order. -/
def schedule1 : Schedule where
  mix := F
  word := fun index => index
  shifts := [S11, S12, S13, S14]
  constants :=
    [0xd76aa478, 0xe8c7b756, 0x242070db, 0xc1bdceee,
      0xf57c0faf, 0x4787c62a, 0xa8304613, 0xfd469501,
      0x698098d8, 0x8b44f7af, 0xffff5bb1, 0x895cd7be,
      0x6b901122, 0xfd987193, 0xa679438e, 0x49b40821]

/-- The second round takes every fifth word, from the second one on. -/
def schedule2 : Schedule where
  mix := G
  word := fun index => (5 * index + 1) % 16
  shifts := [S21, S22, S23, S24]
  constants :=
    [0xf61e2562, 0xc040b340, 0x265e5a51, 0xe9b6c7aa,
      0xd62f105d, 0x02441453, 0xd8a1e681, 0xe7d3fbc8,
      0x21e1cde6, 0xc33707d6, 0xf4d50d87, 0x455a14ed,
      0xa9e3e905, 0xfcefa3f8, 0x676f02d9, 0x8d2a4c8a]

/-- The third round takes every third word, from the sixth one on. -/
def schedule3 : Schedule where
  mix := H
  word := fun index => (3 * index + 5) % 16
  shifts := [S31, S32, S33, S34]
  constants :=
    [0xfffa3942, 0x8771f681, 0x6d9d6122, 0xfde5380c,
      0xa4beea44, 0x4bdecfa9, 0xf6bb4b60, 0xbebfbc70,
      0x289b7ec6, 0xeaa127fa, 0xd4ef3085, 0x04881d05,
      0xd9d4d039, 0xe6db99e5, 0x1fa27cf8, 0xc4ac5665]

/-- The fourth round takes every seventh word. -/
def schedule4 : Schedule where
  mix := I
  word := fun index => (7 * index) % 16
  shifts := [S41, S42, S43, S44]
  constants :=
    [0xf4292244, 0x432aff97, 0xab9423a7, 0xfc93a039,
      0x655b59c3, 0x8f0ccc92, 0xffeff47d, 0x85845dd1,
      0x6fa87e4f, 0xfe2ce6e0, 0xa3014314, 0x4e0811a1,
      0xf7537e82, 0xbd3af235, 0x2ad7d2bb, 0xeb86d391]

/-- The four rounds. -/
def schedules : List Schedule :=
  [schedule1, schedule2, schedule3, schedule4]

/-- One step of a round. -/
def Schedule.step
    (schedule : Schedule)
    (x : Nat → UInt32)
    (state : State)
    (index : Nat) :
    State :=
  turn (assign schedule.mix)
    (x (schedule.word index))
    (schedule.shifts.getD (index % 4) 0)
    (schedule.constants.getD index 0)
    state

/-- The sixteen steps of a round. -/
def Schedule.round
    (schedule : Schedule)
    (x : Nat → UInt32)
    (state : State) :
    State :=
  (List.range 16).foldl (schedule.step x) state

/-- The sixty-four steps, added to the state they start from. -/
def compress
    (x : Nat → UInt32)
    (state : State) :
    State :=
  let final :=
    schedules.foldl
      (fun (state : State) (schedule : Schedule) => schedule.round x state)
      state
  { a := state.a + final.a
    b := state.b + final.b
    c := state.c + final.c
    d := state.d + final.d }

section Rounds

variable (x : Nat → UInt32)
variable (state : State)

/-- Four assignments, one to each register. -/
def row
    (line : Line)
    (x0 s0 ac0 x1 s1 ac1 x2 s2 ac2 x3 s3 ac3 : UInt32)
    (state : State) :
    State :=
  let a := line state.a state.b state.c state.d x0 s0 ac0
  let d := line state.d a state.b state.c x1 s1 ac1
  let c := line state.c d a state.b x2 s2 ac2
  let b := line state.b c d a x3 s3 ac3
  { a, b, c, d }

/-- After four steps the registers have their names again. -/
theorem turn_four
    (line : Line)
    (x0 s0 ac0 x1 s1 ac1 x2 s2 ac2 x3 s3 ac3 : UInt32) :
    turn line x3 s3 ac3
        (turn line x2 s2 ac2
          (turn line x1 s1 ac1
            (turn line x0 s0 ac0 state))) =
      row line x0 s0 ac0 x1 s1 ac1 x2 s2 ac2 x3 s3 ac3 state :=
  rfl

/-- The steps of a round in rows of four. -/
theorem Schedule.round_eq_rows (schedule : Schedule) :
    schedule.round x state =
      [0, 4, 8, 12].foldl
        (fun (state : State) (index : Nat) =>
          schedule.step x
            (schedule.step x
              (schedule.step x
                (schedule.step x state index)
                (index + 1))
              (index + 2))
            (index + 3))
        state :=
  rfl

theorem round1_eq : round1 x state = schedule1.round x state := by
  have line : assign F = FF := rfl
  simp only [Schedule.round_eq_rows, Schedule.step, schedule1, List.foldl,
    line, turn_four, Nat.reduceMod, Nat.reduceAdd,
    List.getD_cons_zero, List.getD_cons_succ]
  rfl

theorem round2_eq : round2 x state = schedule2.round x state := by
  have line : assign G = GG := rfl
  simp only [Schedule.round_eq_rows, Schedule.step, schedule2, List.foldl,
    line, turn_four, Nat.reduceMod, Nat.reduceMul, Nat.reduceAdd,
    List.getD_cons_zero, List.getD_cons_succ]
  rfl

theorem round3_eq : round3 x state = schedule3.round x state := by
  have line : assign H = HH := rfl
  simp only [Schedule.round_eq_rows, Schedule.step, schedule3, List.foldl,
    line, turn_four, Nat.reduceMod, Nat.reduceMul, Nat.reduceAdd,
    List.getD_cons_zero, List.getD_cons_succ]
  rfl

theorem round4_eq : round4 x state = schedule4.round x state := by
  have line : assign I = II := rfl
  simp only [Schedule.round_eq_rows, Schedule.step, schedule4, List.foldl,
    line, turn_four, Nat.reduceMod, Nat.reduceMul, Nat.reduceAdd,
    List.getD_cons_zero, List.getD_cons_succ]
  rfl

end Rounds

/-- The words of a round are the words of the block in another order. -/
theorem words_perm :
    ∀ schedule ∈ schedules,
      ((List.range 16).map schedule.word).Perm (List.range 16) := by
  intro schedule member
  simp only [schedules, List.mem_cons, List.not_mem_nil, or_false] at member
  obtain rfl | rfl | rfl | rfl := member <;> decide

/-- `MD5::transform` takes the words that it decodes through the schedules. -/
theorem transform_eq_schedules
    (state : State)
    (input : List UInt8)
    (start : Nat) :
    transform state input start =
      (decode input start 16).map fun (words : List UInt32) =>
        compress (fun index => words.getD index 0) state := by
  rw [transform]
  cases decode input start 16 with
  | none =>
      rfl
  | some words =>
      simp only [round1_eq, round2_eq, round3_eq, round4_eq, compress,
        schedules, List.foldl, Option.map_some, bind, Option.bind]

/--
`MD5::transform` is the recurrence over the sixteen words that it decodes, and
every round reads each of the words once.
-/
theorem transform_recurrence
    (state : State)
    (input : List UInt8)
    (start : Nat) :
    (transform state input start =
      (decode input start 16).map fun (words : List UInt32) =>
        compress (fun index => words.getD index 0) state) ∧
      ∀ schedule ∈ schedules,
        ((List.range 16).map schedule.word).Perm (List.range 16) :=
  ⟨transform_eq_schedules state input start, words_perm⟩

end WkcRuntime.Md5
