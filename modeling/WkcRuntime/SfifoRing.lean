import WkcRuntime.SfifoThreads

namespace WkcRuntime.Sfifo

open RingPositions

/-!
# The ring under two threads

Each thread works with a counter of its own and with a number of bytes that the
other thread can only increase: free cells for the writer, published bytes for
the reader.  The steps of one call are verified once for both threads from that
number; the invariant of the ring connects the numbers with the counters and
the history.
-/

section Calls

variable {exponent position room : Nat}
variable {Loaded : UInt32 → Prop}

/--
What a running call knows: its counter stands at `position`, `room` bytes are
available to it and no step of the other thread takes one of them away.
-/
def Phase.Ok
    (exponent position room : Nat)
    (Loaded : UInt32 → Prop) :
    Phase → Prop
  | .idle =>
      True
  | .cmpIn _ =>
      True
  | .cmpOut _ in1 =>
      Loaded in1
  | .selIn _ =>
      True
  | .selOut _ in1 =>
      Loaded in1
  | .wrapCmp _ len =>
      len.toNat ≤ room
  | .wrapSel _ len =>
      len.toNat ≤ room ∧
        capacity exponent - position % capacity exponent ≤ len.toNat
  | .base _ len l =>
      len.toNat ≤ room ∧
        l.toNat =
          min len.toNat
            (capacity exponent - position % capacity exponent)
  | .copy _ len l origin moved =>
      len.toNat ≤ room ∧
        l.toNat =
          min len.toNat
            (capacity exponent - position % capacity exponent) ∧
        origin.toNat = position % capacity exponent ∧
        moved ≤ len.toNat
  | .store _ len own moved =>
      len.toNat ≤ room ∧
        own = counter position ∧
        moved = len.toNat

/-- A call keeps what it knows while the other thread moves. -/
theorem Phase.Ok.mono
    {phase : Phase}
    {roomLater : Nat}
    {LoadedLater : UInt32 → Prop}
    (ok : phase.Ok exponent position room Loaded)
    (grows : room ≤ roomLater)
    (stays : ∀ in1, Loaded in1 → LoadedLater in1) :
    phase.Ok exponent position roomLater LoadedLater := by
  cases phase with
  | idle => trivial
  | cmpIn asked => trivial
  | cmpOut asked in1 => exact stays in1 ok
  | selIn asked => trivial
  | selOut asked in1 => exact stays in1 ok
  | wrapCmp asked len => exact le_trans ok grows
  | wrapSel asked len => exact ⟨le_trans ok.1 grows, ok.2⟩
  | base asked len l => exact ⟨le_trans ok.1 grows, ok.2⟩
  | copy asked len l origin moved => exact ⟨le_trans ok.1 grows, ok.2⟩
  | store asked len own moved => exact ⟨le_trans ok.1 grows, ok.2⟩

/-- What the effect of a step means for a call at a position. -/
def Effect.Follows
    (exponent position room : Nat)
    (before after : Phase) :
    Effect → Prop
  | .silent =>
      after.moved = before.moved
  | .copy cell moved =>
      moved = before.moved ∧
        after.moved = moved + 1 ∧
        moved < room ∧
        cell = (position + moved) % capacity exponent
  | .store _ len value moved =>
      moved = before.moved ∧
        after = .idle ∧
        moved = len.toNat ∧
        len.toNat ≤ room ∧
        value = counter (position + len.toNat)

/-- One step of a call keeps what it knows and has the expected effect. -/
theorem Phase.Ok.step
    {phase next : Phase}
    {effect : Effect}
    {in_ out own : UInt32}
    {available : UInt32 → UInt32 → UInt32}
    (small : exponent ≤ 31)
    (ok : phase.Ok exponent position room Loaded)
    (bounded : room ≤ capacity exponent)
    (loads : Loaded in_)
    (owns : own = counter position)
    (offers : ∀ in1, Loaded in1 → (available in1 out).toNat ≤ room)
    (stepped :
      phase.step? (counter (capacity exponent)) in_ out own available =
        some (next, effect)) :
    next.Ok exponent position room Loaded ∧
      effect.Follows exponent position room phase next := by
  have tail :
      (counter (capacity exponent) -
          (own &&& (counter (capacity exponent) - 1))).toNat =
        capacity exponent - position % capacity exponent := by
    rw [owns]
    exact toNat_tail small position
  cases phase with
  | idle =>
      simp [Phase.step?] at stepped
  | cmpIn asked =>
      simp only [Phase.step?, Option.some.injEq, Prod.mk.injEq] at stepped
      obtain ⟨rfl, rfl⟩ := stepped
      exact ⟨loads, rfl⟩
  | cmpOut asked in1 =>
      by_cases less : asked < available in1 out
      · simp only [Phase.step?, if_pos less, Option.some.injEq,
          Prod.mk.injEq] at stepped
        obtain ⟨rfl, rfl⟩ := stepped
        have offered := offers in1 ok
        have smaller := UInt32.lt_iff_toNat_lt.mp less
        exact ⟨le_trans smaller.le offered, rfl⟩
      · simp only [Phase.step?, if_neg less, Option.some.injEq,
          Prod.mk.injEq] at stepped
        obtain ⟨rfl, rfl⟩ := stepped
        exact ⟨trivial, rfl⟩
  | selIn asked =>
      simp only [Phase.step?, Option.some.injEq, Prod.mk.injEq] at stepped
      obtain ⟨rfl, rfl⟩ := stepped
      exact ⟨loads, rfl⟩
  | selOut asked in1 =>
      simp only [Phase.step?, Option.some.injEq, Prod.mk.injEq] at stepped
      obtain ⟨rfl, rfl⟩ := stepped
      exact ⟨offers in1 ok, rfl⟩
  | wrapCmp asked len =>
      have fits : len.toNat ≤ room := ok
      by_cases less :
          len < counter (capacity exponent) -
            (own &&& (counter (capacity exponent) - 1))
      · simp only [Phase.step?, if_pos less, Option.some.injEq,
          Prod.mk.injEq] at stepped
        obtain ⟨rfl, rfl⟩ := stepped
        have smaller := UInt32.lt_iff_toNat_lt.mp less
        rw [tail] at smaller
        exact ⟨⟨fits, (min_eq_left smaller.le).symm⟩, rfl⟩
      · simp only [Phase.step?, if_neg less, Option.some.injEq,
          Prod.mk.injEq] at stepped
        obtain ⟨rfl, rfl⟩ := stepped
        have notSmaller :=
          mt UInt32.lt_iff_toNat_lt.mpr less
        rw [tail] at notSmaller
        exact ⟨⟨fits, Nat.not_lt.mp notSmaller⟩, rfl⟩
  | wrapSel asked len =>
      simp only [Phase.step?, Option.some.injEq, Prod.mk.injEq] at stepped
      obtain ⟨rfl, rfl⟩ := stepped
      refine ⟨⟨ok.1, ?_⟩, rfl⟩
      rw [tail]
      exact (min_eq_right ok.2).symm
  | base asked len l =>
      simp only [Phase.step?, Option.some.injEq, Prod.mk.injEq] at stepped
      obtain ⟨rfl, rfl⟩ := stepped
      refine ⟨⟨ok.1, ok.2, ?_, Nat.zero_le _⟩, rfl⟩
      rw [owns]
      exact toNat_mask small position
  | copy asked len l origin moved =>
      obtain ⟨fits, cut, originEq, movedLe⟩ := ok
      have cutLe : l.toNat ≤ len.toNat := by omega
      have restEq : (len - l).toNat = len.toNat - l.toNat :=
        UInt32.toNat_sub_of_le len l (UInt32.le_iff_toNat_le.mpr cutLe)
      by_cases beforeCut : moved < l.toNat
      · simp only [Phase.step?, if_pos beforeCut, Option.some.injEq,
          Prod.mk.injEq] at stepped
        obtain ⟨rfl, rfl⟩ := stepped
        refine ⟨⟨fits, cut, originEq, by omega⟩, rfl, rfl, by omega, ?_⟩
        rw [cell_of_block (Nat.two_pow_pos exponent)
          (le_trans fits bounded) cut (by omega : moved < len.toNat),
          if_pos beforeCut, originEq]
      · by_cases beforeEnd : moved < l.toNat + (len - l).toNat
        · simp only [Phase.step?, if_neg beforeCut, if_pos beforeEnd,
            Option.some.injEq, Prod.mk.injEq] at stepped
          obtain ⟨rfl, rfl⟩ := stepped
          refine ⟨⟨fits, cut, originEq, by omega⟩, rfl, rfl, by omega, ?_⟩
          rw [cell_of_block (Nat.two_pow_pos exponent)
            (le_trans fits bounded) cut (by omega : moved < len.toNat),
            if_neg beforeCut]
        · simp only [Phase.step?, if_neg beforeCut, if_neg beforeEnd,
            Option.some.injEq, Prod.mk.injEq] at stepped
          obtain ⟨rfl, rfl⟩ := stepped
          exact ⟨⟨fits, owns, by omega⟩, rfl⟩
  | store asked len loaded moved =>
      obtain ⟨fits, ownEq, movedEq⟩ := ok
      simp only [Phase.step?, Option.some.injEq, Prod.mk.injEq] at stepped
      obtain ⟨rfl, rfl⟩ := stepped
      refine ⟨trivial, rfl, rfl, movedEq, fits, ?_⟩
      rw [ownEq, counter_add]

end Calls

section Ring

variable {exponent : Nat}

/-- The counters, the calls in progress and the cells agree with the history. -/
structure Sound
    (exponent : Nat)
    (state : State) :
    Prop where
  in_ :
    state.in_ = counter state.published
  out :
    state.out = counter state.released
  ordered :
    state.released ≤ state.published
  bounded :
    state.published ≤ state.released + capacity exponent
  writer :
    state.writer.Ok exponent state.published
      (capacity exponent - (state.published - state.released))
      (fun in1 => in1 = state.in_)
  reader :
    state.reader.Ok exponent state.released
      (state.published - state.released)
      (fun in1 =>
        (getAvailable in1 state.out).toNat ≤
          state.published - state.released)
  copiedIn :
    state.copiedIn.length = state.published + state.writer.moved
  copiedOut :
    state.copiedOut.length = state.released + state.reader.moved
  stored :
    ∀ position,
      state.released ≤ position →
      position < state.copiedIn.length →
      state.stamp (position % capacity exponent) = some position ∧
        state.copiedIn[position]? =
          some (state.buffer (position % capacity exponent))
  stamped :
    ∀ cell position,
      state.stamp cell = some position →
      cell = position % capacity exponent
  taken :
    state.copiedOut <+: state.copiedIn

/-- A fresh fifo is sound. -/
theorem State.Fresh.sound
    {state : State}
    (fresh : state.Fresh) :
    Sound exponent state := by
  refine ⟨?_, ?_, ?_, ?_, ?_, ?_, ?_, ?_, ?_, ?_, ?_⟩
  · rw [fresh.in_, fresh.published]
    rfl
  · rw [fresh.out, fresh.released]
    rfl
  · rw [fresh.released, fresh.published]
  · rw [fresh.published]
    exact Nat.zero_le _
  · rw [fresh.writer]
    trivial
  · rw [fresh.reader]
    trivial
  · rw [fresh.copiedIn, fresh.published, fresh.writer]
    rfl
  · rw [fresh.copiedOut, fresh.released, fresh.reader]
    rfl
  · intro position _ inside
    simp [fresh.copiedIn] at inside
  · intro cell position stamped
    simp [fresh.stamp cell] at stamped
  · rw [fresh.copiedOut]
    exact List.nil_prefix

namespace Sound

variable {state : State}

/-- The bytes that the writer finds free. -/
theorem toNat_putAvailable
    (small : exponent ≤ 31)
    (sound : Sound exponent state) :
    (putAvailable (counter (capacity exponent))
        state.in_ state.out).toNat =
      capacity exponent - (state.published - state.released) := by
  have bound := capacity_lt small
  rw [putAvailable, sound.in_, sound.out,
    counter_free sound.ordered sound.bounded]
  exact toNat_counter_of_lt (by omega)

/-- The bytes that the reader finds published. -/
theorem toNat_getAvailable
    (small : exponent ≤ 31)
    (sound : Sound exponent state) :
    (getAvailable state.in_ state.out).toNat =
      state.published - state.released := by
  have bound := capacity_lt small
  have bounded := sound.bounded
  rw [getAvailable, sound.in_, sound.out, counter_sub sound.ordered]
  exact toNat_counter_of_lt (by omega)

/-- The specification of a writer step. -/
theorem writerStep
    (small : exponent ≤ 31)
    (sound : Sound exponent state)
    {next : Phase}
    {effect : Effect}
    (stepped :
      state.writerStep? (counter (capacity exponent)) =
        some (next, effect)) :
    next.Ok exponent state.published
        (capacity exponent - (state.published - state.released))
        (fun in1 => in1 = state.in_) ∧
      effect.Follows exponent state.published
        (capacity exponent - (state.published - state.released))
        state.writer next := by
  refine sound.writer.step small (Nat.sub_le _ _) rfl sound.in_ ?_ stepped
  rintro in1 rfl
  exact (sound.toNat_putAvailable small).le

/-- The specification of a reader step. -/
theorem readerStep
    (small : exponent ≤ 31)
    (sound : Sound exponent state)
    {next : Phase}
    {effect : Effect}
    (stepped :
      state.readerStep? (counter (capacity exponent)) =
        some (next, effect)) :
    next.Ok exponent state.released
        (state.published - state.released)
        (fun in1 =>
          (getAvailable in1 state.out).toNat ≤
            state.published - state.released) ∧
      effect.Follows exponent state.released
        (state.published - state.released)
        state.reader next := by
  have bounded := sound.bounded
  refine sound.reader.step small (by omega)
    (sound.toNat_getAvailable small).le sound.out ?_ stepped
  intro in1 loaded
  exact loaded

/-- A step of `sfifo_put` keeps the ring sound. -/
theorem applyPut
    (sound : Sound exponent state)
    {next : Phase}
    {effect : Effect}
    (ok :
      next.Ok exponent state.published
        (capacity exponent - (state.published - state.released))
        (fun in1 => in1 = state.in_))
    (follows :
      effect.Follows exponent state.published
        (capacity exponent - (state.published - state.released))
        state.writer next) :
    Sound exponent (state.applyPut next effect) := by
  have ordered := sound.ordered
  have bounded := sound.bounded
  have length := sound.copiedIn
  cases effect with
  | silent =>
      have sameMoved : next.moved = state.writer.moved := follows
      exact { sound with
        writer := ok
        copiedIn := by
          rw [State.applyPut, sameMoved]
          exact length }
  | copy cell moved =>
      obtain ⟨movedEq, movedNext, inRoom, rfl⟩ := follows
      have position : state.published + moved = state.copiedIn.length := by
        omega
      have oldCell :
          ∀ old,
            state.released ≤ old →
            old < state.copiedIn.length →
            old % capacity exponent ≠
              (state.published + moved) % capacity exponent :=
        fun old _ _ => cell_ne (by omega) (by omega)
      refine { sound with
        writer := ok
        copiedIn := ?_
        stored := ?_
        stamped := ?_
        taken := ?_ }
      · simp only [State.applyPut, List.length_append,
          List.length_singleton]
        omega
      · intro old notReleased inside
        simp only [State.applyPut, List.length_append,
          List.length_singleton] at inside notReleased ⊢
        by_cases before : old < state.copiedIn.length
        · have apart := oldCell old notReleased before
          rw [Function.update_of_ne apart, Function.update_of_ne apart,
            List.getElem?_append_left before]
          exact sound.stored old notReleased before
        · obtain rfl : old = state.published + moved := by omega
          rw [Function.update_self, Function.update_self, position]
          exact ⟨rfl, List.getElem?_concat_length⟩
      · intro other old stamped
        simp only [State.applyPut] at stamped
        by_cases same :
            other = (state.published + moved) % capacity exponent
        · rw [same, Function.update_self, Option.some.injEq] at stamped
          rw [same, ← stamped, position]
        · rw [Function.update_of_ne same] at stamped
          exact sound.stamped other old stamped
      · exact sound.taken.trans (List.prefix_append _ _)
  | store asked len value moved =>
      obtain ⟨movedEq, rfl, movedAll, inRoom, valueEq⟩ := follows
      refine { sound with
        in_ := valueEq
        ordered := ?_
        bounded := ?_
        writer := trivial
        reader := ?_
        copiedIn := ?_ }
      · simp only [State.applyPut]
        omega
      · simp only [State.applyPut]
        omega
      · apply sound.reader.mono
        · simp only [State.applyPut]
          omega
        · intro in1 loaded
          apply le_trans loaded
          simp only [State.applyPut]
          omega
      · simp only [State.applyPut, Phase.moved]
        omega

/-- A step of `sfifo_get` keeps the ring sound. -/
theorem applyGet
    (sound : Sound exponent state)
    {next : Phase}
    {effect : Effect}
    (ok :
      next.Ok exponent state.released
        (state.published - state.released)
        (fun in1 =>
          (getAvailable in1 state.out).toNat ≤
            state.published - state.released))
    (follows :
      effect.Follows exponent state.released
        (state.published - state.released)
        state.reader next) :
    Sound exponent (state.applyGet next effect) := by
  have ordered := sound.ordered
  have bounded := sound.bounded
  have length := sound.copiedOut
  cases effect with
  | silent =>
      have sameMoved : next.moved = state.reader.moved := follows
      exact { sound with
        reader := ok
        copiedOut := by
          rw [State.applyGet, sameMoved]
          exact length }
  | copy cell moved =>
      obtain ⟨movedEq, movedNext, inRoom, rfl⟩ := follows
      have position :
          state.released + moved = state.copiedOut.length := by
        omega
      have copied := sound.copiedIn
      obtain ⟨_, content⟩ :=
        sound.stored (state.released + moved) (by omega) (by omega)
      refine { sound with
        reader := ok
        copiedOut := ?_
        taken := ?_ }
      · simp only [State.applyGet, List.length_append,
          List.length_singleton]
        omega
      · obtain ⟨rest, whole⟩ := sound.taken
        rw [position, ← whole, List.getElem?_append_right le_rfl,
          Nat.sub_self] at content
        cases rest with
        | nil =>
            simp at content
        | cons first rest =>
            simp only [List.getElem?_cons_zero,
              Option.some.injEq] at content
            refine ⟨rest, ?_⟩
            simp only [State.applyGet]
            rw [← whole, position, ← content, List.append_assoc,
              List.singleton_append]
  | store asked len value moved =>
      obtain ⟨movedEq, rfl, movedAll, inRoom, valueEq⟩ := follows
      refine { sound with
        out := valueEq
        ordered := ?_
        bounded := ?_
        writer := ?_
        reader := trivial
        copiedOut := ?_
        stored := ?_ }
      · simp only [State.applyGet]
        omega
      · simp only [State.applyGet]
        omega
      · refine sound.writer.mono ?_ (fun _ loaded => loaded)
        simp only [State.applyGet]
        omega
      · simp only [State.applyGet, Phase.moved]
        omega
      · intro position notReleased inside
        refine sound.stored position ?_ inside
        simp only [State.applyGet] at notReleased
        omega

/-- Every step of either thread keeps the ring sound. -/
theorem step
    (small : exponent ≤ 31)
    (sound : Sound exponent state)
    {action : Action}
    {next : State}
    (stepped :
      step? (counter (capacity exponent)) state action = some next) :
    Sound exponent next := by
  cases action with
  | put buffer len =>
      simp only [step?, Option.ite_none_right_eq_some,
        Option.some.injEq] at stepped
      obtain ⟨idle, rfl⟩ := stepped
      refine { sound with
        writer := trivial
        copiedIn := ?_ }
      have length := sound.copiedIn
      rw [idle] at length
      exact length
  | get len =>
      simp only [step?, Option.ite_none_right_eq_some,
        Option.some.injEq] at stepped
      obtain ⟨idle, rfl⟩ := stepped
      refine { sound with
        reader := trivial
        copiedOut := ?_ }
      have length := sound.copiedOut
      rw [idle] at length
      exact length
  | writer =>
      simp only [step?, Option.map_eq_some_iff] at stepped
      obtain ⟨⟨phase, effect⟩, stepped, rfl⟩ := stepped
      obtain ⟨ok, follows⟩ := sound.writerStep small stepped
      exact sound.applyPut ok follows
  | reader =>
      simp only [step?, Option.map_eq_some_iff] at stepped
      obtain ⟨⟨phase, effect⟩, stepped, rfl⟩ := stepped
      obtain ⟨ok, follows⟩ := sound.readerStep small stepped
      exact sound.applyGet ok follows

end Sound

/-- Every reachable state of the two threads is sound. -/
theorem sound_of_reachable
    {state : State}
    (small : exponent ≤ 31)
    (reachable :
      (machine (counter (capacity exponent))).Reachable state) :
    Sound exponent state := by
  apply reachable.invariant
  · intro start fresh
    exact State.Fresh.sound fresh
  · intro before after action sound _ stepped
    exact sound.step small stepped

/--
In every reachable state the counters are at most the size apart, the writer is
not about to write a cell with a published byte that is not released, the reader
is not about to read a cell whose byte is not published, and the bytes copied
out are a prefix of the bytes copied in.
-/
theorem ring_safe
    (exponent : Nat)
    {size : UInt32}
    (isPower : size.toNat = 2 ^ exponent)
    {state : State}
    (reachable : (machine size).Reachable state) :
    state.in_ - state.out ≤ size ∧
      (∀ cell,
        state.writes size = some cell →
        ¬ ∃ position,
          state.stamp cell = some position ∧
            state.released ≤ position ∧
            position < state.published) ∧
      (∀ cell,
        state.reads size = some cell →
        ∃ position,
          state.stamp cell = some position ∧
            position < state.published) ∧
      state.copiedOut <+: state.copiedIn := by
  obtain ⟨small, rfl⟩ := exists_capacity isPower
  have sound := sound_of_reachable small reachable
  have ordered := sound.ordered
  have bounded := sound.bounded
  refine ⟨?_, ?_, ?_, sound.taken⟩
  · have near :
        state.published - state.released ≤ capacity exponent := by
      omega
    rw [UInt32.le_iff_toNat_le, isPower]
    exact le_trans (sound.toNat_getAvailable small).le near
  · rintro cell writes ⟨position, stamped, notReleased, published⟩
    unfold State.writes at writes
    split at writes
    · rename_i next written moved stepped
      obtain ⟨_, _, _, inRoom, cellEq⟩ := sound.writerStep small stepped
      simp only [Option.some.injEq] at writes
      subst writes
      have apart :
          position % capacity exponent ≠
            (state.published + moved) % capacity exponent :=
        cell_ne (by omega) (by omega)
      exact apart ((sound.stamped _ _ stamped).symm.trans cellEq)
    · cases writes
  · intro cell reads
    unfold State.reads at reads
    split at reads
    · rename_i next read moved stepped
      obtain ⟨_, _, _, inRoom, cellEq⟩ := sound.readerStep small stepped
      simp only [Option.some.injEq] at reads
      subst reads
      have copied := sound.copiedIn
      obtain ⟨stamped, _⟩ :=
        sound.stored (state.released + moved) (by omega) (by omega)
      exact ⟨state.released + moved, by rw [cellEq, stamped], by omega⟩
    · cases reads

/-- A fifo of two bytes before any call. -/
def freshState : State where
  buffer := fun _ => 0
  in_ := 0
  out := 0
  writer := .idle
  reader := .idle
  source := fun _ => 0
  stamp := fun _ => none
  published := 0
  released := 0
  copiedIn := []
  copiedOut := []
  puts := []
  gets := []

theorem freshState_fresh : freshState.Fresh := by
  refine ⟨rfl, rfl, rfl, rfl, ?_, rfl, rfl, rfl, rfl, rfl, rfl⟩
  intro cell
  rfl

/-- Two bytes put, and one of them read by a get that is still running. -/
theorem ring_safe_running :
    ∃ state,
      (machine 2).Reachable state ∧
        state.copiedOut.length = 1 ∧
        state.in_ - state.out ≤ 2 ∧
        state.copiedOut <+: state.copiedIn := by
  obtain ⟨state, reachable, copied⟩ :=
    Machine.exists_reachable
      (machine 2)
      freshState
      (.put (fun index => UInt8.ofNat index) 2 ::
          List.replicate 11 .writer ++
          .get 1 :: List.replicate 5 .reader)
      (fun state => decide (state.copiedOut.length = 1))
      freshState_fresh
      (by decide)
  obtain ⟨near, _, _, taken⟩ := ring_safe 1 rfl reachable
  exact ⟨state, reachable, of_decide_eq_true copied, near, taken⟩

end Ring

end WkcRuntime.Sfifo
