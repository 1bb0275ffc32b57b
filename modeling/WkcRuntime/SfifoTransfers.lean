import WkcRuntime.SfifoRing

namespace WkcRuntime.Sfifo

open RingPositions

/-!
# No call transfers more than it was asked for

The macro `min` computes its smaller operand a second time.  In between, the
other thread may store its counter, and the second value may exceed the length
that the first one was compared with.  As long as no such store raises the
available bytes above the length of the call in that window, every call stays
within its length; a store that does so makes the call exceed its length.
-/

/-- The length of a put between its comparison and its second load of `out`. -/
def Phase.putWindow : Phase → Option UInt32
  | .selIn asked =>
      some asked
  | .selOut asked _ =>
      some asked
  | _ =>
      none

/--
The length of a get between its first load of `in`, when that does not exceed
the length, and its second one.
-/
def Phase.getWindow (out : UInt32) : Phase → Option UInt32
  | .cmpOut asked in1 =>
      if asked < getAvailable in1 out then
        none
      else
        some asked
  | .selIn asked =>
      some asked
  | _ =>
      none

/--
A store does not raise the bytes available to the other thread above the length
of a call that is between the two evaluations of its `min`.
-/
def SparesMin
    (size : UInt32)
    (state : State) :
    Action → Prop
  | .reader =>
      match state.reader, state.writer.putWindow with
      | .store _ len own _, some asked =>
          putAvailable size state.in_ (own + len) ≤ asked
      | _, _ =>
          True
  | .writer =>
      match state.writer, state.reader.getWindow state.out with
      | .store _ len own _, some asked =>
          getAvailable (own + len) state.out ≤ asked
      | _, _ =>
          True
  | .put _ _ =>
      True
  | .get _ =>
      True

instance (size : UInt32) (state : State) (action : Action) :
    Decidable (SparesMin size state action) := by
  unfold SparesMin
  split <;> try split
  all_goals infer_instance

/-- A running call has not accessed more bytes than it was asked for. -/
def Phase.Modest : Phase → Prop
  | .copy asked _ _ _ moved =>
      moved ≤ asked.toNat
  | .store asked _ _ moved =>
      moved ≤ asked.toNat
  | _ =>
      True

/-- A finished call moved and returned no more than it was asked for. -/
def Transfer.Modest (transfer : Transfer) : Prop :=
  transfer.moved ≤ transfer.asked.toNat ∧
    transfer.returned ≤ transfer.asked

/-- No call, running or finished, has exceeded its length. -/
structure State.Modest (state : State) : Prop where
  writer :
    state.writer.Modest
  reader :
    state.reader.Modest
  puts :
    ∀ transfer ∈ state.puts, transfer.Modest
  gets :
    ∀ transfer ∈ state.gets, transfer.Modest

section Calls

variable {Compared Loaded : UInt32 → UInt32 → Prop}
variable {Selecting : UInt32 → Prop}

/--
The length of a call bounds what it has computed.  The three conditions speak
about the phases in which the second evaluation of `min` is still to come.
-/
def Phase.Capped
    (Compared : UInt32 → UInt32 → Prop)
    (Selecting : UInt32 → Prop)
    (Loaded : UInt32 → UInt32 → Prop) :
    Phase → Prop
  | .idle =>
      True
  | .cmpIn _ =>
      True
  | .cmpOut asked in1 =>
      Compared asked in1
  | .selIn asked =>
      Selecting asked
  | .selOut asked in1 =>
      Loaded asked in1
  | .wrapCmp asked len =>
      len ≤ asked
  | .wrapSel asked len =>
      len ≤ asked
  | .base asked len _ =>
      len ≤ asked
  | .copy asked len _ _ _ =>
      len ≤ asked
  | .store asked len _ _ =>
      len ≤ asked

/-- One step of a call keeps its length as a bound. -/
theorem Phase.Capped.step
    {phase next : Phase}
    {effect : Effect}
    {size in_ out own : UInt32}
    {available : UInt32 → UInt32 → UInt32}
    (capped : phase.Capped Compared Selecting Loaded)
    (compares : ∀ asked, Compared asked in_)
    (selects :
      ∀ asked in1,
        Compared asked in1 →
        ¬ asked < available in1 out →
        Selecting asked)
    (loads : ∀ asked, Selecting asked → Loaded asked in_)
    (takes :
      ∀ asked in1,
        Loaded asked in1 →
        available in1 out ≤ asked)
    (stepped :
      phase.step? size in_ out own available = some (next, effect)) :
    next.Capped Compared Selecting Loaded := by
  cases phase with
  | idle =>
      simp [Phase.step?] at stepped
  | cmpIn asked =>
      simp only [Phase.step?, Option.some.injEq, Prod.mk.injEq] at stepped
      obtain ⟨rfl, _⟩ := stepped
      exact compares asked
  | cmpOut asked in1 =>
      by_cases less : asked < available in1 out
      · simp only [Phase.step?, if_pos less, Option.some.injEq,
          Prod.mk.injEq] at stepped
        obtain ⟨rfl, _⟩ := stepped
        exact UInt32.le_refl asked
      · simp only [Phase.step?, if_neg less, Option.some.injEq,
          Prod.mk.injEq] at stepped
        obtain ⟨rfl, _⟩ := stepped
        exact selects asked in1 capped less
  | selIn asked =>
      simp only [Phase.step?, Option.some.injEq, Prod.mk.injEq] at stepped
      obtain ⟨rfl, _⟩ := stepped
      exact loads asked capped
  | selOut asked in1 =>
      simp only [Phase.step?, Option.some.injEq, Prod.mk.injEq] at stepped
      obtain ⟨rfl, _⟩ := stepped
      exact takes asked in1 capped
  | wrapCmp asked len =>
      simp only [Phase.step?] at stepped
      split at stepped
      all_goals
        simp only [Option.some.injEq, Prod.mk.injEq] at stepped
        obtain ⟨rfl, _⟩ := stepped
        exact capped
  | wrapSel asked len =>
      simp only [Phase.step?, Option.some.injEq, Prod.mk.injEq] at stepped
      obtain ⟨rfl, _⟩ := stepped
      exact capped
  | base asked len l =>
      simp only [Phase.step?, Option.some.injEq, Prod.mk.injEq] at stepped
      obtain ⟨rfl, _⟩ := stepped
      exact capped
  | copy asked len l origin moved =>
      simp only [Phase.step?] at stepped
      split at stepped
      · simp only [Option.some.injEq, Prod.mk.injEq] at stepped
        obtain ⟨rfl, _⟩ := stepped
        exact capped
      · split at stepped
        all_goals
          simp only [Option.some.injEq, Prod.mk.injEq] at stepped
          obtain ⟨rfl, _⟩ := stepped
          exact capped
  | store asked len loaded moved =>
      simp only [Phase.step?, Option.some.injEq, Prod.mk.injEq] at stepped
      obtain ⟨rfl, _⟩ := stepped
      trivial

/-- A call that is capped and counts correctly is modest. -/
theorem Phase.Capped.modest
    {exponent position room : Nat}
    {OkLoaded : UInt32 → Prop}
    {phase : Phase}
    (capped : phase.Capped Compared Selecting Loaded)
    (ok : phase.Ok exponent position room OkLoaded) :
    phase.Modest := by
  cases phase with
  | copy asked len l origin moved =>
      exact le_trans ok.2.2.2 (UInt32.le_iff_toNat_le.mp capped)
  | store asked len own moved =>
      obtain ⟨_, _, movedAll⟩ := ok
      apply le_trans movedAll.le
      exact UInt32.le_iff_toNat_le.mp capped
  | _ =>
      trivial

/-- Only the last step of a call stores a counter. -/
theorem Phase.eq_store_of_step
    {phase next : Phase}
    {size in_ out own asked len value : UInt32}
    {moved : Nat}
    {available : UInt32 → UInt32 → UInt32}
    (stepped :
      phase.step? size in_ out own available =
        some (next, .store asked len value moved)) :
    ∃ loaded,
      phase = .store asked len loaded moved ∧
        value = loaded + len ∧ next = .idle := by
  cases phase with
  | store storeAsked storeLen loaded storeMoved =>
      simp only [Phase.step?, Option.some.injEq, Prod.mk.injEq,
        Effect.store.injEq] at stepped
      obtain ⟨rfl, rfl, rfl, rfl, rfl⟩ := stepped
      exact ⟨loaded, rfl, rfl, rfl⟩
  | cmpOut cmpAsked in1 =>
      simp only [Phase.step?] at stepped
      split at stepped <;> simp at stepped
  | wrapCmp wrapAsked wrapLen =>
      simp only [Phase.step?] at stepped
      split at stepped <;> simp at stepped
  | copy copyAsked copyLen l origin copyMoved =>
      simp only [Phase.step?] at stepped
      split at stepped
      · simp at stepped
      · split at stepped <;> simp at stepped
  | _ =>
      simp [Phase.step?] at stepped

end Calls

section Threads

variable {exponent : Nat}
variable {state : State}

/-- The writer's call is bounded by its length. -/
def State.PutCapped (size : UInt32) (state : State) : Prop :=
  state.writer.Capped
    (fun _ in1 => in1 = state.in_)
    (fun asked => putAvailable size state.in_ state.out ≤ asked)
    (fun asked in1 => putAvailable size in1 state.out ≤ asked)

/-- The reader's call is bounded by its length. -/
def State.GetCapped (state : State) : Prop :=
  state.reader.Capped
    (fun asked in1 =>
      ¬ asked < getAvailable in1 state.out →
        getAvailable state.in_ state.out ≤ asked)
    (fun asked => getAvailable state.in_ state.out ≤ asked)
    (fun asked in1 => getAvailable in1 state.out ≤ asked)

/-- The ring is sound and no call exceeds its length. -/
structure Bounded
    (exponent : Nat)
    (state : State) :
    Prop where
  sound :
    Sound exponent state
  put :
    state.PutCapped (counter (capacity exponent))
  get :
    state.GetCapped
  puts :
    ∀ transfer ∈ state.puts, transfer.Modest
  gets :
    ∀ transfer ∈ state.gets, transfer.Modest

/-- A call keeps its bound while the other counter moves as it is permitted to. -/
theorem Phase.Capped.mono
    (phase : Phase)
    {Compared Loaded ComparedLater LoadedLater : UInt32 → UInt32 → Prop}
    {Selecting SelectingLater : UInt32 → Prop}
    (capped : phase.Capped Compared Selecting Loaded)
    (compared :
      ∀ asked in1,
        phase = .cmpOut asked in1 →
        Compared asked in1 →
        ComparedLater asked in1)
    (selecting :
      ∀ asked,
        phase = .selIn asked →
        Selecting asked →
        SelectingLater asked)
    (loaded :
      ∀ asked in1,
        phase = .selOut asked in1 →
        Loaded asked in1 →
        LoadedLater asked in1) :
    phase.Capped ComparedLater SelectingLater LoadedLater := by
  cases phase with
  | cmpOut asked in1 => exact compared asked in1 rfl capped
  | selIn asked => exact selecting asked rfl capped
  | selOut asked in1 => exact loaded asked in1 rfl capped
  | idle => trivial
  | cmpIn asked => trivial
  | wrapCmp asked len => exact capped
  | wrapSel asked len => exact capped
  | base asked len l => exact capped
  | copy asked len l origin moved => exact capped
  | store asked len own moved => exact capped

theorem Bounded.modest
    (bounded : Bounded exponent state) :
    state.Modest where
  writer := bounded.put.modest bounded.sound.writer
  reader := bounded.get.modest bounded.sound.reader
  puts := bounded.puts
  gets := bounded.gets

/-- The call of the writer keeps its bound at its own steps. -/
theorem State.PutCapped.step
    {size : UInt32}
    {next : Phase}
    {effect : Effect}
    (capped : state.PutCapped size)
    (stepped : state.writerStep? size = some (next, effect)) :
    (state.applyPut next effect).PutCapped size := by
  have nextCapped := Phase.Capped.step capped (fun _ => rfl)
    (by
      rintro asked in1 rfl notLess
      exact UInt32.not_lt.mp notLess)
    (fun _ selecting => selecting)
    (fun _ _ loaded => loaded) stepped
  cases effect with
  | silent =>
      exact nextCapped
  | copy cell moved =>
      exact nextCapped
  | store asked len value moved =>
      obtain ⟨_, _, _, rfl⟩ := Phase.eq_store_of_step stepped
      trivial

/-- The call of the reader keeps its bound at its own steps. -/
theorem State.GetCapped.step
    {size : UInt32}
    {next : Phase}
    {effect : Effect}
    (capped : state.GetCapped)
    (stepped : state.readerStep? size = some (next, effect)) :
    (state.applyGet next effect).GetCapped := by
  have nextCapped := Phase.Capped.step capped
    (fun _ notLess => UInt32.not_lt.mp notLess)
    (fun _ _ compared notLess => compared notLess)
    (fun _ selecting => selecting)
    (fun _ _ loaded => loaded) stepped
  cases effect with
  | silent =>
      exact nextCapped
  | copy cell moved =>
      exact nextCapped
  | store asked len value moved =>
      obtain ⟨_, _, _, rfl⟩ := Phase.eq_store_of_step stepped
      trivial

/-- The call of the reader keeps its bound at permitted writer steps. -/
theorem State.GetCapped.applyPut
    {size : UInt32}
    {next : Phase}
    {effect : Effect}
    (capped : state.GetCapped)
    (spares : SparesMin size state .writer)
    (stepped : state.writerStep? size = some (next, effect)) :
    (state.applyPut next effect).GetCapped := by
  cases effect with
  | silent =>
      exact capped
  | copy cell moved =>
      exact capped
  | store putAsked len value moved =>
      obtain ⟨own, running, rfl, _⟩ := Phase.eq_store_of_step stepped
      refine Phase.Capped.mono state.reader capped ?_ ?_
        (fun _ _ _ loaded => loaded)
      · intro asked in1 comparing _ notLess
        have window : ¬ asked < getAvailable in1 state.out := notLess
        simp only [SparesMin, running, comparing, Phase.getWindow,
          if_neg window] at spares
        exact spares
      · intro asked selecting _
        simp only [SparesMin, running, selecting,
          Phase.getWindow] at spares
        exact spares

/-- The call of the writer keeps its bound at permitted reader steps. -/
theorem State.PutCapped.applyGet
    {size : UInt32}
    {next : Phase}
    {effect : Effect}
    (capped : state.PutCapped size)
    (loadedIn :
      ∀ asked in1,
        state.writer = .selOut asked in1 →
        in1 = state.in_)
    (spares : SparesMin size state .reader)
    (stepped : state.readerStep? size = some (next, effect)) :
    (state.applyGet next effect).PutCapped size := by
  cases effect with
  | silent =>
      exact capped
  | copy cell moved =>
      exact capped
  | store getAsked len value moved =>
      obtain ⟨own, running, rfl, _⟩ := Phase.eq_store_of_step stepped
      refine Phase.Capped.mono state.writer capped
        (fun _ _ _ compared => compared) ?_ ?_
      · intro asked selecting _
        simp only [SparesMin, running, selecting,
          Phase.putWindow] at spares
        exact spares
      · intro asked in1 loading _
        rw [loadedIn asked in1 loading]
        simp only [SparesMin, running, loading,
          Phase.putWindow] at spares
        exact spares

/-- Every permitted step keeps every call within its length. -/
theorem Bounded.step
    (small : exponent ≤ 31)
    (bounded : Bounded exponent state)
    {action : Action}
    {next : State}
    (spares :
      SparesMin (counter (capacity exponent)) state action)
    (stepped :
      step? (counter (capacity exponent)) state action = some next) :
    Bounded exponent next := by
  have sound := bounded.sound.step small stepped
  cases action with
  | put buffer len =>
      simp only [step?, Option.ite_none_right_eq_some,
        Option.some.injEq] at stepped
      obtain ⟨_, rfl⟩ := stepped
      exact ⟨sound, trivial, bounded.get, bounded.puts, bounded.gets⟩
  | get len =>
      simp only [step?, Option.ite_none_right_eq_some,
        Option.some.injEq] at stepped
      obtain ⟨_, rfl⟩ := stepped
      exact ⟨sound, bounded.put, trivial, bounded.puts, bounded.gets⟩
  | writer =>
      simp only [step?, Option.map_eq_some_iff] at stepped
      obtain ⟨⟨phase, effect⟩, stepped, rfl⟩ := stepped
      refine ⟨sound, bounded.put.step stepped,
        bounded.get.applyPut spares stepped, ?_, ?_⟩
      · cases effect with
        | silent =>
            exact bounded.puts
        | copy cell moved =>
            exact bounded.puts
        | store asked len value moved =>
            obtain ⟨_, follows⟩ :=
              bounded.sound.writerStep small stepped
            obtain ⟨own, running, _⟩ := Phase.eq_store_of_step stepped
            have capped := bounded.put
            rw [State.PutCapped, running] at capped
            intro transfer member
            simp only [State.applyPut, List.mem_append,
              List.mem_singleton] at member
            rcases member with earlier | rfl
            · exact bounded.puts transfer earlier
            · exact ⟨follows.2.2.1.le.trans
                (UInt32.le_iff_toNat_le.mp capped), capped⟩
      · cases effect <;> exact bounded.gets
  | reader =>
      simp only [step?, Option.map_eq_some_iff] at stepped
      obtain ⟨⟨phase, effect⟩, stepped, rfl⟩ := stepped
      refine ⟨sound,
        bounded.put.applyGet ?_ spares stepped,
        bounded.get.step stepped, ?_, ?_⟩
      · intro asked in1 loading
        have ok := bounded.sound.writer
        rw [loading] at ok
        exact ok
      · cases effect <;> exact bounded.puts
      · cases effect with
        | silent =>
            exact bounded.gets
        | copy cell moved =>
            exact bounded.gets
        | store asked len value moved =>
            obtain ⟨_, follows⟩ :=
              bounded.sound.readerStep small stepped
            obtain ⟨own, running, _⟩ := Phase.eq_store_of_step stepped
            have capped := bounded.get
            rw [State.GetCapped, running] at capped
            intro transfer member
            simp only [State.applyGet, List.mem_append,
              List.mem_singleton] at member
            rcases member with earlier | rfl
            · exact bounded.gets transfer earlier
            · exact ⟨follows.2.2.1.le.trans
                (UInt32.le_iff_toNat_le.mp capped), capped⟩

/-- A fresh fifo has no call to bound. -/
theorem State.Fresh.bounded
    (fresh : state.Fresh) :
    Bounded exponent state := by
  refine ⟨fresh.sound, ?_, ?_, ?_, ?_⟩
  · rw [State.PutCapped, fresh.writer]
    trivial
  · rw [State.GetCapped, fresh.reader]
    trivial
  · intro transfer member
    simp [fresh.puts] at member
  · intro transfer member
    simp [fresh.gets] at member

/--
The call has chosen the second operand of its `min`, and that operand is by now
greater than its length.
-/
def Phase.Exceeds
    (in_ out : UInt32)
    (available : UInt32 → UInt32 → UInt32) :
    Phase → Prop
  | .idle | .cmpIn _ =>
      False
  | .cmpOut asked in1 =>
      ¬ asked < available in1 out ∧ asked < available in_ out
  | .selIn asked =>
      asked < available in_ out
  | .selOut asked in1 =>
      asked < available in1 out
  | .wrapCmp asked len | .wrapSel asked len | .base asked len _
  | .copy asked len _ _ _ | .store asked len _ _ =>
      asked < len

/-- A bound on the steps of a call that has made its first comparison. -/
def Phase.left : Phase → Nat
  | .idle | .cmpIn _ =>
      0
  | .cmpOut _ _ =>
      2 ^ 33 + 5
  | .selIn _ =>
      2 ^ 33 + 4
  | .selOut _ _ =>
      2 ^ 33 + 3
  | .wrapCmp _ _ =>
      2 ^ 33 + 2
  | .wrapSel _ _ =>
      2 ^ 33 + 1
  | .base _ len l =>
      l.toNat + (len - l).toNat + 2
  | .copy _ len l _ moved =>
      l.toNat + (len - l).toNat - moved + 1
  | .store _ _ _ _ =>
      0

/-- The bytes of the two parts of a copy. -/
theorem left_base (asked len l : UInt32) :
    (Phase.base asked len l).left < 2 ^ 33 + 1 := by
  have first := l.toNat_lt
  have second := (len - l).toNat_lt
  rw [Phase.left]
  omega

/-- A call that exceeds its length does so until it stores its counter. -/
theorem Phase.Exceeds.step
    {phase : Phase}
    {in_ out : UInt32}
    {available : UInt32 → UInt32 → UInt32}
    (exceeds : phase.Exceeds in_ out available)
    (size own : UInt32) :
    ∃ next effect,
      phase.step? size in_ out own available = some (next, effect) ∧
        (((∀ asked len value moved,
              effect ≠ .store asked len value moved) ∧
            next.Exceeds in_ out available ∧ next.left < phase.left) ∨
          ∃ asked len value moved,
            effect = .store asked len value moved ∧ asked < len) := by
  cases phase with
  | idle | cmpIn asked =>
      cases exceeds
  | cmpOut asked in1 =>
      refine ⟨.selIn asked, .silent, if_neg exceeds.1, .inl ⟨?_, ?_, ?_⟩⟩
      · rintro _ _ _ _ ⟨⟩
      · exact exceeds.2
      · exact Nat.lt_succ_self _
  | selIn asked =>
      refine ⟨.selOut asked in_, .silent, rfl, .inl ⟨?_, exceeds, ?_⟩⟩
      · rintro _ _ _ _ ⟨⟩
      · exact Nat.lt_succ_self _
  | selOut asked in1 =>
      refine ⟨.wrapCmp asked (available in1 out), .silent, rfl,
        .inl ⟨?_, exceeds, ?_⟩⟩
      · rintro _ _ _ _ ⟨⟩
      · exact Nat.lt_succ_self _
  | wrapCmp asked len =>
      by_cases whole : len < size - (own &&& (size - 1))
      · refine ⟨.base asked len len, .silent, if_pos whole,
          .inl ⟨?_, exceeds, ?_⟩⟩
        · rintro _ _ _ _ ⟨⟩
        · exact (left_base asked len len).trans (Nat.lt_succ_self _)
      · refine ⟨.wrapSel asked len, .silent, if_neg whole,
          .inl ⟨?_, exceeds, ?_⟩⟩
        · rintro _ _ _ _ ⟨⟩
        · exact Nat.lt_succ_self _
  | wrapSel asked len =>
      refine ⟨.base asked len (size - (own &&& (size - 1))), .silent, rfl,
        .inl ⟨?_, exceeds, left_base ..⟩⟩
      rintro _ _ _ _ ⟨⟩
  | base asked len l =>
      refine ⟨.copy asked len l (own &&& (size - 1)) 0, .silent, rfl,
        .inl ⟨?_, exceeds, ?_⟩⟩
      · rintro _ _ _ _ ⟨⟩
      · exact Nat.lt_succ_self _
  | copy asked len l origin moved =>
      have nearer
          (more : moved < l.toNat + (len - l).toNat) :
          (Phase.copy asked len l origin (moved + 1)).left <
            (Phase.copy asked len l origin moved).left := by
        simp only [Phase.left]
        omega
      by_cases first : moved < l.toNat
      · refine ⟨.copy asked len l origin (moved + 1),
          .copy (origin.toNat + moved) moved, if_pos first,
          .inl ⟨?_, exceeds, nearer (Nat.lt_add_right _ first)⟩⟩
        rintro _ _ _ _ ⟨⟩
      · by_cases second : moved < l.toNat + (len - l).toNat
        · refine ⟨.copy asked len l origin (moved + 1),
            .copy (moved - l.toNat) moved, ?_,
            .inl ⟨?_, exceeds, nearer second⟩⟩
          · rw [Phase.step?, if_neg first, if_pos second]
          · rintro _ _ _ _ ⟨⟩
        · refine ⟨.store asked len own moved, .silent, ?_,
            .inl ⟨?_, exceeds, Nat.succ_pos _⟩⟩
          · rw [Phase.step?, if_neg first, if_neg second]
          · rintro _ _ _ _ ⟨⟩
  | store asked len loaded moved =>
      exact ⟨.idle, .store asked len (loaded + len) moved, rfl,
        .inr ⟨asked, len, loaded + len, moved, rfl, exceeds⟩⟩

/-- A thread whose call exceeds its length comes to return so, moving alone. -/
theorem exists_immodest
    {size : UInt32}
    {action : Action}
    {call : State → Phase}
    {own : State → UInt32}
    {available : UInt32 → UInt32 → UInt32}
    {applied : State → Phase → Effect → State}
    (moves :
      ∀ state result,
        (call state).step? size state.in_ state.out (own state)
            available =
          some result →
        (machine size).step? state action =
          some (applied state result.1 result.2))
    (keeps :
      ∀ state phase effect,
        (∀ asked len value moved,
          effect ≠ .store asked len value moved) →
        (applied state phase effect).in_ = state.in_ ∧
          (applied state phase effect).out = state.out ∧
          call (applied state phase effect) = phase)
    (stores :
      ∀ state phase asked len value moved,
        asked < len →
        ¬ (applied state phase (.store asked len value moved)).Modest)
    {state : State}
    (exceeds : (call state).Exceeds state.in_ state.out available) :
    ∃ actions final,
      (machine size).run? state actions = some final ∧ ¬ final.Modest := by
  obtain ⟨bound, within⟩ : ∃ bound, (call state).left < bound :=
    ⟨_, Nat.lt_succ_self _⟩
  induction bound generalizing state with
  | zero =>
      cases within
  | succ bound inductionHypothesis =>
      obtain ⟨phase, effect, stepped, going | stored⟩ :=
        exceeds.step size (own state)
      · obtain ⟨notStored, still, nearer⟩ := going
        obtain ⟨sameIn, sameOut, isNext⟩ :=
          keeps state phase effect notStored
        have stillExceeds :
            (call (applied state phase effect)).Exceeds
              (applied state phase effect).in_
              (applied state phase effect).out available := by
          rw [sameIn, sameOut, isNext]
          exact still
        obtain ⟨actions, final, ran, immodest⟩ :=
          inductionHypothesis stillExceeds (by
            rw [isNext]
            omega)
        refine ⟨action :: actions, final, ?_, immodest⟩
        rw [Machine.run?_cons (moves state _ stepped)]
        exact ran
      · obtain ⟨asked, len, value, moved, rfl, longer⟩ := stored
        refine ⟨[action], _, ?_, stores state phase asked len value moved longer⟩
        rw [Machine.run?_singleton]
        exact moves state _ stepped

/-- A put that exceeds its length comes to return more. -/
theorem exists_immodest_put
    {size : UInt32}
    {state : State}
    (exceeds :
      state.writer.Exceeds state.in_ state.out (putAvailable size)) :
    ∃ actions final,
      (machine size).run? state actions = some final ∧
        ¬ final.Modest := by
  refine @exists_immodest size .writer State.writer State.in_
    (putAvailable size) State.applyPut ?_ ?_ ?_ state exceeds
  · intro state result stepped
    change (state.writerStep? size).map _ = _
    rw [State.writerStep?, stepped]
    rfl
  · intro state phase effect notStored
    cases effect with
    | silent | copy cell moved =>
        exact ⟨rfl, rfl, rfl⟩
    | store asked len value moved =>
        exact absurd rfl (notStored asked len value moved)
  · intro state phase asked len value moved longer modest
    have returned :=
      (modest.puts ⟨asked, moved, len⟩
        (List.mem_append_right _ List.mem_cons_self)).2
    exact absurd longer (UInt32.not_lt.mpr returned)

/-- A get that exceeds its length comes to return more. -/
theorem exists_immodest_get
    {size : UInt32}
    {state : State}
    (exceeds :
      state.reader.Exceeds state.in_ state.out getAvailable) :
    ∃ actions final,
      (machine size).run? state actions = some final ∧
        ¬ final.Modest := by
  refine @exists_immodest size .reader State.reader State.out
    getAvailable State.applyGet ?_ ?_ ?_ state exceeds
  · intro state result stepped
    change (state.readerStep? size).map _ = _
    rw [State.readerStep?, stepped]
    rfl
  · intro state phase effect notStored
    cases effect with
    | silent | copy cell moved =>
        exact ⟨rfl, rfl, rfl⟩
    | store asked len value moved =>
        exact absurd rfl (notStored asked len value moved)
  · intro state phase asked len value moved longer modest
    have returned :=
      (modest.gets ⟨asked, moved, len⟩
        (List.mem_append_right _ List.mem_cons_self)).2
    exact absurd longer (UInt32.not_lt.mpr returned)

/-- A store that breaks the condition makes the other call exceed its length. -/
theorem exceeds_of_not_sparesMin
    {size : UInt32}
    {next : State}
    {action : Action}
    (loadedIn :
      ∀ asked in1,
        state.writer = .selOut asked in1 →
        in1 = state.in_)
    (stepped : step? size state action = some next)
    (raises : ¬ SparesMin size state action) :
    next.writer.Exceeds next.in_ next.out (putAvailable size) ∨
      next.reader.Exceeds next.in_ next.out getAvailable := by
  cases action with
  | put buffer len | get len =>
      exact absurd trivial raises
  | reader =>
      left
      cases storing : state.reader with
      | store asked len own moved =>
          simp only [step?, State.readerStep?, storing, Phase.step?,
            Option.map_some, Option.some.injEq] at stepped
          subst stepped
          cases waiting : state.writer with
          | selIn putAsked =>
              simp only [SparesMin, storing, waiting, Phase.putWindow,
                UInt32.not_le] at raises
              simp only [State.applyGet, waiting]
              exact raises
          | selOut putAsked in1 =>
              simp only [SparesMin, storing, waiting, Phase.putWindow,
                UInt32.not_le] at raises
              simp only [State.applyGet, waiting,
                loadedIn putAsked in1 waiting]
              exact raises
          | _ =>
              simp [SparesMin, storing, waiting, Phase.putWindow] at raises
      | _ =>
          simp [SparesMin, storing] at raises
  | writer =>
      right
      cases storing : state.writer with
      | store asked len own moved =>
          simp only [step?, State.writerStep?, storing, Phase.step?,
            Option.map_some, Option.some.injEq] at stepped
          subst stepped
          cases waiting : state.reader with
          | cmpOut getAsked in1 =>
              simp only [SparesMin, storing, waiting, Phase.getWindow]
                at raises
              by_cases less : getAsked < getAvailable in1 state.out
              · simp only [if_pos less, not_true_eq_false] at raises
              · simp only [if_neg less, UInt32.not_le] at raises
                simp only [State.applyPut, waiting]
                exact ⟨less, raises⟩
          | selIn getAsked =>
              simp only [SparesMin, storing, waiting, Phase.getWindow,
                UInt32.not_le] at raises
              simp only [State.applyPut, waiting]
              exact raises
          | _ =>
              simp [SparesMin, storing, waiting, Phase.getWindow] at raises
      | _ =>
          simp [SparesMin, storing] at raises

/--
In every run in which no store raises the available bytes above the length of a
call between the two evaluations of its `min`, no call accesses or returns more
bytes than it was asked for; and a store that does so can be continued to a call
that returns more.
-/
theorem modest_iff_sparesMin
    (exponent : Nat)
    {size : UInt32}
    (isPower : size.toNat = 2 ^ exponent)
    {state : State}
    (reachable :
      (machine size).ReachableWhere (SparesMin size) state) :
    state.Modest ∧
      ∀ next action,
        (machine size).step? state action = some next →
        ¬ SparesMin size state action →
        ∃ actions final,
          (machine size).run? next actions = some final ∧
            ¬ final.Modest := by
  obtain ⟨small, rfl⟩ := exists_capacity isPower
  have bounded : Bounded exponent state := by
    apply reachable.invariant
    · intro start fresh
      exact State.Fresh.bounded fresh
    · intro before after action bounded spares stepped
      exact bounded.step small spares stepped
  refine ⟨bounded.modest, ?_⟩
  intro next action stepped raises
  have loadedIn
      (asked in1 : UInt32)
      (loading : state.writer = .selOut asked in1) :
      in1 = state.in_ := by
    have ok := bounded.sound.writer
    rw [loading] at ok
    exact ok
  obtain puts | gets := exceeds_of_not_sparesMin loadedIn stepped raises
  · exact exists_immodest_put puts
  · exact exists_immodest_get gets

/--
A put of two bytes finds a byte in the fifo, and a get takes that byte before the
put goes on: the two overlap, and both stay within their lengths.
-/
theorem modest_iff_sparesMin_overlapping :
    ∃ state,
      (machine 2).ReachableWhere (SparesMin 2) state ∧
        state.gets = [⟨1, 1, 1⟩] ∧
        ⟨2, 2, 2⟩ ∈ state.puts ∧
        state.Modest := by
  obtain ⟨state, reachable, recorded⟩ :=
    Machine.ReachableWhere.exists_of_run
      (machine 2)
      (SparesMin 2)
      freshState
      (.put (fun _ => 7) 1 :: List.replicate 7 .writer ++
          .put (fun _ => 8) 2 :: List.replicate 2 .writer ++
          .get 1 :: List.replicate 9 .reader ++
          List.replicate 9 .writer)
      (fun state =>
        decide (state.gets = [⟨1, 1, 1⟩] ∧ ⟨2, 2, 2⟩ ∈ state.puts))
      freshState_fresh (by decide) (by decide)
  obtain ⟨got, put⟩ := of_decide_eq_true recorded
  exact ⟨state, reachable, got, put,
    (modest_iff_sparesMin 1 rfl reachable).1⟩

/--
A put of one byte finds the fifo full, the reader empties it before the smaller
operand is computed again, and the put moves two bytes.
-/
theorem put_exceeds_length :
    ¬ ∀ state, (machine 2).Reachable state → state.Modest := by
  intro alwaysModest
  obtain ⟨state, reachable, recorded⟩ :=
    Machine.exists_reachable
      (machine 2)
      freshState
      (.put (fun _ => 7) 2 :: List.replicate 11 .writer ++
          .put (fun _ => 8) 1 :: List.replicate 2 .writer ++
          .get 2 :: List.replicate 11 .reader ++
          List.replicate 9 .writer)
      (fun state => decide (⟨1, 2, 2⟩ ∈ state.puts))
      freshState_fresh
      (by decide)
  have modest :=
    (alwaysModest state reachable).puts _ (of_decide_eq_true recorded)
  exact absurd modest.1 (by decide)

end Threads

end WkcRuntime.Sfifo
