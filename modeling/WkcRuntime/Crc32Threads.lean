import WkcRuntime.Crc32

namespace WkcRuntime.Crc32.Threads

/-!
# `common::crc32` called by several threads

The static variables belong to all threads.  A step of a thread is one access
to them: reading `isFirst`, clearing it, storing one entry of the table or
reading one for the next byte.  The flag is cleared before the first entry is
stored, so a thread that comes in between goes on to read entries that are still
zero.
-/

/-- Where a thread is in its call. -/
inductive Phase where
  | idle
  | test (call : Call)
  | clear (call : Call)
  | fill (call : Call) (i : Fin 256)
  | loop (call : Call) (buf : List UInt8) (len : Int32) (crc : UInt32)

/-- One entry as it was read from the table. -/
structure Read where
  i : Fin 256
  value : UInt32
  deriving DecidableEq, Repr

/-- One finished call with its result. -/
structure Return where
  call : Call
  crc : UInt32

/-- The static variables, the threads and what they have read and returned. -/
structure State (Tid : Type) where
  statics : Statics
  phase : Tid → Phase
  reads : List Read
  returned : List Return

/-- Thread `thread` calls the function, or does its next access. -/
inductive Action (Tid : Type) where
  | call (thread : Tid) (call : Call)
  | move (thread : Tid)

/-- The loop over the buffer from its start. -/
def loopOf (call : Call) : Phase :=
  .loop call call.buf call.len 0xffffffff

/-- The outer loop of the initialisation behind index `i`. -/
def afterFill
    (call : Call)
    (i : Fin 256) :
    Phase :=
  if more : i.val + 1 < 256 then
    .fill call ⟨i.val + 1, more⟩
  else
    loopOf call

section Steps

variable {Tid : Type} [DecidableEq Tid]

/-- The thread goes on in another phase. -/
def State.goto
    (state : State Tid)
    (thread : Tid)
    (phase : Phase) :
    State Tid :=
  { state with phase := Function.update state.phase thread phase }

/-- The next access of a thread; reading behind the buffer is `none`. -/
def State.move?
    (state : State Tid)
    (thread : Tid) :
    Option (State Tid) :=
  match state.phase thread with
  | .idle =>
      none
  | .test call =>
      if state.statics.isFirst ≠ 0 then
        some (state.goto thread (.clear call))
      else
        some (state.goto thread (loopOf call))
  | .clear call =>
      some
        { state.goto thread (.fill call ⟨0, Nat.succ_pos 255⟩) with
          statics := { state.statics with isFirst := 0 } }
  | .fill call i =>
      some
        { state.goto thread (afterFill call i) with
          statics :=
            { state.statics with
              mTable := fillFrom [i] state.statics.mTable } }
  | .loop call buf len crc =>
      if len = 0 then
        some
          { state.goto thread .idle with
            returned := ⟨call, crc⟩ :: state.returned }
      else
        match buf with
        | [] =>
            none
        | byte :: rest =>
            let i := tableIndex crc byte
            let next :=
              .loop call rest (len - 1) (update state.statics.mTable crc byte)
            some
              { state.goto thread next with
                reads := ⟨i, state.statics.mTable.get i⟩ :: state.reads }

/-- One step of one thread. -/
def State.step?
    (state : State Tid) :
    Action Tid → Option (State Tid)
  | .call thread call =>
      match state.phase thread with
      | .idle =>
          some (state.goto thread (.test call))
      | _ =>
          none
  | .move thread =>
      state.move? thread

end Steps

/-- All threads before their first calls. -/
def State.initial (Tid : Type) : State Tid where
  statics := .initial
  phase := fun _ => .idle
  reads := []
  returned := []

/-- The threads of one process in any interleaving. -/
def machine
    (Tid : Type)
    [DecidableEq Tid] :
    Machine (State Tid) (Action Tid) where
  Initial state := state = .initial Tid
  step? := State.step?

section Publication

variable {Tid : Type}

/--
Every entry that was read had its final value, and every call has returned what
it returns when it is made alone.
-/
def State.Published (state : State Tid) : Prop :=
  (∀ read ∈ state.reads, read.value = tableEntry read.i) ∧
    ∀ done ∈ state.returned,
      ∃ next,
        crc32 .initial done.call.buf done.call.len =
          some (done.crc, next)

/-- The entries that a buffer selects from the final table. -/
def selected : List UInt8 → Int32 → UInt32 → List (Fin 256)
  | [], _, _ =>
      []
  | byte :: rest, len, crc =>
      if len = 0 then
        []
      else
        tableIndex crc byte ::
          selected rest (len - 1)
            ((crc <<< 8) ^^^ tableEntry (tableIndex crc byte))

/-- The table has the final values of the entries that a call selects. -/
def Call.Served
    (call : Call)
    (mTable : Vector UInt32 256) :
    Prop :=
  ∀ i ∈ selected call.buf call.len 0xffffffff,
    mTable.get i = tableEntry i

/--
A thread finds `isFirst` cleared only when the entries that its call selects
are stored.
-/
def Careful
    (state : State Tid) :
    Action Tid → Prop
  | .call _ _ =>
      True
  | .move thread =>
      ∀ call,
        state.phase thread = .test call →
        state.statics.isFirst = 0 →
        Call.Served call state.statics.mTable

instance (call : Call) (mTable : Vector UInt32 256) :
    Decidable (Call.Served call mTable) :=
  List.decidableBAll _ _

instance
    [DecidableEq Tid]
    (state : State Tid) :
    (action : Action Tid) → Decidable (Careful state action)
  | .call _ _ =>
      .isTrue trivial
  | .move thread =>
      match phase : state.phase thread with
      | .test call =>
          decidable_of_iff
            (state.statics.isFirst = 0 →
              Call.Served call state.statics.mTable)
            ⟨fun served other same => by
              cases phase.symm.trans same
              exact served,
            fun careful => careful call phase⟩
      | .idle | .clear _ | .fill _ _ | .loop _ _ _ _ =>
          .isTrue (by
            intro call same
            rw [phase] at same
            cases same)

/-- What a thread relies on in its phase. -/
def Phase.Ok (mTable : Vector UInt32 256) : Phase → Prop
  | .idle =>
      True
  | .test _ =>
      True
  | .clear _ =>
      True
  | .fill _ i =>
      ∀ k < i, mTable.get k = tableEntry k
  | .loop call buf len crc =>
      (∀ k ∈ selected buf len crc, mTable.get k = tableEntry k) ∧
        crcLoop Statics.initial.prepare.mTable buf len crc =
          crcLoop Statics.initial.prepare.mTable call.buf call.len
            0xffffffff

/-- Entries that are final stay so, and with them what a thread relies on. -/
theorem Phase.Ok.mono
    {before after : Vector UInt32 256}
    (stays :
      ∀ k,
        before.get k = tableEntry k →
        after.get k = tableEntry k)
    {phase : Phase}
    (ok : phase.Ok before) :
    phase.Ok after := by
  cases phase with
  | idle => trivial
  | test call => trivial
  | clear call => trivial
  | fill call i => exact fun k below => stays k (ok k below)
  | loop call buf len crc =>
      exact ⟨fun k member => stays k (ok.1 k member), ok.2⟩

/-- Storing an entry makes it final and leaves the final ones so. -/
theorem get_fillFrom_singleton
    {mTable : Vector UInt32 256}
    (i : Fin 256)
    {k : Fin 256}
    (final : k = i ∨ mTable.get k = tableEntry k) :
    (fillFrom [i] mTable).get k = tableEntry k := by
  apply get_fillFrom
  exact final.symm.imp_right fun same => List.mem_singleton.mpr same

/-- A call whose entries are there may start its loop. -/
theorem ok_loopOf
    {mTable : Vector UInt32 256}
    {call : Call}
    (served : Call.Served call mTable) :
    (loopOf call).Ok mTable :=
  ⟨served, rfl⟩

/-- The initialisation goes on to the next index, or has stored everything. -/
theorem ok_afterFill
    {mTable : Vector UInt32 256}
    {call : Call}
    {i : Fin 256}
    (stored : ∀ k ≤ i, mTable.get k = tableEntry k) :
    (afterFill call i).Ok mTable := by
  unfold afterFill
  split
  · next more =>
      intro k below
      exact stored k (Nat.le_of_lt_succ below)
  · next last =>
      apply ok_loopOf
      intro k _
      apply stored
      rw [Fin.le_def]
      omega

/-- Reading a final entry is one round of the call made alone. -/
theorem update_eq_alone
    {mTable : Vector UInt32 256}
    {crc : UInt32}
    {byte : UInt8}
    (final :
      mTable.get (tableIndex crc byte) =
        tableEntry (tableIndex crc byte)) :
    update mTable crc byte =
      update Statics.initial.prepare.mTable crc byte := by
  have ready : Statics.initial.Ready :=
    .inl (by decide)
  rw [update, update, final, ready.prepare]

variable [DecidableEq Tid]

/-- Every thread can rely on the table, and so could those that are done. -/
structure Sound (state : State Tid) : Prop where
  phases :
    ∀ thread, (state.phase thread).Ok state.statics.mTable
  published :
    state.Published

/-- A step of one thread that keeps final entries final. -/
theorem Sound.goto
    {state : State Tid}
    (sound : Sound state)
    (thread : Tid)
    {phase : Phase}
    {statics : Statics}
    (stays :
      ∀ k,
        state.statics.mTable.get k = tableEntry k →
        statics.mTable.get k = tableEntry k)
    (ok : phase.Ok statics.mTable) :
    Sound { state.goto thread phase with statics } := by
  refine ⟨?_, sound.published⟩
  intro other
  by_cases same : other = thread
  · rw [same]
    simpa [State.goto] using ok
  · simpa [State.goto, same] using (sound.phases other).mono stays

/-- The next access in the loop reads a final entry, or is the return. -/
theorem Sound.loop
    {state next : State Tid}
    {thread : Tid}
    (sound : Sound state)
    {call : Call}
    {buf : List UInt8}
    {len : Int32}
    {crc : UInt32}
    (phase : state.phase thread = .loop call buf len crc)
    (moved : state.move? thread = some next) :
    Sound next := by
  obtain ⟨final, alone⟩ :
      (Phase.loop call buf len crc).Ok state.statics.mTable :=
    phase ▸ sound.phases thread
  simp only [State.move?, phase] at moved
  by_cases ended : len = 0
  · rw [if_pos ended, Option.some.injEq] at moved
    subst next
    have idle : Phase.idle.Ok state.statics.mTable :=
      trivial
    have going := sound.goto thread (fun _ final => final) idle
    refine ⟨going.phases, sound.published.1, ?_⟩
    intro done member
    rcases List.mem_cons.mp member with rfl | earlier
    · have result :
          crcLoop Statics.initial.prepare.mTable call.buf call.len
              0xffffffff =
            some crc := by
        rw [← alone, ended]
        cases buf <;> simp [crcLoop]
      exact ⟨Statics.initial.prepare, by simp [crc32, result]⟩
    · exact sound.published.2 done earlier
  · rw [if_neg ended] at moved
    cases buf with
    | nil =>
        cases moved
    | cons byte rest =>
        simp only [selected, if_neg ended, List.mem_cons] at final
        have now := final _ (.inl rfl)
        have ok :
            (Phase.loop call rest (len - 1)
              (update state.statics.mTable crc byte)).Ok
              state.statics.mTable := by
          constructor
          · intro k member
            rw [update, now] at member
            exact final k (.inr member)
          · rw [← alone, crcLoop, if_neg ended, update_eq_alone now]
        have going := sound.goto thread (fun _ final => final) ok
        obtain rfl := Option.some.inj moved
        refine ⟨going.phases, ?_, sound.published.2⟩
        intro read member
        rcases List.mem_cons.mp member with rfl | earlier
        · exact now
        · exact sound.published.1 read earlier

/-- One careful step keeps the threads able to rely on the table. -/
theorem Sound.move
    {state next : State Tid}
    {thread : Tid}
    (sound : Sound state)
    (careful : Careful state (.move thread))
    (moved : state.move? thread = some next) :
    Sound next := by
  have ok := sound.phases thread
  unfold State.move? at moved
  cases phase : state.phase thread with
  | idle =>
      simp [phase] at moved
  | test call =>
      simp only [phase] at moved
      split at moved
      · obtain rfl := Option.some.inj moved
        exact sound.goto thread (fun _ final => final) trivial
      · next cleared =>
          obtain rfl := Option.some.inj moved
          exact sound.goto thread (fun _ final => final)
            (ok_loopOf (careful call phase (not_not.mp cleared)))
  | clear call =>
      simp only [phase, Option.some.injEq] at moved
      subst next
      exact sound.goto thread (fun _ final => final)
        (fun k below => absurd below (Nat.not_lt_zero k.val))
  | fill call i =>
      rw [phase] at ok
      simp only [phase, Option.some.injEq] at moved
      subst next
      apply sound.goto thread
      · intro k final
        exact get_fillFrom_singleton i (.inr final)
      · apply ok_afterFill
        intro k upTo
        apply get_fillFrom_singleton
        rcases Nat.eq_or_lt_of_le upTo with same | below
        · exact .inl (Fin.ext same)
        · exact .inr (ok k below)
  | loop call buf len crc =>
      rw [phase] at ok
      exact sound.loop phase moved

/-- Every interleaving of careful steps keeps them so. -/
theorem sound_of_reachable
    {state : State Tid}
    (reachable : (machine Tid).ReachableWhere Careful state) :
    Sound state := by
  apply reachable.invariant
  · rintro start rfl
    exact ⟨fun _ => trivial, by simp [State.initial],
      by simp [State.initial]⟩
  · intro before after action sound careful stepped
    cases action with
    | move thread =>
        exact sound.move careful stepped
    | call thread call =>
        simp only [machine, State.step?] at stepped
        split at stepped
        · obtain rfl := Option.some.inj stepped
          exact sound.goto thread (fun _ final => final) trivial
        · cases stepped

/--
A thread in its loop whose buffer selects an entry that is not final comes,
moving alone, to read such an entry.
-/
theorem exists_torn_read
    {state : State Tid}
    {thread : Tid}
    {call : Call}
    {buf : List UInt8}
    {len : Int32}
    {crc : UInt32}
    (phase : state.phase thread = .loop call buf len crc)
    {i : Fin 256}
    (member : i ∈ selected buf len crc)
    (torn : state.statics.mTable.get i ≠ tableEntry i) :
    ∃ count final,
      (machine Tid).run? state (List.replicate count (.move thread)) =
          some final ∧
        ¬ final.Published := by
  induction buf generalizing state len crc with
  | nil =>
      cases member
  | cons byte rest inductionHypothesis =>
      by_cases ended : len = 0
      · simp [selected, ended] at member
      · simp only [selected, if_neg ended, List.mem_cons] at member
        let next : State Tid :=
          { state.goto thread
              (.loop call rest (len - 1)
                (update state.statics.mTable crc byte)) with
            reads :=
              ⟨tableIndex crc byte,
                state.statics.mTable.get (tableIndex crc byte)⟩ ::
                state.reads }
        have stepped :
            (machine Tid).step? state (.move thread) = some next := by
          simp only [machine, State.step?, State.move?, phase,
            if_neg ended]
          rfl
        by_cases final :
            state.statics.mTable.get (tableIndex crc byte) =
              tableEntry (tableIndex crc byte)
        · have later :
              i ∈ selected rest (len - 1)
                (update state.statics.mTable crc byte) := by
            rw [update, final]
            apply member.resolve_left
            rintro rfl
            exact torn final
          have nextPhase :
              next.phase thread =
                .loop call rest (len - 1)
                  (update state.statics.mTable crc byte) :=
            Function.update_self ..
          obtain ⟨count, last, ran, unpublished⟩ :=
            inductionHypothesis nextPhase later torn
          refine ⟨count + 1, last, ?_, unpublished⟩
          rw [List.replicate_succ, Machine.run?, stepped]
          exact ran
        · refine ⟨1, next, ?_, ?_⟩
          · rw [List.replicate_one, Machine.run?_singleton, stepped]
          · intro published
            exact final (published.1 _ List.mem_cons_self)

/--
When no thread finds `isFirst` cleared before the entries that its buffer
selects are stored, only final entries are read and every call returns what it
returns alone, in every interleaving.  A thread that does find it so reads,
moving alone from there, an entry that is not final.
-/
theorem published_of_careful
    (Tid : Type)
    [DecidableEq Tid] :
    (∀ state,
        (machine Tid).ReachableWhere Careful state →
        state.Published) ∧
      ∀ (state : State Tid) (thread : Tid) (call : Call),
        state.phase thread = .test call →
        state.statics.isFirst = 0 →
        ¬ Call.Served call state.statics.mTable →
        ∃ count final,
          (machine Tid).run? state
              (List.replicate count (.move thread)) =
            some final ∧
            ¬ final.Published := by
  constructor
  · intro state reachable
    exact (sound_of_reachable reachable).published
  · intro state thread call phase cleared unserved
    simp only [Call.Served, not_forall] at unserved
    obtain ⟨i, member, torn⟩ := unserved
    have stepped :
        (machine Tid).step? state (.move thread) =
          some (state.goto thread (loopOf call)) := by
      simp only [machine, State.step?, State.move?, phase, cleared,
        ne_eq, not_true_eq_false, if_false]
    have looping :
        (state.goto thread (loopOf call)).phase thread = loopOf call :=
      Function.update_self ..
    obtain ⟨count, final, ran, unpublished⟩ :=
      exists_torn_read looping member torn
    refine ⟨count + 1, final, ?_, unpublished⟩
    rw [List.replicate_succ, Machine.run?, stepped]
    exact ran

/--
The second thread calls the function while the first one still fills the table,
but has stored the one entry that the second one selects.
-/
theorem published_of_careful_filling :
    ∃ state : State Bool,
      (machine Bool).ReachableWhere Careful state ∧
        (state.phase false matches .fill _ _) ∧
        state.reads ≠ [] ∧ state.returned ≠ [] ∧
        state.Published := by
  obtain ⟨state, reachable, checked⟩ :=
    Machine.ReachableWhere.exists_of_run (machine Bool) Careful
      (.initial Bool)
      ([.call false ⟨[0x31], 1⟩, .call true ⟨[0xfe], 1⟩] ++
        List.replicate 4 (.move false) ++ List.replicate 3 (.move true))
      (fun state =>
        (state.phase false matches .fill _ _) &&
          !state.reads.isEmpty && !state.returned.isEmpty)
      rfl (by decide +kernel) (by decide +kernel)
  simp only [Bool.and_eq_true, Bool.not_eq_true', List.isEmpty_eq_false_iff]
    at checked
  exact ⟨state, reachable, checked.1.1, checked.1.2, checked.2,
    (published_of_careful Bool).1 state reachable⟩

/--
A second thread calls the function when the first one has cleared `isFirst` and
stored nothing yet: it reads a zero where its byte selects another value.
-/
theorem published_too_early :
    ∃ state : State Bool,
      (machine Bool).Reachable state ∧
        ¬ state.Published := by
  obtain ⟨state, reachable, checked⟩ :=
    (machine Bool).exists_reachable (.initial Bool)
      [.call false ⟨[0x31], 1⟩, .move false, .move false,
        .call true ⟨[0x31], 1⟩, .move true, .move true]
      (fun state => decide (⟨0xce, 0⟩ ∈ state.reads))
      rfl (by decide +kernel)
  refine ⟨state, reachable, ?_⟩
  rintro ⟨final, _⟩
  exact absurd (final _ (of_decide_eq_true checked)) (by decide +kernel)

end Publication

end WkcRuntime.Crc32.Threads
