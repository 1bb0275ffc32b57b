import WkcRuntime.Md5Stream

namespace WkcRuntime.Md5

/-!
# Runs of calls on a digest

The client sees a message that grows until `MD5::finalize` completes it.  Every
sequence of calls returns what this view says, and it fails to end exactly where
the index in the loop of `MD5::update` wraps.
-/

section Runs

/-- One call on the object. -/
inductive Op where
  | update (input : List UInt8) (inputLength : UInt32)
  | updateFile (chunks : List (List UInt8))
  | updateStream (chunks : List (List UInt8))
  | finalize
  | rawDigest
  | hexDigest
  deriving DecidableEq

/-- What a call returns. -/
inductive Output where
  | none
  | raw (digest : Option (List UInt8))
  | hex (digest : Option (List Char))
  deriving DecidableEq

/--
What the caller and the C library promise: the input has the announced length,
and a read gives no more than the buffer of 1024 bytes holds.
-/
def Op.Valid : Op → Prop
  | .update input inputLength =>
      inputLength.toNat ≤ input.length
  | .updateFile chunks =>
      ∀ chunk ∈ chunks, chunk.length ≤ 1024
  | .updateStream chunks =>
      ∀ chunk ∈ chunks, chunk.length ≤ 1024
  | _ =>
      True

/-- One call in the code. -/
def callCode
    (ctx : MD5) :
    Op → Option (MD5 × Output)
  | .update input inputLength =>
      (Md5.update ctx input inputLength).map fun next => (next, .none)
  | .updateFile chunks =>
      (Md5.updateFile ctx chunks).map fun next => (next, .none)
  | .updateStream chunks =>
      (Md5.updateStream ctx chunks).map fun next => (next, .none)
  | .finalize =>
      (Md5.finalize ctx).map fun next => (next, .none)
  | .rawDigest =>
      some (ctx, .raw (Md5.rawDigest ctx))
  | .hexDigest =>
      some (ctx, .hex (Md5.hexDigest ctx))

/-- The bytes of a file up to the first read that gives nothing. -/
def fileBytes : List (List UInt8) → List UInt8
  | [] =>
      []
  | chunk :: rest =>
      if chunk.length = 0 then
        []
      else
        chunk ++ fileBytes rest

/-- The bytes of a stream up to the first read that gives too little. -/
def streamBytes : List (List UInt8) → List UInt8
  | [] =>
      []
  | chunk :: rest =>
      if chunk.length < 1024 then
        chunk
      else
        chunk ++ streamBytes rest

/-- A digest in progress: the message so far, and whether it is complete. -/
structure Digesting where
  message : List UInt8
  complete : Bool
  deriving DecidableEq

/-- The message grows until it is complete. -/
def Digesting.append
    (digesting : Digesting)
    (bytes : List UInt8) :
    Digesting :=
  if digesting.complete then
    digesting
  else
    { digesting with message := digesting.message ++ bytes }

/-- The digest of a complete message. -/
def Digesting.result (digesting : Digesting) : Option (List UInt8) :=
  if digesting.complete then
    some (digestOf digesting.message)
  else
    none

/-- What a call means for the message. -/
def callMessage
    (digesting : Digesting) :
    Op → Digesting × Output
  | .update input inputLength =>
      (digesting.append (input.take inputLength.toNat), .none)
  | .updateFile chunks =>
      (digesting.append (fileBytes chunks), .none)
  | .updateStream chunks =>
      (digesting.append (streamBytes chunks), .none)
  | .finalize =>
      ({ digesting with complete := true }, .none)
  | .rawDigest =>
      (digesting, .raw digesting.result)
  | .hexDigest =>
      (digesting, .hex (digesting.result.map (List.flatMap hexByte)))

/-- The call ends. -/
def Op.Ends
    (digesting : Digesting) :
    Op → Prop
  | .update _ inputLength =>
      digesting.complete = true ∨ Md5.Ends digesting.message inputLength
  | _ =>
      True

instance (digesting : Digesting) (op : Op) :
    Decidable (op.Ends digesting) := by
  cases op <;> unfold Op.Ends <;> infer_instance

/-- A sequence of calls in the code. -/
def runCode : MD5 → List Op → Option (MD5 × List Output)
  | ctx, [] =>
      some (ctx, [])
  | ctx, op :: rest => do
      let (next, output) ← callCode ctx op
      let (final, outputs) ← runCode next rest
      some (final, output :: outputs)

/-- A sequence of calls on the message; `none` when one of them does not end. -/
def runMessage : Digesting → List Op → Option (Digesting × List Output)
  | digesting, [] =>
      some (digesting, [])
  | digesting, op :: rest =>
      if op.Ends digesting then do
        let (next, output) := callMessage digesting op
        let (final, outputs) ← runMessage next rest
        some (final, output :: outputs)
      else
        none

/-- What an object knows of the message. -/
def Sound
    (ctx : MD5)
    (digesting : Digesting) :
    Prop :=
  if digesting.complete then
    ctx.finalized = true ∧
      ctx.digest = digestOf digesting.message ∧
      ctx.buffer.toList =
        0 :: (padded digesting.message).drop
          ((padded digesting.message).length - 63)
  else
    Absorbed ctx digesting.message

variable {ctx : MD5}
variable {digesting : Digesting}

/-- A complete object refuses more bytes. -/
theorem update_finalized
    (finalized : ctx.finalized = true)
    (input : List UInt8)
    (inputLength : UInt32) :
    update ctx input inputLength = some ctx := by
  rw [update, if_pos finalized]

/-- One update on an object, complete or not. -/
theorem Sound.update
    (sound : Sound ctx digesting)
    {input : List UInt8}
    {inputLength : UInt32}
    (available : inputLength.toNat ≤ input.length)
    (ends :
      digesting.complete = true ∨ Ends digesting.message inputLength) :
    ∃ next,
      Md5.update ctx input inputLength = some next ∧
        Sound next
          (digesting.append (input.take inputLength.toNat)) := by
  cases complete : digesting.complete with
  | true =>
      have facts := sound
      rw [Sound, complete, if_pos rfl] at facts
      refine ⟨ctx, update_finalized facts.1 _ _, ?_⟩
      rw [Digesting.append, complete, if_pos rfl]
      exact sound
  | false =>
      rw [Sound, complete, if_neg Bool.false_ne_true] at sound
      obtain ⟨next, updated, grown⟩ :=
        sound.update available (ends.resolve_left (by simp [complete]))
      refine ⟨next, updated, ?_⟩
      rw [Digesting.append, complete, if_neg Bool.false_ne_true, Sound,
        if_neg (by simp)]
      exact grown

/-- A short chunk handed over with its length. -/
theorem Sound.chunk
    (sound : Sound ctx digesting)
    {chunk : List UInt8}
    (short : chunk.length ≤ 1024) :
    ∃ next,
      Md5.update ctx chunk (UInt32.ofNat chunk.length) = some next ∧
        Sound next (digesting.append chunk) := by
  have length : (UInt32.ofNat chunk.length).toNat = chunk.length := by
    rw [UInt32.toNat_ofNat']
    exact Nat.mod_eq_of_lt (by omega)
  have small := Nat.mod_lt digesting.message.length (by decide : 0 < 64)
  obtain ⟨next, updated, grown⟩ :=
    @Sound.update ctx digesting sound chunk (UInt32.ofNat chunk.length)
      length.le (Or.inr (Or.inr (by rw [length]; omega)))
  rw [length, List.take_length] at grown
  exact ⟨next, updated, grown⟩

/-- Bytes may be appended in two pieces. -/
theorem Digesting.append_append
    (digesting : Digesting)
    (first second : List UInt8) :
    (digesting.append first).append second =
      digesting.append (first ++ second) := by
  cases complete : digesting.complete with
  | true =>
      simp [Digesting.append, complete]
  | false =>
      simp [Digesting.append, complete]

/-- No bytes leave the message as it is. -/
theorem Digesting.append_nil
    (digesting : Digesting) :
    digesting.append [] = digesting := by
  simp [Digesting.append]

/-- A file is digested up to its end. -/
theorem Sound.updateFile
    (sound : Sound ctx digesting)
    {chunks : List (List UInt8)}
    (short : ∀ chunk ∈ chunks, chunk.length ≤ 1024) :
    ∃ next,
      Md5.updateFile ctx chunks = some next ∧
        Sound next (digesting.append (fileBytes chunks)) := by
  induction chunks generalizing ctx digesting with
  | nil =>
      refine ⟨ctx, rfl, ?_⟩
      rw [fileBytes, digesting.append_nil]
      exact sound
  | cons chunk rest inductionHypothesis =>
      by_cases empty : chunk.length = 0
      · refine ⟨ctx, by rw [Md5.updateFile, if_pos empty], ?_⟩
        rw [fileBytes, if_pos empty, digesting.append_nil]
        exact sound
      · obtain ⟨next, updated, grown⟩ :=
          sound.chunk (short chunk List.mem_cons_self)
        obtain ⟨final, later, finalSound⟩ :=
          inductionHypothesis grown
            (fun other member => short other (List.mem_cons_of_mem _ member))
        refine ⟨final, ?_, ?_⟩
        · rw [Md5.updateFile, if_neg empty]
          simp only [updated, bind, Option.bind]
          exact later
        · rw [fileBytes, if_neg empty, ← Digesting.append_append]
          exact finalSound

/-- A stream is digested up to its end. -/
theorem Sound.updateStream
    (sound : Sound ctx digesting)
    {chunks : List (List UInt8)}
    (short : ∀ chunk ∈ chunks, chunk.length ≤ 1024) :
    ∃ next,
      Md5.updateStream ctx chunks = some next ∧
        Sound next (digesting.append (streamBytes chunks)) := by
  induction chunks generalizing ctx digesting with
  | nil =>
      refine ⟨ctx, rfl, ?_⟩
      rw [streamBytes, digesting.append_nil]
      exact sound
  | cons chunk rest inductionHypothesis =>
      obtain ⟨next, updated, grown⟩ :=
        sound.chunk (short chunk List.mem_cons_self)
      by_cases last : chunk.length < 1024
      · refine ⟨next, ?_, ?_⟩
        · simp only [Md5.updateStream, updated, bind, Option.bind,
            if_pos last]
        · rw [streamBytes, if_pos last]
          exact grown
      · obtain ⟨final, later, finalSound⟩ :=
          inductionHypothesis grown
            (fun other member => short other (List.mem_cons_of_mem _ member))
        refine ⟨final, ?_, ?_⟩
        · simp only [Md5.updateStream, updated, bind, Option.bind,
            if_neg last]
          exact later
        · rw [streamBytes, if_neg last, ← Digesting.append_append]
          exact finalSound

/-- Completing a message. -/
theorem Sound.finalize
    (sound : Sound ctx digesting) :
    ∃ next,
      Md5.finalize ctx = some next ∧
        Sound next { digesting with complete := true } := by
  cases complete : digesting.complete with
  | true =>
      have facts := sound
      rw [Sound, complete, if_pos rfl] at facts
      refine ⟨ctx, by rw [Md5.finalize, if_pos facts.1], ?_⟩
      rw [Sound, if_pos rfl]
      exact facts
  | false =>
      rw [Sound, complete, if_neg Bool.false_ne_true] at sound
      exact sound.finalize

/-- The digest is handed out when the message is complete. -/
theorem Sound.rawDigest
    (sound : Sound ctx digesting) :
    Md5.rawDigest ctx = digesting.result := by
  cases complete : digesting.complete with
  | true =>
      rw [Sound, complete, if_pos rfl] at sound
      rw [Md5.rawDigest, if_pos sound.1, sound.2.1, Digesting.result,
        if_pos complete]
  | false =>
      rw [Sound, complete, if_neg Bool.false_ne_true] at sound
      rw [Md5.rawDigest, sound.running, Digesting.result, complete]
      rfl

/-- The text of the digest. -/
theorem hexDigest_eq (ctx : MD5) :
    hexDigest ctx = (rawDigest ctx).map (List.flatMap hexByte) := by
  unfold hexDigest rawDigest
  cases ctx.finalized <;> rfl

/-- A call that ends returns what it means for the message. -/
theorem Sound.call
    (sound : Sound ctx digesting)
    {op : Op}
    (valid : op.Valid)
    (ends : op.Ends digesting) :
    ∃ next,
      callCode ctx op = some (next, (callMessage digesting op).2) ∧
        Sound next (callMessage digesting op).1 := by
  cases op with
  | update input inputLength =>
      obtain ⟨next, updated, grown⟩ := sound.update valid ends
      exact ⟨next, by rw [callCode, updated]; rfl, grown⟩
  | updateFile chunks =>
      obtain ⟨next, updated, grown⟩ := sound.updateFile valid
      exact ⟨next, by rw [callCode, updated]; rfl, grown⟩
  | updateStream chunks =>
      obtain ⟨next, updated, grown⟩ := sound.updateStream valid
      exact ⟨next, by rw [callCode, updated]; rfl, grown⟩
  | finalize =>
      obtain ⟨next, finalized, complete⟩ := sound.finalize
      exact ⟨next, by rw [callCode, finalized]; rfl, complete⟩
  | rawDigest =>
      exact ⟨ctx, by rw [callCode, sound.rawDigest]; rfl, sound⟩
  | hexDigest =>
      exact ⟨ctx, by rw [callCode, hexDigest_eq, sound.rawDigest]; rfl, sound⟩

/-- The other calls have no result. -/
theorem Sound.call_none
    (sound : Sound ctx digesting)
    {op : Op}
    (endless : ¬ op.Ends digesting) :
    callCode ctx op = none := by
  cases op with
  | update input inputLength =>
      simp only [Op.Ends, not_or, Bool.not_eq_true] at endless
      rw [Sound, if_neg (by simp [endless.1])] at sound
      rw [callCode, sound.update_none endless.2]
      rfl
  | _ =>
      exact absurd trivial endless

/-- A sequence of calls follows the message. -/
theorem Sound.run
    {ops : List Op}
    (sound : Sound ctx digesting)
    (valid : ∀ op ∈ ops, op.Valid) :
    (∃ final reached outputs,
        runCode ctx ops = some (final, outputs) ∧
          runMessage digesting ops = some (reached, outputs) ∧
          Sound final reached) ∨
      (runCode ctx ops = none ∧ runMessage digesting ops = none) := by
  induction ops generalizing ctx digesting with
  | nil =>
      exact .inl ⟨ctx, digesting, [], rfl, rfl, sound⟩
  | cons op rest inductionHypothesis =>
      by_cases ends : op.Ends digesting
      · obtain ⟨next, called, nextSound⟩ :=
          sound.call (valid op List.mem_cons_self) ends
        have restValid : ∀ other ∈ rest, other.Valid :=
          fun other member => valid other (List.mem_cons_of_mem _ member)
        simp only [runMessage, runCode, if_pos ends, called, bind,
          Option.bind]
        obtain ⟨final, reached, outputs, ran, reachedEq, finalSound⟩ |
            ⟨ran, reachedEq⟩ :=
          inductionHypothesis nextSound restValid
        · refine .inl
            ⟨final, reached, (callMessage digesting op).2 :: outputs,
              ?_, ?_, finalSound⟩
          · rw [ran]
          · rw [reachedEq]
        · exact .inr ⟨by rw [ran], by rw [reachedEq]⟩
      · simp only [runMessage, runCode, if_neg ends,
          sound.call_none ends, bind, Option.bind]
        exact .inr ⟨trivial, trivial⟩

/-- A new object has an empty message, whatever its memory held before. -/
theorem sound_init (storage : MD5) :
    Sound (init storage) { message := [], complete := false } := by
  rw [Sound, if_neg Bool.false_ne_true]
  exact absorbed_init storage

/--
Every sequence of calls on a new object returns what the message returns: the
pieces do not matter, only the bytes up to the first `MD5::finalize`.  The
calls end exactly where no index wraps.
-/
theorem calls_digest_message
    (storage : MD5)
    (ops : List Op)
    (valid : ∀ op ∈ ops, op.Valid) :
    (runCode (init storage) ops).map Prod.snd =
      (runMessage { message := [], complete := false } ops).map
        Prod.snd := by
  obtain ⟨final, reached, outputs, ran, reachedEq, _⟩ | ⟨ran, reachedEq⟩ :=
    (sound_init storage).run valid
  · rw [ran, reachedEq]
    rfl
  · rw [ran, reachedEq]
    rfl

/-- An object that has been used before. -/
def usedStorage : MD5 where
  state := { a := 1, b := 2, c := 3, d := 4 }
  count0 := 5
  count1 := 6
  buffer := Vector.replicate 64 7
  digest := []
  finalized := true

/-- Three bytes in two pieces, with a look at the digest before the end. -/
theorem calls_digest_message_pieces :
    (runCode (init usedStorage)
        [.update [97] 1, .hexDigest, .updateFile [[98, 99], []], .finalize,
          .update [100] 1, .hexDigest]).map Prod.snd =
      some
        [.none, .hex none, .none, .none, .none,
          .hex (some ((digestOf [97, 98, 99]).flatMap hexByte))] := by
  rw [calls_digest_message _ _ (by simp [Op.Valid])]
  rfl

/-- A message that is complete stays so. -/
theorem complete_callMessage
    (op : Op)
    (complete : digesting.complete = true) :
    (callMessage digesting op).1.complete = true := by
  cases op <;> simp [callMessage, Digesting.append, complete]

/-- After `MD5::finalize` the message is complete. -/
theorem complete_runMessage
    {ops : List Op}
    {reached : Digesting}
    {outputs : List Output}
    (ran : runMessage digesting ops = some (reached, outputs))
    (finalizes : digesting.complete = true ∨ .finalize ∈ ops) :
    reached.complete = true := by
  induction ops generalizing digesting outputs with
  | nil =>
      simp only [runMessage, Option.some.injEq, Prod.mk.injEq] at ran
      rw [← ran.1]
      exact finalizes.resolve_right List.not_mem_nil
  | cons op rest inductionHypothesis =>
      simp only [runMessage, bind, Option.bind] at ran
      split at ran
      · cases laterEq : runMessage (callMessage digesting op).1 rest with
        | none =>
            simp [laterEq] at ran
        | some later =>
            obtain ⟨laterReached, laterOutputs⟩ := later
            simp only [laterEq, Option.some.injEq, Prod.mk.injEq] at ran
            obtain ⟨rfl, _⟩ := ran
            refine inductionHypothesis laterEq ?_
            obtain complete | member := finalizes
            · exact .inl (complete_callMessage op complete)
            · obtain rfl | later := List.mem_cons.mp member
              · exact .inl rfl
              · exact .inr later
      · cases ran

/--
`MD5::finalize` means to clear the buffer, but clears one byte: after it, and
whatever is called then, the other bytes are the end of the padded message.
-/
theorem buffer_after_finalize
    (storage : MD5)
    {ops : List Op}
    {final : MD5}
    {outputs : List Output}
    (valid : ∀ op ∈ ops, op.Valid)
    (finalizes : .finalize ∈ ops)
    (ran : runCode (init storage) ops = some (final, outputs)) :
    ∃ reached,
      runMessage { message := [], complete := false } ops =
          some (reached, outputs) ∧
        final.buffer.toList =
          0 :: (padded reached.message).drop
            ((padded reached.message).length - 63) := by
  obtain ⟨other, reached, others, otherRan, reachedEq, sound⟩ |
      ⟨noRun, _⟩ :=
    (sound_init storage).run valid
  · rw [ran, Option.some.injEq, Prod.mk.injEq] at otherRan
    obtain ⟨rfl, rfl⟩ := otherRan
    have complete := complete_runMessage reachedEq (.inr finalizes)
    rw [Sound, if_pos complete] at sound
    exact ⟨reached, reachedEq, sound.2.2⟩
  · rw [ran] at noRun
    cases noRun

/-- Three bytes of a message are left in the buffer, but not the first one. -/
theorem buffer_after_finalize_pieces :
    ∃ final outputs,
      runCode (init usedStorage) [.update [1, 2, 3, 4] 4, .finalize] =
          some (final, outputs) ∧
        final.buffer.toList.take 4 = [0, 2, 3, 4] := by
  have ends :
      (runCode (init usedStorage)
        [.update [1, 2, 3, 4] 4, .finalize]).isSome = true := by
    decide +kernel
  obtain ⟨⟨final, outputs⟩, ran⟩ := Option.isSome_iff_exists.mp ends
  obtain ⟨reached, reachedEq, content⟩ :=
    buffer_after_finalize usedStorage (by simp [Op.Valid]) (by simp) ran
  have message :
      ({ message := [1, 2, 3, 4], complete := true } : Digesting) =
        reached := by
    have computed :
        runMessage { message := [], complete := false }
            [.update [1, 2, 3, 4] 4, .finalize] =
          some
            ({ message := [1, 2, 3, 4], complete := true },
              [.none, .none]) := by
      decide
    rw [computed, Option.some.injEq, Prod.mk.injEq] at reachedEq
    exact reachedEq.1
  refine ⟨final, outputs, ran, ?_⟩
  rw [content, ← message]
  decide

end Runs

section GetMd5

/--
`common::getMd5` refuses the empty string and otherwise returns the digest of
the string, which it cuts to its length modulo `2 ^ 32`.
-/
theorem getMd5_eq
    (storage : MD5)
    (data : List UInt8) :
    getMd5 storage data =
      if data = [] then
        some (.error errArg)
      else
        some
          (.ok ((digestOf (data.take (data.length % 2 ^ 32))).flatMap
            hexByte)) := by
  by_cases empty : data = []
  · rw [if_pos empty, getMd5, if_pos (by rw [empty]; rfl)]
  · have notEmpty : ¬ data.length = 0 :=
      mt List.eq_nil_of_length_eq_zero empty
    have cut : (UInt32.ofNat data.length).toNat = data.length % 2 ^ 32 :=
      UInt32.toNat_ofNat'
    have short := Nat.mod_le data.length (2 ^ 32)
    obtain ⟨next, updated, absorbed⟩ :=
      @Absorbed.update _ _ (absorbed_init storage) (data ++ [0])
        (UInt32.ofNat data.length)
        (by rw [cut, List.length_append]; omega)
        (.inl rfl)
    rw [List.nil_append, cut, List.take_append_of_le_length short]
      at absorbed
    obtain ⟨final, finalized, complete, digest, _⟩ := absorbed.finalize
    rw [if_neg empty, getMd5, if_neg notEmpty]
    simp only [updated, finalized, hexDigest, complete, digest, bind,
      Option.bind, if_true]

end GetMd5

end WkcRuntime.Md5
