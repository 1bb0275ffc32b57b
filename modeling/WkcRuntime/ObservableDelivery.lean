import Mathlib.Data.List.Pairwise
import WkcRuntime.ObservableSubscriptions

namespace WkcRuntime.Observable

open Mesg MsgQueue

/-!
# Who is notified, and how often

Over every sequence of calls `IsHas` and `Notify` answer from the set of pairs
in which a covered pair is not inserted a second time.  One subscriber is tried
twice by one `Notify` exactly after a wildcard was added behind a specific
entry of the same subscriber.
-/

section Sets

variable {Subscriber : Type}

/-- An accepted `Add`. -/
def Op.AcceptedAdd
    (refuses : Subscriber → Bool → Bool) :
    Op Subscriber → Prop
  | .add subscriber refusal _ _ =>
      refuses subscriber refusal = false
  | .del _ _ =>
      False
  | .clear =>
      False

/-- The call adds the wildcard of a subscriber or the pair itself. -/
def Op.Adds
    (subscriber : Subscriber)
    (ulMsgId : UInt64) :
    Op Subscriber → Prop
  | .add added _ addedId _ =>
      added = subscriber ∧ (addedId = 0 ∨ addedId = ulMsgId)
  | .del _ _ =>
      False
  | .clear =>
      False

theorem Op.AcceptedAdd.accepted
    {refuses : Subscriber → Bool → Bool}
    {op : Op Subscriber}
    (isAdd : op.AcceptedAdd refuses) :
    op.Accepted refuses := by
  cases op with
  | add subscriber refusal ulMsgId ulCbId =>
      exact isAdd
  | del subscriber ulMsgId =>
      cases isAdd
  | clear =>
      cases isAdd

/-- Leaving covered pairs out never gives a larger set. -/
theorem insertUncovered_subset
    {fewer more : Set (Subscriber × UInt64)}
    (subset : fewer ⊆ more)
    (op : Op Subscriber) :
    insertUncovered fewer op ⊆ insertAlways more op := by
  cases op with
  | add subscriber refusal ulMsgId ulCbId =>
      rintro pair (member | ⟨rfl, _⟩)
      · exact Set.mem_insert_of_mem _ (subset member)
      · exact Set.mem_insert _ _
  | del subscriber ulMsgId =>
      rintro pair ⟨member, other⟩
      exact ⟨subset member, other⟩
  | clear =>
      exact subset_rfl

/-- The same over a whole sequence of calls. -/
theorem foldl_insertUncovered_subset
    (ops : List (Op Subscriber))
    {fewer more : Set (Subscriber × UInt64)}
    (subset : fewer ⊆ more) :
    ops.foldl insertUncovered fewer ⊆ ops.foldl insertAlways more := by
  induction ops generalizing fewer more with
  | nil =>
      exact subset
  | cons op rest inductionHypothesis =>
      exact inductionHypothesis (insertUncovered_subset subset op)

theorem Covers.mono
    {fewer more : Set (Subscriber × UInt64)}
    {subscriber : Subscriber}
    {ulMsgId : UInt64}
    (subset : fewer ⊆ more)
    (covers : Covers fewer subscriber ulMsgId) :
    Covers more subscriber ulMsgId :=
  covers.imp (fun member => subset member) (fun member => subset member)

/-- An `Add` covers exactly what it adds, also when it is a repetition. -/
theorem covers_insertUncovered_add
    {pairs : Set (Subscriber × UInt64)}
    {op : Op Subscriber}
    {refuses : Subscriber → Bool → Bool}
    (isAdd : op.AcceptedAdd refuses)
    {subscriber : Subscriber}
    {ulMsgId : UInt64} :
    Covers (insertUncovered pairs op) subscriber ulMsgId ↔
      Covers pairs subscriber ulMsgId ∨ op.Adds subscriber ulMsgId := by
  cases op with
  | add added refusal addedId ulCbId =>
      constructor
      · rintro ((member | ⟨same, _⟩) | (member | ⟨same, _⟩))
        · exact Or.inl (Or.inl member)
        · obtain ⟨rfl, rfl⟩ := Prod.mk.inj same
          exact Or.inr ⟨rfl, Or.inr rfl⟩
        · exact Or.inl (Or.inr member)
        · obtain ⟨rfl, rfl⟩ := Prod.mk.inj same
          exact Or.inr ⟨rfl, Or.inl rfl⟩
      · rintro (covers | ⟨rfl, whichId⟩)
        · exact covers.imp Or.inl Or.inl
        · by_cases covered : Covers pairs added addedId
          · rcases whichId with rfl | rfl
            · exact Or.inr (Or.inl (covered.elim id id))
            · exact covered.imp Or.inl Or.inl
          · rcases whichId with rfl | rfl
            · exact Or.inr (Or.inr ⟨rfl, covered⟩)
            · exact Or.inl (Or.inr ⟨rfl, covered⟩)
  | del deleted deletedId =>
      cases isAdd
  | clear =>
      cases isAdd

/-- After a sequence of `Add`s, covered is what was covered or was added. -/
theorem covers_foldl_adds
    {refuses : Subscriber → Bool → Bool}
    {adds : List (Op Subscriber)}
    (allAdds : ∀ op ∈ adds, op.AcceptedAdd refuses)
    {pairs : Set (Subscriber × UInt64)}
    {subscriber : Subscriber}
    {ulMsgId : UInt64} :
    Covers (adds.foldl insertUncovered pairs) subscriber ulMsgId ↔
      Covers pairs subscriber ulMsgId ∨
        ∃ op ∈ adds, op.Adds subscriber ulMsgId := by
  induction adds generalizing pairs with
  | nil =>
      simp
  | cons op rest inductionHypothesis =>
      rw [List.foldl_cons,
        inductionHypothesis
          (fun later member => allAdds later (by simp [member])),
        covers_insertUncovered_add (allAdds op (by simp)), or_assoc]
      simp

end Sets

section Pairs

variable {Subscriber : Type} [DecidableEq Subscriber]

/--
How one class of observables keeps its pairs: `IsHas` and `Notify` answer from
the set that leaves covered pairs out, they never answer more than the set that
inserts always, and the order of `Add`s does not matter to them.
-/
structure KeepsPairs
    (refuses : Subscriber → Bool → Bool)
    (step :
      List (ElementT Subscriber) →
      Op Subscriber →
      List (ElementT Subscriber))
    (isHas :
      List (ElementT Subscriber) → Subscriber → UInt64 → Bool)
    (attempts :
      List (ElementT Subscriber) → Option MesgT → List Subscriber) :
    Prop where
  isHas_iff :
    ∀ ops : List (Op Subscriber),
      (∀ op ∈ ops, op.Accepted refuses) →
      ∀ subscriber ulMsgId,
        isHas (ops.foldl step []) subscriber ulMsgId = true ↔
          Covers (ops.foldl insertUncovered ∅) subscriber ulMsgId
  delivered_iff :
    ∀ ops : List (Op Subscriber),
      (∀ op ∈ ops, op.Accepted refuses) →
      ∀ msg subscriber,
        Deliverable msg →
        (subscriber ∈ attempts (ops.foldl step []) (some msg) ↔
          Covers (ops.foldl insertUncovered ∅) subscriber msg.ulMsgId)
  notMore :
    ∀ ops : List (Op Subscriber),
      (∀ op ∈ ops, op.Accepted refuses) →
      ∀ subscriber ulMsgId,
        isHas (ops.foldl step []) subscriber ulMsgId = true →
        Covers (ops.foldl insertAlways ∅) subscriber ulMsgId
  anyOrder :
    ∀ (mList : List (ElementT Subscriber)) (adds permuted : List _),
      (∀ op ∈ adds, op.AcceptedAdd refuses) →
      adds.Perm permuted →
      ∀ subscriber ulMsgId,
        isHas (adds.foldl step mList) subscriber ulMsgId =
          isHas (permuted.foldl step mList) subscriber ulMsgId

/-- The shared code of both classes keeps its pairs. -/
theorem keepsPairs
    {World : Type}
    (refuses : Subscriber → Bool → Bool)
    (deliver : Deliver World Subscriber)
    (world : World)
    (gExecuteCnt : Int32) :
    KeepsPairs refuses (stepWith refuses) isHas
      (fun mList pMsg =>
        (notify deliver mList pMsg
          ⟨world, gExecuteCnt, []⟩).1.attempts) := by
  have emptySet :
      subscriptions ([] : List (ElementT Subscriber)) = ∅ := by
    simp [subscriptions]
  have isHas_iff :
      ∀ ops : List (Op Subscriber),
        (∀ op ∈ ops, op.Accepted refuses) →
        ∀ subscriber ulMsgId,
          isHas (ops.foldl (stepWith refuses) [])
              subscriber ulMsgId = true ↔
            Covers (ops.foldl insertUncovered ∅)
              subscriber ulMsgId := by
    intro ops accepted subscriber ulMsgId
    rw [isHas, any_covers_iff, subscriptions_foldl accepted, emptySet]
  refine ⟨isHas_iff, ?_, ?_, ?_⟩
  · intro ops accepted msg subscriber deliverable
    rw [notify_attempts deliver _ deliverable, List.nil_append,
      mem_matching_iff, subscriptions_foldl accepted, emptySet]
  · intro ops accepted subscriber ulMsgId has
    exact ((isHas_iff ops accepted subscriber ulMsgId).mp has).mono
      (foldl_insertUncovered_subset ops subset_rfl)
  · intro mList adds permuted allAdds perm subscriber ulMsgId
    have permutedAdds :
        ∀ op ∈ permuted, op.AcceptedAdd refuses :=
      fun op member => allAdds op (perm.mem_iff.mpr member)
    rw [Bool.eq_iff_iff, isHas, isHas, any_covers_iff, any_covers_iff,
      subscriptions_foldl (fun op member => (allAdds op member).accepted),
      subscriptions_foldl
        (fun op member => (permutedAdds op member).accepted),
      covers_foldl_adds allAdds, covers_foldl_adds permutedAdds]
    simp only [perm.mem_iff]

end Pairs

section Overlap

variable {Subscriber : Type} [DecidableEq Subscriber]

/-- The list of one observable under its calls, from the empty list. -/
def machine
    (step :
      List (ElementT Subscriber) →
      Op Subscriber →
      List (ElementT Subscriber)) :
    Machine (List (ElementT Subscriber)) (Op Subscriber) where
  Initial := fun mList => mList = []
  step? := fun mList op => some (step mList op)

/-- No accepted wildcard is added behind a specific entry of its subscriber. -/
def NoLateWildcard
    (refuses : Subscriber → Bool → Bool)
    (mList : List (ElementT Subscriber)) :
    Op Subscriber → Prop
  | .add subscriber refusal ulMsgId _ =>
      refuses subscriber refusal = false →
        ulMsgId = 0 →
        ∀ e ∈ mList, e.subscriber = subscriber → e.ulMsgId = 0
  | .del _ _ =>
      True
  | .clear =>
      True

/-- Two entries that never match the same message for one subscriber. -/
def Apart (first second : ElementT Subscriber) : Prop :=
  first.subscriber = second.subscriber →
    first.ulMsgId ≠ 0 ∧
      second.ulMsgId ≠ 0 ∧
      first.ulMsgId ≠ second.ulMsgId

instance : Std.Symm (@Apart Subscriber) where
  symm := by
    intro first second apart same
    obtain ⟨firstSpecific, secondSpecific, different⟩ := apart same.symm
    exact ⟨secondSpecific, firstSpecific, different.symm⟩

/-- A permitted call keeps the entries apart. -/
theorem apart_stepWith
    {refuses : Subscriber → Bool → Bool}
    {mList : List (ElementT Subscriber)}
    {op : Op Subscriber}
    (apart : mList.Pairwise Apart)
    (permitted : NoLateWildcard refuses mList op) :
    (stepWith refuses mList op).Pairwise Apart := by
  cases op with
  | add subscriber refusal ulMsgId ulCbId =>
      cases refused : refuses subscriber refusal with
      | true =>
          simp only [stepWith, add, refused, ↓reduceIte]
          exact apart
      | false =>
          simp only [stepWith, add, refused, Bool.false_eq_true,
            ↓reduceIte]
          split
          · exact apart
          · rename_i uncovered
            refine List.pairwise_cons.mpr ⟨?_, apart⟩
            intro e member same
            have notCovered :
                ¬ (e.ulMsgId = 0 ∨ e.ulMsgId = ulMsgId) := by
              intro whichId
              refine uncovered (List.any_eq_true.mpr ⟨e, member, ?_⟩)
              exact ElementT.covers_iff.mpr ⟨same.symm, whichId⟩
            obtain ⟨specific, different⟩ := not_or.mp notCovered
            refine ⟨?_, specific, Ne.symm different⟩
            intro wildcard
            exact specific (permitted refused wildcard e member same.symm)
  | del subscriber ulMsgId =>
      exact apart.filter _
  | clear =>
      exact List.Pairwise.nil

omit [DecidableEq Subscriber] in
/-- Entries that are apart give one attempt for each subscriber. -/
theorem nodup_matching
    {mList : List (ElementT Subscriber)}
    (apart : mList.Pairwise Apart)
    (ulMsgId : UInt64) :
    ((mList.filter (ElementT.matches ulMsgId)).map
      ElementT.subscriber).Nodup := by
  have matched :
      ∀ e ∈ mList.filter (ElementT.matches ulMsgId),
        e.ulMsgId = 0 ∨ e.ulMsgId = ulMsgId := by
    intro e member
    simpa [ElementT.matches] using (List.mem_filter.mp member).2
  apply List.pairwise_map.mpr
  apply (apart.filter _).imp_of_mem
  intro first second firstMember secondMember pair same
  obtain ⟨firstSpecific, secondSpecific, different⟩ := pair same
  exact different
    (((matched first firstMember).resolve_left firstSpecific).trans
      ((matched second secondMember).resolve_left secondSpecific).symm)

/-- A late wildcard joins a specific entry of the same subscriber. -/
theorem exists_twice_of_lateWildcard
    {refuses : Subscriber → Bool → Bool}
    {mList : List (ElementT Subscriber)}
    {op : Op Subscriber}
    (apart : mList.Pairwise Apart)
    (late : ¬ NoLateWildcard refuses mList op) :
    ∃ ulMsgId,
      ¬ (((stepWith refuses mList op).filter
        (ElementT.matches ulMsgId)).map ElementT.subscriber).Nodup := by
  cases op with
  | add subscriber refusal addedId ulCbId =>
      simp only [NoLateWildcard, not_forall] at late
      obtain ⟨accepted, rfl, e, member, same, specific⟩ := late
      have uncovered :
          mList.any (ElementT.covers subscriber 0) = false := by
        rw [← Bool.not_eq_true, List.any_eq_true]
        rintro ⟨wildcard, wildcardMember, covers⟩
        obtain ⟨sameWildcard, isZero⟩ := ElementT.covers_iff.mp covers
        have isWildcard : wildcard.ulMsgId = 0 := isZero.elim id id
        have distinct : e ≠ wildcard := by
          rintro rfl
          exact specific isWildcard
        have pair : Apart e wildcard :=
          apart.forall member wildcardMember distinct
        exact (pair (same.trans sameWildcard.symm)).2.1 isWildcard
      refine ⟨e.ulMsgId, ?_⟩
      have again :
          subscriber ∈
            (mList.filter (ElementT.matches e.ulMsgId)).map
              ElementT.subscriber := by
        refine List.mem_map.mpr ⟨e, List.mem_filter.mpr ⟨member, ?_⟩, same⟩
        simp [ElementT.matches]
      have pushed :
          stepWith refuses mList (.add subscriber refusal 0 ulCbId) =
            ⟨subscriber, 0, ulCbId⟩ :: mList := by
        simp [stepWith, add, accepted, uncovered]
      have visited :
          ElementT.matches e.ulMsgId
            (⟨subscriber, 0, ulCbId⟩ : ElementT Subscriber) = true := by
        simp [ElementT.matches]
      rw [pushed, List.filter_cons_of_pos visited, List.map_cons,
        List.nodup_cons]
      exact fun once => once.1 again
  | del subscriber ulMsgId =>
      exact absurd trivial late
  | clear =>
      exact absurd trivial late

/--
When one class of observables tries a subscriber once: in all runs without a
late wildcard, and no longer after a late wildcard in such a run.
-/
structure OncePerSubscriber
    (refuses : Subscriber → Bool → Bool)
    (step :
      List (ElementT Subscriber) →
      Op Subscriber →
      List (ElementT Subscriber))
    (attempts :
      List (ElementT Subscriber) → Option MesgT → List Subscriber) :
    Prop where
  once :
    ∀ mList,
      (machine step).ReachableWhere (NoLateWildcard refuses) mList →
      ∀ pMsg, (attempts mList pMsg).Nodup
  twice :
    ∀ mList next op,
      (machine step).ReachableWhere (NoLateWildcard refuses) mList →
      (machine step).step? mList op = some next →
      ¬ NoLateWildcard refuses mList op →
      ∃ ulMsgId, ∀ msg,
        Deliverable msg →
        msg.ulMsgId = ulMsgId →
        ¬ (attempts next (some msg)).Nodup

/-- Entries stay apart in every run without a late wildcard. -/
theorem apart_of_reachable
    {refuses : Subscriber → Bool → Bool}
    {mList : List (ElementT Subscriber)}
    (reachable :
      (machine (stepWith refuses)).ReachableWhere
        (NoLateWildcard refuses) mList) :
    mList.Pairwise Apart := by
  apply reachable.invariant
  · rintro start rfl
    exact List.Pairwise.nil
  · intro before after op apart permitted stepped
    cases stepped
    exact apart_stepWith apart permitted

/-- The shared code of both classes tries a subscriber once. -/
theorem oncePerSubscriber
    {World : Type}
    (refuses : Subscriber → Bool → Bool)
    (deliver : Deliver World Subscriber)
    (world : World)
    (gExecuteCnt : Int32) :
    OncePerSubscriber refuses (stepWith refuses)
      (fun mList pMsg =>
        (notify deliver mList pMsg
          ⟨world, gExecuteCnt, []⟩).1.attempts) := by
  constructor
  · intro mList reachable pMsg
    by_cases deliverable : ∃ msg, pMsg = some msg ∧ Deliverable msg
    · obtain ⟨msg, rfl, deliverable⟩ := deliverable
      rw [notify_attempts deliver mList deliverable, List.nil_append]
      exact nodup_matching (apart_of_reachable reachable) msg.ulMsgId
    · rw [notify_attempts_rejected deliver mList
        (fun msg named accepted => deliverable ⟨msg, named, accepted⟩)]
      exact List.nodup_nil
  · intro mList next op reachable stepped late
    cases stepped
    obtain ⟨ulMsgId, twice⟩ :=
      exists_twice_of_lateWildcard (apart_of_reachable reachable) late
    refine ⟨ulMsgId, ?_⟩
    rintro msg deliverable rfl
    rw [notify_attempts deliver _ deliverable, List.nil_append]
    exact twice

end Overlap

end WkcRuntime.Observable

namespace WkcRuntime

open Mesg MsgQueue Observable

theorem ObservableQueue.step_eq_stepWith :
    ObservableQueue.step = stepWith ObservableQueue.refuses := by
  funext mList op
  cases op <;> rfl

theorem ObservableFunction.step_eq_stepWith :
    ObservableFunction.step = stepWith ObservableFunction.refuses := by
  funext mList op
  cases op <;> rfl

section Classes

variable {Object Queue Obj World : Type}
variable [DecidableEq Object] [DecidableEq Queue]

/-- Both classes try each subscriber once, up to the first late wildcard. -/
theorem Observable.attempts_nodup_iff_noLateWildcard
    (queueAnswers : Nat → Allocation × Bool)
    (process : Process Object Queue Obj)
    (call : ObservableFunction.Behaviour World Obj)
    (functionAnswers : Nat → Allocation)
    (world : Heap Obj × World)
    (gExecuteCnt : Int32) :
    OncePerSubscriber
        ObservableQueue.refuses
        ObservableQueue.step
        (ObservableQueue.attempts queueAnswers process gExecuteCnt) ∧
      OncePerSubscriber
        ObservableFunction.refuses
        ObservableFunction.step
        (ObservableFunction.attempts call functionAnswers world
          gExecuteCnt) := by
  rw [ObservableQueue.step_eq_stepWith,
    ObservableFunction.step_eq_stepWith]
  exact ⟨oncePerSubscriber _ _ process gExecuteCnt,
    oncePerSubscriber _ _ world gExecuteCnt⟩

/-- A process with one open queue. -/
def Observable.idleProcess : Process Unit Unit Unit where
  heap := Heap.empty
  kernel := {
    descriptor := fun fd =>
      if fd = 3 then
        some ()
      else
        none
    queue := fun _ => ⟨8, []⟩ }
  object := fun _ => ⟨3, true, 0, 0, 0, 0⟩
  gMap := fun _ => none
  gReceiveMsgCnt := 0
  gSendMsgCnt := 0

/-- The deliveries of one `Notify` to the queues of the idle process. -/
def Observable.idleAttempts :
    List (ElementT Int32) → Option MesgT → List Int32 :=
  ObservableQueue.attempts (fun _ => (⟨none, 0⟩, true)) idleProcess 0

/-- A wildcard added first keeps later entries out. -/
theorem Observable.attempts_nodup_of_wildcardFirst :
    (Observable.idleAttempts
      ([.add 3 false 0 0, .add 3 false 5 0].foldl
        ObservableQueue.step [])
      (some { mesg with ulMsgId := 5 })).Nodup := by
  obtain ⟨queues, _⟩ :=
    Observable.attempts_nodup_iff_noLateWildcard
      (fun _ => (⟨none, 0⟩, true)) Observable.idleProcess
      (fun _ world _ => ((world.1, ()), 0)) (fun _ => ⟨none, 0⟩)
      ((Heap.empty : Heap Unit), ()) 0
  have first :
      NoLateWildcard ObservableQueue.refuses [] (.add 3 false 0 0) := by
    intro _ _ e member
    cases member
  have second :
      NoLateWildcard ObservableQueue.refuses
        (ObservableQueue.step [] (.add 3 false 0 0))
        (.add 3 false 5 0) := by
    intro _ isZero
    exact absurd isZero (by decide)
  exact queues.once _
    (.step (.step (.initial rfl) first rfl) second rfl) _

/-- A wildcard added behind a specific entry has its queue tried twice. -/
theorem Observable.lateWildcard_attempted_twice :
    ¬ ∀ mList,
      (Observable.machine ObservableQueue.step).Reachable mList →
      ∀ pMsg, (Observable.idleAttempts mList pMsg).Nodup := by
  intro once
  have reachable :
      (Observable.machine ObservableQueue.step).Reachable
        (ObservableQueue.step
          (ObservableQueue.step [] (.add 3 false 5 0))
          (.add 3 false 0 0)) :=
    .step (.step (.initial rfl) trivial rfl) trivial rfl
  have nodup := once _ reachable (some { mesg with ulMsgId := 5 })
  revert nodup
  decide

/-- Both classes keep the set of pairs that leaves covered pairs out. -/
theorem Observable.observables_keep_pairs
    (queueAnswers : Nat → Allocation × Bool)
    (process : Process Object Queue Obj)
    (call : ObservableFunction.Behaviour World Obj)
    (functionAnswers : Nat → Allocation)
    (world : Heap Obj × World)
    (gExecuteCnt : Int32) :
    KeepsPairs
        ObservableQueue.refuses
        ObservableQueue.step
        ObservableQueue.isHas
        (ObservableQueue.attempts queueAnswers process gExecuteCnt) ∧
      KeepsPairs
        ObservableFunction.refuses
        ObservableFunction.step
        ObservableFunction.isHas
        (ObservableFunction.attempts call functionAnswers world
          gExecuteCnt) := by
  rw [ObservableQueue.step_eq_stepWith,
    ObservableFunction.step_eq_stepWith]
  exact ⟨keepsPairs _ _ process gExecuteCnt,
    keepsPairs _ _ world gExecuteCnt⟩

/-- A specific pair survives the deletion of a wildcard added after it. -/
theorem Observable.isHas_of_specificFirst :
    ObservableQueue.isHas
      ([.add 3 false 5 0, .add 3 false 0 0, .del 3 0].foldl
        ObservableQueue.step [])
      3 5 = true := by
  obtain ⟨queues, _⟩ :=
    Observable.observables_keep_pairs
      (fun _ => (⟨none, 0⟩, true)) Observable.idleProcess
      (fun _ world _ => ((world.1, ()), 0)) (fun _ => ⟨none, 0⟩)
      ((Heap.empty : Heap Unit), ()) 0
  refine (queues.isHas_iff _ ?_ 3 5).mpr ?_
  · intro op member
    simp only [List.mem_cons, List.not_mem_nil, or_false] at member
    rcases member with rfl | rfl | rfl
    · rfl
    · rfl
    · trivial
  · refine Or.inl ⟨Or.inl (Or.inr ⟨rfl, ?_⟩), ?_⟩
    · simp [Covers]
    · simp

/--
A specific pair added behind a wildcard is dropped, and the deletion of the
wildcard leaves nothing of it.
-/
theorem Observable.coveredPair_lost :
    ¬ ∀ ops : List (Op Int32),
      (∀ op ∈ ops, op.Accepted ObservableQueue.refuses) →
      ∀ subscriber ulMsgId,
        ObservableQueue.isHas (ops.foldl ObservableQueue.step [])
            subscriber ulMsgId = true ↔
          Covers (ops.foldl insertAlways ∅) subscriber ulMsgId := by
  intro always
  have accepted :
      ∀ op ∈ [Op.add (3 : Int32) false 0 0, .add 3 false 5 0, .del 3 0],
        op.Accepted ObservableQueue.refuses := by
    intro op member
    simp only [List.mem_cons, List.not_mem_nil, or_false] at member
    rcases member with rfl | rfl | rfl
    · rfl
    · rfl
    · trivial
  have inserted :
      Covers
        ([Op.add (3 : Int32) false 0 0, .add 3 false 5 0, .del 3 0].foldl
          insertAlways ∅) 3 5 :=
    Or.inl ⟨Or.inl rfl, by simp⟩
  have kept := (always _ accepted 3 5).mpr inserted
  revert kept
  decide

end Classes

end WkcRuntime
