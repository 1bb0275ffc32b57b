import Mathlib.Data.Set.Insert
import WkcRuntime.Machine
import WkcRuntime.ObservableSource

namespace WkcRuntime.Observable

open Mesg

/-!
# What the subscription list stands for

A list of entries stands for a set of pairs.  `Add` inserts a pair unless the
set covers it already, `Del` removes exactly one pair and `Clear` all of them.
`Notify` attempts one delivery for each entry that matches the message, in list
order, so that a subscriber is tried twice exactly when two of its entries
match.
-/

section Subscriptions

variable {World Subscriber : Type}

/-- The pairs that a list stands for. -/
def subscriptions
    (mList : List (ElementT Subscriber)) :
    Set (Subscriber × UInt64) :=
  { pair | ∃ e ∈ mList, (e.subscriber, e.ulMsgId) = pair }

/-- The newest entry adds its pair. -/
theorem mem_subscriptions_cons
    {e : ElementT Subscriber}
    {mList : List (ElementT Subscriber)}
    {pair : Subscriber × UInt64} :
    pair ∈ subscriptions (e :: mList) ↔
      (e.subscriber, e.ulMsgId) = pair ∨
        pair ∈ subscriptions mList := by
  simp [subscriptions]

/-- The set has the pair itself or the wildcard of its subscriber. -/
def Covers
    (pairs : Set (Subscriber × UInt64))
    (subscriber : Subscriber)
    (ulMsgId : UInt64) :
    Prop :=
  (subscriber, ulMsgId) ∈ pairs ∨ (subscriber, 0) ∈ pairs

/-- The set after one call when every `Add` inserts its pair. -/
def insertAlways
    (pairs : Set (Subscriber × UInt64)) :
    Op Subscriber → Set (Subscriber × UInt64)
  | .add subscriber _ ulMsgId _ =>
      insert (subscriber, ulMsgId) pairs
  | .del subscriber ulMsgId =>
      pairs \ {(subscriber, ulMsgId)}
  | .clear =>
      ∅

/-- The set after one call when a covered pair is not inserted. -/
def insertUncovered
    (pairs : Set (Subscriber × UInt64)) :
    Op Subscriber → Set (Subscriber × UInt64)
  | .add subscriber _ ulMsgId _ =>
      { pair |
        pair ∈ pairs ∨
          (pair = (subscriber, ulMsgId) ∧
            ¬ Covers pairs subscriber ulMsgId) }
  | .del subscriber ulMsgId =>
      pairs \ {(subscriber, ulMsgId)}
  | .clear =>
      ∅

/-- A call other than an `Add` that is refused. -/
def Op.Accepted
    (refuses : Subscriber → Bool → Bool) :
    Op Subscriber → Prop
  | .add subscriber refusal _ _ =>
      refuses subscriber refusal = false
  | .del _ _ =>
      True
  | .clear =>
      True

/-- A message that `Notify` does not reject for a missing size. -/
def Deliverable (msg : MesgT) : Prop :=
  msg.tpMsgData.1.isSome = true → msg.tpMsgData.2 ≠ 0

/-- The loop of `Notify` visits the matching entries in order. -/
theorem notifyEach_attempts
    (deliver : Deliver World Subscriber)
    (mList : List (ElementT Subscriber))
    (pMsg : MesgT)
    (rc : Int32)
    (notification : Notification World Subscriber) :
    (notifyEach deliver mList pMsg rc notification).1.attempts =
      notification.attempts ++
        (mList.filter (ElementT.matches pMsg.ulMsgId)).map
          ElementT.subscriber := by
  induction mList generalizing pMsg rc notification with
  | nil =>
      simp [notifyEach]
  | cons e rest inductionHypothesis =>
      unfold notifyEach
      cases matched : e.matches pMsg.ulMsgId with
      | false =>
          simp [inductionHypothesis, matched]
      | true =>
          simp [inductionHypothesis, matched, MesgT.cbId]

/-- What one `Notify` attempts. -/
theorem notify_attempts
    (deliver : Deliver World Subscriber)
    (mList : List (ElementT Subscriber))
    {msg : MesgT}
    (deliverable : Deliverable msg)
    (notification : Notification World Subscriber) :
    (notify deliver mList (some msg) notification).1.attempts =
      notification.attempts ++
        (mList.filter (ElementT.matches msg.ulMsgId)).map
          ElementT.subscriber := by
  have accepted :
      ¬ (msg.tpMsgData.1.isSome = true ∧ msg.tpMsgData.2 = 0) :=
    fun ⟨points, noSize⟩ => deliverable points noSize
  simp only [notify, accepted, ↓reduceIte]
  exact notifyEach_attempts deliver mList msg 0 notification

/-- A rejected call attempts nothing. -/
theorem notify_attempts_rejected
    (deliver : Deliver World Subscriber)
    (mList : List (ElementT Subscriber))
    {pMsg : Option MesgT}
    (rejected : ∀ msg, pMsg = some msg → ¬ Deliverable msg)
    (notification : Notification World Subscriber) :
    (notify deliver mList pMsg notification).1.attempts =
      notification.attempts := by
  cases pMsg with
  | none =>
      rfl
  | some msg =>
      have noSize :
          msg.tpMsgData.1.isSome = true ∧ msg.tpMsgData.2 = 0 := by
        simpa [Deliverable] using rejected msg rfl
      simp only [notify, noSize, and_self, ↓reduceIte]

variable [DecidableEq Subscriber]

/-- One call on the list, for a class with a given argument check. -/
def stepWith
    (refuses : Subscriber → Bool → Bool)
    (mList : List (ElementT Subscriber)) :
    Op Subscriber → List (ElementT Subscriber)
  | .add subscriber refusal ulMsgId ulCbId =>
      add (refuses subscriber refusal) mList subscriber ulMsgId ulCbId
  | .del subscriber ulMsgId =>
      del mList subscriber ulMsgId
  | .clear =>
      clear mList

/-- An entry passes the test of `Add` for itself and, as a wildcard, for all. -/
theorem ElementT.covers_iff
    {subscriber : Subscriber}
    {ulMsgId : UInt64}
    {e : ElementT Subscriber} :
    e.covers subscriber ulMsgId = true ↔
      e.subscriber = subscriber ∧ (e.ulMsgId = 0 ∨ e.ulMsgId = ulMsgId) := by
  simp only [ElementT.covers, Bool.or_eq_true, Bool.and_eq_true,
    decide_eq_true_eq]
  exact and_or_left.symm

/-- The test of `Add` and `IsHas` is coverage of the set. -/
theorem any_covers_iff
    {mList : List (ElementT Subscriber)}
    {subscriber : Subscriber}
    {ulMsgId : UInt64} :
    mList.any (ElementT.covers subscriber ulMsgId) = true ↔
      Covers (subscriptions mList) subscriber ulMsgId := by
  rw [List.any_eq_true]
  constructor
  · rintro ⟨e, member, covers⟩
    obtain ⟨rfl, wildcard | equal⟩ := ElementT.covers_iff.mp covers
    · exact Or.inr ⟨e, member, by rw [wildcard]⟩
    · exact Or.inl ⟨e, member, by rw [equal]⟩
  · rintro (⟨e, member, equal⟩ | ⟨e, member, wildcard⟩)
    · obtain ⟨rfl, rfl⟩ := Prod.mk.inj equal
      exact ⟨e, member, ElementT.covers_iff.mpr ⟨rfl, Or.inr rfl⟩⟩
    · obtain ⟨rfl, isZero⟩ := Prod.mk.inj wildcard
      exact ⟨e, member, ElementT.covers_iff.mpr ⟨rfl, Or.inl isZero⟩⟩

/-- A matching entry of a subscriber is coverage of the message. -/
theorem mem_matching_iff
    {mList : List (ElementT Subscriber)}
    {subscriber : Subscriber}
    {ulMsgId : UInt64} :
    subscriber ∈
        (mList.filter (ElementT.matches ulMsgId)).map
          ElementT.subscriber ↔
      Covers (subscriptions mList) subscriber ulMsgId := by
  rw [← any_covers_iff, List.any_eq_true, List.mem_map]
  constructor
  · rintro ⟨e, member, rfl⟩
    obtain ⟨member, matched⟩ := List.mem_filter.mp member
    refine ⟨e, member, ElementT.covers_iff.mpr ⟨rfl, ?_⟩⟩
    simpa [ElementT.matches] using matched
  · rintro ⟨e, member, covers⟩
    obtain ⟨rfl, matched⟩ := ElementT.covers_iff.mp covers
    refine ⟨e, List.mem_filter.mpr ⟨member, ?_⟩, rfl⟩
    simpa [ElementT.matches] using matched

/-- One accepted call on the list is the guarded call on the set. -/
theorem subscriptions_stepWith
    {refuses : Subscriber → Bool → Bool}
    {mList : List (ElementT Subscriber)}
    {op : Op Subscriber}
    (accepted : op.Accepted refuses) :
    subscriptions (stepWith refuses mList op) =
      insertUncovered (subscriptions mList) op := by
  cases op with
  | add subscriber refusal ulMsgId ulCbId =>
      have notRefused : refuses subscriber refusal = false := accepted
      ext pair
      by_cases covered :
          Covers (subscriptions mList) subscriber ulMsgId
      · have found := any_covers_iff.mpr covered
        simp [stepWith, add, notRefused, found, insertUncovered, covered]
      · have notFound :
            mList.any (ElementT.covers subscriber ulMsgId) = false := by
          rw [← Bool.not_eq_true, any_covers_iff]
          exact covered
        simp only [stepWith, add, notRefused, notFound,
          Bool.false_eq_true, ↓reduceIte, mem_subscriptions_cons]
        constructor
        · rintro (rfl | member)
          · exact Or.inr ⟨rfl, covered⟩
          · exact Or.inl member
        · rintro (member | ⟨rfl, _⟩)
          · exact Or.inr member
          · exact Or.inl rfl
  | del subscriber ulMsgId =>
      ext pair
      constructor
      · rintro ⟨e, member, rfl⟩
        obtain ⟨member, other⟩ := List.mem_filter.mp member
        refine ⟨⟨e, member, rfl⟩, ?_⟩
        intro same
        obtain ⟨rfl, rfl⟩ := Prod.mk.inj same
        simp at other
      · rintro ⟨⟨e, member, rfl⟩, other⟩
        refine ⟨e, List.mem_filter.mpr ⟨member, ?_⟩, rfl⟩
        rw [Bool.not_eq_true', Bool.and_eq_false_imp]
        intro sameSubscriber
        rw [decide_eq_false_iff_not]
        intro sameId
        exact other (Prod.ext (of_decide_eq_true sameSubscriber) sameId)
  | clear =>
      simp [stepWith, clear, insertUncovered, subscriptions]

/-- A run of accepted calls on the list is the guarded run on the set. -/
theorem subscriptions_foldl
    {refuses : Subscriber → Bool → Bool}
    {ops : List (Op Subscriber)}
    (accepted : ∀ op ∈ ops, op.Accepted refuses)
    (mList : List (ElementT Subscriber)) :
    subscriptions (ops.foldl (stepWith refuses) mList) =
      ops.foldl insertUncovered (subscriptions mList) := by
  induction ops generalizing mList with
  | nil =>
      rfl
  | cons op rest inductionHypothesis =>
      rw [List.foldl_cons, List.foldl_cons,
        ← subscriptions_stepWith (accepted op (by simp))]
      exact inductionHypothesis
        (fun later member => accepted later (by simp [member])) _

end Subscriptions

end WkcRuntime.Observable
