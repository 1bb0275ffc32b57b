import Mathlib.Data.List.Basic
import Mathlib.Logic.Relation

namespace WkcRuntime.LinkedOrder

/-!
# Orders that a successor function spells out

A singly linked structure is described by the list of its places in order.
`Linked next order` says that `next` leads from every place to the one after it
and from the last one nowhere.
-/

variable {Place : Type}

/-- `next` leads through the places in order and ends with the last one. -/
def Linked (next : Place → Option Place) : List Place → Prop
  | [] =>
      True
  | place :: rest =>
      next place = rest.head? ∧ Linked next rest

/-- The successor of a place is the first place after it. -/
theorem Linked.next_eq
    {next : Place → Option Place}
    {behind ahead : List Place}
    {place : Place}
    (linked : Linked next (behind ++ place :: ahead)) :
    next place = ahead.head? := by
  induction behind with
  | nil =>
      exact linked.1
  | cons _ rest inductionHypothesis =>
      exact inductionHypothesis linked.2

/-- Two functions that agree on the places link the same orders. -/
theorem Linked.congr
    {next next' : Place → Option Place}
    {order : List Place}
    (same : ∀ place, place ∈ order → next' place = next place)
    (linked : Linked next order) :
    Linked next' order := by
  induction order with
  | nil =>
      trivial
  | cons place rest inductionHypothesis =>
      constructor
      · rw [same place (List.mem_cons_self ..)]
        exact linked.1
      · exact inductionHypothesis
          (fun later member =>
            same later (List.mem_cons_of_mem _ member))
          linked.2

/-- A place with a successor splits the order between the two. -/
theorem Linked.split
    {next : Place → Option Place}
    {order : List Place}
    {place later : Place}
    (linked : Linked next order)
    (member : place ∈ order)
    (leads : next place = some later) :
    ∃ behind ahead, order = behind ++ place :: later :: ahead := by
  obtain ⟨behind, ahead, rfl⟩ := List.append_of_mem member
  have first := linked.next_eq
  rw [leads] at first
  cases ahead with
  | nil =>
      cases first
  | cons head rest =>
      simp only [List.head?_cons, Option.some.injEq] at first
      subst first
      exact ⟨behind, rest, rfl⟩

/-- A place without a successor is the last one. -/
theorem Linked.last
    {next : Place → Option Place}
    {order : List Place}
    {place : Place}
    (linked : Linked next order)
    (member : place ∈ order)
    (ends : next place = none) :
    ∃ behind, order = behind ++ [place] := by
  obtain ⟨behind, ahead, rfl⟩ := List.append_of_mem member
  have first := linked.next_eq
  rw [ends, eq_comm, List.head?_eq_none_iff] at first
  exact ⟨behind, by rw [first]⟩

/-- Every place of an order can be reached from its first place. -/
theorem Linked.reaches
    {next : Place → Option Place}
    {order : List Place}
    {start place : Place}
    (linked : Linked next order)
    (first : order.head? = some start)
    (member : place ∈ order) :
    Relation.ReflTransGen
      (fun before after => next before = some after) start place := by
  induction order generalizing start with
  | nil =>
      cases member
  | cons head rest inductionHypothesis =>
      obtain rfl : head = start := Option.some.inj first
      rcases List.mem_cons.1 member with isFirst | later
      · rw [isFirst]
      · obtain ⟨second, others, rfl⟩ := List.exists_cons_of_ne_nil
          (List.ne_nil_of_mem later)
        exact .head linked.1
          (inductionHypothesis linked.2 rfl later)

/-- A place whose predecessor is led past it can be left out. -/
theorem Linked.bypass
    {next next' : Place → Option Place}
    {behind ahead : List Place}
    {place removed : Place}
    (linked : Linked next (behind ++ place :: removed :: ahead))
    (led : next' place = next removed)
    (sameBehind : ∀ other, other ∈ behind → next' other = next other)
    (sameAhead : ∀ other, other ∈ ahead → next' other = next other) :
    Linked next' (behind ++ place :: ahead) := by
  induction behind with
  | nil =>
      refine ⟨?_, linked.2.2.congr sameAhead⟩
      rw [led]
      exact linked.2.1
  | cons first rest inductionHypothesis =>
      constructor
      · rw [sameBehind first (List.mem_cons_self ..)]
        have leads := linked.1
        cases rest with
        | nil =>
            exact leads
        | cons second others =>
            exact leads
      · exact inductionHypothesis linked.2
          (fun other member =>
            sameBehind other (List.mem_cons_of_mem _ member))

end WkcRuntime.LinkedOrder
