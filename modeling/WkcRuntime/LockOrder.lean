import Mathlib.Data.List.Basic

namespace WkcRuntime.LockOrder

/-!
# Locks that are taken in order

Threads hold locks and wait for locks.  When every thread waits for a lock of a
higher rank than those that it holds, and the ranks are bounded, the threads
cannot all wait for each other: whoever holds the lock that a thread waits for
either waits for a higher one or does not wait at all.
-/

variable {Tid Place : Type}

/--
If some thread waits, some thread waits for a lock that is free, or holds one
and does not wait.
-/
theorem exists_ready
    {holder : Place → Option Tid}
    {awaits : Tid → Option Place}
    (rank : Place → Nat)
    (bound : Nat)
    (bounded : ∀ place, rank place ≤ bound)
    (ascends :
      ∀ tid held place,
        holder held = some tid →
        awaits tid = some place →
        rank held < rank place)
    {tid : Tid}
    {place : Place}
    (waits : awaits tid = some place) :
    (∃ other target,
      awaits other = some target ∧ holder target = none) ∨
      ∃ other held,
        holder held = some other ∧ awaits other = none := by
  -- The distance to the bound shrinks from a lock to the next one awaited.
  induction distance : bound - rank place using Nat.strongRecOn
    generalizing tid place with
  | _ distance inductionHypothesis =>
      cases held : holder place with
      | none =>
          exact .inl ⟨tid, place, waits, held⟩
      | some other =>
          cases next : awaits other with
          | none =>
              exact .inr ⟨other, place, held, next⟩
          | some target =>
              have higher := ascends other place target held next
              have below := bounded target
              exact inductionHypothesis (bound - rank target)
                (by omega) next rfl

/-- In a list without repetitions a place comes before the next one. -/
theorem idxOf_lt_idxOf
    [DecidableEq Place]
    {behind ahead : List Place}
    {place later : Place}
    (nodup : (behind ++ place :: later :: ahead).Nodup) :
    (behind ++ place :: later :: ahead).idxOf place <
      (behind ++ place :: later :: ahead).idxOf later := by
  have apart := nodup
  simp only [List.nodup_append, List.nodup_cons, List.mem_cons,
    not_or] at apart
  have notBehind : place ∉ behind := by
    intro member
    exact apart.2.2 place member place (.inl rfl) rfl
  have laterNotBehind : later ∉ behind := by
    intro member
    exact apart.2.2 later member later (.inr (.inl rfl)) rfl
  rw [List.idxOf_append_of_notMem notBehind,
    List.idxOf_append_of_notMem laterNotBehind, List.idxOf_cons_self,
    List.idxOf_cons_ne _ apart.2.1.1.1]
  omega

end WkcRuntime.LockOrder
