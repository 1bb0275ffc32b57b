import WkcRuntime.PointerCells

namespace WkcRuntime.Hlist

open PointerCells

/-!
# The list with a single pointer as head

`utils/list.h`: the functions on `struct hlist_head` and `struct hlist_node`
and the loops over such a list.  `target (.root h)` is `h->first`,
`target (.next n)` is `n->next` and `back n` is `n->pprev`; a null pointer is
`none`.  A function that would write through a null pointer has no result.
`prefetch` does nothing.
-/

variable {Head Node : Type}

/-- `hlist_unhashed`. -/
def hlistUnhashed (memory : Memory Head Node) (h : Node) : Bool :=
  (memory.back h).isNone

/-- `hlist_empty`. -/
def hlistEmpty (memory : Memory Head Node) (h : Head) : Bool :=
  (memory.target (.root h)).isNone

/-- `hlist_for_each`: the nodes met, unless the fuel runs out first. -/
def hlistForEach
    (memory : Memory Head Node)
    (head : Head)
    (fuel : Nat) :
    Option (List Node) :=
  walk memory fuel (memory.target (.root head))

/-- `hlist_for_each_entry_continue`. -/
def hlistForEachEntryContinue
    (memory : Memory Head Node)
    (pos : Node)
    (fuel : Nat) :
    Option (List Node) :=
  walk memory fuel (memory.target (.next pos))

/-- The loop of `hlist_for_each_safe` from `pos` on; `n` is read ahead. -/
def safeLoop
    (body : Memory Head Node → Node → Option (Memory Head Node)) :
    Nat →
      Memory Head Node →
      Option Node →
      Option (Memory Head Node × List Node)
  | 0, _, _ =>
      none
  | _ + 1, memory, none =>
      some (memory, [])
  | fuel + 1, memory, some pos =>
      let n := memory.target (.next pos)
      (body memory pos).bind fun memory =>
        (safeLoop body fuel memory n).map fun result =>
          (result.1, pos :: result.2)

/-- `hlist_for_each_safe`: what the bodies leave behind and the nodes met. -/
def hlistForEachSafe
    (body : Memory Head Node → Node → Option (Memory Head Node))
    (memory : Memory Head Node)
    (head : Head)
    (fuel : Nat) :
    Option (Memory Head Node × List Node) :=
  safeLoop body fuel memory (memory.target (.root head))

variable [DecidableEq Head] [DecidableEq Node]

/-- `INIT_HLIST_HEAD`. -/
def initHlistHead (memory : Memory Head Node) (h : Head) : Memory Head Node :=
  { memory with target := Function.update memory.target (.root h) none }

/-- `INIT_HLIST_NODE`. -/
def initHlistNode (memory : Memory Head Node) (h : Node) : Memory Head Node where
  target := Function.update memory.target (.next h) none
  back := Function.update memory.back h none

/-- `__hlist_del`. -/
def hlistDelLinks?
    (memory : Memory Head Node)
    (n : Node) :
    Option (Memory Head Node) :=
  let next := memory.target (.next n)
  (memory.back n).map fun pprev =>
    { target := Function.update memory.target pprev next
      back :=
        match next with
        | none =>
            memory.back
        | some next =>
            Function.update memory.back next (some pprev) }

/-- `hlist_del`; the poisons are `LIST_POISON1` and `LIST_POISON2`. -/
def hlistDel?
    (poison1 : Node)
    (poison2 : Cell Head Node)
    (memory : Memory Head Node)
    (n : Node) :
    Option (Memory Head Node) :=
  (hlistDelLinks? memory n).map fun memory =>
    { target := Function.update memory.target (.next n) (some poison1)
      back := Function.update memory.back n (some poison2) }

/-- `hlist_del_init`. -/
def hlistDelInit?
    (memory : Memory Head Node)
    (n : Node) :
    Option (Memory Head Node) :=
  if memory.back n = none then
    some memory
  else
    (hlistDelLinks? memory n).map (initHlistNode · n)

/-- `hlist_add_head`. -/
def hlistAddHead
    (memory : Memory Head Node)
    (n : Node)
    (h : Head) :
    Memory Head Node :=
  let first := memory.target (.root h)
  { target :=
      Function.update
        (Function.update memory.target (.next n) first) (.root h) (some n)
    back :=
      Function.update
        (match first with
        | none =>
            memory.back
        | some first =>
            Function.update memory.back first (some (.next n)))
        n (some (.root h)) }

/-- `hlist_add_before`. -/
def hlistAddBefore?
    (memory : Memory Head Node)
    (n next : Node) :
    Option (Memory Head Node) :=
  let back :=
    Function.update
      (Function.update memory.back n (memory.back next)) next
      (some (.next n))
  let target := Function.update memory.target (.next n) (some next)
  (back n).map fun pprev =>
    { target := Function.update target pprev (some n), back }

/-- `hlist_add_after`: `next` comes behind `n`. -/
def hlistAddAfter
    (memory : Memory Head Node)
    (n next : Node) :
    Memory Head Node :=
  let target :=
    Function.update
      (Function.update memory.target (.next next) (memory.target (.next n)))
      (.next n) (some next)
  let back := Function.update memory.back next (some (.next n))
  { target
    back :=
      match target (.next next) with
      | none =>
          back
      | some behind =>
          Function.update back behind (some (.next next)) }

end WkcRuntime.Hlist
