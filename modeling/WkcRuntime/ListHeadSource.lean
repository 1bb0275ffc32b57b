import WkcRuntime.CircularList

namespace WkcRuntime.ListHead

open CircularList

/-!
# The list macros and functions

`utils/list.h`: the functions on `struct list_head` and the loops over a list.
A node stands for its address, so `list_entry` is the identity; `prefetch` does
nothing.  `INIT_LIST_HEAD`, `list_add` and `list_del` are those of the library.
-/

variable {Node : Type}
variable [DecidableEq Node]

/-- `list_add_tail`. -/
def listAddTail
    (links : Links Node)
    (new head : Node) :
    Links Node :=
  listAddBetween links new (links.prev head) head

/-- `list_del_init`. -/
def listDelInit
    (links : Links Node)
    (entry : Node) :
    Links Node :=
  initListHead
    (listDelBetween links (links.prev entry) (links.next entry)) entry

/-- `list_move`. -/
def listMove
    (links : Links Node)
    (list head : Node) :
    Links Node :=
  listAdd
    (listDelBetween links (links.prev list) (links.next list)) list head

/-- `list_move_tail`. -/
def listMoveTail
    (links : Links Node)
    (list head : Node) :
    Links Node :=
  listAddTail
    (listDelBetween links (links.prev list) (links.next list)) list head

/-- `list_empty`. -/
def listEmpty
    (links : Links Node)
    (head : Node) :
    Bool :=
  decide (links.next head = head)

/-- `list_empty_careful`. -/
def listEmptyCareful
    (links : Links Node)
    (head : Node) :
    Bool :=
  let next := links.next head
  decide (next = head) && decide (next = links.prev head)

/-- `__list_splice`. -/
def listSpliceBetween
    (links : Links Node)
    (list head : Node) :
    Links Node :=
  let first := links.next list
  let last := links.prev list
  let behind := links.next head
  { next :=
      Function.update (Function.update links.next head first) last behind
    prev :=
      Function.update (Function.update links.prev first head) behind last }

/-- `__list_splice_tail`. -/
def listSpliceTailBetween
    (links : Links Node)
    (list head : Node) :
    Links Node :=
  let last := links.prev list
  let first := links.next list
  let behind := links.prev head
  { next :=
      Function.update (Function.update links.next last head) behind first
    prev :=
      Function.update (Function.update links.prev head last) first behind }

/-- `list_splice`. -/
def listSplice
    (links : Links Node)
    (list head : Node) :
    Links Node :=
  if listEmpty links list then
    links
  else
    listSpliceBetween links list head

/-- `list_splice_tail`. -/
def listSpliceTail
    (links : Links Node)
    (list head : Node) :
    Links Node :=
  if listEmpty links list then
    links
  else
    listSpliceTailBetween links list head

/-- `list_splice_init`. -/
def listSpliceInit
    (links : Links Node)
    (list head : Node) :
    Links Node :=
  if listEmpty links list then
    links
  else
    initListHead (listSpliceBetween links list head) list

/-- `list_for_each`: the nodes met, unless the fuel runs out first. -/
def listForEach
    (links : Links Node)
    (head : Node)
    (fuel : Nat) :
    Option (List Node) :=
  walk links head fuel (links.next head)

/-- The nodes met on the way back to `stop`. -/
def walkBack
    (links : Links Node)
    (stop : Node) :
    Nat → Node → Option (List Node)
  | 0, _ =>
      none
  | fuel + 1, node =>
      if node = stop then
        some []
      else
        (walkBack links stop fuel (links.prev node)).map (node :: ·)

/-- `list_for_each_prev`. -/
def listForEachPrev
    (links : Links Node)
    (head : Node)
    (fuel : Nat) :
    Option (List Node) :=
  walkBack links head fuel (links.prev head)

/-- The loop of `list_for_each_safe` from `pos` on, with `n` read ahead. -/
def safeLoop
    (body : Links Node → Node → Links Node)
    (head : Node) :
    Nat → Links Node → Node → Node → Option (Links Node × List Node)
  | 0, _, _, _ =>
      none
  | fuel + 1, links, pos, n =>
      if pos = head then
        some (links, [])
      else
        let links := body links pos
        (safeLoop body head fuel links n (links.next n)).map fun result =>
          (result.1, pos :: result.2)

/-- `list_for_each_safe`: what the bodies leave behind and the nodes met. -/
def listForEachSafe
    (body : Links Node → Node → Links Node)
    (links : Links Node)
    (head : Node)
    (fuel : Nat) :
    Option (Links Node × List Node) :=
  let pos := links.next head
  safeLoop body head fuel links pos (links.next pos)

/-- `list_for_each_entry_continue`: the nodes met behind `pos`. -/
def listForEachEntryContinue
    (links : Links Node)
    (pos head : Node)
    (fuel : Nat) :
    Option (List Node) :=
  walk links head fuel (links.next pos)

/-- `list_for_each_entry_safe_continue`. -/
def listForEachEntrySafeContinue
    (body : Links Node → Node → Links Node)
    (links : Links Node)
    (pos head : Node)
    (fuel : Nat) :
    Option (Links Node × List Node) :=
  let pos := links.next pos
  safeLoop body head fuel links pos (links.next pos)

end WkcRuntime.ListHead
