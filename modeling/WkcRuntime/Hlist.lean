import WkcRuntime.HlistSource

namespace WkcRuntime.Hlist

open PointerCells

/-!
# Many lists with single pointer heads

A client sees a list behind each head.  Every sequence of calls that respects
the contracts of the functions gets through, keeps the pointers in line with
these lists, and leaves `hlist_unhashed` true exactly for the nodes that were
initialised: a node behind `hlist_del` still counts as hashed.
-/

/-- What is known of a node that is in no list. -/
inductive Mark where
  | raw
  | unhashed
  | poisoned
  deriving DecidableEq, Repr

/-- The lists, and what is known of the nodes that are in none. -/
structure Tables (Head Node : Type) where
  lists : Lists Head Node
  mark : Node → Mark

/-- Before the first call nothing is known. -/
def Tables.start (Head Node : Type) : Tables Head Node where
  lists := fun _ => none
  mark := fun _ => .raw

/-- One call of a client. -/
inductive Op (Head Node : Type) where
  | initHead (head : Head)
  | initNode (node : Node)
  | addHead (n : Node) (h : Head)
  | addBefore (n next : Node)
  | addAfter (n next : Node)
  | del (n : Node)
  | delInit (n : Node)
  deriving DecidableEq

section Client

variable {Head Node : Type}
variable [DecidableEq Node]

/-- A list with two nodes in the place of one. -/
def putPair (place first second : Node) : List Node → List Node
  | [] =>
      []
  | node :: rest =>
      if node = place then
        first :: second :: rest
      else
        node :: putPair place first second rest

variable [DecidableEq Head]

/-- One call in the code. -/
def callCode?
    (poison1 : Node)
    (poison2 : Cell Head Node)
    (memory : Memory Head Node) :
    Op Head Node → Option (Memory Head Node)
  | .initHead head =>
      some (initHlistHead memory head)
  | .initNode node =>
      some (initHlistNode memory node)
  | .addHead n h =>
      some (hlistAddHead memory n h)
  | .addBefore n next =>
      hlistAddBefore? memory n next
  | .addAfter n next =>
      some (hlistAddAfter memory n next)
  | .del n =>
      hlistDel? poison1 poison2 memory n
  | .delInit n =>
      hlistDelInit? memory n

/-- An edit of every list. -/
def edit
    (lists : Lists Head Node)
    (change : List Node → List Node) :
    Lists Head Node :=
  fun head => (lists head).map change

/-- What a call means for the lists. -/
def callTables
    (tables : Tables Head Node) :
    Op Head Node → Tables Head Node
  | .initHead head =>
      { tables with lists := Function.update tables.lists head (some []) }
  | .initNode node =>
      { tables with mark := Function.update tables.mark node .unhashed }
  | .addHead n h =>
      { lists :=
          Function.update tables.lists h ((tables.lists h).map (n :: ·))
        mark := Function.update tables.mark n .raw }
  | .addBefore n next =>
      { lists := edit tables.lists (putPair next n next)
        mark := Function.update tables.mark n .raw }
  | .addAfter n next =>
      { lists := edit tables.lists (putPair n n next)
        mark := Function.update tables.mark next .raw }
  | .del n =>
      { lists := edit tables.lists (·.erase n)
        mark := Function.update tables.mark n .poisoned }
  | .delInit n =>
      { lists := edit tables.lists (·.erase n)
        mark := Function.update tables.mark n .unhashed }

omit [DecidableEq Node] [DecidableEq Head] in
/-- The contract of each function. -/
def Op.Valid (tables : Tables Head Node) : Op Head Node → Prop
  | .initHead _ =>
      True
  | .initNode node =>
      ¬ tables.lists.Linked node
  | .addHead n h =>
      (∃ nodes, tables.lists h = some nodes) ∧ ¬ tables.lists.Linked n
  | .addBefore n next =>
      tables.lists.Linked next ∧ ¬ tables.lists.Linked n
  | .addAfter n next =>
      tables.lists.Linked n ∧ ¬ tables.lists.Linked next
  | .del n =>
      tables.lists.Linked n
  | .delInit n =>
      tables.lists.Linked n ∨ tables.mark n = .unhashed

end Client

/-- The memory is in line with the lists and the marks. -/
structure Hashed
    {Head Node : Type}
    (memory : Memory Head Node)
    (tables : Tables Head Node) :
    Prop where
  lists : Represents memory tables.lists
  linked : ∀ {node}, tables.lists.Linked node → tables.mark node = .raw
  unhashed :
    ∀ {node}, tables.mark node = .unhashed → memory.back node = none
  poisoned :
    ∀ {node}, tables.mark node = .poisoned → memory.back node ≠ none

section Edits

variable {Head Node : Type}
variable [DecidableEq Node]
variable {place first second : Node}
variable {before after nodes : List Node}

/-- A list without the place is unchanged. -/
theorem putPair_of_not_mem (notIn : place ∉ nodes) :
    putPair place first second nodes = nodes := by
  induction nodes with
  | nil =>
      rfl
  | cons node rest inductionHypothesis =>
      obtain ⟨notFirst, notRest⟩ :=
        List.ne_and_not_mem_of_not_mem_cons notIn
      rw [putPair, if_neg (Ne.symm notFirst), inductionHypothesis notRest]

/-- The two nodes stand where the place was. -/
theorem putPair_append (notIn : place ∉ before) :
    putPair place first second (before ++ place :: after) =
      before ++ first :: second :: after := by
  induction before with
  | nil =>
      simp only [List.nil_append, putPair, if_true]
  | cons node rest inductionHypothesis =>
      obtain ⟨notFirst, notRest⟩ :=
        List.ne_and_not_mem_of_not_mem_cons notIn
      simp only [List.cons_append]
      rw [putPair, if_neg (Ne.symm notFirst), inductionHypothesis notRest]

/-- Erasing a node that a list has once. -/
theorem erase_append (notIn : place ∉ before) :
    (before ++ place :: after).erase place = before ++ after := by
  rw [List.erase_append_right _ notIn, List.erase_cons_head]

end Edits

section Functions

variable {Head Node : Type}
variable [DecidableEq Head] [DecidableEq Node]
variable {memory : Memory Head Node}
variable {lists : Lists Head Node}
variable {n next : Node}

/-- `hlist_add_before` links the new node behind the cell of the other one. -/
theorem hlistAddBefore_eq
    {pprev : Cell Head Node}
    (knows : memory.back next = some pprev)
    (leads : memory.target pprev = some next)
    (different : n ≠ next) :
    hlistAddBefore? memory n next = some (link memory pprev n) := by
  simp only [hlistAddBefore?, knows]
  rw [Function.update_of_ne different, Function.update_self]
  simp only [Option.map_some, link, leads]
  rw [Function.update_comm different]

/-- `hlist_add_after` links the new node behind the cell of the other one. -/
theorem hlistAddAfter_eq
    (different : n ≠ next)
    (notNext : memory.target (.next n) ≠ some next) :
    hlistAddAfter memory n next = link memory (.next n) next := by
  have nextCell : (Cell.next next : Cell Head Node) ≠ .next n := by
    rintro ⟨⟩
    exact different rfl
  simp only [hlistAddAfter, link]
  rw [Function.update_of_ne nextCell, Function.update_self]
  cases behind : memory.target (.next n) with
  | none =>
      rfl
  | some other =>
      have notOther : next ≠ other := by
        rintro rfl
        exact notNext behind
      simp only
      rw [Function.update_comm notOther]

end Functions

section Steps

variable {Head Node : Type}
variable {memory memory' : Memory Head Node}
variable {tables : Tables Head Node}
variable {head : Head}
variable {before after : List Node}
variable {n : Node}

/-- Before the first call everything is in line. -/
theorem hashed_start (memory : Memory Head Node) :
    Hashed memory (Tables.start Head Node) where
  lists := represents_none memory
  linked := by
    rintro node ⟨head, nodes, found, _⟩
    cases found
  unhashed := by
    rintro node ⟨⟩
  poisoned := by
    rintro node ⟨⟩

/-- An unhashed node is in no list. -/
theorem Hashed.loose
    (hashed : Hashed memory tables)
    (unhashed : tables.mark n = .unhashed) :
    ¬ tables.lists.Linked n := by
  intro linked
  rw [hashed.linked linked] at unhashed
  cases unhashed

variable [DecidableEq Node]

/-- A call that hashes or unhashes one node leaves the marks of others. -/
theorem Hashed.step
    {lists' : Lists Head Node}
    {mark' : Mark}
    (hashed : Hashed memory tables)
    (represents : Represents memory' lists')
    (others :
      ∀ {node}, lists'.Linked node → node ≠ n → tables.lists.Linked node)
    (sameBack :
      ∀ {other},
        other ≠ n →
        ¬ tables.lists.Linked other →
        memory'.back other = memory.back other)
    (linked : lists'.Linked n → mark' = .raw)
    (unhashed : mark' = .unhashed → memory'.back n = none)
    (poisoned : mark' = .poisoned → memory'.back n ≠ none) :
    Hashed memory' ⟨lists', Function.update tables.mark n mark'⟩ where
  lists := represents
  linked := by
    intro node isLinked
    by_cases same : node = n
    · subst same
      exact (Function.update_self ..).trans (linked isLinked)
    · exact (Function.update_of_ne same ..).trans
        (hashed.linked (others isLinked same))
  unhashed := by
    intro node isUnhashed
    by_cases same : node = n
    · subst same
      exact unhashed ((Function.update_self ..).symm.trans isUnhashed)
    · have before : tables.mark node = .unhashed :=
        (Function.update_of_ne same ..).symm.trans isUnhashed
      rw [sameBack same (hashed.loose before)]
      exact hashed.unhashed before
  poisoned := by
    intro node isPoisoned
    by_cases same : node = n
    · subst same
      exact poisoned ((Function.update_self ..).symm.trans isPoisoned)
    · have before : tables.mark node = .poisoned :=
        (Function.update_of_ne same ..).symm.trans isPoisoned
      have loose : ¬ tables.lists.Linked node := by
        intro isLinked
        rw [hashed.linked isLinked] at before
        cases before
      rw [sameBack same loose]
      exact hashed.poisoned before

variable [DecidableEq Head]

omit [DecidableEq Node] in
/-- A node in a changed list is a node of that list, or in another one. -/
theorem linked_update
    {lists : Lists Head Node}
    {nodes : List Node}
    {node : Node}
    (linked : Lists.Linked (Function.update lists head (some nodes)) node) :
    node ∈ nodes ∨ lists.Linked node := by
  obtain ⟨other, others, found, member⟩ := linked
  by_cases same : other = head
  · rw [same, Function.update_self, Option.some.injEq] at found
    rw [found]
    exact .inl member
  · rw [Function.update_of_ne same] at found
    exact .inr ⟨other, others, found, member⟩

/-- A node is linked behind a cell of a list. -/
theorem Hashed.link
    (hashed : Hashed memory tables)
    (found : tables.lists head = some (before ++ after))
    (loose : ¬ tables.lists.Linked n) :
    Hashed (PointerCells.link memory (lastCell (.root head) before) n)
      ⟨Function.update tables.lists head (some (before ++ n :: after)),
        Function.update tables.mark n .raw⟩ := by
  refine hashed.step (hashed.lists.link found loose) ?_ ?_
    (fun _ => rfl) (by rintro ⟨⟩) (by rintro ⟨⟩)
  · intro node isLinked different
    obtain member | isLinked := linked_update isLinked
    · refine ⟨head, _, found, ?_⟩
      simp only [List.mem_append, List.mem_cons, different, false_or]
        at member ⊢
      exact member
    · exact isLinked
  · intro other different isLoose
    apply link_back_of_ne different
    intro leads
    have behind := hashed.lists.behind_mem found leads
    exact isLoose ⟨head, _, found, List.mem_append_right _ behind⟩

/-- A node is unlinked, and its fields are overwritten. -/
theorem Hashed.unlink
    (hashed : Hashed memory tables)
    (found : tables.lists head = some (before ++ n :: after))
    (target : Option Node)
    {back : Option (Cell Head Node)}
    {mark' : Mark}
    (unhashed : mark' = .unhashed → back = none)
    (poisoned : mark' = .poisoned → back ≠ none) :
    Hashed
      { target :=
          Function.update
            (PointerCells.unlink memory (lastCell (.root head) before)
              n).target
            (.next n) target
        back :=
          Function.update
            (PointerCells.unlink memory (lastCell (.root head) before)
              n).back
            n back }
      ⟨Function.update tables.lists head (some (before ++ after)),
        Function.update tables.mark n mark'⟩ := by
  have unlinked := hashed.lists.unlink found
  have distinct := hashed.lists.nodup found
  have gone : n ∉ before ++ after := by
    have turned := (List.perm_middle.nodup_iff).mp distinct
    exact (List.nodup_cons.mp turned).1
  have loose :
      ¬ Lists.Linked
        (Function.update tables.lists head (some (before ++ after))) n := by
    rintro ⟨other, others, foundOther, member⟩
    by_cases same : other = head
    · rw [same, Function.update_self, Option.some.injEq] at foundOther
      exact gone (foundOther ▸ member)
    · rw [Function.update_of_ne same] at foundOther
      exact same
        (hashed.lists.apart foundOther found member (by simp))
  refine hashed.step (unlinked.overwrite loose target back) ?_ ?_
    (fun isLinked => absurd isLinked loose) ?_ ?_
  · intro node isLinked _
    obtain member | isLinked := linked_update isLinked
    · refine ⟨head, _, found, ?_⟩
      simp only [List.mem_append, List.mem_cons] at member ⊢
      exact member.imp_right .inr
    · exact isLinked
  · intro other different isLoose
    refine (Function.update_of_ne different ..).trans
      (unlink_back_of_ne ?_)
    intro leads
    have own :
        tables.lists head = some ((before ++ [n]) ++ after) := by
      rw [found]
      simp
    have ownCell : lastCell (.root head) (before ++ [n]) = Cell.next n := by
      rw [lastCell_append]
      rfl
    rw [← ownCell] at leads
    have behind := hashed.lists.behind_mem own leads
    exact isLoose ⟨head, _, own, List.mem_append_right _ behind⟩
  · intro isUnhashed
    exact (Function.update_self ..).trans (unhashed isUnhashed)
  · intro isPoisoned isNull
    change
      Function.update
          (PointerCells.unlink memory (lastCell (.root head) before) n).back
          n back n =
        none at isNull
    rw [Function.update_self] at isNull
    exact poisoned isPoisoned isNull

end Steps

section Calls

variable {Head Node : Type}
variable [DecidableEq Head] [DecidableEq Node]
variable {memory : Memory Head Node}
variable {tables : Tables Head Node}
variable {poison1 : Node}
variable {poison2 : Cell Head Node}
variable {head : Head}
variable {before after : List Node}
variable {n : Node}

omit [DecidableEq Head] [DecidableEq Node] in
/-- A listed node splits its list in two. -/
theorem Hashed.split
    (hashed : Hashed memory tables)
    (linked : tables.lists.Linked n) :
    ∃ head before after,
      tables.lists head = some (before ++ n :: after) ∧ n ∉ before ∧
        memory.back n = some (lastCell (.root head) before) ∧
        memory.target (lastCell (.root head) before) = some n := by
  obtain ⟨head, nodes, found, member⟩ := linked
  obtain ⟨before, after, rfl⟩ := List.append_of_mem member
  have chain := hashed.lists.chains found
  refine ⟨head, before, after, found, ?_, chain.back_eq, chain.target_eq⟩
  intro inBefore
  exact List.disjoint_of_nodup_append (hashed.lists.nodup found) inBefore
    List.mem_cons_self

omit [DecidableEq Node] in
/-- An edit at a listed node, written for its list only. -/
theorem Hashed.edit_eq
    (hashed : Hashed memory tables)
    (found : tables.lists head = some (before ++ n :: after))
    {change : List Node → List Node}
    (unchanged : ∀ {others}, n ∉ others → change others = others) :
    edit tables.lists change =
      Function.update tables.lists head
        (some (change (before ++ n :: after))) :=
  hashed.lists.map_eq_update found (by simp) unchanged

omit [DecidableEq Head] in
/-- Erasing a node that is in no list changes nothing. -/
theorem edit_erase_of_not_linked
    {lists : Lists Head Node}
    (loose : ¬ lists.Linked n) :
    edit lists (·.erase n) = lists := by
  funext head
  rw [edit]
  cases found : lists head with
  | none =>
      rfl
  | some nodes =>
      have notIn : n ∉ nodes := fun member =>
        loose ⟨head, nodes, found, member⟩
      rw [Option.map_some, List.erase_of_not_mem notIn]

/-- Every call that respects its contract gets through and keeps the lists. -/
theorem Hashed.call
    (hashed : Hashed memory tables)
    {op : Op Head Node}
    (valid : op.Valid tables) :
    ∃ memory',
      callCode? poison1 poison2 memory op = some memory' ∧
        Hashed memory' (callTables tables op) := by
  cases op with
  | initHead head =>
      refine ⟨_, rfl, hashed.lists.clear head, ?_, hashed.unhashed,
        hashed.poisoned⟩
      intro node linked
      obtain inNone | linked := linked_update linked
      · cases inNone
      · exact hashed.linked linked
  | initNode node =>
      refine ⟨_, rfl, ?_⟩
      refine hashed.step (hashed.lists.overwrite valid none none)
        (fun linked _ => linked) ?_ (fun linked => absurd linked valid)
        (fun _ => Function.update_self ..) (by rintro ⟨⟩)
      intro other different _
      exact Function.update_of_ne different ..
  | addHead n h =>
      obtain ⟨⟨nodes, found⟩, loose⟩ := valid
      refine ⟨_, rfl, ?_⟩
      have added :=
        @Hashed.link _ _ _ _ h [] nodes n _ _ hashed found loose
      simp only [callTables, found, Option.map_some]
      exact added
  | addBefore n next =>
      obtain ⟨linked, loose⟩ := valid
      obtain ⟨head, before, after, found, notIn, knows, leads⟩ :=
        hashed.split linked
      have different : n ≠ next := by
        rintro rfl
        exact loose linked
      refine ⟨_, hlistAddBefore_eq knows leads different, ?_⟩
      have added := hashed.link found loose
      rw [callTables, hashed.edit_eq found putPair_of_not_mem,
        putPair_append notIn]
      exact added
  | addAfter n next =>
      obtain ⟨linked, loose⟩ := valid
      obtain ⟨head, before, after, found, notIn, _, _⟩ :=
        hashed.split linked
      have different : n ≠ next := by
        rintro rfl
        exact loose linked
      have own :
          tables.lists head = some ((before ++ [n]) ++ after) := by
        rw [found]
        simp
      have ownCell :
          lastCell (.root head) (before ++ [n]) = Cell.next n := by
        rw [lastCell_append]
        rfl
      have notNext : memory.target (.next n) ≠ some next := by
        intro leads
        rw [← ownCell] at leads
        have behind := hashed.lists.behind_mem own leads
        exact loose ⟨head, _, own, List.mem_append_right _ behind⟩
      refine ⟨_, rfl, ?_⟩
      have added := hashed.link own loose
      rw [ownCell] at added
      rw [hlistAddAfter_eq different notNext, callTables,
        hashed.edit_eq found putPair_of_not_mem, putPair_append notIn]
      simpa only [List.append_assoc, List.singleton_append] using added
  | del n =>
      obtain ⟨head, before, after, found, notIn, knows, _⟩ :=
        hashed.split valid
      have removed :=
        @Hashed.unlink _ _ _ _ head before after n _ _ hashed found
          (some poison1) (some poison2) .poisoned (by rintro ⟨⟩)
          (by rintro _ ⟨⟩)
      rw [callTables, hashed.edit_eq found List.erase_of_not_mem,
        erase_append notIn]
      refine ⟨_, ?_, removed⟩
      rw [callCode?, hlistDel?, hlistDelLinks?, knows]
      rfl
  | delInit n =>
      by_cases linked : tables.lists.Linked n
      · obtain ⟨head, before, after, found, notIn, knows, _⟩ :=
          hashed.split linked
        have removed :=
          @Hashed.unlink _ _ _ _ head before after n _ _ hashed found
            none none .unhashed (fun _ => rfl) (by rintro ⟨⟩)
        rw [callTables, hashed.edit_eq found List.erase_of_not_mem,
          erase_append notIn]
        refine ⟨_, ?_, removed⟩
        rw [callCode?, hlistDelInit?, knows, if_neg (by rintro ⟨⟩),
          hlistDelLinks?, knows]
        rfl
      · have unhashed := valid.resolve_left linked
        refine ⟨memory, ?_, ?_⟩
        · rw [callCode?, hlistDelInit?, if_pos (hashed.unhashed unhashed)]
        · rw [callTables, edit_erase_of_not_linked linked,
            Function.update_eq_self_iff.mpr unhashed.symm]
          exact hashed

/-- A sequence of calls in the code. -/
def runCode?
    (poison1 : Node)
    (poison2 : Cell Head Node)
    (memory : Memory Head Node) :
    List (Op Head Node) → Option (Memory Head Node)
  | [] =>
      some memory
  | op :: rest =>
      (callCode? poison1 poison2 memory op).bind
        (runCode? poison1 poison2 · rest)

/-- A sequence of calls on the lists. -/
def runTables
    (tables : Tables Head Node)
    (ops : List (Op Head Node)) :
    Tables Head Node :=
  ops.foldl callTables tables

/-- Each call respects its contract where it is made. -/
def ValidRun : Tables Head Node → List (Op Head Node) → Prop
  | _, [] =>
      True
  | tables, op :: rest =>
      op.Valid tables ∧ ValidRun (callTables tables op) rest

/-- A sequence of calls gets through and keeps the lists. -/
theorem Hashed.run
    {ops : List (Op Head Node)}
    (hashed : Hashed memory tables)
    (valid : ValidRun tables ops) :
    ∃ memory',
      runCode? poison1 poison2 memory ops = some memory' ∧
        Hashed memory' (runTables tables ops) := by
  induction ops generalizing memory tables with
  | nil =>
      exact ⟨memory, rfl, hashed⟩
  | cons op rest inductionHypothesis =>
      obtain ⟨next, called, nextHashed⟩ :=
        @Hashed.call _ _ _ _ _ _ poison1 poison2 hashed op valid.1
      obtain ⟨final, ran, finalHashed⟩ :=
        inductionHypothesis nextHashed valid.2
      refine ⟨final, ?_, finalHashed⟩
      rw [runCode?, called]
      exact ran

/--
Every sequence of calls that respects the contracts gets through, whatever the
memory held before.  Behind it the loops over a list meet its nodes, from the
head or from any node on, `hlist_empty` is right, and `hlist_unhashed` tells
an initialised node from a listed one and from a deleted one.
-/
theorem hlist_calls_meet_lists
    (start : Memory Head Node)
    (poison1 : Node)
    (poison2 : Cell Head Node)
    {ops : List (Op Head Node)}
    (valid : ValidRun (Tables.start Head Node) ops) :
    ∃ memory,
      runCode? poison1 poison2 start ops = some memory ∧
        (∀ head nodes,
          (runTables (Tables.start Head Node) ops).lists head =
              some nodes →
            (∀ fuel,
              nodes.length < fuel →
                hlistForEach memory head fuel = some nodes) ∧
              hlistEmpty memory head = decide (nodes = []) ∧
              ∀ before pos after,
                nodes = before ++ pos :: after →
                hlistUnhashed memory pos = false ∧
                  ∀ fuel,
                    after.length < fuel →
                    hlistForEachEntryContinue memory pos fuel =
                      some after) ∧
        ∀ node,
          ((runTables (Tables.start Head Node) ops).mark node = .unhashed →
              hlistUnhashed memory node = true) ∧
            ((runTables (Tables.start Head Node) ops).mark node =
                .poisoned →
              hlistUnhashed memory node = false) := by
  obtain ⟨memory, ran, hashed⟩ :=
    @Hashed.run _ _ _ _ _ _ poison1 poison2 ops (hashed_start start) valid
  refine ⟨memory, ran, ?_, ?_⟩
  · intro head nodes found
    have chain := hashed.lists.chains found
    refine ⟨fun fuel enough => chain.walk_eq enough, ?_, ?_⟩
    · rw [hlistEmpty, chain.head_eq]
      cases nodes <;> rfl
    · rintro before pos after rfl
      have linked :
          (runTables (Tables.start Head Node) ops).lists.Linked pos :=
        ⟨head, _, found, by simp⟩
      refine ⟨?_, ?_⟩
      · exact Option.isNone_eq_false_iff.mpr
          (Option.isSome_iff_ne_none.mpr
            (hashed.lists.back_ne_none linked))
      · intro fuel enough
        obtain ⟨_, ⟨_, later⟩, ends⟩ := Chain.append.mp chain
        have behind : Chain memory (.next pos) after := ⟨later, ends⟩
        exact behind.walk_eq enough
  · intro node
    refine ⟨?_, ?_⟩
    · intro unhashed
      rw [hlistUnhashed, hashed.unhashed unhashed]
      rfl
    · intro poisoned
      exact Option.isNone_eq_false_iff.mpr
        (Option.isSome_iff_ne_none.mpr (hashed.poisoned poisoned))

/-- Calls of every function, on three heads and five nodes. -/
def sampleOps : List (Op Nat Nat) :=
  [.initHead 0, .initHead 1, .initHead 2, .initNode 5, .delInit 5,
    .addHead 5 0, .addBefore 6 5, .addAfter 5 7, .addAfter 7 4, .delInit 5,
    .del 6, .addHead 6 1, .addHead 8 1, .del 8]

theorem sampleOps_valid :
    ValidRun (Tables.start Nat Nat) sampleOps := by
  refine ⟨trivial, trivial, trivial, ?_, .inr rfl, ⟨⟨[], rfl⟩, ?_⟩,
    ⟨⟨0, [5], rfl, by decide⟩, ?_⟩,
    ⟨⟨0, [6, 5], rfl, by decide⟩, ?_⟩,
    ⟨⟨0, [6, 5, 7], rfl, by decide⟩, ?_⟩,
    .inl ⟨0, [6, 5, 7, 4], rfl, by decide⟩,
    ⟨0, [6, 7, 4], rfl, by decide⟩, ⟨⟨[], rfl⟩, ?_⟩, ⟨⟨[6], rfl⟩, ?_⟩,
    ⟨1, [8, 6], rfl, by decide⟩, trivial⟩
  all_goals
    rintro ⟨head, nodes, found, member⟩
    simp only [callTables, Tables.start, edit, Function.update_apply]
      at found
    by_cases known : head < 3
    · obtain rfl | rfl | rfl : head = 0 ∨ head = 1 ∨ head = 2 := by omega
      all_goals
        cases found
        revert member
        decide
    · simp [show head ≠ 0 by omega, show head ≠ 1 by omega,
        show head ≠ 2 by omega] at found

/-- A memory that holds no null pointer. -/
def sampleMemory : Memory Nat Nat where
  target := fun _ => some 4
  back := fun _ => some (.root 3)

/-- The loops over the lists, and nodes that are in none. -/
theorem hlist_calls_meet_lists_moved :
    ∃ memory,
      runCode? 8 (.root 9) sampleMemory sampleOps = some memory ∧
        (hlistForEach memory 0 3 = some [7, 4] ∧
          hlistForEachEntryContinue memory 7 2 = some [4] ∧
          hlistEmpty memory 0 = false ∧ hlistUnhashed memory 7 = false) ∧
        hlistForEach memory 1 2 = some [6] ∧
        hlistEmpty memory 2 = true ∧
        hlistUnhashed memory 5 = true ∧ hlistUnhashed memory 8 = false := by
  obtain ⟨memory, ran, meets, marks⟩ :=
    hlist_calls_meet_lists sampleMemory 8 (.root 9) sampleOps_valid
  obtain ⟨loops, notEmpty, behind⟩ := meets 0 [7, 4] rfl
  obtain ⟨listed, rest⟩ := behind [] 7 [4] rfl
  exact ⟨memory, ran,
    ⟨loops 3 (by decide), rest 2 (by decide), notEmpty, listed⟩,
    (meets 1 [6] rfl).1 2 (by decide), (meets 2 [] rfl).2.1,
    (marks 5).1 rfl, (marks 8).2 rfl⟩

end Calls

end WkcRuntime.Hlist
