import WkcRuntime.Hlist

namespace WkcRuntime.Hlist

open PointerCells

/-!
# Loops that take an hlist apart

`hlist_for_each_safe` reads the next node before its body runs, so the body may
delete the node that it is given or put it into another list.  The loop meets
every node once.
-/

section SafeLoop

variable {Head Node : Type}
variable [DecidableEq Head] [DecidableEq Node]

/-- What the body of a loop does with the node that it is given. -/
inductive Act (Head : Type) where
  | keep
  | del
  | delInit
  | rehash (h : Head)
  deriving DecidableEq

/-- The calls that the body makes. -/
def Act.ops (node : Node) : Act Head → List (Op Head Node)
  | .keep =>
      []
  | .del =>
      [.del node]
  | .delInit =>
      [.delInit node]
  | .rehash h =>
      [.del node, .addHead node h]

/-- The body in the code. -/
def bodyCode?
    (poison1 : Node)
    (poison2 : Cell Head Node)
    (act : Node → Act Head)
    (memory : Memory Head Node)
    (node : Node) :
    Option (Memory Head Node) :=
  runCode? poison1 poison2 memory ((act node).ops node)

/-- The body on the lists. -/
def bodyTables
    (act : Node → Act Head)
    (tables : Tables Head Node)
    (node : Node) :
    Tables Head Node :=
  runTables tables ((act node).ops node)

omit [DecidableEq Head] [DecidableEq Node] in
/-- A node is put into a list that is there. -/
def Act.Valid (tables : Tables Head Node) : Act Head → Prop
  | .rehash h =>
      ∃ nodes, tables.lists h = some nodes
  | .keep | .del | .delInit =>
      True

variable {memory : Memory Head Node}
variable {tables : Tables Head Node}
variable {poison1 : Node}
variable {poison2 : Cell Head Node}
variable {act : Node → Act Head}
variable {head : Head}
variable {pos : Node}

omit [DecidableEq Head] in
/-- A list without one of its nodes. -/
theorem erase_front
    {front rest : List Node}
    (hashed : Hashed memory tables)
    (found : tables.lists head = some (front ++ pos :: rest)) :
    edit tables.lists (·.erase pos) head = some (front ++ rest) := by
  have notIn : pos ∉ front := fun member =>
    List.disjoint_of_nodup_append (hashed.lists.nodup found) member
      List.mem_cons_self
  rw [edit, found, Option.map_some, erase_append notIn]

/-- The nodes behind the one that a body is given stay where they are. -/
theorem bodyTables_front
    {front rest : List Node}
    (hashed : Hashed memory tables)
    (found : tables.lists head = some (front ++ pos :: rest)) :
    ∃ front',
      (bodyTables act tables pos).lists head = some (front' ++ rest) := by
  have erased := erase_front hashed found
  rw [bodyTables]
  cases act pos with
  | keep =>
      exact ⟨front ++ [pos], by simpa [Act.ops, runTables] using found⟩
  | del | delInit =>
      exact ⟨front, erased⟩
  | rehash h =>
      simp only [Act.ops, runTables, List.foldl_cons, List.foldl_nil,
        callTables]
      by_cases same : head = h
      · refine ⟨pos :: front, ?_⟩
        rw [← same, Function.update_self, erased]
        rfl
      · refine ⟨front, ?_⟩
        rw [Function.update_of_ne same]
        exact erased

/-- No body takes a head away. -/
theorem isHead_body
    {h : Head}
    (isHead : ∃ nodes, tables.lists h = some nodes) :
    ∃ nodes, (bodyTables act tables pos).lists h = some nodes := by
  obtain ⟨nodes, found⟩ := isHead
  have erased :
      edit tables.lists (·.erase pos) h = some (nodes.erase pos) := by
    rw [edit, found]
    rfl
  rw [bodyTables]
  cases act pos with
  | keep =>
      exact ⟨nodes, found⟩
  | del | delInit =>
      exact ⟨_, erased⟩
  | rehash other =>
      simp only [Act.ops, runTables, List.foldl_cons, List.foldl_nil,
        callTables]
      by_cases same : h = other
      · refine ⟨pos :: nodes.erase pos, ?_⟩
        rw [← same, Function.update_self, erased]
        rfl
      · exact ⟨_, (Function.update_of_ne same ..).trans erased⟩

omit [DecidableEq Head] in
/-- A deleted node is in no list. -/
theorem Hashed.not_linked_erase (hashed : Hashed memory tables) :
    ¬ Lists.Linked (edit tables.lists (·.erase pos)) pos := by
  rintro ⟨h, nodes, found, member⟩
  obtain ⟨whole, foundWhole, rfl⟩ := Option.map_eq_some_iff.mp found
  exact List.Nodup.not_mem_erase (hashed.lists.nodup foundWhole) member

/-- A body gets through and keeps the lists. -/
theorem Hashed.body
    (hashed : Hashed memory tables)
    (linked : tables.lists.Linked pos)
    (valid : (act pos).Valid tables) :
    ∃ memory',
      bodyCode? poison1 poison2 act memory pos = some memory' ∧
        Hashed memory' (bodyTables act tables pos) := by
  apply hashed.run
  cases chosen : act pos with
  | keep =>
      trivial
  | del =>
      exact ⟨linked, trivial⟩
  | delInit =>
      exact ⟨.inl linked, trivial⟩
  | rehash h =>
      rw [chosen] at valid
      obtain ⟨nodes, found⟩ := valid
      refine ⟨linked, ⟨⟨nodes.erase pos, ?_⟩, ?_⟩, trivial⟩
      · simp only [callTables, edit, found, Option.map_some]
      · exact hashed.not_linked_erase

/-- The loop meets the nodes from its position on. -/
theorem safeLoop_eq
    {front rest : List Node}
    {fuel : Nat}
    (hashed : Hashed memory tables)
    (found : tables.lists head = some (front ++ rest))
    (valid : ∀ node ∈ rest, (act node).Valid tables)
    (enough : rest.length < fuel) :
    ∃ final,
      safeLoop (bodyCode? poison1 poison2 act) fuel memory rest.head? =
          some (final, rest) ∧
        Hashed final (rest.foldl (bodyTables act) tables) := by
  induction rest generalizing front fuel memory tables with
  | nil =>
      obtain ⟨more, rfl⟩ := Nat.exists_eq_add_one.mpr enough
      exact ⟨memory, rfl, hashed⟩
  | cons pos rest inductionHypothesis =>
      obtain ⟨more, rfl⟩ :=
        Nat.exists_eq_add_one.mpr (Nat.zero_lt_of_lt enough)
      have linked : tables.lists.Linked pos := ⟨head, _, found, by simp⟩
      obtain ⟨next, ran, nextHashed⟩ :=
        @Hashed.body _ _ _ _ _ _ poison1 poison2 act pos hashed linked
          (valid pos List.mem_cons_self)
      obtain ⟨front', found'⟩ :=
        @bodyTables_front _ _ _ _ _ _ act _ _ _ _ hashed found
      have stillValid :
          ∀ node ∈ rest, (act node).Valid (bodyTables act tables pos) := by
        intro node member
        have before := valid node (List.mem_cons_of_mem _ member)
        cases chosen : act node with
        | keep | del | delInit =>
            trivial
        | rehash h =>
            rw [chosen] at before
            exact isHead_body before
      obtain ⟨final, looped, finalHashed⟩ :=
        inductionHypothesis nextHashed found' stillValid
          (Nat.lt_of_succ_lt_succ enough)
      have ahead : memory.target (.next pos) = rest.head? := by
        obtain ⟨_, ⟨_, later⟩, ends⟩ :=
          Chain.append.mp (hashed.lists.chains found)
        have behind : Chain memory (.next pos) rest := ⟨later, ends⟩
        exact behind.head_eq
      refine ⟨final, ?_, finalHashed⟩
      rw [List.head?_cons, safeLoop, ahead, ran]
      simp only [Option.bind_some, looped, Option.map_some]

/--
`hlist_for_each_safe` meets each node of its list once and in order, although
the bodies delete nodes or put them in front of other lists or of their own.
Behind it a loop over any list meets what these calls mean for the lists, one
after another.
-/
theorem hlist_safe_loop_meets_all
    (start : Memory Head Node)
    (poison1 : Node)
    (poison2 : Cell Head Node)
    {ops : List (Op Head Node)}
    (valid : ValidRun (Tables.start Head Node) ops)
    {head : Head}
    {nodes : List Node}
    (found :
      (runTables (Tables.start Head Node) ops).lists head = some nodes)
    (act : Node → Act Head)
    (allowed :
      ∀ node ∈ nodes,
        (act node).Valid (runTables (Tables.start Head Node) ops))
    {fuel : Nat}
    (enough : nodes.length < fuel) :
    ∃ memory final,
      runCode? poison1 poison2 start ops = some memory ∧
        hlistForEachSafe (bodyCode? poison1 poison2 act) memory head fuel =
            some (final, nodes) ∧
        ∀ other left,
          (nodes.foldl (bodyTables act)
              (runTables (Tables.start Head Node) ops)).lists other =
            some left →
          ∀ more,
            left.length < more →
            hlistForEach final other more = some left := by
  obtain ⟨memory, ran, hashed⟩ :=
    @Hashed.run _ _ _ _ _ _ poison1 poison2 ops (hashed_start start) valid
  obtain ⟨final, looped, finalHashed⟩ :=
    @safeLoop_eq _ _ _ _ _ _ poison1 poison2 act head [] nodes fuel hashed
      found allowed enough
  refine ⟨memory, final, ran, ?_, ?_⟩
  · rw [hlistForEachSafe, (hashed.lists.chains found).head_eq]
    exact looped
  · intro other left leftFound more enoughMore
    exact (finalHashed.lists.chains leftFound).walk_eq enoughMore

/-- The body puts node 7 in front of its own list, and the others elsewhere. -/
def sampleAct (node : Nat) : Act Nat :=
  if node = 7 then .rehash 0 else .rehash 1

/-- A loop whose first body puts its node back in front of the same list. -/
theorem hlist_safe_loop_meets_moved :
    ∃ memory final,
      runCode? 8 (.root 9) sampleMemory sampleOps = some memory ∧
        hlistForEachSafe (bodyCode? 8 (.root 9) sampleAct) memory 0 3 =
          some (final, [7, 4]) ∧
        hlistForEach final 0 2 = some [7] ∧
        hlistForEach final 1 3 = some [4, 6] := by
  obtain ⟨memory, final, ran, looped, meets⟩ :=
    @hlist_safe_loop_meets_all Nat Nat _ _ sampleMemory 8 (.root 9)
      sampleOps sampleOps_valid 0 [7, 4] rfl sampleAct
      (by
        intro node _
        unfold sampleAct
        split
        · exact ⟨[7, 4], rfl⟩
        · exact ⟨[6], rfl⟩)
      3 (by decide)
  exact ⟨memory, final, ran, looped, meets 0 [7] rfl 2 (by decide),
    meets 1 [4, 6] rfl 3 (by decide)⟩

end SafeLoop

end WkcRuntime.Hlist
