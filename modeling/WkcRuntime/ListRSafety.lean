import WkcRuntime.ListRFrame

namespace WkcRuntime.ListR

open LinkedOrder SweepPipeline

/-!
# Every step keeps the chain

Two steps change the order of the list: the store with which `push_front`
publishes its node, and the verdict with which `remove_if` takes a node out.
Together with the steps that keep the order they give one theorem for every
step of a thread, and another one that bounds what a step changes.
-/

variable {Tid T : Type}

namespace State

namespace Chain

variable {state next : State Tid T}
variable {order order' : List NodeId}
variable {tid : Tid}

/-- A node that the moving thread does not own keeps its successor. -/
theorem successor_elsewhere
    (chain : state.Chain order)
    (moves : Moves (state.pc tid).Owns state next tid)
    (sameOwner : next.owner = state.owner)
    {id : NodeId}
    (member : id ∈ order)
    (foreign : ¬ (state.pc tid).Owns id) :
    next.successor id = state.successor id := by
  obtain ⟨node, stored, _⟩ := chain.stored id member
  apply chain.successor_frame moves (by simp [stored]) foreign
  rw [sameOwner]
  intro owned
  exact foreign (.inl (((chain.station tid).held id).1 owned))

variable [DecidableEq Tid]

attribute [local simp] goto setNode setOwner number note record allocate

/-- The new node becomes the first one after the head. -/
theorem move_store
    {tail : List NodeId}
    (chain : state.Chain (head :: tail))
    {newNode : NodeId}
    {value : T}
    (located : state.pc tid = .pushStore newNode value)
    (stored : state.heap head = some ⟨none, none⟩) :
    ((state.setNode head (some ⟨none, some newNode⟩)).goto tid
      .pushUnlock).Chain (head :: newNode :: tail) := by
  have station := chain.station tid
  have held : head ∈ (state.pc tid).holds := by
    simp [located, Pc.holds]
  have isSpare : (state.pc tid).spare = some newNode := by
    rw [located]
    rfl
  obtain ⟨outside, _⟩ := station.spare newNode isSpare
  have notHead : newNode ≠ head := by
    rintro rfl
    exact outside (List.mem_cons_self ..)
  have free : state.owner newNode = none :=
    chain.spare_free isSpare (by simp [located, Pc.holds, notHead])
  have owns :
      ∀ id,
        (state.pc tid).Owns id ↔ id = head ∨ id = newNode := by
    intro id
    simp [located, Pc.Owns, Pc.holds, Pc.spare, eq_comm]
  have moves :
      Moves (state.pc tid).Owns state
        ((state.setNode head (some ⟨none, some newNode⟩)).goto tid
          .pushUnlock) tid :=
    .trans (.setNode (.inl (.inl held))) (.goto _)
  obtain ⟨⟨rest, newStored⟩, _⟩ : (∃ rest,
      state.heap newNode = some ⟨some ⟨newNode, value⟩, rest⟩) ∧
        state.nextOf head = none := by
    simpa [located, Fields] using station.fields
  refine chain.move moves ?_ chain.sound rfl ?_ ?_ ?_
    (chain.fresh_setNode _ (by simp [stored])) ?_ (by simp [Pc.spare])
  · intro id foreign
    rw [owns, not_or] at foreign
    simp [foreign]
  · have nodup := chain.nodup
    simp only [List.mem_cons, not_or] at outside
    simp only [List.nodup_cons, List.mem_cons, not_or] at nodup ⊢
    exact ⟨⟨Ne.symm notHead, nodup.1⟩, outside.2, nodup.2⟩
  · refine ⟨?_, ?_, ?_⟩
    · rw [successor_of_owner
          ((state.setNode head (some ⟨none, some newNode⟩)).goto tid
            .pushUnlock)
          (chain.owner_eq held),
        nextOf_setNode]
      simp [Pc.successor]
    · rw [successor_of_free (by simpa using free), nextOf_setNode,
        Function.update_of_ne notHead]
      have before := chain.linked.1
      rw [successor_of_owner state (chain.owner_eq held),
        located] at before
      exact before
    · apply chain.linked.2.congr
      intro id member
      have notFirst : id ≠ head := by
        rintro rfl
        exact (List.nodup_cons.1 chain.nodup).1 member
      have notNew : id ≠ newNode := by
        rintro rfl
        exact outside (List.mem_cons_of_mem _ member)
      exact chain.successor_elsewhere moves rfl
        (List.mem_cons_of_mem _ member)
        (by simp [owns, notFirst, notNew])
  · intro id _ isOwned
    rcases (owns id).1 isOwned with rfl | rfl
    · exact ⟨⟨none, some newNode⟩, by simp⟩
    · exact ⟨⟨some ⟨id, value⟩, rest⟩,
        by simp [notHead, newStored], by simp [notHead]⟩
  · refine station_of_plain (by simp [Pc.Plain, Pc.successor]) ?_ ?_
      (by simp [Pc.neighbours]) (by simp [Pc.spare]) (by simp [Fields])
    · intro id
      simpa [located, Pc.holds] using station.held id
    · intro id isStood
      simp only [goto, Function.update_self, Pc.stands, Pc.holds,
        List.mem_singleton] at isStood
      simp [isStood]

/-- A node that the predicate accepts leaves the list. -/
theorem move_drop
    {behind ahead : List NodeId}
    {p : T → Bool × T}
    {current later : NodeId}
    {data changed : Shared T}
    {link : Option NodeId}
    (chain : state.Chain (behind ++ current :: later :: ahead))
    (located : state.pc tid = .judge p current later)
    (stored : state.heap later = some ⟨some data, link⟩) :
    (((state.setNode later (some ⟨some changed, link⟩)).note
      tid data).goto tid (.detach p current later)).Chain
        (behind ++ current :: ahead) := by
  have station := chain.station tid
  have plain : (state.pc tid).Plain := by
    rw [located]
    intro _ _
    rfl
  have heldCurrent : current ∈ (state.pc tid).holds := by
    simp [located, Pc.holds]
  have heldLater : later ∈ (state.pc tid).holds := by
    simp [located, Pc.holds]
  have owns :
      ∀ id,
        (state.pc tid).Owns id ↔ id = current ∨ id = later := by
    intro id
    simp [located, Pc.Owns, Pc.holds, Pc.spare]
  have moves :
      Moves (state.pc tid).Owns state
        (((state.setNode later (some ⟨some changed, link⟩)).note
          tid data).goto tid (.detach p current later)) tid :=
    .trans (.trans (.setNode (.inl (.inl heldLater))) (.note data))
      (.goto _)
  have leads : state.nextOf current = some later :=
    chain.nextOf_eq rfl plain heldCurrent
  have nodup := chain.nodup
  obtain ⟨different, apart⟩ := chain.apart rfl
  have outside : later ∉ behind ++ current :: ahead := by
    intro member
    simp only [List.mem_append, List.mem_cons] at member
    rcases member with member | member | member
    · exact (apart later (List.mem_append_left _ member)).2 rfl
    · exact different member.symm
    · exact (apart later (List.mem_append_right _ member)).2 rfl
  have sublist :
      (behind ++ current :: ahead).Sublist
        (behind ++ current :: later :: ahead) := by
    simp
  have untouched :
      ∀ id,
        id ∈ behind ++ ahead →
        (((state.setNode later (some ⟨some changed, link⟩)).note
          tid data).goto tid (.detach p current later)).successor id =
          state.successor id := by
    intro id member
    have listed : id ∈ behind ++ current :: later :: ahead := by
      rw [List.mem_append] at member
      rcases member with member | member <;> simp [member]
    exact chain.successor_elsewhere moves rfl listed
      (by simp [owns, apart id member])
  refine chain.move moves ?_ chain.sound ?_ (nodup.sublist sublist) ?_ ?_
    (chain.fresh_setNode _ (by simp [stored])) ?_ ?_
  · intro id foreign
    rw [owns, not_or] at foreign
    simp [foreign]
  · have first := chain.first
    cases behind with
    | nil =>
        exact first
    | cons other rest =>
        exact first
  · apply chain.linked.bypass
    · rw [successor_of_owner
          (((state.setNode later (some ⟨some changed, link⟩)).note
            tid data).goto tid (.detach p current later))
          (chain.owner_eq heldCurrent),
        successor_of_plain plain (.inr (chain.owner_eq heldLater))]
      simp [Pc.successor, nextOf, stored]
    · intro id member
      exact untouched id (List.mem_append_left _ member)
    · intro id member
      exact untouched id (List.mem_append_right _ member)
  · intro id member isOwned
    rcases (owns id).1 isOwned with rfl | rfl
    · obtain ⟨node, isStored, isHead⟩ := chain.stored id (by simp)
      exact ⟨node, by simpa [different] using isStored, isHead⟩
    · exact (outside member).elim
  · refine ⟨?_, ?_, by simp [Pc.neighbours], ?_, ?_⟩
    · intro id
      simpa [located, Pc.holds] using station.held id
    · intro id isStood
      simp only [goto, Function.update_self, Pc.stands,
        List.mem_singleton] at isStood
      simp [isStood]
    · intro id isSpare
      simp only [goto, Function.update_self, Pc.spare,
        Option.some.injEq] at isSpare
      subst isSpare
      exact ⟨outside, by simp⟩
    · simpa [Fields, nextOf, different] using leads
  · intro id isSpare
    simp only [goto, Function.update_self, Pc.spare,
      Option.some.injEq] at isSpare
    exact .inl ((owns id).2 (.inr isSpare.symm))

omit [DecidableEq Tid] in
/-- A call that returns holds one mutex and is not in an update. -/
theorem returning
    {pc : Pc T}
    {id : NodeId}
    {found : Option (Shared T)}
    (returns : pc.returns = some (id, found)) :
    pc.Plain ∧ pc.holds = [id] ∧ pc.spare = none := by
  cases pc <;>
    simp_all [Pc.returns, Pc.Plain, Pc.successor, Pc.holds, Pc.spare]

/-- Every step of a thread keeps the chain. -/
theorem step
    (chain : state.Chain order)
    (progress : state.Progress tid order order' next) :
    next.Chain order' := by
  have station := chain.station tid
  have fields := station.fields
  cases progress with
  | newNode located =>
      exact chain.keep_newNode located
  | startPush located free =>
      exact chain.keep_start located free (fun _ _ => rfl)
        (fun _ _ => rfl) rfl rfl rfl rfl (fun known => known)
  | startWalk located free =>
      exact chain.keep_start located free (fun _ _ => rfl)
        (fun _ _ => rfl) rfl rfl rfl rfl (fun _ => trivial)
  | take located stored =>
      rw [located] at fields
      have apart := chain.spare_ne_stood tid (by rw [located]; rfl)
        (by rw [located]; exact List.mem_singleton_self head)
      refine chain.keep_update located head stored
        (.inl (List.mem_singleton_self _)) rfl rfl ?_
        rfl rfl rfl rfl ?_
      · simp [Pc.successor, nextOf, stored]
      · exact ⟨by simpa [apart, Fields] using fields,
          by simp [nextOf]⟩
  | link located =>
      rw [located] at fields
      have apart := chain.spare_ne_stood tid (by rw [located]; rfl)
        (by rw [located]; exact List.mem_singleton_self head)
      obtain ⟨stored, cleared⟩ := fields
      refine chain.keep_update located head stored (.inr rfl) rfl
        rfl ?_ rfl rfl rfl rfl ?_
      · simp [Pc.successor]
      · refine ⟨⟨_, by simp; rfl⟩, ?_⟩
        rw [nextOf_setNode, Function.update_of_ne apart.symm]
        exact cleared
  | store located stored =>
      exact chain.move_store located stored
  | leave located =>
      obtain ⟨plain, holds, spare⟩ := returning located
      refine chain.keep_unlock rfl (.inr ⟨_, rfl⟩) plain
        (fun _ _ => rfl) (by simp [holds]) ?_
        (by simp [Pc.stands, Pc.holds]) rfl (by rw [spare]; rfl) trivial
      intro other
      rw [holds]
      simp [Pc.holds]
  | reachEnd located =>
      exact chain.keep_goto located (fun _ _ => rfl) (fun _ _ => rfl)
        rfl rfl rfl (by simp [Pc.neighbours]) trivial
  | reachNext located =>
      refine chain.keep_goto located (fun _ _ => rfl) (fun _ _ => rfl)
        rfl rfl rfl ?_ trivial
      intro current later isNext
      obtain ⟨rfl, rfl⟩ : _ = current ∧ _ = later := by
        simpa [Pc.neighbours] using isNext
      exact chain.nextOf_eq rfl
        (by rw [located]; exact fun _ _ => rfl)
        (by simp [located, Pc.holds])
  | @lockNext _ _ walk current later located free =>
      cases walk with
      | visit body =>
          exact chain.keep_lock located rfl free (fun _ _ => rfl)
            (fun _ _ => rfl) rfl rfl rfl rfl rfl trivial
      | removeIf p =>
          exact chain.keep_lock located rfl free (fun _ _ => rfl)
            (fun _ _ => rfl) rfl rfl rfl rfl rfl trivial
  | @unlockCurrent behind ahead body current later located =>
      have different := (chain.apart rfl).1
      refine chain.keep_unlock located (.inl rfl) (fun _ _ => rfl)
        (fun _ _ => rfl) (by simp [Pc.holds]) ?_
        (by simp [Pc.stands, Pc.holds]) rfl rfl (chain.later_ne_head rfl)
      intro other
      simp only [Pc.holds, List.mem_cons, List.not_mem_nil, or_false]
      grind
  | visitOn located stored verdict =>
      exact chain.keep_visit located stored (by simp [Pc.holds])
        (fun _ _ => rfl) (fun _ _ => rfl) rfl rfl rfl
        (by simp [Pc.neighbours]) (fun _ => trivial)
  | visitStop located stored verdict =>
      rw [located] at fields
      exact chain.keep_visit located stored (by simp [Pc.holds])
        (fun _ _ => rfl) (fun _ _ => rfl) rfl rfl rfl
        (by simp [Pc.neighbours]) (fun _ => fields)
  | copyFound located stored =>
      exact chain.keep_goto located (fun _ _ => rfl) (fun _ _ => rfl)
        rfl rfl rfl (by simp [Pc.neighbours]) trivial
  | judgeKeep located stored verdict =>
      refine chain.keep_visit located stored (by simp [Pc.holds])
        (fun _ _ => rfl) (fun _ _ => rfl) rfl rfl rfl ?_
        (fun _ => trivial)
      intro current later isNext
      obtain ⟨rfl, rfl⟩ : _ = current ∧ _ = later := by
        simpa [Pc.neighbours] using isNext
      exact chain.nextOf_eq rfl
        (by rw [located]; exact fun _ _ => rfl)
        (by simp [located, Pc.holds])
  | judgeDrop located stored verdict =>
      exact chain.move_drop located stored
  | detach located stored =>
      have apart := chain.spare_ne_stood tid (by rw [located]; rfl)
        (by rw [located]; exact List.mem_singleton_self _)
      refine chain.keep_update located _ stored
        (.inl (by simp [Pc.holds])) rfl rfl ?_ rfl rfl rfl rfl ?_
      · simp [Pc.successor, apart]
      · simp [Fields, nextOf]
  | bypass located stored =>
      rw [located] at fields
      obtain ⟨cleared, isOld⟩ := fields
      have apart := chain.spare_ne_stood tid (by rw [located]; rfl)
        (by rw [located]; exact List.mem_singleton_self _)
      refine chain.keep_update located _ stored
        (.inl (by simp [Pc.holds])) rfl rfl ?_ rfl rfl rfl rfl ?_
      · simp [Pc.successor, nextOf, stored]
      · refine ⟨?_, by simp [nextOf], isOld⟩
        rw [nextOf_setNode, Function.update_of_ne apart.symm]
        exact cleared
  | relink located stored =>
      rw [located] at fields
      obtain ⟨_, cleared, isOld⟩ := fields
      have apart := chain.spare_ne_stood tid (by rw [located]; rfl)
        (by rw [located]; exact List.mem_singleton_self _)
      refine chain.keep_update located _ stored
        (.inl (by simp [Pc.holds])) rfl rfl ?_ rfl rfl rfl rfl ?_
      · simp [Pc.successor]
      · refine ⟨?_, isOld⟩
        rw [nextOf_setNode, Function.update_of_ne apart]
        exact cleared
  | @unlockRemoved _ p current later oldNext located =>
      rw [located] at fields
      obtain ⟨cleared, rfl⟩ := fields
      have apart := chain.spare_ne_stood tid (by rw [located]; rfl)
        (by rw [located]; exact List.mem_singleton_self _)
      refine chain.keep_unlock located (.inl rfl) (fun _ _ => rfl)
        (fun _ _ => rfl) (by simp [Pc.holds]) ?_
        (by simp [Pc.stands, Pc.holds]) rfl rfl ⟨later, rfl, cleared⟩
      intro other
      simp only [Pc.holds, List.mem_cons, List.not_mem_nil, or_false]
      grind
  | destroy located =>
      exact chain.keep_destroy located
  | @stepOver behind ahead p current later located =>
      have different := (chain.apart rfl).1
      refine chain.keep_unlock located (.inl rfl) (fun _ _ => rfl)
        (fun _ _ => rfl) (by simp [Pc.holds]) ?_
        (by simp [Pc.stands, Pc.holds]) rfl rfl trivial
      intro other
      simp only [Pc.holds, List.mem_cons, List.not_mem_nil, or_false]
      grind

/-- A step changes nothing beyond what its thread owns. -/
theorem moves
    (chain : state.Chain order)
    (progress : state.Progress tid order order' next) :
    Moves (state.pc tid).Owns state next tid := by
  have holds :
      ∀ {pc : Pc T} {id : NodeId},
        state.pc tid = pc →
        id ∈ pc.holds →
        state.owner id = some tid :=
    fun located held => chain.owner_eq (located ▸ held)
  have owns :
      ∀ {pc : Pc T} {id : NodeId},
        state.pc tid = pc →
        pc.Owns id →
        (state.pc tid).Owns id ∨ state.heap id = none :=
    fun located owned => .inl (located ▸ owned)
  cases progress with
  | newNode located =>
      exact .trans (.trans (.setNode (.inr chain.unused)) .allocate)
        (.goto _)
  | startPush located free =>
      exact .trans (.trans (.number _) (.lock free)) (.goto _)
  | startWalk located free =>
      exact .trans (.trans (.number _) (.lock free)) (.goto _)
  | take located stored =>
      exact .trans
        (.setNode (owns located (.inl (by simp [Pc.holds])))) (.goto _)
  | link located =>
      exact .trans (.setNode (owns located (.inr rfl))) (.goto _)
  | store located stored =>
      exact .trans
        (.setNode (owns located (.inl (by simp [Pc.holds])))) (.goto _)
  | leave located =>
      obtain ⟨_, held, _⟩ := returning located
      exact .trans
        (.trans (.record _) (.unlock (chain.owner_eq (by simp [held]))))
        (.goto _)
  | reachEnd located =>
      exact .goto _
  | reachNext located =>
      exact .goto _
  | lockNext located free =>
      exact .trans (.lock free) (.goto _)
  | unlockCurrent located =>
      exact .trans (.unlock (holds located (by simp [Pc.holds])))
        (.goto _)
  | visitOn located stored verdict =>
      exact .trans
        (.trans (.setNode (owns located (.inl (by simp [Pc.holds]))))
          (.note _))
        (.goto _)
  | visitStop located stored verdict =>
      exact .trans
        (.trans (.setNode (owns located (.inl (by simp [Pc.holds]))))
          (.note _))
        (.goto _)
  | copyFound located stored =>
      exact .goto _
  | judgeKeep located stored verdict =>
      exact .trans
        (.trans (.setNode (owns located (.inl (by simp [Pc.holds]))))
          (.note _))
        (.goto _)
  | judgeDrop located stored verdict =>
      exact .trans
        (.trans (.setNode (owns located (.inl (by simp [Pc.holds]))))
          (.note _))
        (.goto _)
  | detach located stored =>
      exact .trans
        (.setNode (owns located (.inl (by simp [Pc.holds])))) (.goto _)
  | bypass located stored =>
      exact .trans
        (.setNode (owns located (.inl (by simp [Pc.holds])))) (.goto _)
  | relink located stored =>
      exact .trans
        (.setNode (owns located (.inl (by simp [Pc.holds])))) (.goto _)
  | unlockRemoved located =>
      exact .trans (.unlock (holds located (by simp [Pc.holds])))
        (.goto _)
  | destroy located =>
      exact .trans (.setNode (owns located (.inr rfl))) (.goto _)
  | stepOver located =>
      exact .trans (.unlock (holds located (by simp [Pc.holds])))
        (.goto _)

/-- A call that begins keeps the chain. -/
theorem call
    (chain : state.Chain order)
    (located : state.pc tid = .idle)
    (begun : Call T T) :
    (state.goto tid (enter begun)).Chain order := by
  cases begun <;>
    exact chain.keep_goto located (fun _ _ => rfl) (fun _ _ => rfl)
      rfl rfl rfl (by simp [enter, Pc.neighbours]) trivial

omit [DecidableEq Tid] in
/-- The empty list is a chain of the head alone. -/
theorem of_fresh
    (fresh : state.Fresh) :
    state.Chain [head] := by
  have heap := fresh.heap
  refine ⟨fresh.fault, rfl, by simp, ⟨?_, trivial⟩,
    ?_, ?_, ?_, ?_⟩
  · rw [successor_of_free (fresh.owner head)]
    simp [nextOf, heap]
  · intro id member
    obtain rfl := List.mem_singleton.1 member
    exact ⟨⟨none, none⟩, by simp [heap], by simp⟩
  · intro id stored
    have isHead : id = head := by
      by_contra other
      simp [heap, other] at stored
    rw [isHead, fresh.fresh]
    exact Nat.lt_succ_self _
  · intro tid
    have idle := fresh.pc tid
    refine ⟨?_, ?_, ?_, ?_, ?_⟩ <;>
      simp [idle, fresh.owner, Pc.holds, Pc.stands, Pc.neighbours,
        Pc.spare, Fields]
  · intro tid other id isSpare
    simp [fresh.pc, Pc.spare] at isSpare

end Chain
end State
end WkcRuntime.ListR
