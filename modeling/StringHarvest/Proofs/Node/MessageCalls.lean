import StringHarvest.Proofs.Catalog.Insertion
import StringHarvest.Proofs.Catalog.ThreadedScan
import StringHarvest.Proofs.Node.Positions

/-!
# The message calls of a tree, by their positions

The walk through a tree is a recursion over the kinds of nodes. This file says what it finds without
following it: a call is taken at a position (`Node.TakenAt`) when it is a message call, no message
call stands properly above it, and the way to it leads through no skipped slot.

**Main theorem** (`messageCalls_taken`): the walk gives exactly the calls that are taken at some
position, the call of each such position once; and starting from any catalog the scan ends in that
catalog merged with the one of the messages of these calls, be the catalog handed from node to node
or the messages inserted after the walk.

The walk is opened only once, in `messageCalls_of_none`: the calls of a node that is no message call
itself are those of its `visited` children. All the rest is about positions: `takenPositions` lists
them by a recursion over the visited children, and `mem_takenPositions` and `nodup_takenPositions`
compare that list with `TakenAt`.
-/

namespace StringHarvest

/-- The message call that a finding is. -/
def Finding.call? : Finding → Option Call
  | .event _ => none
  | .call found => some found

namespace Node

/-- The message call that a node is itself. -/
def messageCall? (names : List String) : Node → Option Call
  | .call callee arguments location =>
    if isMessageFunction names callee.dottedName.value then some ⟨arguments, location⟩ else none
  | _ => none

/-- The children in which message calls are looked for, in the order of the visits: those in the
slots that are not skipped. Of a conditional the alternate comes first. -/
def visited : Node → List (Slot × Node)
  | .conditional _ consequent alternate =>
    [(.conditionalAlternate, alternate), (.conditionalConsequent, consequent)]
  | .ifStatement _ consequent alternate =>
    (.ifConsequent, consequent) :: filled .ifAlternate alternate
  | .new _ arguments => numbered .newArgument arguments
  | .property _ value => [(.propertyValue, value)]
  | .switch _ cases => numbered .switchCase cases
  | node => node.slots

/-- A message call that is taken at a position: no message call stands properly above it, and the
way to it leads through no skipped slot. -/
structure TakenAt (names : List String) (root : Node) (position : Position) (call : Call) :
    Prop where
  /-- The call stands at the position. -/
  here : ∃ node, root.at? position = some node ∧ node.messageCall? names = some call
  /-- No proper ancestor is a message call. -/
  outermost : ∀ above, above <+: position → above ≠ position →
    ∀ node, root.at? above = some node → node.messageCall? names = none
  /-- No slot on the way is skipped. -/
  unskipped : ∀ slot ∈ position, slot.isSkipped = false

/-! ### The visited children -/

/-- No slot of a body is skipped. -/
theorem isSkipped_of_mem_bodySlots {body : NodeBody} {x : Slot × Node} (h : x ∈ bodySlots body) :
    x.1.isSkipped = false := by
  cases body with
  | absent => exact absurd h List.not_mem_nil
  | single node => rw [List.mem_singleton.mp h]; rfl
  | sequence nodes =>
      obtain ⟨i, -, hi⟩ := mem_numbered.mp h
      rw [hi]
      rfl

/-- A node is visited if it stands in a slot that is not skipped. -/
theorem mem_visited {node : Node} {x : Slot × Node} :
    x ∈ node.visited ↔ x ∈ node.slots ∧ x.1.isSkipped = false := by
  obtain ⟨slot, child⟩ := x
  cases node <;>
    grind [visited, slots, Slot.isSkipped, mem_numbered, mem_filled, → isSkipped_of_mem_bodySlots]

/-- No slot is visited twice. -/
theorem nodup_visited (node : Node) : (node.visited.map Prod.fst).Nodup := by
  have h := node.nodup_slots
  unfold visited
  split
  · simp
  all_goals first | exact h | exact h.of_cons

/-- Numbered slots hold the nodes in order. -/
theorem numbered_map_snd (slot : Nat → Slot) (nodes : List Node) :
    (numbered slot nodes).map Prod.snd = nodes := by
  unfold numbered
  rw [List.map_map]
  exact List.zipIdx_map_fst 0 nodes

/-- A slot that may be empty holds the node, if there is one. -/
theorem filled_map_snd (slot : Slot) (node : Option Node) :
    (filled slot node).map Prod.snd = node.toList := by
  cases node <;> rfl

/-! ### One step of the walk -/

/-- The message calls among findings. -/
def callsOf (findings : List Finding) : List Call := findings.filterMap Finding.call?

variable (names : List String)

/-- Where nothing is found, there are no calls. -/
@[simp] theorem callsOf_nil : callsOf [] = [] := rfl

/-- Calls are found in order. -/
@[simp] theorem callsOf_append (l l' : List Finding) :
    callsOf (l ++ l') = callsOf l ++ callsOf l' :=
  List.filterMap_append

/-- A visit is no call. -/
@[simp] theorem callsOf_visit (kind : String) (below : List Finding) :
    callsOf (visit kind below) = callsOf below := rfl

/-- What is found in a node gives its calls. -/
@[simp] theorem callsOf_findings (node : Node) :
    callsOf (node.findings names) = node.messageCalls names := rfl

/-- Events are no calls. -/
@[simp] theorem callsOf_events (events : List Event) : callsOf (events.map .event) = [] := by
  unfold callsOf
  rw [List.filterMap_map, List.filterMap_eq_nil_iff]
  intro event _
  rfl

/-- What is found in nodes gives the calls of each. -/
@[simp] theorem callsOf_findingsAll (nodes : List Node) :
    callsOf (findingsAll names nodes) = nodes.flatMap (messageCalls names) := by
  induction nodes with
  | nil => rfl
  | cons node rest ih =>
      rw [findingsAll, callsOf_append, callsOf_findings, ih, List.flatMap_cons]

/-- So it is for a node that may be missing. -/
@[simp] theorem callsOf_findings? (node : Option Node) :
    callsOf (findings? names node) = node.toList.flatMap (messageCalls names) := by
  cases node with
  | none => rfl
  | some node => simp [findings?]

/-- So it is for the body of a node. -/
@[simp] theorem callsOf_findingsBody (body : NodeBody) :
    callsOf (findingsBody names body) =
      ((bodySlots body).map Prod.snd).flatMap (messageCalls names) := by
  cases body with
  | absent => rfl
  | single node => simp [findingsBody, bodySlots]
  | sequence nodes => simp [findingsBody, bodySlots, numbered_map_snd]

variable {names}

/-- A message call is the only one that is found from it on. -/
theorem messageCalls_of_some {node : Node} {call : Call} (h : node.messageCall? names = some call) :
    node.messageCalls names = [call] := by
  cases node with
  | call callee arguments location =>
      simp only [messageCall?, Option.ite_none_right_eq_some, Option.some.injEq] at h
      obtain ⟨hname, rfl⟩ := h
      rw [← callsOf_findings, findings, callsOf_visit, callsOf_append, callsOf_events, if_pos hname]
      rfl
  | _ => simp [messageCall?] at h

/-- **One step of the walk**: from a node that is no message call, the calls of its visited children
are found, in the order of the visits. -/
theorem messageCalls_of_none {node : Node} (h : node.messageCall? names = none) :
    node.messageCalls names = (node.visited.map Prod.snd).flatMap (messageCalls names) := by
  rw [← callsOf_findings]
  cases node with
  | call callee arguments location =>
      simp only [messageCall?, ite_eq_right_iff, reduceCtorEq, imp_false] at h
      rw [findings, if_neg h]
      simp [visited, slots, numbered_map_snd]
  | _ => simp [findings, visited, slots, numbered_map_snd, filled_map_snd]

/-! ### The positions of the calls -/

section positions

/-- At the root a message call is always taken. -/
theorem takenAt_nil {root : Node} {call : Call} :
    root.TakenAt names [] call ↔ root.messageCall? names = some call := by
  constructor
  · rintro ⟨⟨node, hnode, hcall⟩, -, -⟩
    rw [at?_nil, Option.some.injEq] at hnode
    rwa [hnode]
  · intro hcall
    refine ⟨⟨root, rfl, hcall⟩, ?_, by simp⟩
    intro above habove hne
    exact absurd (List.prefix_nil.mp habove) hne

/-- Below a message call nothing is taken. -/
theorem not_takenAt_cons_of_some {root : Node} {call call' : Call} {slot : Slot} {rest : Position}
    (h : root.messageCall? names = some call) : ¬ root.TakenAt names (slot :: rest) call' := by
  intro htaken
  have hnone := htaken.outermost [] List.nil_prefix (by simp) root (at?_nil root)
  rw [h] at hnone
  cases hnone

/-- Below any other node those calls are taken that are taken in its visited children. -/
theorem takenAt_cons_of_none {root : Node} {call : Call} {slot : Slot} {rest : Position}
    (h : root.messageCall? names = none) :
    root.TakenAt names (slot :: rest) call ↔
      ∃ child, (slot, child) ∈ root.visited ∧ child.TakenAt names rest call := by
  constructor
  · rintro ⟨⟨node, hnode, hcall⟩, houter, hskip⟩
    rw [at?_cons, Option.bind_eq_some_iff] at hnode
    obtain ⟨child, hchild, hnode⟩ := hnode
    refine ⟨child, ?_, ⟨node, hnode, hcall⟩, ?_, ?_⟩
    · rw [mem_visited]
      exact ⟨child?_eq_some_iff.mp hchild, hskip slot List.mem_cons_self⟩
    · intro above habove hne inner hinner
      refine houter (slot :: above) (List.cons_prefix_cons.mpr ⟨rfl, habove⟩) (by simpa) inner ?_
      rw [at?_cons, hchild, Option.bind_some, hinner]
    · exact fun s hs => hskip s (List.mem_cons_of_mem _ hs)
  · rintro ⟨child, hchild, ⟨node, hnode, hcall⟩, houter, hskip⟩
    rw [mem_visited] at hchild
    have hslot := child?_eq_some_iff.mpr hchild.1
    refine ⟨⟨node, ?_, hcall⟩, ?_, ?_⟩
    · rw [at?_cons, hslot, Option.bind_some, hnode]
    · intro above habove hne inner hinner
      -- a proper ancestor is the root or lies in the child
      rcases above with _ | ⟨s, above⟩
      · rw [at?_nil, Option.some.injEq] at hinner
        rwa [← hinner]
      · obtain ⟨rfl, hprefix⟩ := List.cons_prefix_cons.mp habove
        rw [at?_cons, hslot, Option.bind_some] at hinner
        exact houter above hprefix (fun heq => hne (by rw [heq])) inner hinner
    · intro s hs
      rcases List.mem_cons.mp hs with rfl | hs
      · exact hchild.2
      · exact hskip s hs

variable (names)

/-- The positions of the calls that are taken, with the calls, in the order of the visits. -/
def takenPositions (root : Node) : List (Position × Call) :=
  match root.messageCall? names with
  | some found => [([], found)]
  | none => root.visited.attach.flatMap fun x =>
      (takenPositions x.1.2).map fun y => (x.1.1 :: y.1, y.2)
termination_by sizeOf root
decreasing_by exact sizeOf_lt_of_mem_slots (mem_visited.mp x.2).1

/-- A node that is a call is the only position taken in it. -/
theorem takenPositions_of_some {root : Node} {call : Call}
    (h : root.messageCall? names = some call) : root.takenPositions names = [([], call)] := by
  rw [takenPositions, h]

/-- In any other node, positions are taken below the visited slots. -/
theorem takenPositions_of_none {root : Node} (h : root.messageCall? names = none) :
    root.takenPositions names = root.visited.flatMap fun x =>
      (x.2.takenPositions names).map fun y => (x.1 :: y.1, y.2) := by
  rw [takenPositions, h]
  simp only [List.flatMap_subtype, List.unattach_attach]

/-- Induction over a tree from the visited children up. -/
theorem visited_induction {motive : Node → Prop}
    (step : ∀ node, (∀ x ∈ node.visited, motive x.2) → motive node) (node : Node) : motive node :=
  step node fun x _ => visited_induction step x.2
termination_by sizeOf node
decreasing_by exact sizeOf_lt_of_mem_slots (mem_visited.mp ‹_›).1

/-- The listed positions are those at which a call is taken. -/
theorem mem_takenPositions (root : Node) (position : Position) (call : Call) :
    (position, call) ∈ root.takenPositions names ↔ root.TakenAt names position call := by
  induction root using visited_induction generalizing position with
  | step root ih =>
      rcases hroot : root.messageCall? names with _ | found
      · rw [takenPositions_of_none names hroot, List.mem_flatMap]
        rcases position with _ | ⟨slot, rest⟩
        · rw [takenAt_nil, hroot]
          simp
        · rw [takenAt_cons_of_none hroot]
          constructor
          · rintro ⟨⟨s, child⟩, hchild, hmem⟩
            obtain ⟨⟨p, c⟩, hp, heq⟩ := List.mem_map.mp hmem
            simp only [Prod.mk.injEq, List.cons.injEq] at heq
            obtain ⟨⟨rfl, rfl⟩, rfl⟩ := heq
            exact ⟨child, hchild, (ih _ hchild p).mp hp⟩
          · rintro ⟨child, hchild, htaken⟩
            exact ⟨_, hchild, List.mem_map.mpr ⟨_, (ih _ hchild rest).mpr htaken, rfl⟩⟩
      · rw [takenPositions_of_some names hroot, List.mem_singleton]
        rcases position with _ | ⟨slot, rest⟩
        · rw [takenAt_nil, hroot]
          simp [eq_comm]
        · simp [not_takenAt_cons_of_some hroot]

/-- No position is listed twice. -/
theorem nodup_takenPositions (root : Node) : ((root.takenPositions names).map Prod.fst).Nodup := by
  induction root using visited_induction with
  | step root ih =>
      rcases hroot : root.messageCall? names with _ | found
      · rw [takenPositions_of_none names hroot, List.map_flatMap, List.nodup_flatMap]
        constructor
        · intro x hx
          rw [List.map_map]
          have hcomp : (Prod.fst ∘ fun y : Position × Call => (x.1 :: y.1, y.2)) =
              (x.1 :: ·) ∘ Prod.fst := rfl
          rw [hcomp, ← List.map_map]
          exact (ih x hx).map (List.cons_injective)
        · -- different children give positions that start with different slots
          refine (List.pairwise_map.mp root.nodup_visited).imp ?_
          intro x y hxy
          refine List.disjoint_left.mpr ?_
          intro p hp hp'
          simp only [List.map_map, List.mem_map, Function.comp_apply] at hp hp'
          obtain ⟨_, _, rfl⟩ := hp
          obtain ⟨_, _, heq⟩ := hp'
          exact hxy (List.cons.inj heq).1.symm
      · rw [takenPositions_of_some names hroot]
        exact List.nodup_singleton _

/-- The calls of the listed positions are those that the walk finds, in the same order. -/
theorem takenPositions_map_snd (root : Node) :
    (root.takenPositions names).map Prod.snd = root.messageCalls names := by
  induction root using visited_induction with
  | step root ih =>
      rcases hroot : root.messageCall? names with _ | found
      · rw [takenPositions_of_none names hroot, messageCalls_of_none hroot, List.map_flatMap,
          List.flatMap_map]
        refine List.flatMap_congr fun x hx => ?_
        rw [List.map_map, ← ih x hx]
        rfl
      · rw [takenPositions_of_some names hroot, messageCalls_of_some hroot]
        rfl

end positions

end Node

/-! ### The catalog of the calls -/

namespace Catalog

/-- Taking a call in inserts its message, if it has one. -/
theorem value_takeCall (lines : List String) (catalog : Catalog) (call : Call) :
    (takeCall lines catalog call).value = catalog.insertAll (call.message? lines).value.toList := by
  rw [takeCall, Traced.value_bind]
  rcases (call.message? lines).value with _ | m <;> rfl

/-- Taking findings into a catalog inserts the messages of the calls among them; the events change
nothing. -/
theorem value_traceFindings (lines : List String) (catalog : Catalog) (findings : List Finding) :
    (traceFindings lines catalog findings).value =
      catalog.insertAll
        ((Node.callsOf findings).filterMap fun call => (call.message? lines).value) := by
  induction findings generalizing catalog with
  | nil => rfl
  | cons finding rest ih =>
      rw [traceFindings_cons, Traced.value_bind, ih]
      cases finding with
      | event event => rfl
      | call call =>
          have hcalls : Node.callsOf (.call call :: rest) = call :: Node.callsOf rest := rfl
          rw [traceFinding, value_takeCall, hcalls, List.filterMap_cons]
          rcases (call.message? lines).value with _ | m <;> rfl

end Catalog

/-- **The walk finds exactly the calls that are taken.** The calls that it gives are those at
the positions where a message call stands with no message call properly above it and no skipped
slot on the way, each position once. Started from any catalog the scan ends in that catalog
merged with the one of the messages of these calls in the order of the visits: so it is with the
scan that hands the catalog from node to node, with taking in what the walk meets, and with
inserting the messages of its calls. -/
theorem Node.messageCalls_taken (names lines : List String) (root : Node) :
    ∃ taken : List (Position × Call),
      root.messageCalls names = taken.map Prod.snd ∧
      (taken.map Prod.fst).Nodup ∧
      (∀ position call, (position, call) ∈ taken ↔ root.TakenAt names position call) ∧
      ∀ catalog : Catalog,
        catalog.insertNode names lines root =
          catalog.merge (.ofList (taken.filterMap fun x => (x.2.message? lines).value)) ∧
        (Catalog.traceFindings lines catalog (root.findings names)).value =
          catalog.merge (.ofList (taken.filterMap fun x => (x.2.message? lines).value)) ∧
        (catalog.scan names lines root).value =
          catalog.merge (.ofList (taken.filterMap fun x => (x.2.message? lines).value)) := by
  refine ⟨root.takenPositions names, (takenPositions_map_snd names root).symm,
    nodup_takenPositions names root, mem_takenPositions names root, fun catalog => ?_⟩
  have hmessages : (root.takenPositions names).filterMap (fun x => (x.2.message? lines).value) =
      (root.messageCalls names).filterMap fun call => (call.message? lines).value := by
    rw [← takenPositions_map_snd, List.filterMap_map]
    rfl
  rw [hmessages, Catalog.merge_ofList, Catalog.scan_eq]
  have hvalue := Catalog.value_traceFindings lines catalog (root.findings names)
  exact ⟨rfl, hvalue, hvalue⟩

/-- A message call among the arguments of another one, and one that is the test of a
conditional: neither is taken, and the other two calls are. The scan starts from a catalog
that has one of their messages. -/
theorem Node.messageCalls_taken_nested :
    let inner : Node := .call (.identifier "tr") [string "inner"] none
    let outer : Node := .call (.identifier "tr") [string "outer", inner] none
    let shown : Node := .call (.identifier "tr") [string "shown"] none
    let root : Node := .array [outer, .conditional inner shown (string "")]
    let start : Catalog := .ofList [{ singular := "shown", comment := "old" }]
    ∃ taken : List (Position × Call), taken.length = 2 ∧
      (∀ position call, (position, call) ∈ taken ↔ root.TakenAt ["tr"] position call) ∧
      (∀ call, ([.arrayElement 0, .callArgument 1], call) ∉ taken) ∧
      (∀ call, ([.arrayElement 1, .conditionalTest], call) ∉ taken) ∧
      (start.scan ["tr"] [] root).value.messages =
        [{ singular := "shown" }, { singular := "outer" }] := by
  intro inner outer shown root start
  obtain ⟨taken, hcalls, -, htaken, hcatalog⟩ := messageCalls_taken ["tr"] [] root
  have hmessages : taken.filterMap (fun x => (x.2.message? []).value) =
      [{ singular := "outer" }, { singular := "shown" }] := by
    have hmap : taken.filterMap (fun x => (x.2.message? []).value) =
        (taken.map Prod.snd).filterMap fun call => (call.message? []).value := by
      rw [List.filterMap_map]
      rfl
    rw [hmap, ← hcalls]
    decide +kernel
  refine ⟨taken, ?_, htaken, fun call hmem => ?_, fun call hmem => ?_, ?_⟩
  · rw [← List.length_map Prod.snd, ← hcalls]
    decide +kernel
  · have houter :=
      ((htaken _ call).mp hmem).outermost [.arrayElement 0] (by simp) (by simp) outer rfl
    exact absurd houter (by decide +kernel)
  · exact absurd (((htaken _ call).mp hmem).unskipped .conditionalTest (by simp)) (by decide)
  · rw [(hcatalog start).2.2, hmessages]
    decide +kernel

end StringHarvest
