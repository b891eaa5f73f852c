import StringHarvest.Proofs.Catalog.History
import StringHarvest.Proofs.Node.MessageCalls

/-!
# No message is lost silently

While the catalog of a source is built, events are noted. This file says that they account for every
message call: a call without a message is reported, and so is every message that another one
replaces.

**Main theorem** (`traceSource_accounts_for_calls`): the run consists of one turn for each message
call (`turnsOfSource`). A turn has exactly one outcome: the event that the call has no arguments,
the event that its text is empty, or one inserted message. And a message that is inserted in some
turn is in the final catalog, unless a later turn inserts a message over it and notes that.

The event of an overwriting insertion is noted only if the plural or the comment changes. That this
is enough rests on two facts that hold all along the run (`Plain`): ids are different from each
other, and the messages of calls carry no translation, so that the id, the plural and the comment
are all there is to a message. `Plain.mem_or_overwrites` is the step, and
`Plain.mem_or_overwritten` the run.
-/

namespace StringHarvest

/-! ### Events and where they come from -/

namespace Event

/-- Events that are noted for a message call, and not by the walk that comes to it. -/
def isOfCall : Event → Bool
  | .visiting _ | .unhandledIdentifier _ => false
  | _ => true

/-- Events that say that a call gives no message. -/
def isDrop : Event → Bool
  | .noArguments _ | .emptySingular _ => true
  | _ => false

/-- The events of texts that cannot be read. -/
def isUnread : Event → Bool
  | .unhandledString _ => true
  | _ => false

/-- Events about values that cannot be read tell of no dropped call. -/
theorem filter_isDrop_of_isUnread {events : List Event} (h : ∀ e ∈ events, e.isUnread) :
    events.filter isDrop = [] := by
  refine List.filter_eq_nil_iff.mpr fun e he => ?_
  have hunread := h e he
  cases e <;> simp_all [isUnread, isDrop]

/-- Events about values that cannot be read belong to a call. -/
theorem isOfCall_of_isUnread {e : Event} (h : e.isUnread) : e.isOfCall := by
  cases e <;> simp_all [isUnread, isOfCall]

end Event

namespace Node

/-- Reading a name notes nothing but names that cannot be read. -/
theorem isOfCall_of_mem_dottedName (node : Node) :
    ∀ e ∈ node.dottedName.events, e.isOfCall = false := by
  fun_induction dottedName node with
  | case1 => simp
  | case2 => simp
  | case3 owner part computed last _ ih =>
      simpa only [Traced.events_bind, Traced.events_pure, List.append_nil] using ih
  | case4 => simp [Traced.noting, Event.isOfCall]
  | case5 => simp [Traced.noting, Event.isOfCall]

/-- Reading a text notes nothing but texts that cannot be read. -/
theorem isUnread_of_mem_constantText (node : Node) :
    ∀ e ∈ node.constantText.events, e.isUnread := by
  fun_induction constantText node with
  | case1 => simp
  | case2 operator left right hplus ihleft ihright =>
      intro e he
      simp only [Traced.events_bind, Traced.events_pure, List.append_nil, List.mem_append] at he
      rcases he with he | he
      · exact ihleft e he
      · exact ihright e he
  | case3 => simp [Traced.noting, Event.isUnread]
  | case4 => simp [Traced.noting, Event.isUnread]

/-- Findings whose events are those of the walk. -/
def Walks (found : List Finding) : Prop := ∀ event, .event event ∈ found → event.isOfCall = false

/-- Where nothing is found, there are only visits. -/
theorem Walks.nil : Walks [] := fun _ h => absurd h List.not_mem_nil

/-- A further visit is a visit. -/
theorem Walks.visit {found : List Finding} (h : Walks found) (kind : String) :
    Walks (visit kind found) := by
  intro event hevent
  rcases List.mem_cons.mp hevent with heq | hevent
  · cases heq
    rfl
  · exact h event hevent

/-- Two walks, one after the other, are a walk. -/
theorem Walks.append {found found' : List Finding} (h : Walks found) (h' : Walks found') :
    Walks (found ++ found') := fun event hevent =>
  (List.mem_append.mp hevent).elim (h event) (h' event)

/-- Before its callee is told to be a message function, a call notes what its name notes. -/
theorem Walks.call {found : List Finding} (callee : Node) (h : Walks found) :
    Walks (Node.visit "CallExpression" (callee.dottedName.events.map .event ++ found)) := by
  refine Walks.visit (Walks.append ?_ h) _
  intro event hevent
  obtain ⟨e, he, heq⟩ := List.mem_map.mp hevent
  cases heq
  exact isOfCall_of_mem_dottedName callee event he

mutual

/-- The walk notes visits and names that cannot be read, and nothing about calls. -/
theorem walks_findings (names : List String) : (node : Node) → Walks (node.findings names)
  | .array elements => (walks_findingsAll names elements).visit _
  | .assignment _ right => (walks_findings names right).visit _
  | .binary _ left right =>
    ((walks_findings names left).append (walks_findings names right)).visit _
  | .call callee arguments location => by
      refine Walks.call callee ?_
      split
      · exact fun event hevent => nomatch List.mem_singleton.mp hevent
      · exact (walks_findings names callee).append (walks_findingsAll names arguments)
  | .conditional _ consequent alternate =>
      ((walks_findings names alternate).append (walks_findings names consequent)).visit _
  | .expressionStatement expression => (walks_findings names expression).visit _
  | .identifier _ => Walks.nil.visit _
  | .ifStatement _ consequent alternate =>
      ((walks_findings names consequent).append (walks_findings? names alternate)).visit _
  | .literal _ => Walks.nil.visit _
  | .logical _ left right =>
    ((walks_findings names left).append (walks_findings names right)).visit _
  | .member owner part _ =>
    ((walks_findings names owner).append (walks_findings names part)).visit _
  | .new _ arguments => (walks_findingsAll names arguments).visit _
  | .object properties => (walks_findingsAll names properties).visit _
  | .property _ value => (walks_findings names value).visit _
  | .sequence expressions => (walks_findingsAll names expressions).visit _
  | .switch _ cases => (walks_findingsAll names cases).visit _
  | .switchCase test consequent =>
      ((walks_findings? names test).append (walks_findingsAll names consequent)).visit _
  | .tryStatement block handler finalizer =>
      (((walks_findings names block).append (walks_findings? names handler)).append
        (walks_findings? names finalizer)).visit _
  | .variableDeclaration declarations => (walks_findingsAll names declarations).visit _
  | .variableDeclarator init => (walks_findings? names init).visit _
  | .other kind argument body =>
      ((walks_findings? names argument).append (walks_findingsBody names body)).visit kind

/-- A walk through nodes notes only visits and unread names outside of the calls. -/
theorem walks_findingsAll (names : List String) :
    (nodes : List Node) → Walks (findingsAll names nodes)
  | [] => Walks.nil
  | node :: rest => (walks_findings names node).append (walks_findingsAll names rest)

/-- So does a walk through a node that may be missing. -/
theorem walks_findings? (names : List String) : (node : Option Node) → Walks (findings? names node)
  | none => Walks.nil
  | some node => walks_findings names node

/-- So does a walk through the body of a node. -/
theorem walks_findingsBody (names : List String) :
    (body : NodeBody) → Walks (findingsBody names body)
  | .absent => Walks.nil
  | .single node => walks_findings names node
  | .sequence nodes => walks_findingsAll names nodes

end

end Node

/-! ### The outcome of a call -/

namespace Options

/-- To read one option is to note unread values only. -/
theorem isUnread_of_mem_addProperty (options : Options) (node : Node) :
    ∀ e ∈ (options.addProperty node).events, e.isUnread := by
  cases node with
  | property key value =>
      have hvalue := value.isUnread_of_mem_constantText
      simpa only [addProperty, Traced.events_bind, Traced.events_pure, List.append_nil] using hvalue
  | _ => simp [addProperty]

/-- So it is to read several options. -/
theorem isUnread_of_mem_addAll (options : Options) (nodes : List Node) :
    ∀ e ∈ (options.addAll nodes).events, e.isUnread := by
  induction nodes generalizing options with
  | nil => simp [addAll]
  | cons node rest ih =>
      intro e he
      rw [addAll, Traced.events_bind, List.mem_append] at he
      exact he.elim (isUnread_of_mem_addProperty options node e) (ih _ e)

/-- So it is to read the options of a node. -/
theorem isUnread_of_mem_ofNode (node : Node) : ∀ e ∈ (ofNode node).events, e.isUnread := by
  cases node with
  | object properties => exact isUnread_of_mem_addAll {} properties
  | _ => simp [ofNode]

end Options

namespace Call

/-- So it is to read the arguments behind the first. -/
theorem isUnread_of_mem_pluralAndOptions (arguments : List Node) :
    ∀ e ∈ (pluralAndOptions arguments).events, e.isUnread := by
  unfold pluralAndOptions
  split
  · simp
  · rename_i second rest
    split
    · simpa using Options.isUnread_of_mem_ofNode second
    · intro e he
      rw [Traced.events_bind, List.mem_append] at he
      rcases he with he | he
      · exact second.isUnread_of_mem_constantText e he
      · split at he
        · simp at he
        · rename_i third _
          rw [Traced.events_bind, Traced.events_pure, List.append_nil] at he
          exact Options.isUnread_of_mem_ofNode third e he

/-- **A call gives a message or says why not**: one event that there are no arguments, one event
that the text is empty, or a message, which has no translation, and none of these events. -/
theorem message?_cases (lines : List String) (call : Call) :
    ((call.message? lines).value = none ∧
        (call.message? lines).events.filter Event.isDrop = [.noArguments call.location]) ∨
      ((call.message? lines).value = none ∧
        (call.message? lines).events.filter Event.isDrop = [.emptySingular call.location]) ∨
      ∃ m, (call.message? lines).value = some m ∧ m.message = "" ∧
        (call.message? lines).events.filter Event.isDrop = [] := by
  unfold message?
  split
  · exact .inl ⟨rfl, rfl⟩
  · rename_i first rest _
    have hfirst := Event.filter_isDrop_of_isUnread first.isUnread_of_mem_constantText
    have hrest := Event.filter_isDrop_of_isUnread (isUnread_of_mem_pluralAndOptions rest)
    simp only [Traced.value_bind, Traced.events_bind, List.filter_append, hfirst, hrest,
      List.nil_append]
    split
    · exact .inr (.inl ⟨rfl, rfl⟩)
    · exact .inr (.inr ⟨_, rfl, rfl, rfl⟩)

/-- Reading a call notes nothing of the walk. -/
theorem isOfCall_of_mem_message? (lines : List String) (call : Call) :
    ∀ e ∈ (call.message? lines).events, e.isOfCall := by
  unfold message?
  split
  · simp [Traced.noting, Event.isOfCall]
  · rename_i first rest _
    intro e he
    simp only [Traced.events_bind, List.mem_append] at he
    rcases he with he | he | he
    · exact Event.isOfCall_of_isUnread (first.isUnread_of_mem_constantText e he)
    · exact Event.isOfCall_of_isUnread (isUnread_of_mem_pluralAndOptions rest e he)
    · split at he
      · obtain rfl := List.mem_singleton.mp he
        rfl
      · exact absurd he List.not_mem_nil

end Call

/-! ### Turns -/

/-- What becomes of a message call: the message that is inserted for it, if there is one, and the
events that are noted meanwhile. -/
structure Turn where
  /-- The call. -/
  call : Call
  /-- The message that is inserted. -/
  inserted? : Option Message
  /-- The events. -/
  events : List Event

namespace Turn

/-- How a turn can end. -/
inductive Outcome where
  | noArguments
  | emptySingular
  | inserted (m : Message)

/-- Whether a turn ends in a way: nothing is inserted and one event tells why, with the place of the
call, or a message is inserted and no event tells otherwise. -/
def Ends (turn : Turn) : Outcome → Prop
  | .noArguments =>
    turn.inserted? = none ∧ turn.events.filter Event.isDrop = [.noArguments turn.call.location]
  | .emptySingular =>
    turn.inserted? = none ∧ turn.events.filter Event.isDrop = [.emptySingular turn.call.location]
  | .inserted m => turn.inserted? = some m ∧ turn.events.filter Event.isDrop = []

/-- Whether a turn inserts a message and notes that it takes the place of a given one. -/
def Overwrites (turn : Turn) (m : Message) : Prop :=
  turn.inserted?.isSome ∧ .overwriting m.singular m.context ∈ turn.events

/-- A turn ends in one way only. -/
theorem Ends.unique {turn : Turn} {a b : Outcome} (ha : turn.Ends a) (hb : turn.Ends b) :
    a = b := by
  cases a <;> cases b <;> simp_all [Ends]

end Turn

namespace Catalog

variable {lines : List String} {catalog : Catalog}

/-- The turn of a call at a catalog. -/
def turn (lines : List String) (catalog : Catalog) (call : Call) : Turn :=
  let read := call.message? lines
  { call, inserted? := read.value,
    events := read.events ++ read.value.elim [] catalog.insertEvents }

/-- The turns of calls from first to last. -/
def turns (lines : List String) (catalog : Catalog) : List Call → List Turn
  | [] => []
  | call :: rest =>
    turn lines catalog call ::
      turns lines (catalog.insertAll (call.message? lines).value.toList) rest

/-- Every call has its turn, in order. -/
theorem map_call_turns (lines : List String) (catalog : Catalog) (calls : List Call) :
    (turns lines catalog calls).map Turn.call = calls := by
  induction calls generalizing catalog with
  | nil => rfl
  | cons call rest ih => rw [turns, List.map_cons, ih]; rfl

/-- The turns insert the messages of their calls. -/
theorem filterMap_inserted?_turns (lines : List String) (catalog : Catalog) (calls : List Call) :
    (turns lines catalog calls).filterMap Turn.inserted? =
      calls.filterMap fun call => (call.message? lines).value := by
  induction calls generalizing catalog with
  | nil => rfl
  | cons call rest ih => rw [turns, List.filterMap_cons, List.filterMap_cons, ih]; rfl

/-- An insertion notes nothing but that it overwrites, and says what. -/
theorem exists_of_mem_insertEvents {inserted? : Option Message} {e : Event}
    (h : e ∈ inserted?.elim [] catalog.insertEvents) :
    ∃ m, inserted? = some m ∧ e = .overwriting m.singular m.context := by
  rcases inserted? with _ | m
  · exact absurd h List.not_mem_nil
  · refine ⟨m, rfl, ?_⟩
    rw [Option.elim_some, insertEvents] at h
    split at h
    · split at h
      · exact List.mem_singleton.mp h
      · exact absurd h List.not_mem_nil
    · exact absurd h List.not_mem_nil

/-- What is noted in a turn belongs to its call. -/
theorem isOfCall_of_mem_turn {call : Call} {e : Event} (h : e ∈ (turn lines catalog call).events) :
    e.isOfCall := by
  rcases List.mem_append.mp h with h | h
  · exact call.isOfCall_of_mem_message? lines e h
  · obtain ⟨m, -, rfl⟩ := exists_of_mem_insertEvents h
    rfl

/-- Whether a call gives a message is told by the events of reading it. -/
theorem filter_isDrop_turn (lines : List String) (catalog : Catalog) (call : Call) :
    (turn lines catalog call).events.filter Event.isDrop =
      (call.message? lines).events.filter Event.isDrop := by
  have hnone : ((call.message? lines).value.elim [] catalog.insertEvents).filter
      Event.isDrop = [] := by
    refine List.filter_eq_nil_iff.mpr fun e he => ?_
    obtain ⟨m, -, rfl⟩ := exists_of_mem_insertEvents he
    exact Bool.false_ne_true
  unfold turn
  rw [List.filter_append, hnone, List.append_nil]

/-- **A turn ends in exactly one way.** -/
theorem existsUnique_ends_turn (lines : List String) (catalog : Catalog) (call : Call) :
    ∃! outcome, (turn lines catalog call).Ends outcome := by
  have hevents := filter_isDrop_turn lines catalog call
  suffices hexists : ∃ outcome, (turn lines catalog call).Ends outcome by
    obtain ⟨outcome, hends⟩ := hexists
    exact ⟨outcome, hends, fun other hother => hother.unique hends⟩
  rcases call.message?_cases lines with ⟨hvalue, hdrop⟩ | ⟨hvalue, hdrop⟩ | ⟨m, hvalue, -, hdrop⟩
  · exact ⟨.noArguments, hvalue, hevents.trans hdrop⟩
  · exact ⟨.emptySingular, hvalue, hevents.trans hdrop⟩
  · exact ⟨.inserted m, hvalue, hevents.trans hdrop⟩

/-- Every turn has exactly one outcome. -/
theorem existsUnique_ends_of_mem_turns {calls : List Call} {t : Turn}
    (h : t ∈ turns lines catalog calls) : ∃! outcome, t.Ends outcome := by
  induction calls generalizing catalog with
  | nil => exact absurd h List.not_mem_nil
  | cons call rest ih =>
      rcases List.mem_cons.mp h with rfl | h
      · exact existsUnique_ends_turn lines catalog call
      · exact ih h

/-- A call is taken into a catalog by its turn. -/
theorem takeCall_eq (lines : List String) (catalog : Catalog) (call : Call) :
    takeCall lines catalog call =
      ⟨catalog.insertAll (call.message? lines).value.toList, (turn lines catalog call).events⟩ := by
  unfold takeCall turn
  dsimp only [bind, Traced.bind]
  rcases (call.message? lines).value with _ | m <;> rfl

/-- **The events of a run** are those of the walk and those of the turns. -/
theorem filter_isOfCall_traceFindings (lines : List String) (catalog : Catalog)
    {findings : List Finding} (h : Node.Walks findings) :
    (traceFindings lines catalog findings).events.filter Event.isOfCall =
      (turns lines catalog (Node.callsOf findings)).flatMap Turn.events := by
  induction findings generalizing catalog with
  | nil => rfl
  | cons finding rest ih =>
      have hrest : Node.Walks rest := fun event hevent => h event (List.mem_cons_of_mem _ hevent)
      rw [traceFindings_cons, Traced.events_bind, List.filter_append]
      cases finding with
      | event event =>
          have hwalk : event.isOfCall = false := h event List.mem_cons_self
          have hnone : (traceFinding lines catalog (.event event)).events.filter Event.isOfCall =
              [] := by
            simp [traceFinding, Traced.noting, hwalk]
          rw [hnone, List.nil_append, ih _ hrest]
          rfl
      | call call =>
          have hcalls : Node.callsOf (.call call :: rest) = call :: Node.callsOf rest := rfl
          rw [ih _ hrest, traceFinding, takeCall_eq, hcalls, turns, List.flatMap_cons]
          exact congrArg (· ++ _) (List.filter_eq_self.mpr fun e => isOfCall_of_mem_turn)

/-! ### Inserted messages -/

/-- A catalog in which ids differ and nothing is translated yet. -/
structure Plain (catalog : Catalog) : Prop where
  nodup : (idsOf catalog.messages).Nodup
  message : ∀ m ∈ catalog.messages, m.message = ""

/-- The empty catalog is plain. -/
theorem plain_empty : empty.Plain := ⟨List.nodup_nil, fun _ h => absurd h List.not_mem_nil⟩

/-- It stays so when a message without a text of its own is inserted. -/
theorem Plain.insert (h : catalog.Plain) {m : Message} (hm : m.message = "") :
    (catalog.insert m).Plain := by
  refine ⟨nodup_put h.nodup, fun x hx => ?_⟩
  rcases (mem_put h.nodup).mp hx with rfl | ⟨hx, -⟩
  · exact hm
  · exact h.message x hx

/-- **One turn**: a listed message stays, or the turn inserts a message over it and notes that. -/
theorem Plain.mem_or_overwrites (h : catalog.Plain) {m : Message} (hm : m ∈ catalog.messages)
    (call : Call) :
    m ∈ (catalog.insertAll (call.message? lines).value.toList).messages ∨
      (turn lines catalog call).Overwrites m := by
  rcases call.message?_cases lines with ⟨hvalue, -⟩ | ⟨hvalue, -⟩ | ⟨new, hvalue, hplain, -⟩
  · rw [hvalue]
    exact .inl hm
  · rw [hvalue]
    exact .inl hm
  rw [hvalue, Option.toList_some, insertAll_cons, insertAll_nil, messages_insert, mem_put h.nodup]
  by_cases hid : m.id = new.id
  · obtain ⟨hcontext, hsingular⟩ : m.context = new.context ∧ m.singular = new.singular := by
      simpa [Message.id] using hid
    have hget : catalog.get? new.context new.singular = some m :=
      (get?_eq_some_iff h.nodup _ _ _).mpr ⟨hm, hcontext, hsingular⟩
    by_cases hsame : m.plural = new.plural ∧ m.comment = new.comment
    · -- id, plural and comment are all there is to a message without a translation
      have heq : m = new := by
        have hmessage := (h.message m hm).trans hplain.symm
        cases m
        cases new
        simp_all
      exact .inl (.inl heq)
    · have hdiffer : (m.plural != new.plural || m.comment != new.comment) = true := by
        simpa [imp_iff_not_or] using hsame
      have hevents : catalog.insertEvents new = [.overwriting new.singular new.context] := by
        unfold insertEvents
        rw [hget]
        exact if_pos hdiffer
      refine .inr ⟨by simp [turn, hvalue], List.mem_append_right _ ?_⟩
      rw [hvalue, Option.elim_some, hevents, hcontext, hsingular]
      exact List.mem_singleton_self _
  · exact .inl (.inr ⟨hm, hid⟩)

/-- A turn leads to a catalog of the same kind. -/
theorem Plain.next (h : catalog.Plain) (call : Call) :
    (catalog.insertAll (call.message? lines).value.toList).Plain := by
  rcases call.message?_cases lines with ⟨hvalue, -⟩ | ⟨hvalue, -⟩ | ⟨new, hvalue, hplain, -⟩
  · rwa [hvalue]
  · rwa [hvalue]
  · rw [hvalue]
    exact h.insert hplain

/-- The catalog after the turns of calls. -/
def afterTurns (lines : List String) (catalog : Catalog) (calls : List Call) : Catalog :=
  catalog.insertAll (calls.filterMap fun call => (call.message? lines).value)

/-- The first turn changes the catalog for the other ones. -/
theorem afterTurns_cons (lines : List String) (catalog : Catalog) (call : Call)
    (rest : List Call) :
    afterTurns lines catalog (call :: rest) =
      afterTurns lines (catalog.insertAll (call.message? lines).value.toList) rest := by
  unfold afterTurns
  rw [List.filterMap_cons]
  rcases (call.message? lines).value with _ | m <;> rfl

/-- **All further turns**: a listed message is there in the end, or a turn overwrites it. -/
theorem Plain.mem_or_overwritten (h : catalog.Plain) {m : Message} (hm : m ∈ catalog.messages)
    (calls : List Call) :
    m ∈ (afterTurns lines catalog calls).messages ∨
      ∃ later ∈ turns lines catalog calls, later.Overwrites m := by
  induction calls generalizing catalog with
  | nil => exact .inl hm
  | cons call rest ih =>
      rw [afterTurns_cons, turns]
      rcases h.mem_or_overwrites hm call with hstays | hover
      · rcases ih (h.next call) hstays with hlast | ⟨later, hlater, hover⟩
        · exact .inl hlast
        · exact .inr ⟨later, List.mem_cons_of_mem _ hlater, hover⟩
      · exact .inr ⟨_, List.mem_cons_self, hover⟩

/-- A message that a turn inserts is there in the end, or a later turn overwrites it. -/
theorem Plain.inserted_mem_or_overwritten (h : catalog.Plain) {calls : List Call}
    {before after : List Turn} {t : Turn} {m : Message}
    (hturns : turns lines catalog calls = before ++ t :: after) (hm : t.inserted? = some m) :
    m ∈ (afterTurns lines catalog calls).messages ∨ ∃ later ∈ after, later.Overwrites m := by
  induction before generalizing catalog calls with
  | nil =>
      cases calls with
      | nil => cases hturns
      | cons call rest =>
          obtain ⟨rfl, rfl⟩ := List.cons.inj hturns
          have hvalue : (call.message? lines).value = some m := hm
          rw [afterTurns_cons]
          refine (h.next call).mem_or_overwritten ?_ rest
          rw [hvalue]
          exact (mem_put h.nodup).mpr (.inl rfl)
  | cons first before ih =>
      cases calls with
      | nil => cases hturns
      | cons call rest =>
          rw [afterTurns_cons]
          exact ih (h.next call) (List.cons.inj hturns).2

/-- The turns of the message calls of a source. -/
def turnsOfSource (names : List String) (source : Source) : List Turn :=
  turns source.lines empty (source.program.messageCalls names)

/-- **No message is lost silently.** A run has one turn for each message call in the order of the
visits; its events, apart from those of the walk, are the events of the turns, and its catalog is
the one of the messages that the turns insert. Every turn ends in exactly one of three ways: one
event that the call has no arguments, one event that its text is empty, or one inserted message. And
an inserted message is in the final catalog, or a later turn inserts another one and notes that it
overwrites a message with this singular and context. -/
theorem traceSource_accounts_for_calls (names : List String) (source : Source) :
    (turnsOfSource names source).map Turn.call = source.program.messageCalls names ∧
      (turnsOfSource names source).flatMap Turn.events =
        (traceSource names source).events.filter Event.isOfCall ∧
      ofList ((turnsOfSource names source).filterMap Turn.inserted?) =
        (traceSource names source).value ∧
      (∀ turn ∈ turnsOfSource names source, ∃! outcome, turn.Ends outcome) ∧
      ∀ before turn after m, turnsOfSource names source = before ++ turn :: after →
        turn.inserted? = some m →
        m ∈ (traceSource names source).value.toList ∨ ∃ later ∈ after, later.Overwrites m := by
  have hscan : traceSource names source =
      traceFindings source.lines empty (source.program.findings names) :=
    scan_eq names source.lines source.program empty
  have hvalue : (traceSource names source).value =
      afterTurns source.lines empty (source.program.messageCalls names) := by
    rw [hscan]
    exact value_traceFindings source.lines empty (source.program.findings names)
  refine ⟨map_call_turns _ _ _, ?_, ?_, fun turn hturn => existsUnique_ends_of_mem_turns hturn, ?_⟩
  · have hwalks := Node.walks_findings names source.program
    rw [hscan]
    exact (filter_isOfCall_traceFindings source.lines empty hwalks).symm
  · rw [hvalue, turnsOfSource, filterMap_inserted?_turns]
    rfl
  · intro before turn after m hturns hm
    rw [hvalue]
    exact plain_empty.inserted_mem_or_overwritten hturns hm

/-- A call without arguments, one with an empty text, and two with one key: the message of the third
is not in the final catalog, and the turn of the fourth tells it. -/
theorem traceSource_accounts_for_calls_overwritten :
    ∃ source, Source.parse "tr(); tr(''); tr('a', 'b'); tr('a')" "" .javascript = .ok source ∧
      (turnsOfSource ["tr"] source).map Turn.inserted? =
        [none, none, some { singular := "a", plural := "b" }, some { singular := "a" }] ∧
      (traceSource ["tr"] source).value.toList = [{ singular := "a" }] ∧
      ∃ last, (turnsOfSource ["tr"] source).getLast? = some last ∧
        last.Overwrites { singular := "a", plural := "b" } := by
  have hrun : (Source.parse "tr(); tr(''); tr('a', 'b'); tr('a')" "" .javascript).toOption.map
      (fun source => ((turnsOfSource ["tr"] source).map Turn.inserted?,
        (traceSource ["tr"] source).value.toList)) =
      some ([none, none, some { singular := "a", plural := "b" }, some { singular := "a" }],
        [{ singular := "a" }]) := by
    decide +kernel
  rcases hparse : Source.parse "tr(); tr(''); tr('a', 'b'); tr('a')" "" .javascript with e | source
  · rw [hparse] at hrun
    cases hrun
  rw [hparse] at hrun
  obtain ⟨hinserted, hmessages⟩ := Prod.mk.inj (Option.some.inj hrun)
  refine ⟨source, rfl, hinserted, hmessages, ?_⟩
  obtain ⟨-, -, -, -, hkept⟩ := traceSource_accounts_for_calls ["tr"] source
  obtain ⟨first, later, hturns, -, hinserted⟩ := List.map_eq_cons_iff.mp hinserted
  obtain ⟨second, later, rfl, -, hinserted⟩ := List.map_eq_cons_iff.mp hinserted
  obtain ⟨third, later, rfl, hthird, hinserted⟩ := List.map_eq_cons_iff.mp hinserted
  obtain ⟨fourth, rfl, -⟩ := List.map_eq_singleton_iff.mp hinserted
  have hgone : { singular := "a", plural := "b" } ∉ (traceSource ["tr"] source).value.toList := by
    rw [hmessages]
    decide
  obtain ⟨last, hlast, hover⟩ :=
    (hkept [first, second] third [fourth] _ hturns hthird).resolve_left hgone
  rw [List.mem_singleton.mp hlast] at hover
  exact ⟨fourth, by rw [hturns]; rfl, hover⟩

end Catalog

end StringHarvest
