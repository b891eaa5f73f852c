import StringHarvest.Node.Dump

/-!
# Traces

What is worth noting while messages are collected: the nodes that are visited, the values
that cannot be read, the calls that give no message, and the messages that replace
another one. A computation that notes such events is a `Traced` value: its result
together with its events in order.
-/

namespace StringHarvest

/-- Something worth noting. -/
inductive Event where
  /-- A node of the given kind is visited. -/
  | visiting (kind : String)
  /-- A node stands where a name is wanted. -/
  | unhandledIdentifier (node : Node)
  /-- A node stands where a constant text is wanted. -/
  | unhandledString (node : Node)
  /-- A message call has no arguments. -/
  | noArguments (location : Option Location)
  /-- The text of a message call is empty. -/
  | emptySingular (location : Option Location)
  /-- A message replaces another one that differs in its plural or comment. -/
  | overwriting (singular context : String)

namespace Event

/-- How much detail an event is. -/
inductive Level where
  | debug
  | trace
  deriving DecidableEq, Repr

/-- The name of a level. -/
def Level.name : Level → String
  | .debug => "debug"
  | .trace => "trace"

/-- Visits are the finest detail. -/
def level : Event → Level
  | .visiting _ => .trace
  | _ => .debug

/-- The wording of an event, without the node that it may show. -/
def text : Event → String
  | .visiting _ => "Scanning node"
  | .unhandledIdentifier _ => "Found unhandled identifier"
  | .unhandledString _ => "Found unhandled string"
  | .noArguments _ => "No arguments to translation method"
  | .emptySingular _ => "Dropping translation call with empty singular"
  | .overwriting .. => "Overwriting message with different plural or comment"

/-- The node that an event shows behind its wording. -/
def node? : Event → Option Node
  | .unhandledIdentifier node | .unhandledString node => some node
  | _ => none

/-- The whole message of an event. -/
def message (event : Event) : String :=
  match event.node? with
  | some node => event.text ++ ": " ++ node.dump
  | none => event.text

/-- The details of an event by name. -/
def fields : Event → List (String × String)
  | .visiting kind => [("kind", kind)]
  | .unhandledIdentifier node => [("kind", node.kindName)]
  | .unhandledString node => [("kind", node.kindName)]
  | .noArguments location => [("loc", Location.dump? location)]
  | .emptySingular location => [("loc", Location.dump? location)]
  | .overwriting singular context => [("singular", singular), ("context", context)]

end Event

/-- A result and the events noted on the way to it. -/
structure Traced (α : Type) where
  /-- The result. -/
  value : α
  /-- The events in order. -/
  events : List Event

namespace Traced

variable {α β : Type}

/-- A result without events. -/
protected def pure (value : α) : Traced α := ⟨value, []⟩

/-- One computation after the other. -/
protected def bind (x : Traced α) (f : α → Traced β) : Traced β :=
  let y := f x.value
  ⟨y.value, x.events ++ y.events⟩

instance : Monad Traced where
  pure := Traced.pure
  bind := Traced.bind

/-- A result that is noted with one event. -/
def noting (event : Event) (value : α) : Traced α := ⟨value, [event]⟩

/-- A value is its own result. -/
@[simp] theorem value_pure (value : α) : (pure value : Traced α).value = value := rfl

/-- It notes nothing. -/
@[simp] theorem events_pure (value : α) : (pure value : Traced α).events = [] := rfl

/-- The result is that of the second computation. -/
@[simp] theorem value_bind (x : Traced α) (f : α → Traced β) :
    (x >>= f).value = (f x.value).value := rfl

/-- The events of the first computation come first. -/
@[simp] theorem events_bind (x : Traced α) (f : α → Traced β) :
    (x >>= f).events = x.events ++ (f x.value).events := rfl

/-- The events of computations one behind the other do not depend on how these are put together. -/
instance : LawfulMonad Traced := by
  refine LawfulMonad.mk' Traced (fun x => ?_) (fun _ _ => rfl) (fun x f g => ?_)
  · change Traced.mk x.value (x.events ++ []) = x
    rw [List.append_nil]
  · change Traced.mk _ ((x.events ++ (f x.value).events) ++ _) = Traced.mk _ _
    rw [List.append_assoc]
    rfl

/-- What is done with a result gives the new one. -/
@[simp] theorem value_map (f : α → β) (x : Traced α) : (f <$> x).value = f x.value := rfl

/-- What is done with a result is not noted. -/
@[simp] theorem events_map (f : α → β) (x : Traced α) : (f <$> x).events = x.events := by
  change x.events ++ [] = x.events
  rw [List.append_nil]

end Traced

end StringHarvest
