import StringHarvest.Message.OfCall
import StringHarvest.Proofs.Message.OptionTexts

/-!
# The message of a call

A message call is read from its arguments, from the lines above it and from nothing else. This file
says what is read (`Call.Spells`, `Call.messageOf`) and what is not.

**Main theorem** (`message?_reads_call`): a call has a message exactly if there is a first
argument and its text is not empty. The message is then the one that the arguments spell. The
second argument is read as options if it is an object literal and as the plural otherwise; only
behind a plural is there a third argument to be read. What follows has no influence, neither on
the message nor on what is noted.
-/

namespace StringHarvest.Call

open Node Options

/-- What arguments spell: the singular, the plural, and the members among which options are found.
What is `ignored` is part of no other place. -/
inductive Spells : List Node → (singular plural : String) → (members : List Node) → Prop
  | alone (first : Node) : Spells [first] first.constantText.value "" []
  | withOptions (first : Node) (members ignored : List Node) :
      Spells (first :: .object members :: ignored) first.constantText.value "" members
  | withPlural (first second : Node) (h : second.isObject = false) :
      Spells [first, second] first.constantText.value second.constantText.value []
  | withThird (first second third : Node) (ignored : List Node) (h : second.isObject = false) :
      Spells (first :: second :: third :: ignored) first.constantText.value
        second.constantText.value third.members

/-- The comment above a call, which only a call with a location has. -/
def leading? (lines : List String) (call : Call) : Option String :=
  call.location.bind fun location => commentAbove? lines location.line

/-- The message of a call whose arguments spell the given parts. Its comment consists of those
comments that there are, the one above the call first. -/
def messageOf (lines : List String) (call : Call) (singular plural : String) (members : List Node) :
    Message where
  singular := singular
  plural := plural
  context := (lastText? members "context").getD ""
  comment := "\n".intercalate ((call.leading? lines).toList ++ (lastText? members "comment").toList)
  message := ""

/-- **What follows the first argument** is taken as it is spelled. -/
theorem exists_spells (first : Node) (rest : List Node) :
    ∃ plural members, Spells (first :: rest) first.constantText.value plural members ∧
      (pluralAndOptions rest).value.1 = plural ∧
      ∀ name, (pluralAndOptions rest).value.2.get? name = lastText? members name := by
  rcases rest with _ | ⟨second, rest⟩
  · exact ⟨"", [], .alone first, rfl, fun _ => rfl⟩
  · by_cases hobject : second.isObject = true
    · obtain ⟨members, rfl⟩ : ∃ members, second = .object members := ⟨_, eq_object_members hobject⟩
      exact ⟨"", members, .withOptions first members rest, rfl, get?_ofNode (.object members)⟩
    · have hplural : second.isObject = false := by simpa using hobject
      rcases rest with _ | ⟨third, ignored⟩
      · refine ⟨_, [], .withPlural first second hplural, ?_, ?_⟩ <;>
          simp [pluralAndOptions, hplural, Options.get?]
      · refine ⟨_, third.members, .withThird first second third ignored hplural, ?_, ?_⟩
        · simp [pluralAndOptions, hplural]
        · intro name
          simpa [pluralAndOptions, hplural] using get?_ofNode third name

/-- Arguments spell one thing only. -/
theorem Spells.unique {arguments : List Node} {singular plural singular' plural' : String}
    {members members' : List Node} (h : Spells arguments singular plural members)
    (h' : Spells arguments singular' plural' members') :
    singular = singular' ∧ plural = plural' ∧ members = members' := by
  cases h <;> cases h' <;> simp_all [isObject]

/-- Two comments are joined by a line feed if there are both. -/
theorem joinComments_eq {own : Option String} (h : own ≠ some "") (leading : Option String) :
    joinComments leading (own.getD "") = "\n".intercalate (leading.toList ++ own.toList) := by
  rcases leading with _ | leading <;> rcases own with _ | own
  · rfl
  · simp [joinComments]
  · simp [joinComments]
  · have hown : own ≠ "" := fun heq => h (by rw [heq])
    simp [joinComments, hown, String.append_assoc]

/-- The message of a call with a first argument, as it is computed. -/
theorem value_message?_cons {lines : List String} {call : Call} {first : Node} {rest : List Node}
    (h : call.arguments = first :: rest) :
    (call.message? lines).value =
      if first.constantText.value = "" then none
      else some
        { singular := first.constantText.value
          plural := (pluralAndOptions rest).value.1
          context := (pluralAndOptions rest).value.2.context
          comment := joinComments (call.leading? lines)
            (pluralAndOptions rest).value.2.comment } := by
  simp only [message?, h, Traced.value_bind, leading?]
  by_cases hempty : first.constantText.value = ""
  · simp [hempty, Traced.noting]
  · simp [hempty]

/-- **A message is what the arguments spell**, if they spell a singular. -/
theorem value_message?_eq_some_iff {lines : List String} {call : Call} {m : Message} :
    (call.message? lines).value = some m ↔
      ∃ singular plural members, Spells call.arguments singular plural members ∧ singular ≠ "" ∧
        m = call.messageOf lines singular plural members := by
  rcases harguments : call.arguments with _ | ⟨first, rest⟩
  · have hvalue : (call.message? lines).value = none := by
      rw [message?, harguments]
      rfl
    rw [hvalue]
    refine ⟨nofun, ?_⟩
    rintro ⟨singular, plural, members, hspells, -⟩
    cases hspells
  · obtain ⟨plural, members, hspells, hplural, hoptions⟩ := exists_spells first rest
    have hcontext : (pluralAndOptions rest).value.2.context =
        (lastText? members "context").getD "" := by
      rw [Options.context, hoptions]
    have hcomment : (pluralAndOptions rest).value.2.comment =
        (lastText? members "comment").getD "" := by
      rw [Options.comment, hoptions]
    rw [value_message?_cons harguments, hplural, hcontext, hcomment,
      joinComments_eq (lastText?_ne_empty members "comment")]
    constructor
    · intro h
      by_cases hempty : first.constantText.value = ""
      · rw [if_pos hempty] at h
        cases h
      · rw [if_neg hempty] at h
        exact ⟨_, plural, members, hspells, hempty, (Option.some.inj h).symm⟩
    · rintro ⟨singular, plural', members', hspells', hsingular, rfl⟩
      obtain ⟨rfl, rfl, rfl⟩ := hspells.unique hspells'
      rw [if_neg hsingular]
      rfl

/-- A call gives a message if its first argument is a text that is not empty. -/
theorem isSome_message?_iff {lines : List String} {call : Call} :
    (call.message? lines).value.isSome ↔
      ∃ first rest, call.arguments = first :: rest ∧ first.constantText.value ≠ "" := by
  constructor
  · intro h
    obtain ⟨m, hm⟩ := Option.isSome_iff_exists.mp h
    obtain ⟨singular, plural, members, hspells, hsingular, -⟩ := value_message?_eq_some_iff.mp hm
    generalize call.arguments = arguments at hspells
    cases hspells <;> exact ⟨_, _, rfl, hsingular⟩
  · rintro ⟨first, rest, harguments, hfirst⟩
    rw [value_message?_cons harguments, if_neg hfirst]
    rfl

/-- Behind the arguments that are read there is nothing to be read. -/
theorem message?_congr {lines : List String} {call : Call} {first : Node} {rest rest' : List Node}
    (h : call.arguments = first :: rest) (hrest : pluralAndOptions rest = pluralAndOptions rest') :
    message? lines { call with arguments := first :: rest' } = call.message? lines := by
  rw [message?, message?, h]
  simp only [hrest]

/-- **Reading a call.** A call has a message exactly if it has a first argument whose text is not
empty, and the message is the one that its arguments spell. What stands behind an object literal in
the second place, or behind the third argument, has no influence at all. -/
theorem message?_reads_call (lines : List String) (call : Call) :
    ((call.message? lines).value.isSome ↔
      ∃ first rest, call.arguments = first :: rest ∧ first.constantText.value ≠ "") ∧
    (∀ m, (call.message? lines).value = some m ↔
      ∃ singular plural members, Spells call.arguments singular plural members ∧ singular ≠ "" ∧
        m = call.messageOf lines singular plural members) ∧
    (∀ first members rest rest', call.arguments = first :: .object members :: rest →
      message? lines { call with arguments := first :: .object members :: rest' } =
        call.message? lines) ∧
    (∀ first second third rest rest', call.arguments = first :: second :: third :: rest →
      message? lines { call with arguments := first :: second :: third :: rest' } =
        call.message? lines) := by
  refine ⟨isSome_message?_iff, fun m => value_message?_eq_some_iff, ?_, ?_⟩
  · intro first members rest rest' h
    exact message?_congr h rfl
  · intro first second third rest rest' h
    refine message?_congr h ?_
    by_cases hobject : second.isObject = true <;> simp [pluralAndOptions, hobject]

/-- A call with all parts, `tr("a", "b", {comment: "c"}, x)` below the line `/// top`, and what its
last argument leaves as it is. -/
theorem message?_reads_call_allParts :
    let options : Node := .object [.property (.identifier "comment") (string "c")]
    let call : Call := ⟨[string "a", string "b", options, .identifier "x"], some ⟨2, 1⟩⟩
    (call.message? ["/// top"]).value =
        some { singular := "a", plural := "b", comment := "top\nc" } ∧
      message? ["/// top"] { call with arguments := [string "a", string "b", options] } =
        call.message? ["/// top"] := by
  intro options call
  obtain ⟨-, hmessage, -, hignored⟩ := message?_reads_call ["/// top"] call
  refine ⟨(hmessage _).mpr ⟨"a", "b", options.members, ?_, by decide, by decide +kernel⟩, ?_⟩
  · exact .withThird (string "a") (string "b") options [.identifier "x"] rfl
  · exact hignored _ _ _ _ [] rfl

end StringHarvest.Call
