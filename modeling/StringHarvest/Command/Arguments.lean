import StringHarvest.Command.Help
import StringHarvest.Source.Language

/-!
# Command lines

The words after the name of the program, read from the left to the right. A word is an option in its
long or short form, the mark `--` after which nothing is an option any more, or a plain word. The
value of an option stands in the same word or is the next plain word. In the second case the value
is judged only when the next option or plain word comes, or at the end: until then an option that
does not exist is the graver mistake.
-/

namespace StringHarvest.Command

/-- What can be wrong with a command line. -/
inductive UsageError where
  /-- An option or a word that the command does not take. -/
  | unknownArgument
  /-- A command that does not exist. -/
  | unknownCommand
  /-- An option without its value, or with a value that it does not take. -/
  | invalidValue
  /-- An option that is given twice although it has one value. -/
  | repeated
  /-- A value for an option that takes none. -/
  | needlessValue
  deriving DecidableEq, Repr

/-- Why the reading of a command line ends without a command. -/
inductive Stop where
  | help (page : HelpPage)
  | version
  | usage (error : UsageError)
  deriving DecidableEq, Repr

/-- What the extraction is asked to do. -/
structure ExtractRequest where
  /-- The directory where the search for settings and all sources start. -/
  root : String := "."
  /-- Whether the report tells more. -/
  verbose : Bool := false
  /-- Function names in place of those of the settings. -/
  functionNames : List String := []
  /-- The template in place of that of the settings. -/
  template? : Option String := none
  /-- The language of the sources. -/
  language : Language := .javascript
  /-- Sources in place of those of the settings. -/
  sources : List String := []
  deriving DecidableEq, Repr

/-- A command with its arguments. -/
inductive Invocation where
  /-- No command at all. -/
  | overview
  | extract (request : ExtractRequest)
  | init
  deriving DecidableEq, Repr

/-! ## Words -/

/-- A word by its form. -/
inductive Word where
  /-- The mark after which nothing is an option. -/
  | mark
  /-- An option by name, perhaps with a value after an equals sign. -/
  | long (name : String) (value? : Option String)
  /-- Options by letter; the value of the last one may follow. -/
  | short (letters : List Char)
  | plain (text : String)

/-- The form of a word. A lone hyphen is a plain word. -/
def Word.ofText (text : String) : Word :=
  match text.toList with
  | ['-', '-'] => .mark
  | '-' :: '-' :: rest =>
    match rest.span (· != '=') with
    | (name, []) => .long (String.ofList name) none
    | (name, _ :: value) => .long (String.ofList name) (some (String.ofList value))
  | '-' :: c :: rest => .short (c :: rest)
  | _ => .plain text

/-! ## The options of the extraction -/

/-- Options that take no value. -/
inductive Switch where
  | help
  | verbose
  deriving DecidableEq, Repr

/-- Options that take a value. -/
inductive Setting where
  | root
  | functionName
  | template
  | language
  deriving DecidableEq, Repr

/-- Some option. -/
inductive CommandOption where
  | switch (switch : Switch)
  | setting (setting : Setting)
  deriving DecidableEq, Repr

/-- The option with a name. -/
def CommandOption.ofName? : String → Option CommandOption
  | "help" => some (.switch .help)
  | "verbose" => some (.switch .verbose)
  | "source-root" => some (.setting .root)
  | "function-name" => some (.setting .functionName)
  | "pot-file" => some (.setting .template)
  | "extractor" => some (.setting .language)
  | _ => none

/-- The option with a letter. -/
def CommandOption.ofLetter? : Char → Option CommandOption
  | 'h' => some (.switch .help)
  | 'v' => some (.switch .verbose)
  | 'f' => some (.setting .functionName)
  | _ => none

/-- How far the arguments of an extraction have been read. -/
structure Reading where
  /-- What is asked for so far. -/
  request : ExtractRequest := {}
  /-- The options that cannot be given once more. -/
  given : List CommandOption := []
  /-- An option that waits for its value or, with it, for being judged. -/
  pending : Option (Setting × Option String) := none
  /-- Whether the mark has been read. -/
  marked : Bool := false

namespace Reading

/-- Notes that an option is given, once. -/
def giveOnce (r : Reading) (option : CommandOption) : Except Stop Reading :=
  if r.given.contains option then .error (.usage .repeated)
  else .ok { r with given := option :: r.given }

/-- Gives a setting its value. -/
def assign (r : Reading) : Setting → String → Except Stop Reading
  | .functionName, value =>
    .ok { r with request := { r.request with functionNames := r.request.functionNames ++ [value] } }
  | .root, value => do
    let r ← r.giveOnce (.setting .root)
    if value == "" then .error (.usage .invalidValue)
    else return { r with request := { r.request with root := value } }
  | .template, value => do
    let r ← r.giveOnce (.setting .template)
    if value == "" then .error (.usage .invalidValue)
    else return { r with request := { r.request with template? := some value } }
  | .language, value => do
    let r ← r.giveOnce (.setting .language)
    match Language.ofName? value with
    | some language => return { r with request := { r.request with language := language } }
    | none => .error (.usage .invalidValue)

/-- Judges the option that waits for it. -/
def settle (r : Reading) : Except Stop Reading :=
  match r.pending with
  | none => .ok r
  | some (_, none) => .error (.usage .invalidValue)
  | some (setting, some value) => { r with pending := none }.assign setting value

/-- Turns a switch on. -/
def turnOn (r : Reading) (switch : Switch) : Except Stop Reading := do
  let r ← r.settle
  match switch with
  | .help => .error (.help .extract)
  | .verbose =>
    let r ← r.giveOnce (.switch .verbose)
    return { r with request := { r.request with verbose := true } }

/-- Gives a setting a value that stands in the same word, or lets it wait for the next one. -/
def set (r : Reading) (setting : Setting) (value? : Option String) : Except Stop Reading := do
  let r ← r.settle
  match value? with
  | some value => r.assign setting value
  | none => return { r with pending := some (setting, none) }

/-- Reads an option in its long form. -/
def long (r : Reading) (name : String) (value? : Option String) : Except Stop Reading :=
  match CommandOption.ofName? name, value? with
  | none, _ => .error (.usage .unknownArgument)
  | some (.switch _), some _ => .error (.usage .needlessValue)
  | some (.switch switch), none => r.turnOn switch
  | some (.setting setting), value? => r.set setting value?

/-- The value that follows a letter in the same word; an equals sign may stand between them. -/
def valueAfterLetter? : List Char → Option String
  | [] => none
  | '=' :: rest => some (String.ofList rest)
  | rest => some (String.ofList rest)

/-- Reads options in their short form. -/
def short (r : Reading) : List Char → Except Stop Reading
  | [] => .ok r
  | c :: rest =>
    match CommandOption.ofLetter? c with
    | none => .error (.usage .unknownArgument)
    | some (.switch switch) => do (← r.turnOn switch).short rest
    | some (.setting setting) => r.set setting (valueAfterLetter? rest)

/-- Reads a source. -/
def source (r : Reading) (text : String) : Except Stop Reading := do
  let r ← r.settle
  return { r with request := { r.request with sources := r.request.sources ++ [text] } }

/-- Reads a plain word: the value of an option that waits for one, or a source. -/
def plain (r : Reading) (text : String) : Except Stop Reading :=
  match r.pending with
  | some (setting, none) => .ok { r with pending := some (setting, some text) }
  | _ => r.source text

/-- Reads one word. -/
def read (r : Reading) (text : String) : Except Stop Reading :=
  if r.marked then r.source text
  else
    match Word.ofText text with
    | .mark => .ok { r with marked := true }
    | .long name value? => r.long name value?
    | .short letters => r.short letters
    | .plain text => r.plain text

end Reading

/-- Reads the arguments of the extraction. -/
def ExtractRequest.ofWords (words : List String) : Except Stop ExtractRequest := do
  let r ← words.foldlM Reading.read {}
  return (← r.settle).request

/-! ## The other commands -/

/-- Reads the arguments of a command that takes none but the question for help. -/
def readNothing (page : HelpPage) : List String → Except Stop Unit
  | [] => .ok ()
  | text :: rest =>
    match Word.ofText text with
    | .mark => if rest.isEmpty then .ok () else .error (.usage .unknownArgument)
    | .long "help" none => .error (.help page)
    | .long "help" (some _) => .error (.usage .needlessValue)
    | .short ('h' :: _) => .error (.help page)
    | _ => .error (.usage .unknownArgument)

/-- The help that is asked for by the name of a command. -/
def helpFor : List String → Stop
  | [] => .help .overview
  | [name] => ((HelpPage.ofCommand? name).map Stop.help).getD (.usage .unknownCommand)
  | _ => .usage .unknownCommand

/-- Reads a command line. -/
def Invocation.ofWords : List String → Except Stop Invocation
  | [] => .ok .overview
  | text :: rest =>
    match Word.ofText text with
    | .mark => if rest.isEmpty then .ok .overview else .error (.usage .unknownArgument)
    | .long "help" none => .error (.help .overview)
    | .long "version" none => .error .version
    | .long "help" (some _) => .error (.usage .needlessValue)
    | .long "version" (some _) => .error (.usage .needlessValue)
    | .long _ _ => .error (.usage .unknownArgument)
    | .short ('h' :: _) => .error (.help .overview)
    | .short ('V' :: _) => .error .version
    | .short _ => .error (.usage .unknownArgument)
    | .plain "extract" => do return .extract (← ExtractRequest.ofWords rest)
    | .plain "init" => do
      readNothing .init rest
      return .init
    | .plain "help" => .error (helpFor rest)
    | .plain _ => .error (.usage .unknownCommand)

end StringHarvest.Command
