import Unjump.Command

/-!
# Command line arguments

The arguments name an action, then give its input file and its options in any order. A word that
starts with a hyphen is an option, unless it is a hyphen alone or follows `--`.

The value of an option or an input is taken up in two steps. It is `pending` when it is read, and
is settled when the next option or input begins, or at the end. An error of the value shows only
then.
-/

namespace Unjump.Arguments

/-- Why arguments give no command. -/
inductive Error where
  /-- The arguments ask for an explanation of what they may be. -/
  | helpAsked
  | noAction
  | unknownAction (word : String)
  | unknownArgument (word : String)
  | missingInput
  /-- An option or an input without a value, or with an empty one. -/
  | emptyValue
  | repeatedOption
  /-- A value for an option that takes none. -/
  | needlessValue
  deriving DecidableEq

/-- The wording of an error. -/
def Error.message : Error → String
  | .helpAsked => "help was asked for"
  | .noAction => "an action is required: blocks, ast or decompile"
  | .unknownAction word => s!"unknown action: {word}"
  | .unknownArgument word => s!"unexpected argument: {word}"
  | .missingInput => "an input file is required"
  | .emptyValue => "a value is required"
  | .repeatedOption => "an option was given twice"
  | .needlessValue => "an option takes no value"

/-- What can be done with a class description. -/
inductive Action where
  | blocks
  | ast
  | decompile
  deriving DecidableEq

/-- The action with a name. -/
def Action.ofName? : String → Option Action
  | "blocks" => some .blocks
  | "ast" => some .ast
  | "decompile" => some .decompile
  | _ => none

/-- The action accepts an output directory. -/
def Action.hasOutput : Action → Bool
  | .decompile => true
  | .blocks | .ast => false

/-- The form of a word. -/
inductive Form where
  /-- The word `--`, after which no word is an option. -/
  | separator
  /-- Two hyphens and a name, maybe with a value after an equals sign. -/
  | long (name : String) (value : Option String)
  /-- A hyphen and letters. -/
  | short (letters : List Char)
  | plain

/-- The form of a word that does not follow `--`. -/
def Form.of (word : String) : Form :=
  match word.toList with
  | ['-', '-'] => .separator
  | '-' :: '-' :: rest =>
    let name := String.ofList (rest.takeWhile (· != '='))
    match rest.dropWhile (· != '=') with
    | [] => .long name none
    | _ :: value => .long name (some (String.ofList value))
  | '-' :: c :: rest => .short (c :: rest)
  | _ => .plain

/-- A value that has been read and not been settled. -/
inductive Pending where
  | nothing
  | input (value : String)
  /-- An output option, whose value may still follow. -/
  | output (value : Option String)

/-- What has been read of the arguments of an action. -/
structure Progress where
  input : Option String
  output : Option String
  pending : Pending

namespace Progress

/-- Nothing has been read. -/
def start : Progress := ⟨none, none, .nothing⟩

/-- The input has been given. -/
def hasInput (p : Progress) : Bool :=
  match p.pending with
  | .input _ => true
  | _ => p.input.isSome

/-- The output option waits for its value. -/
def awaitsValue (p : Progress) : Bool :=
  match p.pending with
  | .output none => true
  | _ => false

/-- Takes up the pending value. -/
def settle (p : Progress) : Except Error Progress :=
  match p.pending with
  | .nothing => .ok p
  | .input value =>
    if value.isEmpty then .error .emptyValue else .ok ⟨some value, p.output, .nothing⟩
  | .output none => .error .emptyValue
  | .output (some value) =>
    if p.output.isSome then .error .repeatedOption
    else if value.isEmpty then .error .emptyValue
    else .ok ⟨p.input, some value, .nothing⟩

/-- Takes up the pending value, then the output option with its value, if it has one already. A
value that belongs to the same word is settled at once. -/
def openOutput (p : Progress) (attached : Option String) : Except Error Progress :=
  match p.settle with
  | .error e => .error e
  | .ok p =>
    let p := { p with pending := .output attached }
    if attached.isSome then p.settle else .ok p

/-- Takes up the pending value, then answers a call for help. -/
def help (p : Progress) : Except Error Progress :=
  match p.settle with
  | .error e => .error e
  | .ok _ => .error .helpAsked

/-- Reads a word as the input. -/
def readInput (p : Progress) (word : String) : Except Error Progress :=
  if p.hasInput then .error (.unknownArgument word)
  else
    match p.settle with
    | .error e => .error e
    | .ok p => .ok { p with pending := .input word }

/-- Reads a long option. -/
def readLong (p : Progress) (action : Action) (word name : String) (value : Option String) :
    Except Error Progress :=
  if name = "help" then if value.isSome then .error .needlessValue else p.help
  else if name = "output" ∧ action.hasOutput then p.openOutput value
  else .error (.unknownArgument word)

/-- Reads short options, of which the first letter decides: `h` asks for help, and what follows
an `o` is its value, with or without an equals sign. -/
def readShort (p : Progress) (action : Action) (word : String) :
    List Char → Except Error Progress
  | 'h' :: _ => p.help
  | 'o' :: rest =>
    if action.hasOutput then
      match rest with
      | [] => p.openOutput none
      | '=' :: value => p.openOutput (some (String.ofList value))
      | value => p.openOutput (some (String.ofList value))
    else .error (.unknownArgument word)
  | _ => .error (.unknownArgument word)

/-- Reads a word that is no option. -/
def readPlain (p : Progress) (word : String) : Except Error Progress :=
  if p.awaitsValue then .ok { p with pending := .output (some word) } else p.readInput word

/-- Reads the words after the action. -/
def read (action : Action) (p : Progress) : List String → Except Error Progress
  | [] => p.settle
  | word :: rest =>
    match Form.of word with
    | .separator => (rest.foldlM readInput p).bind settle
    | .long name value => (p.readLong action word name value).bind (read action · rest)
    | .short letters => (p.readShort action word letters).bind (read action · rest)
    | .plain => (p.readPlain word).bind (read action · rest)

end Progress

/-- The command of an action and its arguments. -/
def Action.read (action : Action) (words : List String) : Except Error Command :=
  match Progress.start.read action words with
  | .error e => .error e
  | .ok p =>
    match p.input with
    | none => .error .missingInput
    | some input =>
      match action with
      | .blocks => .ok (.blocks input)
      | .ast => .ok (.ast input)
      | .decompile => .ok (.decompile input p.output)

/-- The name of an action, or of the explanation of one. -/
def isActionName (word : String) : Bool :=
  (Action.ofName? word).isSome || word == "help"

/-- Answers a call for help on an action. No action has actions of its own. -/
def explain : List String → Error
  | [] => .helpAsked
  | word :: rest =>
    if isActionName word then
      match rest with
      | [] => .helpAsked
      | next :: _ => .unknownAction next
    else .unknownAction word

/-- Reads a word in front of the action that is an option. -/
def leadingOption (word : String) : Form → Error
  | .long "help" none => .helpAsked
  | .long "help" (some _) => .needlessValue
  | .short ('h' :: _) => .helpAsked
  | _ => .unknownArgument word

/-- The command that arguments ask for. -/
def read : List String → Except Error Command
  | [] => .error .noAction
  | word :: rest =>
    match Form.of word with
    | .separator =>
      match rest with
      | [] => .error .noAction
      | next :: _ =>
        .error (if isActionName next then .unknownArgument next else .unknownAction next)
    | .plain =>
      match Action.ofName? word with
      | some action => action.read rest
      | none => .error (if word = "help" then explain rest else .unknownAction word)
    | form => .error (leadingOption word form)

end Unjump.Arguments
