import RunQuery.Number.Reading
import RunQuery.Text.Parts

/-!
The arguments of the command line. Words are read from left to right on two levels, the program's and
that of the command. An option stands with its value in one word, `--name=value`, or in two; a
value in a word of its own may not look like an option. A value is checked when the next option is met, so
of two faults the one met first is reported, and those of the command come before a value of the program
that is not checked yet. What is not given is taken from the environment, or else has a default.
-/
namespace RunQuery.CommandLine

inductive ArgumentError where
  | displayHelp
  | displayHelpOnMissingArgumentOrSubcommand
  | missingSubcommand
  | invalidSubcommand
  | unknownArgument
  | invalidValue
  | valueValidation
  | argumentConflict
  | tooManyValues
  | missingRequiredArgument
deriving DecidableEq

namespace ArgumentError

def name : ArgumentError → String
  | .displayHelp => "DisplayHelp"
  | .displayHelpOnMissingArgumentOrSubcommand => "DisplayHelpOnMissingArgumentOrSubcommand"
  | .missingSubcommand => "MissingSubcommand"
  | .invalidSubcommand => "InvalidSubcommand"
  | .unknownArgument => "UnknownArgument"
  | .invalidValue => "InvalidValue"
  | .valueValidation => "ValueValidation"
  | .argumentConflict => "ArgumentConflict"
  | .tooManyValues => "TooManyValues"
  | .missingRequiredArgument => "MissingRequiredArgument"

/-- Asking for help is no failure. -/
def exitStatus : ArgumentError → Nat
  | .displayHelp => 0
  | _ => 2

end ArgumentError

inductive Arity where
  | flag
  | single
  | repeated
deriving DecidableEq

/-- An option, and which values it takes. -/
structure OptionSpec where
  name : String
  arity : Arity
  accepts : List Char → Bool

def flagOption (name : String) : OptionSpec := ⟨name, .flag, fun _ => true⟩
def textOption (name : String) : OptionSpec := ⟨name, .single, fun _ => true⟩
def listOption (name : String) : OptionSpec := ⟨name, .repeated, fun _ => true⟩

def isSmall (text : List Char) : Bool := (Integer.parseWithin? 0 0xffffffff text).isSome
def isUnsigned (text : List Char) : Bool := (Integer.parseUnsigned? text).isSome
def isSigned (text : List Char) : Bool := (Integer.parseSigned? text).isSome

/-- What one level of the command line knows. -/
structure Level where
  options : List OptionSpec
  commands : List String

/-- An option whose value is not checked yet, or not even there. -/
structure Pending where
  option : OptionSpec
  value : Option String

/-- What has been given on a level so far. -/
structure Given where
  values : List (String × String)
  pending : Option Pending

namespace Given

def none : Given := ⟨[], .none⟩

def has (g : Given) (name : String) : Bool := g.values.any fun entry => entry.1 = name

/-- Takes a value for an option; only some options may be given twice. -/
def give (g : Given) (option : OptionSpec) (value : String) : Except ArgumentError Given :=
  if option.arity ≠ .repeated ∧ g.has option.name then .error .argumentConflict
  else if !option.accepts value.toList then .error .valueValidation
  else .ok { g with values := g.values ++ [(option.name, value)] }

/-- Checks the value that has not been checked yet. -/
def resolve (g : Given) : Except ArgumentError Given :=
  match g.pending with
  | .none => .ok g
  | some ⟨_, .none⟩ => .error .invalidValue
  | some ⟨option, some value⟩ => { g with pending := .none }.give option value

/-- The option that waits for its value. -/
def open? (g : Given) : Option OptionSpec :=
  match g.pending with
  | some ⟨option, .none⟩ => some option
  | _ => .none

def all (g : Given) (name : String) : List String :=
  g.values.filterMap fun entry => if entry.1 = name then some entry.2 else .none

def first? (g : Given) (name : String) : Option String := (g.all name).head?

end Given

/-- Name and attached value of a word that starts with two dashes. -/
def longParts (word : List Char) : String × Option String :=
  match Text.cut? ['='] word with
  | some (name, value) => (String.ofList name, some (String.ofList value))
  | none => (String.ofList word, none)

namespace Level

/-- What a word that fits nowhere is taken for. -/
def stray (level : Level) : ArgumentError :=
  if level.commands.isEmpty then .unknownArgument else .invalidSubcommand

/-- The help that a level gives on itself, or on one of its commands. -/
def helpOn (level : Level) : List String → ArgumentError
  | [] => .displayHelp
  | [command] => if command ∈ level.commands then .displayHelp else .invalidSubcommand
  | _ => .invalidSubcommand

/-- An option with two dashes. -/
def readLong (level : Level) (g : Given) (parts : String × Option String) :
    Except ArgumentError Given :=
  if parts.1 = "help" then
    match parts.2 with
    | some _ => .error .tooManyValues
    | none => g.resolve >>= fun _ => .error .displayHelp
  else
    match level.options.find? fun option => option.name = parts.1, parts.2 with
    | none, _ => .error .unknownArgument
    | some option, some value =>
      if option.arity = .flag then .error .tooManyValues
      else g.resolve >>= fun g => g.give option value
    | some option, none =>
      if option.arity = .flag then g.resolve >>= fun g => g.give option "true"
      else g.resolve >>= fun g => .ok { g with pending := some ⟨option, none⟩ }

/-- Reads the words of a level, up to a command with the words after it. -/
def read (level : Level) (g : Given) :
    List String → Except ArgumentError (Given × Option (String × List String))
  | [] => .ok (g, none)
  | word :: rest =>
    if g.open?.isNone && word ∈ level.commands then
      if word = "help" then .error (level.helpOn rest) else .ok (g, some (word, rest))
    else
      match word.toList with
      | ['-', '-'] =>
        match rest with
        | [] => .ok (g, none)
        | next :: _ =>
          if next ∈ level.commands then .error .unknownArgument else .error level.stray
      | '-' :: '-' :: long =>
        match level.readLong g (longParts long) with
        | .error e => .error e
        | .ok g => read level g rest
      | '-' :: 'h' :: _ => g.resolve >>= fun _ => .error .displayHelp
      | '-' :: _ :: _ => .error .unknownArgument
      | _ =>
        match g.open? with
        | some option => read level { g with pending := some ⟨option, some word⟩ } rest
        | none => .error level.stray

end Level

inductive Command where
  | runs (filters sorts : List String) (pageSize pages : Nat)
  | calendar (sources : List String) (start stop : Int) (kinds : List String)
deriving DecidableEq

structure Arguments where
  storeUrl : String
  /-- Milliseconds that one exchange with the store may take. -/
  timeout : Nat
  /-- Milliseconds after which a fetch is cancelled. -/
  deadline : Option Nat
  logJson : Bool
  command : Command
deriving DecidableEq

/-- Variables of the environment. -/
abbrev Environment := String → Option String

def programLevel : Level where
  options :=
    [textOption "store-url", ⟨"timeout-ms", .single, isUnsigned⟩, ⟨"deadline-ms", .single, isUnsigned⟩,
      ⟨"log-json", .flag, fun word => word ∈ ["true".toList, "false".toList]⟩]
  commands := ["runs", "calendar", "help"]

/-- The variable of the environment that stands for an option of the program. -/
def variableOf (option : String) : String :=
  if option = "store-url" then "RUNLENS_STORE_URL"
  else if option = "timeout-ms" then "RUNLENS_TIMEOUT_MS"
  else if option = "deadline-ms" then "RUNLENS_DEADLINE_MS"
  else "RUNLENS_LOG_JSON"

def runsLevel : Level where
  options :=
    [listOption "filter", listOption "sort", ⟨"page-size", .single, isSmall⟩,
      ⟨"pages", .single, isSmall⟩]
  commands := []

def calendarLevel : Level where
  options :=
    [listOption "source", ⟨"start-ms", .single, isSigned⟩, ⟨"end-ms", .single, isSigned⟩,
      listOption "kind"]
  commands := []

/-- The integer of a value that has been checked. -/
def integerOf (value : Option String) (default : Int) : Int :=
  (value.bind fun text => Integer.parse? text.toList).getD default

def natOf (value : Option String) (default : Nat) : Nat := (integerOf value default).toNat

/-- The command that the words after its name describe. -/
def readCommand (name : String) (words : List String) : Except ArgumentError Command :=
  if name = "runs" then do
    let found ← runsLevel.read .none words
    let given ← found.1.resolve
    return .runs (given.all "filter") (given.all "sort") (natOf (given.first? "page-size") 3)
      (natOf (given.first? "pages") 1)
  else do
    let found ← calendarLevel.read .none words
    let given ← found.1.resolve
    if ["source", "start-ms", "end-ms"].all given.has then
      return .calendar (given.all "source") (integerOf (given.first? "start-ms") 0)
        (integerOf (given.first? "end-ms") 0) (given.all "kind")
    else .error .missingRequiredArgument

/-- Takes options that were not given from the environment. -/
def fromEnvironment (environment : Environment) (given : Given) : Except ArgumentError Given :=
  programLevel.options.foldlM
    (fun (given : Given) option =>
      if given.has option.name then .ok given
      else
        match environment (variableOf option.name) with
        | none => .ok given
        | some value => given.give option value)
    given

/-- The arguments that the words after the program's name describe. -/
def readArguments (environment : Environment) (words : List String) :
    Except ArgumentError Arguments := do
  let found ← programLevel.read .none words
  let command ← found.2.mapM fun called => readCommand called.1 called.2
  let given ← found.1.resolve >>= fromEnvironment environment
  match command with
  | none =>
    if given.values.isEmpty then .error .displayHelpOnMissingArgumentOrSubcommand
    else .error .missingSubcommand
  | some command =>
    return {
      storeUrl := (given.first? "store-url").getD "http://127.0.0.1:8080"
      timeout := natOf (given.first? "timeout-ms") 30000
      deadline := (given.first? "deadline-ms").map fun text => natOf (some text) 0
      logJson := given.first? "log-json" = some "true"
      command }

end RunQuery.CommandLine
