import InternalCall.Text.Numeral

/-!
# The command line of the inspector

The inspector is called with a command, its values and options. Options may be
given before or after the values, in a long form or by a letter, and each at most
once at its level; the choice of color may stand before the command too, where
the one after it wins. After a double dash everything is a value. A command line
that breaks a rule is not understood, and nothing is done.
-/

namespace InternalCall.Inspector

/-- An argument, as it reads on its own. -/
inductive Argument where
  /-- Everything that follows is a value. -/
  | dashes
  /-- An option by its name, possibly with its value attached. -/
  | long (name : String) (value? : Option String)
  /-- An option by its letter, possibly with more attached. -/
  | short (letter : Char) (attached : List Char)
  /-- A value or the name of a command. -/
  | plain (text : String)
deriving DecidableEq, Repr

namespace Argument

/-- The name of an option and the value that an equals sign attaches to it. -/
def ofLong (body : List Char) : Argument :=
  let name := String.ofList (body.takeWhile (· != '='))
  match body.dropWhile (· != '=') with
  | [] => long name none
  | _ :: value => long name (some (String.ofList value))

/-- How the argument reads. A single dash is a value. -/
def ofText (text : String) : Argument :=
  match text.toList with
  | ['-', '-'] => dashes
  | '-' :: '-' :: body => ofLong body
  | '-' :: letter :: attached => short letter attached
  | _ => plain text

/-- The value that is attached to a letter. An equals sign before it is left out. -/
def attachedValue? : List Char → Option String
  | [] => none
  | '=' :: value => some (String.ofList value)
  | value => some (String.ofList value)

end Argument

/-- The options. -/
inductive OptionName where
  /-- When to write in color. -/
  | color
  /-- A settings file to be checked as well. -/
  | config
  /-- The assembly whose table is searched. -/
  | assembly
deriving DecidableEq, Repr, Inhabited

namespace OptionName

/-- The option with the long name. -/
def ofLong? (name : String) : Option OptionName :=
  if name = "color" then some color
  else if name = "config" then some config
  else if name = "assembly" then some assembly
  else none

/-- The option with the letter. -/
def ofLetter? (letter : Char) : Option OptionName :=
  if letter = 'c' then some config else if letter = 'a' then some assembly else none

end OptionName

/-- The commands. -/
inductive CommandName where
  /-- Validates every table of a header. -/
  | check
  /-- Finds the entry of a token. -/
  | lookup
  /-- Counts the entries of every table. -/
  | stats
  /-- Shows the version and the environment. -/
  | info
deriving DecidableEq, Repr, Inhabited

namespace CommandName

/-- The command with the name. -/
def ofText? (text : String) : Option CommandName :=
  if text = "check" then some check
  else if text = "lookup" then some lookup
  else if text = "stats" then some stats
  else if text = "info" then some info
  else none

/-- Whether the command takes the option. Every command takes the choice of color. -/
def takes : CommandName → OptionName → Bool
  | _, .color => true
  | check, .config => true
  | lookup, .assembly => true
  | _, _ => false

end CommandName

/-- The values and options of a level of the command line. -/
structure Given where
  /-- The values, in their order. -/
  values : List String := []
  /-- The options with their values. -/
  options : List (OptionName × String) := []
deriving DecidableEq, Repr, Inhabited

namespace Given

/-- The value that was given for the option. -/
def option? (g : Given) (o : OptionName) : Option String := g.options.lookup o

/-- Adds values. -/
def addValues (g : Given) (values : List String) : Given := { g with values := g.values ++ values }

/-- Adds an option, which must be one that is taken and not have been given before. -/
def addOption? (takes : OptionName → Bool) (g : Given) (o? : Option OptionName) (value : String) :
    Option Given := do
  let o ← o?
  guard (takes o && (g.option? o).isNone)
  return { g with options := g.options ++ [(o, value)] }

/-- The value of an option that takes the next argument. Only a plain argument is one. -/
def nextValue? (text : String) : Option String :=
  match Argument.ofText text with
  | .plain value => some value
  | _ => none

/-- Adds the arguments that follow the name of a command. -/
def collect? (takes : OptionName → Bool) (g : Given) : List String → Option Given
  | [] => some g
  | text :: rest =>
    match Argument.ofText text with
    | .dashes => some (g.addValues rest)
    | .plain value => collect? takes (g.addValues [value]) rest
    | .long name (some value) => do
      collect? takes (← addOption? takes g (OptionName.ofLong? name) value) rest
    | .long name none => following (OptionName.ofLong? name) rest
    | .short letter attached =>
      match Argument.attachedValue? attached with
      | some value => do
        collect? takes (← addOption? takes g (OptionName.ofLetter? letter) value) rest
      | none => following (OptionName.ofLetter? letter) rest
where
  /-- Goes on after an option whose value is the next argument. -/
  following (o? : Option OptionName) : List String → Option Given
    | [] => none
    | text :: rest => do
      collect? takes (← addOption? takes g o? (← nextValue? text)) rest

end Given

/-- A command with everything that it needs. -/
inductive Command where
  /-- Validates every table of the header, and the settings file if there is one. -/
  | check (header : String) (config? : Option String)
  /-- Finds the entry that has the token in the table of the assembly. -/
  | lookup (header : String) (token : UInt32) (assembly : String)
  /-- Counts the entries of every table of the header. -/
  | stats (header : String)
  /-- Shows the version and the environment. -/
  | info
deriving DecidableEq, Repr, Inhabited

namespace Command

/-- The path of a file, which must not be empty. -/
def path? (text : String) : Option String := if text.isEmpty then none else some text

/-- The token that a value denotes: decimal digits, possibly after a sign. -/
def token? (text : String) : Option UInt32 :=
  match text.toList with
  | '+' :: digits => Text.uint32? digits
  | '-' :: digits => (Text.uint32? digits).filter (· == 0)
  | digits => Text.uint32? digits

/-- The assembly whose table is searched unless another one is named. -/
def defaultAssembly : String := "corlib"

/-- The command with the values and options. -/
def ofGiven? (name : CommandName) (g : Given) : Option Command :=
  match name, g.values with
  | .check, [header] => do
    let config? ← (g.option? .config).mapM path?
    return check (← path? header) config?
  | .lookup, [header, token] => do
    return lookup (← path? header) (← token? token)
      ((g.option? .assembly).getD defaultAssembly)
  | .stats, [header] => do return stats (← path? header)
  | .info, [] => some info
  | _, _ => none

end Command

/-- What the inspector is asked to do. -/
inductive Request where
  /-- To show its version. -/
  | version
  /-- To run a command and to report in the color that was chosen. -/
  | run (color? : Option String) (command : Command)
deriving DecidableEq, Repr, Inhabited

namespace Request

/-- The request of a command with its arguments, after a choice of color. -/
def ofCommand? (color? : Option String) (name : CommandName) (args : List String) :
    Option Request := do
  let g ← Given.collect? name.takes {} args
  let command ← Command.ofGiven? name g
  return run ((g.option? .color).or color?) command

/-- The request that the arguments make, after a choice of color. -/
def ofArgs? (color? : Option String) : List String → Option Request
  | [] => none
  | text :: rest =>
    match Argument.ofText text with
    | .plain name => do ofCommand? color? (← CommandName.ofText? name) rest
    | .long "version" none => some version
    | .short 'V' _ => some version
    | .long "color" (some value) => if color?.isNone then ofArgs? (some value) rest else none
    | .long "color" none =>
      match rest with
      | [] => none
      | value :: rest => do
        let value ← Given.nextValue? value
        if color?.isNone then ofArgs? (some value) rest else none
    | _ => none

end Request

end InternalCall.Inspector
