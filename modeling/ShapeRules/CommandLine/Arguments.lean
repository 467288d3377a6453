/-!
The arguments of the command line and the request that they spell.
-/

namespace ShapeRules.CommandLine

/-- How results are written. -/
inductive OutputFormat where
  | text
  | json
  deriving DecidableEq, Repr

def OutputFormat.ofName? : String → Option OutputFormat
  | "text" => some .text
  | "json" => some .json
  | _ => none

inductive Command where
  /-- Run the configured validators over a model. -/
  | validate (model : String) (configuration : Option String)
  | render (model shape template : String)
  | evaluate (model shape path : String)
  deriving DecidableEq, Repr

/-- The name of a command. -/
inductive CommandName where
  | validate
  | render
  | path
  deriving DecidableEq, Repr

namespace CommandName

def all : List CommandName := [validate, render, path]

def text : CommandName → String
  | validate => "validate"
  | render => "render"
  | path => "path"

def ofText? (text : String) : Option CommandName := all.find? fun name => name.text = text

end CommandName

/-- What a page of help is about. -/
inductive Topic where
  | program
  | command (name : CommandName)
  /-- The help itself. -/
  | help
  deriving DecidableEq, Repr

/-- What the arguments ask for. -/
inductive Request where
  | version
  | help (topic : Topic)
  | run (command : Command) (format : OutputFormat)
  deriving DecidableEq, Repr

/-- An option, each of which takes a value. -/
inductive Flag where
  | model
  | configuration
  | shape
  | format
  deriving DecidableEq, Repr

namespace Flag

def name : Flag → List Char
  | model => "model".toList
  | configuration => "config".toList
  | shape => "shape".toList
  | format => "format".toList

def letter : Flag → Char
  | model => 'm'
  | configuration => 'c'
  | shape => 's'
  | format => 'o'

/-- The option admits a value. Only the id of a shape may be empty here. -/
def admits (flag : Flag) (value : String) : Bool :=
  match flag with
  | format => (OutputFormat.ofName? value).isSome
  | shape => true
  | model | configuration => value ≠ ""

end Flag

/-- An argument by itself. -/
inductive Argument where
  /-- An option, and its value if that is attached. -/
  | option (flag : Flag) (value : Option String)
  | operand (text : String)
  /-- Behind this argument there are no options. -/
  | separator
  | unknown

/-- Reads an argument where some options are known. -/
def Argument.read (known : List Flag) (text : String) : Argument :=
  match text.toList with
  | ['-', '-'] => .separator
  | '-' :: '-' :: rest =>
    let (name, behind) := rest.span (· ≠ '=')
    match known.find? fun flag => flag.name = name with
    | none => .unknown
    | some flag => .option flag (behind.tail?.map String.ofList)
  | '-' :: c :: rest =>
    match known.find? fun flag => flag.letter = c, rest with
    | none, _ => .unknown
    | some flag, [] => .option flag none
    | some flag, '=' :: value => .option flag (some (String.ofList value))
    | some flag, value => .option flag (some (String.ofList value))
  | _ => .operand text

/-- The argument may stand as the value of the option before it. -/
def isValue (text : String) : Bool :=
  match text.toList with
  | '-' :: _ :: _ => false
  | _ => true

/-- The argument asks for the version. -/
def asksVersion (text : String) : Bool :=
  text = "--version" || ['-', 'V'].isPrefixOf text.toList

/-- The argument asks for help. -/
def asksHelp (text : String) : Bool :=
  text = "--help" || ['-', 'h'].isPrefixOf text.toList

/-- What is given to a command: options with their values, and operands. -/
structure Given where
  values : List (Flag × String)
  operands : List String
  /-- Help was asked for. -/
  needsHelp : Bool

def Given.nothing : Given := ⟨[], [], false⟩

/-- Gives an option its value, once. -/
def Given.put (given : Given) (flag : Flag) (value : String) : Option Given :=
  if flag.admits value ∧ flag ∉ given.values.map Prod.fst then
    some { given with values := given.values ++ [(flag, value)] }
  else none

def Given.value? (given : Given) (flag : Flag) : Option String :=
  (given.values.find? fun (other, _) => other = flag).map Prod.snd

/-- Takes in an operand unless there are `most` of them. -/
def Given.add (most : Nat) (given : Given) (text : String) : Option Given :=
  if given.operands.length < most then some { given with operands := given.operands ++ [text] }
  else none

/-- Takes in the arguments of a command that knows some options, until one of them asks for help. -/
def Given.read (known : List Flag) (most : Nat) (given : Given) : List String → Option Given
  | [] => some given
  | text :: rest =>
    if asksHelp text then some { given with needsHelp := true }
    else
      match Argument.read known text, rest with
      | .unknown, _ => none
      | .separator, rest => rest.foldlM (Given.add most) given
      | .operand text, rest =>
        match given.add most text with
        | none => none
        | some given => Given.read known most given rest
      | .option flag (some value), rest =>
        match given.put flag value with
        | none => none
        | some given => Given.read known most given rest
      | .option _ none, [] => none
      | .option flag none, value :: rest =>
        match given.put flag value with
        | none => none
        | some given => if isValue value then Given.read known most given rest else none

namespace CommandName

/-- The options that a command knows. -/
def flags : CommandName → List Flag
  | validate => [.model, .format, .configuration]
  | render | path => [.model, .format, .shape]

/-- The number of a command's operands. -/
def operands : CommandName → Nat
  | validate => 0
  | render | path => 1

/-- The command that is made of what was given to it. -/
def build (name : CommandName) (given : Given) : Option Command := do
  let model ← given.value? .model
  match name, given.operands with
  | validate, [] => return .validate model (given.value? .configuration)
  | render, [template] => return .render model (← given.value? .shape) template
  | path, [source] => return .evaluate model (← given.value? .shape) source
  | _, _ => none

end CommandName

namespace Request

/-- Reads the arguments of a command behind those that chose a format, if any did. A format that the
command chooses itself counts more. -/
def ofCommand (chosen : Option String) (name : CommandName) (arguments : List String) :
    Option Request := do
  let given ← Given.read name.flags name.operands .nothing arguments
  if given.needsHelp then return .help (.command name)
  let command ← name.build given
  -- The other format has to be one as well.
  if chosen.all Flag.format.admits then
    return .run command (← OutputFormat.ofName? ((given.value? .format <|> chosen).getD "text"))
  else none

/-- The help on what the arguments behind `help` name. -/
def ofTopic : List String → Option Request
  | [] => some (.help .program)
  | ["help"] => some (.help .help)
  | [name] => (CommandName.ofText? name).map fun name => .help (.command name)
  | _ => none

/-- Reads arguments behind those that chose a format, if any did. That a format behind its option is
one is told only when it is needed. -/
def readFrom (chosen : Option String) : List String → Option Request
  | [] => none
  | text :: rest =>
    if asksVersion text || asksHelp text then
      if chosen.all Flag.format.admits then
        some (if asksVersion text then .version else .help .program)
      else none
    else
      match Argument.read [.format] text, rest with
      | .operand "help", rest => ofTopic rest
      | .operand name, rest => CommandName.ofText? name >>= fun name => ofCommand chosen name rest
      | .option flag (some value), rest =>
        if flag.admits value ∧ chosen = none then readFrom (some value) rest else none
      | .option _ none, value :: rest =>
        if isValue value ∧ chosen = none then readFrom (some value) rest else none
      | _, _ => none

/-- What the arguments ask for, if they are used properly. -/
def read (arguments : List String) : Option Request := readFrom none arguments

end Request

end ShapeRules.CommandLine
