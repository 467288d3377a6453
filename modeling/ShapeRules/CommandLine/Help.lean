import ShapeRules.CommandLine.Arguments

/-!
The pages of help: what the program and its commands do, and the arguments that they take.
-/

namespace ShapeRules.CommandLine

/-- A table of help, whose second column is aligned. -/
def helpTable (title : String) (rows : List (String × String)) : String :=
  let width := (rows.map fun (left, _) => left.length).foldl max 0
  title ++ ":\n" ++ String.join (rows.map fun (left, right) =>
    "  " ++ left.pushn ' ' (width - left.length) ++ "  " ++ right ++ "\n")

/-- A page of help: what is done, how to ask for it, and some tables. -/
def helpPage (about usage : String) (tables : List String) : String :=
  "\n".intercalate ((about ++ "\n") :: ("Usage: shape_lint " ++ usage ++ "\n") :: tables)

def helpRow : String × String := ("-h, --help", "Print help")

namespace Flag

/-- The option with the name of its value. -/
def spelling (flag : Flag) : String :=
  let name := String.ofList flag.name
  "-" ++ flag.letter.toString ++ ", --" ++ name ++ " <" ++ name.toUpper ++ ">"

def about : Flag → String
  | model => "JSON model file"
  | configuration => "Validator configuration (defaults to $SHAPE_LINT_CONFIG or shape-lint.yaml)"
  | shape => "Absolute shape id, e.g. com.example#Widget"
  | format => "Output format: text (default) or json [default: text] [possible values: text, json]"

def row (flag : Flag) : String × String := (flag.spelling, flag.about)

end Flag

namespace CommandName

def about : CommandName → String
  | validate => "Run every configured validator over a model"
  | render => "Render a message template against one shape"
  | path => "Evaluate a scoped-attribute path against one shape"

/-- How a command is used, and the operand that it takes. -/
def usage : CommandName → String × List (String × String)
  | validate => ("--model <MODEL>", [])
  | render => ("--model <MODEL> --shape <SHAPE> <TEMPLATE>",
      [("<TEMPLATE>", "Template text, e.g. \"Shape @id\"")])
  | path => ("--model <MODEL> --shape <SHAPE> <PATH>", [("<PATH>", "Path, e.g. \"@trait(since)\"")])

def help (name : CommandName) : String :=
  let (usage, operands) := name.usage
  let options := helpTable "Options" (name.flags.map Flag.row ++ [helpRow])
  helpPage name.about (name.text ++ " [OPTIONS] " ++ usage)
    (if operands = [] then [options] else [helpTable "Arguments" operands, options])

end CommandName

namespace Topic

/-- The name of the command that gives help, and what it does. -/
def helpCommand : String × String :=
  ("help", "Print this message or the help of the given subcommand(s)")

def text : Topic → String
  | program =>
    let commands := CommandName.all.map fun name => (name.text, name.about)
    helpPage "Validate shape models and evaluate scoped-attribute templates" "[OPTIONS] <COMMAND>"
      [helpTable "Commands" (commands ++ [helpCommand]),
        helpTable "Options" [Flag.format.row, helpRow, ("-V, --version", "Print version")]]
  | command name => name.help
  | help =>
    helpPage helpCommand.2 "help [COMMAND]..."
      [helpTable "Arguments" [("[COMMAND]...", "Print help for the subcommand(s)")]]

end Topic

end ShapeRules.CommandLine
