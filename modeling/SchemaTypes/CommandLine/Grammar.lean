import SchemaTypes.Text.Debug

/-! # The command line

The program is called with a command and its options. `inspect` lists the types compiled
from a schema, or shows one of them; `check` loads data files as a type and reports what
failed; `roundtrip` loads them and writes them back as JSON. Every command reads a schema
(`--schema`) and may name the type to use (`--type`); the two that load data take one or
more inputs (`--input`), and `roundtrip` may write to a directory (`--out`).

This module holds the grammar as data (the options of each command, with their short and
long names, their values and their help) and the texts made from it: the help of the program
and of each command, the usage lines, and the debug form of a parsed command.
-/

namespace SchemaTypes.CommandLine

/-- The name the program is called by. -/
def programName : String := "schema-objects"

/-- The options a command may take. -/
inductive Slot where
  | schema
  | typeName
  | input
  | out
  | noOp
  | help
  deriving DecidableEq

/-- How an option takes values. -/
inductive Arity where
  /-- one value, and the option given once -/
  | single
  /-- one value or more, and the option given any number of times -/
  | several
  /-- no value, and the option given once -/
  | flag
  /-- no value: the help of the command is shown at once -/
  | help
  deriving DecidableEq

/-- The groups of options a usage line may write as one choice: the options that choose the
schema and its type, and the inputs. -/
inductive OptionGroup where
  | schemaSettings
  | inputSettings
  deriving DecidableEq

/-- An option of a command. -/
structure OptionSpec where
  slot : Slot
  long : String
  short : Option Char
  valueName : String := ""
  arity : Arity
  required : Bool := false
  /-- whether an empty value is refused, as it is for paths -/
  nonEmpty : Bool := false
  /-- the group the option belongs to, if any -/
  group : Option OptionGroup := none
  doc : String

namespace OptionSpec

/-- How an option is written in messages: `--schema <SCHEMA>`, `--input <INPUT>...`,
`--no-op`. -/
def text (o : OptionSpec) : String :=
  match o.arity with
  | .single => "--" ++ o.long ++ " <" ++ o.valueName ++ ">"
  | .several => "--" ++ o.long ++ " <" ++ o.valueName ++ ">..."
  | .flag | .help => "--" ++ o.long

/-- How an option is written in help: with its short name first, when it has one. -/
def helpText (o : OptionSpec) : String :=
  match o.short with
  | some c => "-" ++ c.toString ++ ", " ++ o.text
  | none => "    " ++ o.text

end OptionSpec

/-- The schema a command reads. -/
def schemaOption : OptionSpec :=
  { slot := .schema, long := "schema", short := some 's', valueName := "SCHEMA", arity := .single,
    required := true, nonEmpty := true, group := some .schemaSettings,
    doc := "schema document (.json)" }

/-- The type a command uses. -/
def typeOption : OptionSpec :=
  { slot := .typeName, long := "type", short := some 't', valueName := "TYPE_NAME",
    arity := .single, group := some .schemaSettings,
    doc := "type to use (defaults to the schema title)" }

/-- The data files a command loads. -/
def inputOption : OptionSpec :=
  { slot := .input, long := "input", short := some 'i', valueName := "INPUT", arity := .several,
    required := true, group := some .inputSettings,
    doc := "One or more inputs. May be literal paths or quoted glob patterns" }

/-- The directory a round trip writes to. -/
def outOption : OptionSpec :=
  { slot := .out, long := "out", short := some 'o', valueName := "OUT", arity := .single,
    nonEmpty := true, doc := "output directory (stdout if omitted)" }

/-- The flag that only shows the parsed command. -/
def noOpOption : OptionSpec :=
  { slot := .noOp, long := "no-op", short := none, arity := .flag, doc := "debugging" }

/-- The flag that shows help. -/
def helpOption : OptionSpec :=
  { slot := .help, long := "help", short := some 'h', arity := .help, doc := "Print help" }

/-- What a usage line names: an option, or a group of options. -/
inductive Mention where
  | option (s : Slot)
  | group (g : OptionGroup)

/-- The three commands. -/
inductive Verb where
  | inspect
  | check
  | roundtrip
  deriving DecidableEq

namespace Verb

/-- The name a command is called by. -/
def name : Verb → String
  | .inspect => "inspect"
  | .check => "check"
  | .roundtrip => "roundtrip"

/-- What a command does, as its help says. -/
def about : Verb → String
  | .inspect => "list compiled types with their categories and constructor signatures"
  | .check => "load each input as the chosen type and report failures"
  | .roundtrip => "load each input and write it back out as JSON"

/-- The options of a command, in the order its help lists them. -/
def options : Verb → List OptionSpec
  | .inspect => [schemaOption, typeOption, helpOption]
  | .check => [schemaOption, typeOption, inputOption, noOpOption, helpOption]
  | .roundtrip => [schemaOption, typeOption, inputOption, outOption, noOpOption, helpOption]

/-- The commands, in the order the program's help lists them. -/
def all : List Verb := [.inspect, .check, .roundtrip]

/-- The command of a name. -/
def ofName? (name : String) : Option Verb := all.find? (·.name == name)

/-- The option of a long name. -/
def long? (v : Verb) (name : String) : Option OptionSpec := v.options.find? (·.long == name)

/-- The option of a short name. -/
def short? (v : Verb) (c : Char) : Option OptionSpec := v.options.find? (·.short == some c)

/-- The option of a slot. -/
def option? (v : Verb) (s : Slot) : Option OptionSpec := v.options.find? (·.slot == s)

/-- The usage line shown with help: the program and command, `[OPTIONS]` for the options
that may be left out, then the required ones. -/
def usage (v : Verb) : String :=
  let required := v.options.filter (·.required)
  let optional := v.options.any fun o => !o.required && o.arity != .help
  " ".intercalate ([programName, v.name] ++ (if optional then ["[OPTIONS]"] else []) ++
    required.map (·.text))

/-- A group written as a choice among its options: `<--schema <SCHEMA>|--type <TYPE_NAME>>`. -/
def groupText (v : Verb) (g : OptionGroup) : String :=
  "<" ++ "|".intercalate ((v.options.filter (·.group == some g)).map (·.text)) ++ ">"

/-- The usage line for a command line that mentioned some options and groups: the required
options and the others mentioned, each once, leaving out those of a mentioned group, then the
groups. With nothing mentioned it is the usage line of the help. -/
def usageGiven (v : Verb) (used : List Mention) : String :=
  if used.isEmpty then v.usage
  else
    let items := (v.options.filter (·.required)).map (fun o => Mention.option o.slot) ++ used
    let groups := (items.filterMap fun
      | .group g => some g
      | .option _ => none).eraseDups
    let covered (s : Slot) : Bool :=
      match (v.option? s).bind (·.group) with
      | some g => groups.contains g
      | none => false
    let slots := (items.filterMap fun
      | .option s => if covered s then none else some s
      | .group _ => none).eraseDups
    " ".intercalate ([programName, v.name] ++ slots.filterMap (fun s => (v.option? s).map (·.text)) ++
      groups.map v.groupText)

/-- Lines of two columns, the second starting two spaces after the widest first column. -/
def columns (rows : List (String × String)) : String :=
  let width := rows.foldl (fun w r => max w r.1.length) 0
  String.join (rows.map fun (left, right) =>
    "  " ++ left ++ String.ofList (List.replicate (width - left.length + 2) ' ') ++ right ++ "\n")

/-- The help of a command. -/
def helpText (v : Verb) : String :=
  v.about ++ "\n\nUsage: " ++ v.usage ++ "\n\nOptions:\n" ++
    columns (v.options.map fun o => (o.helpText, o.doc))

end Verb

/-- What the program does, as its help says. -/
def programAbout : String :=
  "compile JSON-Schema documents into runtime types and load data through them"

/-- What the `help` command does. -/
def helpAbout : String := "Print this message or the help of the given subcommand(s)"

/-- The usage line of the program. -/
def programUsage : String := programName ++ " <COMMAND>"

/-- The usage line of the program when options were given before a command. -/
def programUsageGiven (given : List Slot) : String :=
  if given.isEmpty then programUsage
  else programName ++ " --help <COMMAND>"

/-- The usage line of the `help` command. -/
def helpUsage : String := programName ++ " help [COMMAND]..."

/-- The help of the program. -/
def programHelp : String :=
  programAbout ++ "\n\nUsage: " ++ programUsage ++ "\n\nCommands:\n" ++
    Verb.columns (Verb.all.map (fun v => (v.name, v.about)) ++ [("help", helpAbout)]) ++
    "\nOptions:\n" ++ Verb.columns [(helpOption.helpText, helpOption.doc)]

/-- The help of the `help` command. -/
def helpCommandHelp : String :=
  helpAbout ++ "\n\nUsage: " ++ helpUsage ++ "\n\nArguments:\n" ++
    Verb.columns [("[COMMAND]...", "Print help for the subcommand(s)")]

/-! ## Parsed commands -/

/-- The schema a command reads and the type it names. -/
structure SchemaChoice where
  schema : String
  typeName : Option String

/-- A parsed command. -/
inductive Task where
  | inspect (choice : SchemaChoice)
  | check (choice : SchemaChoice) (inputs : List String) (noOp : Bool)
  | roundtrip (choice : SchemaChoice) (inputs : List String) (out : Option String) (noOp : Bool)

/-- A value in its debug form: a text as it stands, a record of named fields, a variant with
its fields in order, or a list. -/
inductive Shown where
  | atom (text : String)
  | record (name : String) (fields : List (String × Shown))
  | variant (name : String) (items : List Shown)
  | list (items : List Shown)

namespace Shown

/-- Spaces for an indentation. -/
def pad (n : Nat) : String := String.ofList (List.replicate n ' ')

mutual
/-- The debug form spread over lines, each level indented by four spaces more. -/
def pretty (indent : Nat) : Shown → String
  | .atom text => text
  | .record name [] => name
  | .record name fields => name ++ " \x7b\n" ++ prettyFields (indent + 4) fields ++ pad indent ++ "\x7d"
  | .variant name [] => name
  | .variant name items => name ++ "(\n" ++ prettyItems (indent + 4) items ++ pad indent ++ ")"
  | .list [] => "[]"
  | .list items => "[\n" ++ prettyItems (indent + 4) items ++ pad indent ++ "]"
/-- Named fields, one per line. -/
def prettyFields (indent : Nat) : List (String × Shown) → String
  | [] => ""
  | (name, v) :: rest => pad indent ++ name ++ ": " ++ pretty indent v ++ ",\n" ++ prettyFields indent rest
/-- Items, one per line. -/
def prettyItems (indent : Nat) : List Shown → String
  | [] => ""
  | v :: rest => pad indent ++ pretty indent v ++ ",\n" ++ prettyItems indent rest
end

/-- An optional value. -/
def option : Option Shown → Shown
  | some v => .variant "Some" [v]
  | none => .atom "None"

end Shown

namespace Task

/-- The debug form of the schema choice. -/
def choiceShown (c : SchemaChoice) : Shown :=
  .record "SchemaSettings" [("schema", .atom (Text.debugQuotePath c.schema)),
    ("type_name", Shown.option (c.typeName.map fun n => .atom (Text.debugQuote n)))]

/-- The debug form of the inputs. -/
def inputsShown (inputs : List String) : Shown :=
  .record "InputSettings" [("input", .list (inputs.map fun i => .atom (Text.debugQuote i)))]

/-- The debug form of a flag. -/
def flagShown (b : Bool) : Shown := .atom (if b then "true" else "false")

/-- The debug form of the whole command line. -/
def shown : Task → Shown
  | .inspect c =>
    .record "CommandLineInterface" [("cmd", .variant "Inspect" [.record "InspectCmd"
      [("schema_settings", choiceShown c)]])]
  | .check c inputs noOp =>
    .record "CommandLineInterface" [("cmd", .variant "Check" [.record "CheckCmd"
      [("schema_settings", choiceShown c), ("input_settings", inputsShown inputs),
        ("no_op", flagShown noOp)]])]
  | .roundtrip c inputs out noOp =>
    .record "CommandLineInterface" [("cmd", .variant "Roundtrip" [.record "RoundtripCmd"
      [("schema_settings", choiceShown c), ("input_settings", inputsShown inputs),
        ("out", Shown.option (out.map fun o => .atom (Text.debugQuotePath o))),
        ("no_op", flagShown noOp)]])]

/-- The debug text of a parsed command. -/
def debugText (t : Task) : String := t.shown.pretty 0

end Task

end SchemaTypes.CommandLine
