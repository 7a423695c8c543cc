import SchemaTypes.CommandLine.Grammar
import SchemaTypes.CommandLine.Similarity

/-! # Reading a command line

The words of a command line are read from left to right. The first word that is not an
option names the command; `help` names the help of the commands that follow it. After the
command, `--name value`, `--name=value`, `-n value`, `-nvalue` and `-n=value` give an
option's value; an option of several values takes every following word that does not start
with a dash; a flag takes none. After `--` every word is a plain word, which no command
takes.

A word that is no known option, a plain word nobody takes, an option given twice, an option
without its value, and a required option left out are refused, each with its own message,
a usage line, and sometimes a tip naming a similar option or command. A value waiting for
its option is settled when the next option begins or the words end, so a fault in it shows
before the next option is looked at.
-/

namespace SchemaTypes.CommandLine

/-- A tip offered with a refusal. -/
inductive Tip where
  /-- a similar argument of the same command -/
  | argument (text : String)
  /-- an argument of another command, named later on the line -/
  | ofCommand (command text : String)

/-- Why a command line is refused. -/
inductive Refusal where
  /-- an unknown command, with the similar command names -/
  | unknownCommand (name : String) (similar : List String) (usage : String)
  /-- a word no command or option takes -/
  | unexpectedArgument (word : String) (tip : Option Tip) (usage : String)
  /-- a command name after `--` -/
  | needlessEscape (command : String) (usage : String)
  /-- required options left out -/
  | missingRequired (options : List String) (usage : String)
  /-- an option without a value -/
  | emptyValue (option : String)
  /-- an option given twice -/
  | repeated (option : String) (usage : String)
  /-- a value given to an option that takes none -/
  | unexpectedValue (value option : String) (usage : String)

namespace Refusal

/-- The first line of a refusal. -/
def headline : Refusal → String
  | .unknownCommand name _ _ => "unrecognized subcommand '" ++ name ++ "'"
  | .unexpectedArgument word _ _ => "unexpected argument '" ++ word ++ "' found"
  | .needlessEscape command _ => "unexpected argument '" ++ command ++ "' found"
  | .missingRequired options _ =>
    "the following required arguments were not provided:" ++
      String.join (options.map fun o => "\n  " ++ o)
  | .emptyValue option => "a value is required for '" ++ option ++ "' but none was supplied"
  | .repeated option _ => "the argument '" ++ option ++ "' cannot be used multiple times"
  | .unexpectedValue value option _ =>
    "unexpected value '" ++ value ++ "' for '" ++ option ++ "' found; no more were expected"

/-- The tips of a refusal, each on its own line. -/
def tips : Refusal → List String
  | .unknownCommand _ similar _ =>
    match similar with
    | [] => []
    | [one] => ["a similar subcommand exists: '" ++ one ++ "'"]
    | many => ["some similar subcommands exist: " ++ ", ".intercalate (many.map fun n => "'" ++ n ++ "'")]
  | .unexpectedArgument _ (some (.argument text)) _ => ["a similar argument exists: '" ++ text ++ "'"]
  | .unexpectedArgument _ (some (.ofCommand command text)) _ => ["'" ++ command ++ " " ++ text ++ "' exists"]
  | .needlessEscape command _ =>
    ["subcommand '" ++ command ++ "' exists; to use it, remove the '--' before it"]
  | _ => []

/-- The usage line of a refusal, when it has one. -/
def usage? : Refusal → Option String
  | .unknownCommand _ _ u | .unexpectedArgument _ _ u | .needlessEscape _ u
  | .missingRequired _ u | .repeated _ u | .unexpectedValue _ _ u => some u
  | .emptyValue _ => none

/-- The whole text of a refusal. -/
def text (r : Refusal) : String :=
  let tips := match r.tips with
    | [] => ""
    | ts => "\n" ++ String.join (ts.map fun t => "\n  tip: " ++ t)
  let usage := match r.usage? with
    | some u => "\n\nUsage: " ++ u
    | none => ""
  "error: " ++ r.headline ++ tips ++ usage ++ "\n\nFor more information, try '--help'.\n"

end Refusal

/-- How reading a command line ends: with a command to run, with help to show, with the
program's help because no command was named, or with a refusal. -/
inductive Invocation where
  | run (task : Task)
  | help (text : String)
  | bare
  | refused (r : Refusal)

/-! ## The options of a command -/

/-- The options given so far with their values, in the order first given. -/
abbrev Given := List (Slot × List String)

/-- The slots given so far. -/
def Given.slots (g : Given) : List Slot := g.map (·.1)

/-- The values of a slot. -/
def Given.values (g : Given) (s : Slot) : List String :=
  match g.find? (·.1 == s) with
  | some (_, vs) => vs
  | none => []

/-- Whether a slot was given. -/
def Given.has (g : Given) (s : Slot) : Bool := g.any (·.1 == s)

/-- Marks a slot as given, keeping its place when it was given already. -/
def Given.mark (g : Given) (s : Slot) : Given := if g.has s then g else g ++ [(s, [])]

/-- Adds values to a slot. -/
def Given.append (g : Given) (s : Slot) (vs : List String) : Given :=
  (g.mark s).map fun (t, ws) => if t == s then (t, ws ++ vs) else (t, ws)

/-- Records an option with its values: the state after it, and the refusal it meets. An
option given once already is taken out again when refused, as its earlier value no longer
counts. -/
def settle (v : Verb) (g : Given) (o : OptionSpec) (vs : List String) : Given × Option Refusal :=
  match o.arity with
  | .single =>
    if vs.isEmpty then (g, some (.emptyValue o.text))
    else if g.has o.slot then (g.filter (·.1 != o.slot), some (.repeated o.text v.usage))
    else if o.nonEmpty && vs.any String.isEmpty then (g.mark o.slot, some (.emptyValue o.text))
    else (g.append o.slot vs, none)
  | .several =>
    if vs.isEmpty then (g, some (.emptyValue o.text))
    else if o.nonEmpty && vs.any String.isEmpty then (g.mark o.slot, some (.emptyValue o.text))
    else (g.append o.slot vs, none)
  | .flag | .help =>
    if g.has o.slot then (g.filter (·.1 != o.slot), some (.repeated o.text v.usage))
    else (g.append o.slot ["true"], none)

/-- The state of reading a command's options. -/
structure Progress where
  given : Given := []
  /-- the groups of the options recorded so far, in the order first met; a group stays when
  its option is taken out again -/
  groups : List OptionGroup := []
  /-- an option whose values are still being read, with those read so far -/
  pending : Option (OptionSpec × List String) := none
  /-- whether the next plain word is a value of the pending option -/
  awaiting : Bool := false
  /-- whether `--` was seen -/
  escaped : Bool := false

/-- Notes the group of an option that was recorded. -/
def Progress.joinGroup (p : Progress) (o : OptionSpec) : Progress :=
  match o.group with
  | some g => if p.groups.contains g then p else { p with groups := p.groups ++ [g] }
  | none => p

/-- Records an option as given, with no value yet. -/
def Progress.mention (p : Progress) (o : OptionSpec) : Progress :=
  { p with given := p.given.mark o.slot }.joinGroup o

/-- Records an option with its values; its group joins when the option is recorded, also if
its value is then refused. -/
def Progress.record (v : Verb) (p : Progress) (o : OptionSpec) (vs : List String) :
    Progress × Option Refusal :=
  let (g, err) := settle v p.given o vs
  let p' := { p with given := g }
  (if g.has o.slot then p'.joinGroup o else p', err)

/-- Settles the pending option. -/
def Progress.resolve (v : Verb) (p : Progress) : Progress × Option Refusal :=
  match p.pending with
  | some (o, vs) => { p with pending := none }.record v o vs
  | none => (p, none)

/-- What a usage line names of the options recorded: the options that are not required, and
the groups. -/
def Progress.mentioned (v : Verb) (p : Progress) : List Mention :=
  (p.given.slots.filter fun s => !((v.option? s).map (·.required)).getD false).map .option ++
    p.groups.map .group

/-- Splits `name=value` at the first equals sign. -/
def splitAttached (body : String) : String × Option String :=
  match body.splitOn "=" with
  | name :: rest@(_ :: _) => (name, some ("=".intercalate rest))
  | _ => (body, none)

/-- The long names of a command's options, in the order they are declared. -/
def Verb.longNames (v : Verb) : List String := v.options.map (·.long)

/-- Starts an option: settles the pending one, then records the option with an attached
value or leaves it waiting for its values. -/
def begin (v : Verb) (p : Progress) (o : OptionSpec) (attached : Option String) :
    Except Invocation Progress := do
  let (p, err) := p.resolve v
  if let some r := err then throw (.refused r)
  match o.arity, attached with
  | .help, _ => throw (.help v.helpText)
  | .flag, _ =>
    let (p', err') := p.record v o []
    if let some r := err' then throw (.refused r)
    pure { p' with awaiting := false }
  | _, some value =>
    let (p', err') := p.record v o [value]
    if let some r := err' then throw (.refused r)
    pure { p' with awaiting := false }
  | _, none => pure { p with pending := some (o, []), awaiting := true }

/-- Reads the words after a command name into the options given. -/
def readOptions (v : Verb) : Progress → List String → Except Invocation Given
  | p, [] => do
    let (p, err) := p.resolve v
    if let some r := err then throw (.refused r)
    let g := p.given
    let missing := v.options.filter fun o => o.required && !g.has o.slot
    if missing.isEmpty then pure g
    else throw (.refused (.missingRequired (missing.map (·.text))
      (v.usageGiven ((g.slots ++ missing.map (·.slot)).map .option))))
  | p, word :: rest =>
    if p.escaped then throw (.refused (.unexpectedArgument word none v.usage))
    else if word = "--" then readOptions v { p with escaped := true, awaiting := false } rest
    else if word.startsWith "--" then
      let (name, attached) := splitAttached (String.ofList (word.toList.drop 2))
      match v.long? name with
      | some o =>
        match o.arity, attached with
        | .flag, some value | .help, some value =>
          throw (.refused (.unexpectedValue value o.text
            (v.usageGiven (p.mentioned v ++ [.option o.slot]))))
        | _, _ => do
          let p' ← begin v p o attached
          readOptions v p' rest
      | none =>
        let (p, _) := p.resolve v
        let similar := (similarNames name v.longNames).getLast?
        let p := match similar.bind v.long? with
          | some o => p.mention o
          | none => p
        throw (.refused (.unexpectedArgument ("--" ++ name)
          (similar.map fun s => .argument ("--" ++ s)) (v.usageGiven (p.mentioned v))))
    else if word.startsWith "-" ∧ word ≠ "-" then
      match word.toList.drop 1 with
      | c :: after =>
        match v.short? c with
        | some o =>
          let attached := match after with
            | [] => none
            | '=' :: value => some (String.ofList value)
            | value => some (String.ofList value)
          do
            let p' ← begin v p o attached
            readOptions v p' rest
        | none => throw (.refused (.unexpectedArgument ("-" ++ c.toString) none v.usage))
      | [] => throw (.refused (.unexpectedArgument word none v.usage))
    else
      match p.pending, p.awaiting with
      | some (o, vs), true =>
        readOptions v { p with pending := some (o, vs ++ [word]), awaiting := o.arity == .several } rest
      | _, _ => throw (.refused (.unexpectedArgument word none v.usage))

/-- The task of a command from the options given. -/
def Verb.task (v : Verb) (g : Given) : Task :=
  let choice : SchemaChoice := ⟨(g.values .schema).headD "", (g.values .typeName).head?⟩
  match v with
  | .inspect => .inspect choice
  | .check => .check choice (g.values .input) (g.has .noOp)
  | .roundtrip => .roundtrip choice (g.values .input) (g.values .out).head? (g.has .noOp)

/-! ## The program -/

/-- Where the `help` command is: at the program, at one of its commands, or at itself. -/
inductive HelpSubject where
  | program
  | verb (v : Verb)
  | helpItself

/-- The help asked for by the words after `help`. -/
def helpFor : HelpSubject → List String → Invocation
  | .program, [] => .help programHelp
  | .verb v, [] => .help v.helpText
  | .helpItself, [] => .help helpCommandHelp
  | .program, name :: rest =>
    match Verb.ofName? name with
    | some v => helpFor (.verb v) rest
    | none =>
      if name = "help" then helpFor .helpItself rest
      else .refused (.unknownCommand name [] programUsage)
  | .verb v, name :: _ => .refused (.unknownCommand name [] v.usage)
  | .helpItself, name :: _ => .refused (.unknownCommand name [] helpUsage)

/-- The names the program takes as commands. -/
def commandNames : List String := Verb.all.map (·.name) ++ ["help"]

/-- The tip for an unknown option before the command: a similar option of the program, or
of a command named later on the line. -/
def programTip (name : String) (later : List String) : Option Tip :=
  match (similarNames name ["help"]).getLast? with
  | some s => some (.argument ("--" ++ s))
  | none =>
    let offers := Verb.all.filterMap fun v =>
      match (similarNames name v.longNames).getLast?, later.findIdx? (· == v.name) with
      | some s, some pos => some (pos, Tip.ofCommand v.name ("--" ++ s))
      | _, _ => none
    let best := offers.foldl (fun best o =>
      match best with
      | some b => if o.1 < b.1 then some o else some b
      | none => some o) none
    best.map (·.2)

/-- Reads a whole command line, the program's name left out. -/
def readCommandLine (escaped : Bool) : List String → Invocation
  | [] => .bare
  | word :: rest =>
    if !escaped ∧ word = "help" then helpFor .program rest
    else match (if escaped then none else Verb.ofName? word) with
    | some v =>
      match readOptions v {} rest with
      | .ok g => .run (v.task g)
      | .error stop => stop
    | none =>
      if !escaped ∧ word = "--" then readCommandLine true rest
      else if !escaped ∧ word.startsWith "--" then
        let (name, attached) := splitAttached (String.ofList (word.toList.drop 2))
        if name = "help" then
          match attached with
          | some value => .refused (.unexpectedValue value "--help" (programUsageGiven [.help]))
          | none => .help programHelp
        else
          let tip := programTip name rest
          let given := match tip with
            | some (.argument _) => [Slot.help]
            | _ => []
          .refused (.unexpectedArgument ("--" ++ name) tip (programUsageGiven given))
      else if !escaped ∧ word.startsWith "-" ∧ word ≠ "-" then
        match word.toList.drop 1 with
        | 'h' :: _ => .help programHelp
        | c :: _ => .refused (.unexpectedArgument ("-" ++ c.toString) none programUsage)
        | [] => .refused (.unexpectedArgument word none programUsage)
      else if escaped ∧ commandNames.contains word then
        .refused (.needlessEscape word programUsage)
      else .refused (.unknownCommand word (similarNames word commandNames) programUsage)

/-- Reads the words given to the program. -/
def Invocation.ofArgs (args : List String) : Invocation := readCommandLine false args

end SchemaTypes.CommandLine
