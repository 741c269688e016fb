import RunLedger.CommandLine.Form

/-!
# The grammar of command lines

A command line is a path of command names, and on the way options by their long names: `--name
value` or `--name=value`, or `--name` alone for a flag. A separate value that begins with a dash is
refused, a dash alone excepted, unless the option takes anything. Each level of the path has its
options: those for all commands may stand at any level, those of a command behind its name. At one
level an option may be given once, unless it collects values.

Help is asked for by `--help` or `-h`, and where a command name is due also by `help` and a path of
command names. A command line that breaks the grammar before that is refused. A separate value waits
until the next option at its level, or the end, to be counted in; only then does it matter whether
the option may be given and the value has its form.

## Main definitions

* `Parameter`: an option that can be given.
* `globals`, `commands`: the options for all commands, and every command with its own.
* `Given`: the options given at one level.
* `settle?`: counts the value of an option in.
* `scan`: reads one level.
* `readLevels`: reads a whole command line.
-/

namespace RunLedger.CommandLine

/-- How often an option can be given, and whether with a value. -/
inductive Arity
  /-- At most once, without a value. -/
  | flag
  /-- At most once, with a value. -/
  | single
  /-- Any number of times, each time with a value. -/
  | many
deriving DecidableEq

/-- An option that can be given. -/
structure Parameter where
  /-- Its name, without the dashes. -/
  name : String
  /-- How it can be given. -/
  arity : Arity
  /-- The form of its value; the value of a flag is empty. -/
  form : Form
  /-- Whether a separate value may begin with a dash. -/
  takesAnything : Bool
deriving DecidableEq

/-- An option with a value of a form. -/
def valueOf (form : Form) (name : String) : Parameter :=
  { name, arity := .single, form, takesAnything := false }

/-- An option whose value is any text. -/
def value : String → Parameter := valueOf .text

/-- An option without a value. -/
def flag (name : String) : Parameter :=
  { name, arity := .flag, form := .text, takesAnything := false }

/-- An option that collects values of a form. -/
def valuesOf (form : Form) (name : String) : Parameter :=
  { name, arity := .many, form, takesAnything := false }

/-- The options for all commands. -/
def globals : List Parameter :=
  [valueOf .path "config", valueOf .path "db", valueOf .timeout "timeout-ms", flag "debug"]

/-- Every command with the options of its own. -/
def commands : List (List String × List Parameter) := [
  (["migrate"], []),
  (["experiment", "create"], [value "name", value "artifact-location", valuesOf .tag "tag"]),
  (["experiment", "get"], [valueOf .integer "id"]),
  (["run", "create"], [valueOf .integer "experiment-id", value "name", value "user"]),
  (["run", "get"], [value "run-id"]),
  (["run", "delete"], [value "run-id"]),
  (["run", "restore"], [value "run-id"]),
  (["metric", "log"], [value "run-id", value "key",
    { valueOf .real "value" with takesAnything := true }, valueOf .integer "step",
    valueOf .integer "timestamp", value "model-id"]),
  (["metric", "log-batch"], [value "run-id", valueOf .path "file"]),
  (["metric", "history"], [value "run-id", value "key"]),
  (["metric", "latest"], [value "run-id"]),
  (["metric", "rebuild"], [value "run-id"]),
  (["metric", "for-model"], [value "model-id"]),
  (["model", "create"], [value "name", value "description", valuesOf .tag "tag"]),
  (["model", "get"], [value "name"]),
  (["model", "update"], [value "name", value "description"]),
  (["model", "rename"], [value "name", value "new-name"]),
  (["model", "delete"], [value "name"]),
  (["model", "set-tag"], [value "name", value "key", value "value"]),
  (["model", "delete-tag"], [value "name", value "key"]),
  (["version", "create"], [value "name", value "source", value "run-id", value "run-link",
    value "description"]),
  (["version", "get"], [value "name", value "version"]),
  (["version", "latest"], [value "name", valuesOf .text "stage"]),
  (["version", "update"], [value "name", value "version", value "description"]),
  (["version", "transition"], [value "name", value "version", value "stage",
    flag "archive-existing"]),
  (["version", "delete"], [value "name", value "version"]),
  (["version", "set-tag"], [value "name", value "version", value "key", value "value"]),
  (["version", "delete-tag"], [value "name", value "version", value "key"]),
  (["alias", "set"], [value "name", value "alias", value "version"]),
  (["alias", "get"], [value "name", value "alias"]),
  (["alias", "delete"], [value "name", value "alias"])]

/-- The names that can follow a path of command names. -/
def nextNames (path : List String) : List String :=
  commands.filterMap fun (full, _) =>
    if path.isPrefixOf full then full[path.length]? else none

/-- The options that can be given behind a path of command names. -/
def parametersAt (path : List String) : List Parameter :=
  match commands.find? fun (full, _) => full == path with
  | some (_, own) => globals ++ own
  | none => globals

/-- The options given at one level with their values, in order. A flag has the empty value. -/
abbrev Given := List (String × String)

namespace Given

/-- Whether an option is given. -/
def has (g : Given) (name : String) : Bool := g.any fun (n, _) => n == name

/-- The value of an option. -/
def value? (g : Given) (name : String) : Option String :=
  (g.find? fun (n, _) => n == name).map fun (_, v) => v

/-- All values of an option, in order. -/
def all (g : Given) (name : String) : List String :=
  g.filterMap fun (n, v) => if n == name then some v else none

end Given

/-- An option with the value written behind it. -/
abbrev Waiting := Parameter × String

/-- What one level of a command line comes to. -/
inductive Level
  /-- The command line ends. -/
  | complete (given : Given)
  /-- A command name leads to the next level, while a value may still wait. -/
  | descend (given : Given) (waiting : Option Waiting) (name : String) (rest : List String)
  /-- The command line asks for help. -/
  | help
  /-- The command line breaks the grammar. -/
  | refused

/-- Whether a text can be the separate value of an option. -/
def isSeparateValue (p : Parameter) (text : String) : Bool :=
  p.takesAnything || text == "-" || text.toList.head? != some '-'

/-- Whether an option can be given once more. -/
def canGive (p : Parameter) (g : Given) : Bool := p.arity = .many || !g.has p.name

/-- The options given once one more is counted in, if it may be given and its value has its form. -/
def settle? (g : Given) : Option Waiting → Option Given
  | none => some g
  | some (p, v) => if canGive p g && p.form.accepts v then some (g ++ [(p.name, v)]) else none

/-- Whether words lead on from a path of command names. The last one may be `help`. -/
def leadOn (path : List String) : List String → Bool
  | [] => true
  | word :: rest =>
    let names := nextNames path
    if names.contains word then leadOn (path ++ [word]) rest
    else word == "help" && !names.isEmpty && rest.isEmpty

/-- Whether an argument asks for help as an option; a short option may have others behind it. -/
def asksForHelp (arg : String) : Bool :=
  arg == "--help" || ['-', 'h'].isPrefixOf arg.toList

/-- Reads one level behind a path of command names, up to the next command name. -/
def scan (path : List String) (g : Given) (waiting : Option Waiting) : List String → Level
  | [] =>
    match settle? g waiting with
    | some g => .complete g
    | none => .refused
  | arg :: rest =>
    if (nextNames path).contains arg then .descend g waiting arg rest
    else if arg == "help" && !(nextNames path).isEmpty then
      if leadOn path rest then .help else .refused
    else
      match settle? g waiting with
      | none => .refused
      | some g =>
        if asksForHelp arg then .help
        else
          match arg.toList with
          | ['-', '-'] => if rest.isEmpty then .complete g else .refused
          | '-' :: '-' :: cs =>
            let name := String.ofList (cs.takeWhile (· != '='))
            match (parametersAt path).find? fun p => p.name == name with
            | none => .refused
            | some p =>
              match cs.dropWhile (· != '='), p.arity, rest with
              | _ :: _, .flag, _ => .refused
              | _ :: v, _, rest =>
                match settle? g (some (p, String.ofList v)) with
                | some g => scan path g none rest
                | none => .refused
              | [], .flag, rest =>
                match settle? g (some (p, "")) with
                | some g => scan path g none rest
                | none => .refused
              | [], _, [] => .refused
              | [], _, v :: rest =>
                if isSeparateValue p v then scan path g (some (p, v)) rest else .refused
          | _ => .refused

/-- A whole command line: a path of command names, and the options given at each level from the
first to the last. -/
inductive Levels
  | complete (path : List String) (levels : List Given)
  | help
  | refused

/-- Reads the levels of a command line behind a path of command names, `depth` of which may follow.
A value that waits at a level is counted in when the levels below are read. -/
def readLevels (depth : Nat) (path : List String) (args : List String) : Levels :=
  match scan path [] none args, depth with
  | .complete g, _ => .complete path [g]
  | .descend g waiting name rest, depth + 1 =>
    match readLevels depth (path ++ [name]) rest, settle? g waiting with
    | .complete full below, some g => .complete full (g :: below)
    | .complete _ _, none => .refused
    | result, _ => result
  | .descend _ _ _ _, 0 => .refused
  | .help, _ => .help
  | .refused, _ => .refused

/-- Reads a command line; no path has more than two names. -/
def Levels.ofArguments (args : List String) : Levels := readLevels 2 [] args

end RunLedger.CommandLine
