import FlatSchema.Key

namespace FlatSchema.CommandLine

inductive Command where
  /-- Prints the flat form of a table. -/
  | encode
  /-- Prints the table of a flat form. -/
  | decode
  /-- Prints how many non-physical columns there are, given the names of physical ones. -/
  | count (physical : List String)
deriving DecidableEq

structure Invocation where
  pretty : Bool
  command : Command
  file : String
deriving DecidableEq

/-- Why no command is carried out. -/
inductive Stop where
  | usage
  | version
  | help
deriving DecidableEq

/-- What has been read of the arguments of a command. -/
structure Draft where
  pretty : Bool := false
  file : Option String := none
  physical : List String := []

/-- Whether an argument is an option. A single dash is a value. -/
def isOption (arg : String) : Bool := startsWith "-" arg && arg != "-"

/-- The value that is attached to an option by an equals sign. -/
def attached? (option arg : String) : Option String :=
  ((option ++ "=").toList.isPrefixOf? arg.toList).map String.ofList

def splitCommas (value : String) : List String := (value.toList.splitOn ',').map String.ofList

namespace Draft

/-- Takes the name of the file. There is one file, and its name is not empty. -/
def withFile (d : Draft) (arg : String) : Except Stop Draft :=
  if d.file.isNone && arg != "" then .ok { d with file := some arg } else .error .usage

def withPhysical (d : Draft) (value : String) : Draft :=
  { d with physical := d.physical ++ splitCommas value }

def values (d : Draft) : List String → Except Stop Draft
  | [] => .ok d
  | arg :: args => do
    let d ← d.withFile arg
    values d args

/-- Reads options and values in any order. After an argument `--` everything is a value. Only one of
the commands takes the names of physical columns. -/
def read (takesPhysical : Bool) (d : Draft) : List String → Except Stop Draft
  | [] => .ok d
  | arg :: args =>
    if arg = "--" then d.values args
    else if arg = "--help" || startsWith "-h" arg then .error .help
    else if arg = "--pretty" then
      if d.pretty then .error .usage else read takesPhysical { d with pretty := true } args
    else if takesPhysical && arg = "--physical" then
      match args with
      | value :: args =>
        if isOption value then .error .usage else read takesPhysical (d.withPhysical value) args
      | [] => .error .usage
    else
      match (if takesPhysical then attached? "--physical" arg else none) with
      | some value => read takesPhysical (d.withPhysical value) args
      | none =>
        if isOption arg then .error .usage
        else do
          let d ← d.withFile arg
          read takesPhysical d args

def invocation (d : Draft) (pretty : Bool) (command : Command) : Except Stop Invocation :=
  match d.file with
  | some file => .ok ⟨pretty || d.pretty, command, file⟩
  | none => .error .usage

end Draft

/-- The commands that can be explained. -/
def commandNames : List String := ["encode", "decode", "count", "help"]

/-- What comes of asking for help, which explains the program or one of its commands. -/
def explain : List String → Stop
  | [] => .help
  | [command] => if commandNames.contains command then .help else .usage
  | _ => .usage

/-- Reads arguments from the first on, given whether `--pretty` has come already. It may be given
before the command and after it, but once in each place. -/
def parseFrom (pretty : Bool) : List String → Except Stop Invocation
  | [] => .error .usage
  | arg :: args =>
    if arg = "--pretty" then if pretty then .error .usage else parseFrom true args
    else if arg = "--version" || startsWith "-V" arg then .error .version
    else if arg = "--help" || startsWith "-h" arg then .error .help
    else if arg = "help" then .error (explain args)
    else if arg = "encode" then do
      let d ← Draft.read false {} args
      d.invocation pretty .encode
    else if arg = "decode" then do
      let d ← Draft.read false {} args
      d.invocation pretty .decode
    else if arg = "count" then do
      let d ← Draft.read true {} args
      d.invocation pretty (.count d.physical)
    else .error .usage

def parse (args : List String) : Except Stop Invocation := parseFrom false args

end FlatSchema.CommandLine
