/-!
# Arguments of the command line

The arguments are one file and switches around it, read from left to right. The first that asks for
the version or makes no sense decides, and after `--` every argument is a file.
-/

namespace DeclLexer

/-- What the arguments ask for. -/
inductive Command where
  | version
  | list (file : String) (quiet : Bool)
deriving DecidableEq

/-- The arguments read so far. -/
structure Arguments where
  file : Option String
  quiet : Bool
deriving DecidableEq

/-- What one more argument comes to. -/
inductive Reading where
  | more (arguments : Arguments)
  | version
  | refused
deriving DecidableEq

namespace Arguments

/-- No arguments. -/
def empty : Arguments :=
  ⟨none, false⟩

/-- Takes a file, which must have a name and be the only one. -/
def takeFile (a : Arguments) (name : String) : Reading :=
  if name.isEmpty || a.file.isSome then .refused else .more { a with file := some name }

/-- Takes the switch that asks for quiet, which must be the only one. -/
def takeQuiet (a : Arguments) : Reading :=
  if a.quiet then .refused else .more { a with quiet := true }

/-- Takes the letters of an argument that is a row of short switches. -/
def takeLetters (a : Arguments) : List Char → Reading
  | []             => .more a
  | 'q' :: letters =>
    match a.takeQuiet with
    | .more a  => a.takeLetters letters
    | .version => .version
    | .refused => .refused
  | 'V' :: _       => .version
  | _ :: _         => .refused

/-- Takes an argument before any `--`. A single hyphen is the name of a file. -/
def take (a : Arguments) (argument : String) : Reading :=
  if argument = "--quiet" then a.takeQuiet
  else if argument = "--version" then .version
  else
    match argument.toList with
    | '-' :: '-' :: _          => .refused
    | '-' :: letter :: letters => a.takeLetters (letter :: letters)
    | _                        => a.takeFile argument

/-- The command of the arguments when no more follow. -/
def command? (a : Arguments) : Option Command :=
  a.file.map (.list · a.quiet)

/-- The command when only files follow. -/
def filesOnly? (a : Arguments) : List String → Option Command
  | []                => a.command?
  | name :: arguments =>
    match a.takeFile name with
    | .more a  => a.filesOnly? arguments
    | .version => some .version
    | .refused => none

/-- The command when more arguments follow, unless they are refused. -/
def read? (a : Arguments) : List String → Option Command
  | []                    => a.command?
  | argument :: arguments =>
    if argument = "--" then a.filesOnly? arguments
    else
      match a.take argument with
      | .more a  => a.read? arguments
      | .version => some .version
      | .refused => none

end Arguments

end DeclLexer
