import DeclLexer.Arguments
import DeclLexer.Diagnostic
import DeclLexer.FileTree
import DeclLexer.Lexer
import DeclLexer.Token.Format

/-!
# The command line

The command lists the tokens of a file on standard output, or only counts them when it is asked to
be quiet. A run that fails writes nothing there, but why it failed on standard error.
-/

namespace DeclLexer

/-- How a run of the command ends. -/
inductive Outcome where
  /-- The arguments make no command. -/
  | misuse
  /-- The run succeeded, with this on standard output. -/
  | success (output : String)
  /-- The run failed, with this on standard error. -/
  | failure (complaint : String)
deriving DecidableEq

/-- The exit status of a run. -/
def Outcome.status : Outcome → Nat
  | .success _ => 0
  | .failure _ => 1
  | .misuse    => 2

/-- The name of the command and its version. -/
def versionLine : String := "lexer 0.1.0\n"

/-- A reminder of the arguments, for a run that was given others. -/
def usageLine : String := "Usage: lexer [-q|--quiet] [-V|--version] [--] FILE\n"

/-- What a run writes on standard output. -/
def Outcome.output : Outcome → String
  | .success output     => output
  | .failure _ | .misuse => ""

/-- What a run writes on standard error. -/
def Outcome.complaint : Outcome → String
  | .success _         => ""
  | .failure complaint => complaint
  | .misuse            => usageLine

/-- The complaint about a file that cannot be read. -/
def unreadable (path reason : String) : Outcome :=
  .failure ("Error: failed to read " ++ path ++ ": " ++ reason ++ "\n")

/-- The lines of a list of tokens. -/
def listing (tokens : List Token) : String :=
  String.join (tokens.map (·.listing ++ "\n"))

/-- The number of tokens on a line. -/
def countLine (tokens : List Token) : String :=
  String.ofList (natDigits tokens.length) ++ "\n"

/-- The outcome for a source from a file, which goes by the last name of its path. -/
def reportSource (path : String) (quiet : Bool) (source : String) : Outcome :=
  match tokenize (lastName path) source with
  | .error e   => .failure (e.diagnostic source)
  | .ok tokens => .success (if quiet then countLine tokens else listing tokens)

/-- The outcome for a file, whose bytes must be text. -/
def report (path : String) (quiet : Bool) : Except ReadFailure ByteArray → Outcome
  | .error failure => unreadable path failure.reason
  | .ok bytes =>
    match String.fromUTF8? bytes with
    | none        => unreadable path "stream did not contain valid UTF-8"
    | some source => reportSource path quiet source

/-- Runs the command on its arguments, with a way to read the file at a path. -/
def runCommand {m : Type → Type} [Monad m] (readFile : String → m (Except ReadFailure ByteArray))
    (arguments : List String) : m Outcome :=
  match Arguments.empty.read? arguments with
  | none                    => pure .misuse
  | some .version           => pure (.success versionLine)
  | some (.list path quiet) => do return report path quiet (← readFile path)

/-- Runs the command on a tree of files. -/
def FileTree.runCommand (t : FileTree) (arguments : List String) : Outcome :=
  Id.run (DeclLexer.runCommand (fun path => pure (t.read path)) arguments)

end DeclLexer
