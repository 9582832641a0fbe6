import DeclLexer.Path

/-!
# Trees of files

A tree of files in memory, read by paths as a directory on a disk is: a path is followed name by
name from the root of the tree, and may lead above the root and no further.
-/

namespace DeclLexer

/-- Why a file cannot be read. -/
inductive ReadFailure where
  | missing
  | directory
  | notDirectory
  | other (reason : String)
deriving DecidableEq

/-- The reason as a system gives it, with the number of the error. -/
def ReadFailure.reason : ReadFailure → String
  | .missing      => "No such file or directory (os error 2)"
  | .directory    => "Is a directory (os error 21)"
  | .notDirectory => "Not a directory (os error 20)"
  | .other reason => reason

/-- Files in memory, each under the names on the path to it. -/
structure FileTree where
  files : List (List (List Char) × ByteArray)

namespace FileTree

def empty : FileTree :=
  ⟨[]⟩

/-- Writes a file, over an older one of the same path. -/
def write (t : FileTree) (path : String) (contents : ByteArray) : FileTree :=
  ⟨((pathNames path).filter (!isSelf ·), contents) :: t.files⟩

/-- Where a path leads. -/
inductive Node where
  | file (contents : ByteArray)
  | directory (names : List (List Char))
  /-- A directory that the root lies in. -/
  | above

/-- What the tree holds under a list of names: a file, or a directory on the way to one. -/
def node? (t : FileTree) (names : List (List Char)) : Option Node :=
  match t.files.lookup names with
  | some contents => some (.file contents)
  | none =>
    if t.files.any fun f => names.isPrefixOf f.1 then some (.directory names) else none

/-- Follows one name. -/
def follow (t : FileTree) (name : List Char) : Node → Except ReadFailure Node
  | .file _          => .error .notDirectory
  | .above           => if isSelf name || isParent name then .ok .above else .error .missing
  | .directory names =>
    if isSelf name then .ok (.directory names)
    else if isParent name then .ok (if names.isEmpty then .above else .directory names.dropLast)
    else
      match t.node? (names ++ [name]) with
      | some node => .ok node
      | none      => .error .missing

/-- Follows the names of a path. -/
def followAll (t : FileTree) : List (List Char) → Node → Except ReadFailure Node
  | [],            node => .ok node
  | name :: names, node =>
    match t.follow name node with
    | .ok node       => t.followAll names node
    | .error failure => .error failure

/-- The contents of the file at a path. -/
def read (t : FileTree) (path : String) : Except ReadFailure ByteArray :=
  let root := if path.toList.head? = some '/' then .above else .directory []
  match t.followAll (pathNames path) root with
  | .ok (.file contents) => .ok contents
  | .ok _                => .error .directory
  | .error failure       => .error failure

end FileTree
end DeclLexer
