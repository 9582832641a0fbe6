/-!
# Paths

A path is a list of names between slashes. Two kinds of names are none of a file's: an empty one and
`.` stay where they are, and `..` leads out of a directory.
-/

namespace DeclLexer

/-- The names in a path. An empty one stands at a slash with no name before or after it. -/
def pathNames (path : String) : List (List Char) :=
  path.toList.splitOn '/'

/-- The name of the directory it stands in. -/
def isSelf (name : List Char) : Bool :=
  name.isEmpty || name == ['.']

/-- The name of the directory around the one it stands in. -/
def isParent (name : List Char) : Bool :=
  name == ['.', '.']

/-- The last name of a path, or all of the path when that is not the name of a file. -/
def lastName (path : String) : String :=
  match ((pathNames path).filter (!isSelf ·)).getLast? with
  | none      => path
  | some name => if isParent name then path else String.ofList name

end DeclLexer
