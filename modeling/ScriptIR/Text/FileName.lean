/-!
# File names

A path is read as its components: the pieces between slashes, without the empty ones and the single
dots. The name of a path is its last component, and the empty text if it has none.
-/
namespace ScriptIR.Text

/-- The pieces between the separators, in order; one more than there are separators. -/
def splitChars (separator : Char) : List Char → List (List Char)
  | [] => [[]]
  | c :: cs =>
    match splitChars separator cs with
    | [] => [[c]]
    | piece :: pieces =>
      if c = separator then [] :: piece :: pieces else (c :: piece) :: pieces

def pathComponents (path : String) : List String :=
  ((splitChars '/' path.toList).filter fun p => !p.isEmpty && p != ['.']).map String.ofList

def fileName (path : String) : String :=
  (pathComponents path).getLast?.getD ""

/-- The slashes that a normal path starts with: exactly two are kept as two, others become one. -/
def pathRoot (path : String) : String :=
  match path.toList.takeWhile (· = '/') with
  | [] => ""
  | [_, _] => "//"
  | _ => "/"

/-- The path with the given root and components. Without any it is a single dot. -/
def joinPath (root : String) (components : List String) : String :=
  match root ++ "/".intercalate components with
  | "" => "."
  | text => text

/-- A path written with its root and components only. -/
def normalPath (path : String) : String :=
  joinPath (pathRoot path) (pathComponents path)

end ScriptIR.Text
