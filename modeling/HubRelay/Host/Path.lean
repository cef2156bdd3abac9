/-!
The paths of files and directories, as they are written.

A path is a row of names with slashes between them. The name of one dot stays in a directory, the
name of two dots leaves it, and any other name enters what stands in it. A text that is empty, too
long, holds a name that is too long, or holds the character of code zero is no path.
-/

namespace HubRelay

/-- One step along a path. -/
inductive PathStep
  | stay
  | leave
  | enter (name : String)

namespace PathStep

def ofName (name : List Char) : PathStep :=
  if name = ['.'] then .stay
  else if name = ['.', '.'] then .leave
  else .enter (String.ofList name)

end PathStep

/-- A path: whether it starts from the root, the steps on the way, the last step, and whether a
slash closes it. -/
structure Path where
  fromRoot : Bool
  way : List PathStep
  last : PathStep
  closed : Bool

namespace Path

def longest : Nat := 4095

def longestName : Nat := 255

def split : List Char → List (List Char)
  | [] => [[]]
  | c :: rest =>
      if c = '/' then [] :: split rest
      else
        match split rest with
        | [] => [[c]]
        | name :: names => (c :: name) :: names

/-- The names along a path; between two slashes that follow each other there is none. -/
def names (text : String) : List (List Char) := (split text.toList).filter fun name => name != []

def isSpelled (text : String) : Bool :=
  text != "" && text.utf8ByteSize ≤ longest && !text.toList.contains '\x00' &&
    (names text).all fun name => (String.ofList name).utf8ByteSize ≤ longestName

def ofText? (text : String) : Option Path :=
  if isSpelled text then
    let steps := (names text).map PathStep.ofName
    some { fromRoot := text.toList.head? == some '/', way := steps.dropLast
           last := steps.getLast?.getD .stay, closed := text.toList.getLast? == some '/' }
  else none

/-- A text read backwards, without the slashes and the single dots that it starts with; a dot that
stands alone is kept. -/
def shorten : List Char → List Char
  | '/' :: rest => shorten rest
  | '.' :: '/' :: rest => shorten rest
  | text => text

/-- What a text spells before its last name, without what is superfluous at the end. -/
def folder (text : String) : String :=
  String.ofList (shorten (text.toList.reverse.dropWhile (· != '/'))).reverse

def isNamed (p : Path) : Bool :=
  match p.last with
  | .enter _ => true
  | _ => false

/-- What is superfluous elsewhere stays. -/
example : folder "./a//b/.././/./c" = "./a//b/.." := by decide +kernel

/-- The root is spelled by the slash that the text starts with. -/
example : (folder "a", folder "./a", folder "/./a") = ("", ".", "") := by decide +kernel

/-- A slash behind the last name closes the path, and the name stays the last. -/
example : (ofText? "rosters/").map (fun p => (p.isNamed, p.closed)) = some (true, true) := by
  decide +kernel

/-- A dot behind the last name is the last step itself. -/
example : (ofText? "rosters/.").map (fun p => (p.isNamed, p.closed)) = some (false, false) := by
  decide +kernel

end Path

end HubRelay
