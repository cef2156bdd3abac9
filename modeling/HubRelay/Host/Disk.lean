import HubRelay.Host.Path

/-!
A small tree of files and directories, to keep rosters in.

A path is followed from directory to directory, so that all but its last step must lead to
directories that are there. A file is written whole or not at all; `read?_write` says that it then
reads back. A file is replaced by way of a draft beside it, whose path must not be too long either;
`isWritable_of_isReplaceable` says that a file which can be replaced can be written.
-/

namespace HubRelay

/-- What stands at a place. -/
inductive Node
  | file (contents : ByteArray)
  | directory

/-- Files and directories below a root, each at the place that the names from the root lead to. -/
structure Disk where
  nodes : List (List String × Node) := []

namespace Disk

/-- The directory that paths start from. It stands in the root under the empty name, which no path
can spell. -/
def home : List String := [""]

/-- How many bytes stand for the home in a path that leads from the root. -/
def homeBytes : Nat := 15

def draftNameBytes : Nat := 10

/-- What stands at the place; the root and the home are always there. -/
def node? (d : Disk) (place : List String) : Option Node :=
  if place.isPrefixOf home then some .directory
  else (d.nodes.find? fun node => node.1 == place).map Prod.snd

def isDirectory (d : Disk) (place : List String) : Bool :=
  match d.node? place with
  | some .directory => true
  | _ => false

/-! ### Places -/

/-- Where steps from a directory to the next lead. -/
def walk (d : Disk) (place : List String) : List PathStep → Option (List String)
  | [] => some place
  | .stay :: rest => d.walk place rest
  | .leave :: rest => d.walk place.dropLast rest
  | .enter name :: rest =>
      if d.isDirectory (place ++ [name]) then d.walk (place ++ [name]) rest else none

/-- The directory in which the last step of the path is taken. -/
def stage? (d : Disk) (path : Path) : Option (List String) :=
  d.walk (if path.fromRoot then [] else home) path.way

/-- The place that a path leads to, whether or not something stands there. -/
def place? (d : Disk) (path : Path) : Option (List String) :=
  (d.stage? path).map fun place =>
    match path.last with
    | .stay => place
    | .leave => place.dropLast
    | .enter name => place ++ [name]

/-- The place of the file that a text names; a slash behind the name is for directories alone. -/
def filePlace? (d : Disk) (text : String) : Option (List String) :=
  (Path.ofText? text).bind fun path =>
    if path.isNamed && !path.closed then d.place? path else none

/-- The place of the file or directory that a text names. -/
def namedPlace? (d : Disk) (text : String) : Option (List String) :=
  (Path.ofText? text).bind fun path => if path.isNamed then d.place? path else none

/-! ### Files -/

def read? (d : Disk) (path : String) : Option ByteArray :=
  match (d.filePlace? path).bind d.node? with
  | some (.file contents) => some contents
  | _ => none

def isWritable (d : Disk) (path : String) : Bool :=
  match d.filePlace? path with
  | some place => !d.isDirectory place
  | none => false

/-- How many bytes the path of a draft has that is made beside the file at the path. It leads from
the root, through the home if need be, to the directory of the file and to the draft. -/
def draftBytes (path : String) : Nat :=
  (if path.toList.head? = some '/' then 0 else homeBytes + 1) +
    (Path.folder path).utf8ByteSize + 1 + draftNameBytes

/-- Whether a file at the path can be replaced as a whole: a draft is made beside it, which then
takes its place. -/
def isReplaceable (d : Disk) (path : String) : Bool :=
  d.isWritable path && draftBytes path ≤ Path.longest

/-- Puts a node at the place, in place of any other. -/
def put (d : Disk) (place : List String) (node : Node) : Disk :=
  ⟨(d.nodes.filter fun other => other.1 != place) ++ [(place, node)]⟩

def drop (d : Disk) (place : List String) : Disk :=
  ⟨d.nodes.filter fun node => node.1 != place⟩

def write (d : Disk) (path : String) (contents : ByteArray) : Disk :=
  match d.filePlace? path with
  | some place => if d.isDirectory place then d else d.put place (.file contents)
  | none => d

/-- Removes a file; the answer says whether there was one. -/
def remove (d : Disk) (path : String) : Bool × Disk :=
  match d.filePlace? path, d.read? path with
  | some place, some _ => (true, d.drop place)
  | _, _ => (false, d)

/-! ### Directories -/

/-- Makes a directory inside one that is there; the answer says whether it was made. -/
def makeDirectory (d : Disk) (path : String) : Bool × Disk :=
  match d.namedPlace? path with
  | some place =>
      if (d.node? place).isNone then (true, d.put place .directory) else (false, d)
  | none => (false, d)

def clear (d : Disk) (place : List String) : Disk :=
  ⟨d.nodes.filter fun node => node.1 == place || !place.isPrefixOf node.1⟩

/-- Removes a directory after all that it holds; the answer says whether nothing more was there to
remove. Any path to a directory empties it, but only a path that ends in its name removes it. A path
that led through what the directory held leads nowhere any more, which leaves nothing to remove. -/
def removeDirectory (d : Disk) (path : String) : Bool × Disk :=
  match (Path.ofText? path).bind fun p => (d.place? p).map (p, ·) with
  | none => (false, d)
  | some (p, place) =>
      if !d.isDirectory place then (false, d)
      else if ((d.clear place).stage? p).isNone then (true, d.clear place)
      else if p.isNamed then (true, (d.clear place).drop place)
      else (false, d.clear place)

def names (d : Disk) : List String :=
  (d.nodes.filterMap fun node =>
    match node.1 with
    | ["", name] => some name
    | _ => none).mergeSort (· ≤ ·)

/-! ### Reading what was written -/

theorem node?_put_self {d : Disk} {place : List String} (free : d.isDirectory place = false)
    (node : Node) : (d.put place node).node? place = some node := by
  have outside : place.isPrefixOf home = false := by
    cases h : place.isPrefixOf home with
    | false => rfl
    | true => simp [isDirectory, node?, h] at free
  have fresh : (d.nodes.filter fun other => other.1 != place).find?
      (fun other => other.1 == place) = none := by
    simp only [List.find?_eq_none, List.mem_filter]
    rintro other ⟨-, apart⟩
    simpa using apart
  simp [node?, outside, put, List.find?_append, fresh]

theorem node?_put_of_ne {d : Disk} {place other : List String} (apart : other ≠ place)
    (node : Node) : (d.put place node).node? other = d.node? other := by
  have same : (d.nodes.filter fun node => node.1 != place).find? (fun node => node.1 == other) =
      d.nodes.find? fun node => node.1 == other := by
    rw [List.find?_filter]
    congr 1
    funext node
    by_cases h : node.1 = other
    · simp [h, apart]
    · simp [h]
  have last : ((place, node) :: ([] : List (List String × Node))).find?
      (fun node => node.1 == other) = none := by
    simp [Ne.symm apart]
  unfold node?
  simp only [put, List.find?_append, same, last, Option.or_none]

theorem isDirectory_put_file {d : Disk} {place : List String} (free : d.isDirectory place = false)
    (contents : ByteArray) (other : List String) :
    (d.put place (.file contents)).isDirectory other = d.isDirectory other := by
  by_cases h : other = place
  · subst h
    rw [free, isDirectory, node?_put_self free]
  · unfold isDirectory
    rw [node?_put_of_ne h]

theorem walk_put_file {d : Disk} {place : List String} (free : d.isDirectory place = false)
    (contents : ByteArray) (start : List String) (steps : List PathStep) :
    (d.put place (.file contents)).walk start steps = d.walk start steps := by
  induction steps generalizing start with
  | nil => rfl
  | cons step rest ih => cases step <;> simp [walk, ih, isDirectory_put_file free]

theorem filePlace?_put_file {d : Disk} {place : List String} (free : d.isDirectory place = false)
    (contents : ByteArray) (path : String) :
    (d.put place (.file contents)).filePlace? path = d.filePlace? path := by
  unfold filePlace? place? stage?
  simp only [walk_put_file free]

theorem read?_write {d : Disk} {path : String} (writable : d.isWritable path = true)
    (contents : ByteArray) : (d.write path contents).read? path = some contents := by
  unfold isWritable at writable
  split at writable
  · next place here =>
    have free : d.isDirectory place = false := by simpa using writable
    have written : d.write path contents = d.put place (.file contents) := by
      simp [write, here, free]
    rw [written]
    unfold read?
    rw [filePlace?_put_file free, here, Option.bind_some, node?_put_self free]
  · cases writable

theorem isWritable_of_isReplaceable {d : Disk} {path : String}
    (replaceable : d.isReplaceable path = true) : d.isWritable path = true := by
  simp only [isReplaceable, Bool.and_eq_true] at replaceable
  exact replaceable.1

end Disk

end HubRelay
