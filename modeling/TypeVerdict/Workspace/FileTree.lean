import TypeVerdict.Path

/-!
# File trees

The files that a run of the type checker reads and writes, as a value.  A place in the tree is the
list of names that leads to it from the root.  A text stands for a place once its segments are
walked: symbolic links are followed, and what stands behind a name must be a directory unless the
name is the last.

## Main definitions

* `Entry`: what stands at a place
* `FileTree`: the entries of a tree
* `FileTree.locate`: the place that a text stands for
* `FileTree.read`: the content of the file that a text stands for
* `FileTree.insert`, `FileTree.unlink`: the changes of a tree
* `FileTree.listing`: the files below a place

## Design notes

A tree has no permissions but the one to run a file: every directory can be walked through, and
every file can be read.  So that the operating system forbids something is no error of a lookup.
-/

namespace TypeVerdict

/-- A place in a file tree: the names that lead to it from the root, outermost first. -/
abbrev Place := List (List Char)

/-- The written form of a place. -/
def Place.text (place : Place) : List Char := Path.text ⟨false, place⟩

/-- What stands at a place. -/
inductive Entry where
  | directory
  | file (content : List UInt8) (executable : Bool)
  | link (target : List Char)
deriving DecidableEq, Repr

/-- Why a text does not stand for a place, or not for one of the needed kind. -/
inductive LookupError where
  | notFound
  /-- A name stands behind something that is no directory. -/
  | notDirectory
  | isDirectory
  /-- A name or the whole text has more octets than a file system admits. -/
  | nameTooLong
  | tooManyLinks
  /-- The text holds a null character. -/
  | nullCharacter
deriving DecidableEq, Repr

/-- The entries of a tree.  The root is a directory without an entry. -/
structure FileTree where
  entries : List (Place × Entry) := []
deriving Repr

namespace FileTree

/-- The entry at a place. -/
def entry? (t : FileTree) (place : Place) : Option Entry :=
  if place = [] then some .directory else t.entries.lookup place

/-- How many symbolic links a walk follows at most. -/
def maxLinks : Nat := 40

/-- How many octets a name has at most. -/
def maxNameSize : Nat := 255

/-- How many octets a written path has at most. -/
def maxPathSize : Nat := 4095

/-- The number of octets of a text. -/
def sizeOf (s : List Char) : Nat := (String.ofList s).utf8ByteSize

/-- Where a walk over some segments leads from a directory, following links as often as allowed. -/
def follow (t : FileTree) (links : Nat) (directory : Place) :
    List (List Char) → Except LookupError Place
  | [] => .ok directory
  | segment :: more =>
    if segment = [] ∨ segment = ['.'] then t.follow links directory more
    else if segment = ['.', '.'] then t.follow links directory.dropLast more
    else
      let place := directory ++ [segment]
      match t.entry? place with
      | none => .error (if maxNameSize < sizeOf segment then .nameTooLong else .notFound)
      | some .directory => t.follow links place more
      | some (.file ..) => if more = [] then .ok place else .error .notDirectory
      | some (.link target) =>
        match links with
        | 0 => .error .tooManyLinks
        | links + 1 =>
          t.follow links (if Path.isAbsolute target then [] else directory)
            (Path.segments target ++ more)
termination_by segments => (links, segments.length)

/-- The place that a text stands for in a directory. -/
def locate (t : FileTree) (directory : Place) (s : List Char) : Except LookupError Place :=
  if s.contains '\x00' then .error .nullCharacter
  else if s = [] then .error .notFound
  else if maxPathSize < sizeOf s then .error .nameTooLong
  else t.follow maxLinks (if Path.isAbsolute s then [] else directory) (Path.segments s)

/-- The entry of what a text stands for, links followed. -/
def find (t : FileTree) (directory : Place) (s : List Char) : Except LookupError Entry := do
  let place ← t.locate directory s
  match t.entry? place with
  | some entry => .ok entry
  | none => .error .notFound

/-- The content of the file that a text stands for. -/
def read (t : FileTree) (directory : Place) (s : List Char) : Except LookupError (List UInt8) := do
  match ← t.find directory s with
  | .file content _ => .ok content
  | _ => .error .isDirectory

/-- A text that is too long to stand for a file or for nothing. -/
structure NameTooLong where
  path : List Char
deriving DecidableEq, Repr

/-- Whether a text stands for a file, if that can be said. -/
def testFile (t : FileTree) (directory : Place) (s : List Char) : Except NameTooLong Bool :=
  match t.find directory s with
  | .ok (.file ..) => .ok true
  | .error .nameTooLong => .error ⟨s⟩
  | _ => .ok false

/-- Whether a text stands for a file. -/
def isFile (t : FileTree) (directory : Place) (s : List Char) : Bool :=
  match t.find directory s with
  | .ok (.file ..) => true
  | _ => false

/-- Whether a text stands for a file that can be run. -/
def isExecutable (t : FileTree) (directory : Place) (s : List Char) : Bool :=
  match t.find directory s with
  | .ok (.file _ executable) => executable
  | _ => false

/-- The places above a place, outermost first. -/
def above (place : Place) : List Place := (List.range place.length).map place.take

/-- An entry at a place, in the directories above it. -/
def insert (t : FileTree) (place : Place) (entry : Entry) : FileTree :=
  let missing := (above place).filter fun p => (t.entry? p).isNone
  ⟨t.entries.filter (·.1 ≠ place) ++ missing.map (·, .directory) ++ [(place, entry)]⟩

/-- A tree without the entry at a place. -/
def erase (t : FileTree) (place : Place) : FileTree := ⟨t.entries.filter (·.1 ≠ place)⟩

/-- Where a text stands in the tree if its last name is not followed: the directory that holds the
name, and the name. -/
def locateLast (t : FileTree) (directory : Place) (s : List Char) : Except LookupError Place := do
  let segments := Path.segments s
  let start := if Path.isAbsolute s then [] else directory
  let above ← t.follow maxLinks start (segments.dropLast ++ [['.']])
  return above ++ [segments.getLastD []]

/-- The file or link that a text stands for is removed.  What cannot be removed stays, and a text
with a null character is refused. -/
def unlink (t : FileTree) (directory : Place) (s : List Char) : Except LookupError FileTree :=
  if s.contains '\x00' then .error .nullCharacter
  else match t.locateLast directory (Path.tidy s) with
    | .error _ => .ok t
    | .ok place => match t.entry? place with
      | some (.file ..) | some (.link _) => .ok (t.erase place)
      | _ => .ok t

/-- The written form of what stands below a place, without the place. -/
def relativeText? (directory place : Place) : Option (List Char) :=
  if directory.isPrefixOf place then
    some (Text.joinWith ['/'] (place.drop directory.length))
  else none

/-- Whether what stands at a place is a directory, or a link that leads to one. -/
def leadsToDirectory (t : FileTree) (place : Place) : Bool :=
  match t.find [] place.text with
  | .ok .directory => true
  | _ => false

/-- The files below a place and the links that lead to no directory, sorted by their written
forms. -/
def listing (t : FileTree) (directory : Place) : List String :=
  let places := t.entries.filterMap fun (place, _) =>
    if t.leadsToDirectory place then none else some place
  let texts := places.filterMap fun place => (relativeText? directory place).map String.ofList
  texts.mergeSort fun a b => a ≤ b

end FileTree

end TypeVerdict
