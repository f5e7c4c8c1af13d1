import TypeVerdict.Text.Lines

/-!
# Absolute paths

Files are named by absolute paths without redundancy: a path is its list of plain names, under a
root that is written with one slash or, when the text begins with exactly two, with two.  A text
is resolved against a directory by walking its segments: an empty segment and `.` stay, `..` goes
up (and stays at the root), and any other segment goes down.

## Main definitions

* `Path`: an absolute path
* `Path.walk`: where a list of segments leads
* `Path.resolve`: a text resolved against a root directory
* `Path.relativeTo`: how a path is written relative to a directory
* `Path.text`: the written form of a path
* `Path.attach`, `Path.tidy`: written paths that may lead through links
-/

namespace TypeVerdict

/-- A name is plain when it can stand between two slashes of a path without redundancy. -/
def PlainName (name : List Char) : Prop :=
  name ≠ [] ∧ name ≠ ['.'] ∧ name ≠ ['.', '.'] ∧ '/' ∉ name

/-- An absolute path: its root's spelling and its names, outermost first. -/
structure Path where
  doubleSlash : Bool
  names : List (List Char)
deriving DecidableEq, Repr

namespace Path

/-- The root directory. -/
def root : Path := ⟨false, []⟩

/-- One step of a walk, on the names passed so far. -/
def step (names : List (List Char)) (segment : List Char) : List (List Char) :=
  if segment = [] ∨ segment = ['.'] then names
  else if segment = ['.', '.'] then names.dropLast
  else names ++ [segment]

/-- Where a list of segments leads from a list of names. -/
def walk (names segments : List (List Char)) : List (List Char) := segments.foldl step names

/-- The segments of a written path. -/
def segments (s : List Char) : List (List Char) := Text.splitAt '/' s

/-- A text that begins with a slash stands for an absolute path. -/
def isAbsolute (s : List Char) : Bool := s.head? = some '/'

/-- Exactly two leading slashes are a spelling of the root of their own. -/
def hasDoubleSlash : List Char → Bool
  | '/' :: '/' :: '/' :: _ => false
  | '/' :: '/' :: _ => true
  | _ => false

/-- The path that a text stands for in a directory. -/
def within (directory : Path) (s : List Char) : Path :=
  if isAbsolute s then ⟨hasDoubleSlash s, walk [] (segments s)⟩
  else { directory with names := walk directory.names (segments s) }

/-- The path that a text stands for in a root directory, itself given as text. -/
def resolve (rootText s : List Char) : Path := within (within root rootText) s

/-- The two spellings of the root. -/
def rootText (doubleSlash : Bool) : List Char := if doubleSlash then ['/', '/'] else ['/']

/-- The written form of a path. -/
def text (p : Path) : List Char := rootText p.doubleSlash ++ Text.joinWith ['/'] p.names

/-- The names left over when two lists of names lose their common beginning. -/
def dropCommon : List (List Char) → List (List Char) → List (List Char) × List (List Char)
  | a :: as, b :: bs => if a = b then dropCommon as bs else (a :: as, b :: bs)
  | as, bs => (as, bs)

/-- How a path is written relative to a directory: up to the nearest common directory, then down;
a dot for the directory itself. -/
def relativeTo (p directory : Path) : List Char :=
  let (down, up) := dropCommon p.names directory.names
  match up.map (fun _ => ['.', '.']) ++ down with
  | [] => ['.']
  | names => Text.joinWith ['/'] names

/-! ### Written paths

Where links are followed, `..` leads out of a link's target and not out of the link, so a written
path is not the same as the path it resolves to. -/

/-- A text written behind the text of a directory; an absolute text stands for itself. -/
def attach (directory s : List Char) : List Char :=
  if isAbsolute s then s
  else if directory.getLastD '/' = '/' then directory ++ s
  else directory ++ '/' :: s

/-- A written path without the segments that stay. -/
def tidy (s : List Char) : List Char :=
  let moving := (segments s).filter fun segment => segment ≠ [] ∧ segment ≠ ['.']
  if isAbsolute s then rootText (hasDoubleSlash s) ++ Text.joinWith ['/'] moving
  else if moving.isEmpty then ['.']
  else Text.joinWith ['/'] moving

/-- The written form of the path that a text stands for in a root directory. -/
def resolveText (rootText s : String) : String :=
  String.ofList (resolve rootText.toList s.toList).text

/-- A path is never written as nothing. -/
theorem resolveText_ne_empty (root path : String) : resolveText root path ≠ "" := by
  intro empty
  have chars := congrArg String.toList empty
  rw [resolveText, String.toList_ofList, text, rootText] at chars
  split at chars <;> simp at chars

end Path

end TypeVerdict
