import TypeVerdict.Text.Quoted
import TypeVerdict.Workspace.FileTree

/-!
# Errors of the operating system

What the operating system says when it does not do what it is asked to, and how that is worded: by
its number, a fixed sentence, and the file in question between quotes.

## Main definitions

* `SystemError`: the errors
* `SystemError.about`: how an error about a file is worded
* `SystemError.ofLookup`: the error that a failed lookup is
-/

namespace TypeVerdict

/-- The errors of the operating system that a run of the type checker meets. -/
inductive SystemError where
  | notFound
  | notProgram
  | notPermitted
  | notDirectory
  | isDirectory
  | nameTooLong
  | tooManyLinks
deriving DecidableEq, Repr

namespace SystemError

/-- The number of an error. -/
def number : SystemError → Nat
  | notFound => 2
  | notProgram => 8
  | notPermitted => 13
  | notDirectory => 20
  | isDirectory => 21
  | nameTooLong => 36
  | tooManyLinks => 40

/-- The sentence for an error. -/
def sentence : SystemError → String
  | notFound => "No such file or directory"
  | notProgram => "Exec format error"
  | notPermitted => "Permission denied"
  | notDirectory => "Not a directory"
  | isDirectory => "Is a directory"
  | nameTooLong => "File name too long"
  | tooManyLinks => "Too many levels of symbolic links"

/-- How an error about a file is worded. -/
def about (e : SystemError) (path : List Char) : String :=
  s!"[Errno {e.number}] {e.sentence}: {String.ofList (Text.quoted path)}"

/-- The error that a failed lookup is.  A text with a null character names no file. -/
def ofLookup : LookupError → SystemError
  | .notFound | .nullCharacter => notFound
  | .notDirectory => notDirectory
  | .isDirectory => isDirectory
  | .nameTooLong => nameTooLong
  | .tooManyLinks => tooManyLinks

end SystemError

end TypeVerdict
