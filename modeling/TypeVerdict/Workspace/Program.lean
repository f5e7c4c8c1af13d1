/-!
# Programs

A program as the one that starts it sees it: what it writes, in which order, and how it ends.

## Main definitions

* `Run`: what a program writes, and how it ends
* `Invocation`: how a program is started
* `Program`: a program, by its runs
-/

namespace TypeVerdict

/-- Where a program writes. -/
inductive Channel where
  | output
  | errors
deriving DecidableEq, Repr

/-- How a program ends. -/
inductive ProgramEnd where
  | exits (status : Nat)
  | killed (signal : Nat)
deriving DecidableEq, Repr

/-- The status of a program for the one that waits for it: eight bits of what the program gave, or
the negative number of the signal that ended it. -/
def ProgramEnd.status : ProgramEnd → Int
  | exits status => status % 256
  | killed signal => -signal

/-- What a program writes, in order, and how it ends. -/
structure Run where
  written : List (Channel × List UInt8) := []
  ending : ProgramEnd
deriving DecidableEq, Repr

/-- How a program is started. -/
structure Invocation where
  /-- The name that the program was started by, and its arguments. -/
  arguments : List (List Char)
  /-- The written form of the directory that it runs in. -/
  directory : List Char
  environment : List (List Char × List Char) := []
  /-- The content of the file that a text stands for, if there is one. -/
  read : List Char → Option (List UInt8)

/-- A program, by its runs. -/
abbrev Program := Invocation → Run

/-- A text as octets. -/
def octetsOf (s : List Char) : List UInt8 := (String.ofList s).toUTF8.toList

end TypeVerdict
