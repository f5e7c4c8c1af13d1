import TypeVerdict.Text.Lines
import TypeVerdict.Workspace.Program

/-!
# Built-in commands

The few commands that scripts know by themselves.  Each also stands as a program of its own.

## Main definitions

* `Script.escape`: what a backslash stands for
* `Script.formatAll`: a format with its arguments
* `Script.builtinEffect`: what a built-in command does
* `Script.builtin`: a built-in command as a program of its own
-/

namespace TypeVerdict.Script

/-- What a backslash and the text behind it stand for, and what is left of the text.  Octal digits
name an octet; where a text is echoed, they begin with a zero of their own. -/
def escape (echoed : Bool) (s : List Char) : List UInt8 × List Char :=
  match s with
  | [] => (octetsOf ['\\'], [])
  | c :: more =>
    match "abfnrtv\\".toList.idxOf? c with
    | some n => ([[7, 8, 12, 10, 13, 9, 11, 92].getD n 0], more)
    | none =>
      let start := if echoed && c = '0' then more else s
      let digits := (start.take 3).takeWhile fun d => '0' ≤ d ∧ d ≤ '7'
      if digits.isEmpty || echoed && c ≠ '0' then (octetsOf ['\\', c], more)
      else
        let value := digits.foldl (fun n d => n * 8 + (d.toNat - '0'.toNat)) 0
        ([UInt8.ofNat value], start.drop digits.length)

/-- A text to be echoed, its escapes resolved; the first number bounds the steps. -/
def echoed : Nat → List Char → List UInt8
  | 0, _ | _, [] => []
  | n + 1, '\\' :: more =>
    let (found, more) := escape true more
    found ++ echoed n more
  | n + 1, c :: more => octetsOf [c] ++ echoed n more

/-- One pass over a format: what it writes, and the arguments it leaves. -/
def formatOnce : Nat → List Char → List (List Char) → List UInt8 × List (List Char)
  | 0, _, arguments | _, [], arguments => ([], arguments)
  | n + 1, '\\' :: more, arguments =>
    let (found, more) := escape false more
    let (written, arguments) := formatOnce n more arguments
    (found ++ written, arguments)
  | n + 1, '%' :: '%' :: more, arguments =>
    let (written, arguments) := formatOnce n more arguments
    (octetsOf ['%'] ++ written, arguments)
  | n + 1, '%' :: 's' :: more, arguments =>
    let (written, left) := formatOnce n more (arguments.drop 1)
    (octetsOf (arguments.headD []) ++ written, left)
  | n + 1, '%' :: 'd' :: more, arguments =>
    let (written, left) := formatOnce n more (arguments.drop 1)
    (octetsOf (arguments.headD ['0']) ++ written, left)
  | n + 1, c :: more, arguments =>
    let (written, arguments) := formatOnce n more arguments
    (octetsOf [c] ++ written, arguments)

/-- A format that is used until no argument is left; the first number bounds the passes. -/
def formatAll : Nat → List Char → List (List Char) → List UInt8
  | 0, _, _ => []
  | n + 1, format, arguments =>
    let (written, left) := formatOnce format.length format arguments
    if left.isEmpty || left.length = arguments.length then written
    else written ++ formatAll n format left

/-- What a command does. -/
structure Effect where
  written : List (Channel × List UInt8) := []
  status : Nat := 0
  ending? : Option ProgramEnd := none
deriving DecidableEq, Repr

/-- What a built-in command does; none if there is no such command. -/
def builtinEffect (i : Invocation) (name : List Char) (arguments : List (List Char)) :
    Option Effect :=
  match String.ofList name with
  | "echo" =>
    let (shown, last) := match arguments with
      | ['-', 'n'] :: shown => (shown, [])
      | shown => (shown, ['\n'])
    let text := Text.joinWith [' '] shown
    some { written := [(.output, echoed text.length text ++ octetsOf last)] }
  | "printf" => match arguments with
    | format :: values =>
      some { written := [(.output, formatAll (values.length + 1) format values)] }
    | [] => some { status := 2 }
  | "pwd" => some { written := [(.output, octetsOf (i.directory ++ ['\n']))] }
  | "cat" =>
    let contents := arguments.map i.read
    some {
      written := contents.filterMap fun content? => content?.map ((.output, ·))
      status := if contents.all (·.isSome) then 0 else 1 }
  | "true" | "sleep" => some {}
  | "false" => some { status := 1 }
  | _ => none

/-- A built-in command as a program of its own. -/
def builtin (name : String) : Program := fun i =>
  let effect := (builtinEffect i name.toList (i.arguments.drop 1)).getD { status := 127 }
  { written := effect.written, ending := .exits effect.status }

end TypeVerdict.Script
