import TypeVerdict.Workspace.Script.Word

/-!
# The commands of a script

A project's checker may be a shell script that wraps the real one.  This is the part of the shell's
language that such wrappers need: simple commands one after the other, with quoting, parameters,
assignments, conditions and diverted channels.

## Main definitions

* `Script.Token`, `Script.lex`: the parts of a script
* `Script.Command`, `Script.commands`: its commands
-/

namespace TypeVerdict.Script

/-- The parameter that stands behind a dollar sign, its default, and what stands behind it. -/
def readParameter : List Char → Option (List Char × List Char × List Char)
  | '{' :: more =>
    let inside := more.takeWhile (· ≠ '}')
    let name := inside.takeWhile (· ≠ ':')
    some (name, inside.drop (name.length + 2), more.drop (inside.length + 1))
  | c :: more =>
    if c.isDigit || "$?#@*".toList.contains c then some ([c], [], more)
    else
      let name := (c :: more).takeWhile isNameChar
      if name.isEmpty then none else some (name, [], (c :: more).drop name.length)
  | [] => none

/-- What a dollar sign and the text behind it stand for, and what is left of the text. -/
def readDollar (quoted : Bool) (s : List Char) : Piece × List Char :=
  match readParameter s with
  | some (name, default, more) => (.parameter quoted name default, more)
  | none => (.text quoted ['$'], s)

/-- The characters that a backslash protects between double quotes. -/
def protectedChars : List Char := "$\"\\\x60".toList

/-- The pieces between double quotes, and what stands behind the closing one.  Every step takes a
character, so their number bounds the steps. -/
def readQuoted : Nat → List Char → Word × List Char
  | 0, s => ([], s)
  | _, [] => ([], [])
  | _ + 1, '"' :: more => ([], more)
  | n + 1, '$' :: more =>
    let (piece, more) := readDollar true more
    let (pieces, more) := readQuoted n more
    (piece :: pieces, more)
  | n + 1, '\\' :: c :: more =>
    let (pieces, more) := readQuoted n more
    if c = '\n' then (pieces, more)
    else if protectedChars.contains c then (.text true [c] :: pieces, more)
    else (.text true ['\\', c] :: pieces, more)
  | n + 1, c :: more =>
    let (pieces, more) := readQuoted n more
    (.text true [c] :: pieces, more)

/-- A part of a script. -/
inductive Token where
  | word (w : Word)
  /-- A channel leads where another one does, or nowhere. -/
  | divert (source : Channel) (target? : Option Channel)
  | next (newLine : Bool)
  | onSuccess
  | onFailure
deriving DecidableEq, Repr

/-- The channel of a number. -/
def channelOf (c : Char) : Option Channel :=
  match c with
  | '1' => some .output
  | '2' => some .errors
  | _ => none

/-- The word read so far, if there is one. -/
def finished (word? : Option Word) : List Token := (word?.map Token.word).toList

/-- Where a diverted channel leads, and what stands behind that. -/
def readDiversion (s : List Char) : Option Channel × List Char :=
  match s with
  | '&' :: c :: more => (channelOf c, more)
  | _ =>
    let name := s.dropWhile (· = ' ')
    (none, name.dropWhile fun c => !" \t\n;&|".toList.contains c)

/-- A character that stands for itself inside a word. -/
def isPlain (c : Char) : Bool := !" \t\n;&|>'\"\\$".toList.contains c

/-- The parts of a script from some point on, with the word read so far.  Every step takes a
character, so their number bounds the steps. -/
def lexFrom : Nat → Option Word → List Char → List Token
  | 0, word?, _ | _, word?, [] => finished word?
  | n + 1, word?, c :: more =>
    let word := word?.getD []
    match c, more with
    | ' ', _ | '\t', _ => finished word? ++ lexFrom n none more
    | ';', _ => finished word? ++ .next false :: lexFrom n none more
    | '\n', _ => finished word? ++ .next true :: lexFrom n none more
    | '&', '&' :: more => finished word? ++ .onSuccess :: lexFrom n none more
    | '|', '|' :: more => finished word? ++ .onFailure :: lexFrom n none more
    | '>', _ =>
      let (before, source) := match word? with
        | some [.text false [d]] => match channelOf d with
          | some source => ([], source)
          | none => (finished word?, .output)
        | _ => (finished word?, .output)
      let (target?, more) := readDiversion more
      before ++ .divert source target? :: lexFrom n none more
    | '\'', _ =>
      let quoted := more.takeWhile (· ≠ '\'')
      lexFrom n (some (word ++ [.text true quoted])) (more.drop (quoted.length + 1))
    | '"', _ =>
      let (pieces, more) := readQuoted n more
      lexFrom n (some (word ++ if pieces.isEmpty then [.text true []] else pieces)) more
    | '\\', d :: more =>
      if d = '\n' then lexFrom n word? more
      else lexFrom n (some (word ++ [.text true [d]])) more
    | '$', _ =>
      let (piece, more) := readDollar false more
      lexFrom n (some (word ++ [piece])) more
    | _, _ =>
      if c = '#' && word?.isNone then lexFrom n none (more.dropWhile (· ≠ '\n'))
      else
        let plain := more.takeWhile isPlain
        lexFrom n (some (word ++ [.text false (c :: plain)])) (more.drop plain.length)

/-- The parts of a script. -/
def lex (script : List Char) : List Token := lexFrom script.length none script

/-- When a command is run, by the status of the command before it. -/
inductive Condition where
  | always
  | onSuccess
  | onFailure
deriving DecidableEq, Repr

/-- A simple command. -/
structure Command where
  condition : Condition := .always
  line : Nat := 1
  words : List Word := []
  diversions : List (Channel × Option Channel) := []
deriving DecidableEq, Repr

/-- The commands of a script, the first of which has been read in part. -/
def commandsFrom (c : Command) : List Token → List Command
  | [] => [c]
  | .word w :: more => commandsFrom { c with words := c.words ++ [w] } more
  | .divert source target? :: more =>
    commandsFrom { c with diversions := c.diversions ++ [(source, target?)] } more
  | .next newLine :: more => c :: commandsFrom { line := c.line + newLine.toNat } more
  | .onSuccess :: more => c :: commandsFrom { condition := .onSuccess, line := c.line } more
  | .onFailure :: more => c :: commandsFrom { condition := .onFailure, line := c.line } more

/-- The commands of a script. -/
def commands (script : List Char) : List Command :=
  (commandsFrom {} (lex script)).filter (·.words ≠ [])

namespace Command

/-- The assignments that a command begins with, and the words behind them. -/
def assignments : List Word → List (List Char × Word) × List Word
  | [] => ([], [])
  | w :: more => match w.assignment? with
    | none => ([], w :: more)
    | some a =>
      let (found, words) := assignments more
      (a :: found, words)

end Command

end TypeVerdict.Script
