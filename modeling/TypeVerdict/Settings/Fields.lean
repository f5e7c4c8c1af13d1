import TypeVerdict.Settings.Basic
import TypeVerdict.Text.Quoted

/-!
# Validating settings

How the values of the fields are read, and which are refused.

## Main definitions

* `Settings.readFlag`: a truth value
* `Settings.readGlobs`: the globs of the files to check
* `Settings.checkPattern`: the pattern of a marker
* `Settings.validate`: the configuration that some values make
-/

namespace TypeVerdict.Settings

/-- Values for fields, by name. -/
abbrev Values := List (String × Json)

/-- The value of a field, or why it is refused. -/
abbrev Checked (α : Type) := Except (List Problem) α

/-- A refusal of a field's value. -/
def refuse {α : Type} (field : String) (cause : Cause) : Checked α := .error [{ field, cause }]

/-- A text. -/
def readText (field : String) : Json → Checked String
  | .text s => .ok s
  | _ => refuse field .notText

/-- A text or nothing. -/
def readText? (field : String) : Json → Checked (Option String)
  | .null => .ok none
  | .text s => .ok (some s)
  | _ => refuse field .notText

/-- One of a few words. -/
def readWord {α : Type} (field : String) (all : List α) (word : α → String) : Json → Checked α
  | .text s => match all.find? (word · = s) with
    | some a => .ok a
    | none => refuse field .notListed
  | _ => refuse field .notListed

/-- The words for true and false, in lower case. -/
def flagWords : List (String × Bool) :=
  [("1", true), ("true", true), ("t", true), ("yes", true), ("y", true), ("on", true),
    ("0", false), ("false", false), ("f", false), ("no", false), ("n", false), ("off", false)]

/-- The exponents of numbers are looked at up to this size. -/
def maxExponent : Nat := 400

/-- A number that is whole though it is written with a fraction or exponent.  One that is far too
large for a double counts as infinite, and one that is far too small as zero. -/
def whole? (mantissa exponent : Int) : Option Int :=
  if mantissa = 0 then some 0
  else if 0 ≤ exponent then
    if exponent ≤ maxExponent then some (mantissa * Int.pow 10 exponent.toNat) else none
  else
    let places := (-exponent).toNat
    if mantissa.natAbs.log2 + maxExponent < places then some 0
    else
      let unit : Int := Int.pow 10 places
      if mantissa % unit = 0 then some (mantissa / unit) else none

/-- A truth value given as a number; one of more than 64 bits is not even looked at. -/
def flagOfInt (field : String) (n : Int) : Checked Bool :=
  if n = 1 then .ok true
  else if n = 0 then .ok false
  else if -Int.pow 2 63 ≤ n ∧ n < Int.pow 2 63 then refuse field .unreadableTruthValue
  else refuse field .notTruthValue

/-- A truth value: given as such, by a word in any case, or by one of the numbers 0 and 1. -/
def readFlag (field : String) : Json → Checked Bool
  | .bool b => .ok b
  | .text s => match flagWords.lookup (s.map Char.toLower) with
    | some b => .ok b
    | none => refuse field .unreadableTruthValue
  | .int n => flagOfInt field n
  | .real mantissa exponent => match whole? mantissa exponent with
    | some n => flagOfInt field n
    | none => refuse field .notTruthValue
  | _ => refuse field .notTruthValue

/-- The items of a list of texts from a place on; every item that is no text is refused. -/
def readItems (field : String) (index : Nat) : List Json → Checked (List String)
  | [] => .ok []
  | item :: items =>
    match item, readItems field (index + 1) items with
    | .text s, .ok rest => .ok (s :: rest)
    | .text _, .error problems => .error problems
    | _, .ok _ => .error [⟨field, some index, .notText⟩]
    | _, .error problems => .error (⟨field, some index, .notText⟩ :: problems)

/-- What is said when there is no glob to check. -/
def noGlobs : String := "include must contain at least one non-empty glob"

/-- The globs of the files to check: at least one, none of them blank. -/
def readGlobs (field : String) : Json → Checked (List String)
  | .array items => do
    let globs ← readItems field 0 items
    if globs.isEmpty || globs.any (Text.isBlankText ·.toList) then
      refuse field (.rejected noGlobs)
    else .ok globs
  | _ => refuse field .notList

/-- Why a text is no pattern of a marker. -/
inductive PatternProblem where
  | empty
  | faulty (cause : Pattern.Error)
  | matchesEmpty
deriving DecidableEq, Repr

/-- How a text that is no pattern of a marker is reported. -/
def PatternProblem.message (text : String) : PatternProblem → String
  | empty => "marker pattern must be non-empty"
  | faulty cause@(.fault ..) =>
    s!"invalid marker pattern {String.ofList (Text.quoted text.toList)}: " ++
      cause.message text.toList
  | faulty cause@(.limit _) => cause.message text.toList
  | matchesEmpty =>
    s!"marker pattern {String.ofList (Text.quoted text.toList)} must not match empty text"

/-- The marker of a text: the text is not empty, it is a pattern, and the pattern does not match
in the empty text.  What texts are patterns depends on their language. -/
def checkPattern (text : String)
    (compile : String → Except Pattern.Error Marker := Marker.ofText) :
    Except PatternProblem Marker :=
  if text.isEmpty then .error .empty
  else match compile text with
    | .error cause => .error (.faulty cause)
    | .ok marker => if marker.occursIn [] then .error .matchesEmpty else .ok marker

/-- The pattern of a marker. -/
def readMarker (field : String) : Json → Checked Marker
  | .text s => match checkPattern s with
    | .ok marker => .ok marker
    | .error cause => refuse field (.rejected (cause.message s))
  | _ => refuse field .notText

/-- A field of the configuration: its value if it is given, else its default. -/
def field {α : Type} (values : Values) (name : String) (read : String → Json → Checked α)
    (default : α) : Checked α :=
  match values.lookup name with
  | some value => read name value
  | none => .ok default

/-- The problems of a checked value. -/
def problemsOf {α : Type} : Checked α → List Problem
  | .ok _ => []
  | .error problems => problems

/-- The names of the fields, in their order. -/
def fieldNames : List String :=
  ["root", "checker", "tsconfig", "include", "allow_js", "watch", "rerun_pattern",
    "pass_complete_pattern", "log_level", "log_format"]

/-- The problems of values whose names no field has. -/
def unknownNames (values : Values) : List Problem :=
  (values.filter fun (name, _) => !fieldNames.contains name).map fun (name, _) =>
    { field := name, cause := .unknownName }

/-- The configuration that some values make, or all their problems: those of the fields in order,
then the unknown names. -/
def validate (values : Values) : Except (List Problem) Settings :=
  let standard : Settings := {}
  let root := field values "root" readText standard.root
  let checker := field values "checker" (readWord · Checker.all Checker.word) standard.checker
  let tsconfig := field values "tsconfig" readText? standard.tsconfig?
  let globs := field values "include" readGlobs standard.globs
  let allowJs := field values "allow_js" readFlag standard.allowJs
  let watch := field values "watch" readFlag standard.watch
  let rerun := field values "rerun_pattern" readMarker standard.markers.rerun
  let passEnd :=
    field values "pass_complete_pattern" readMarker standard.markers.passEnd
  let logLevel := field values "log_level" (readWord · Log.Level.all Log.Level.word)
    standard.logLevel
  let logFormat := field values "log_format" (readWord · [Log.Format.json, .text] Log.Format.word)
    standard.logFormat
  let problems := problemsOf root ++ problemsOf checker ++ problemsOf tsconfig ++
    problemsOf globs ++ problemsOf allowJs ++ problemsOf watch ++ problemsOf rerun ++
    problemsOf passEnd ++ problemsOf logLevel ++ problemsOf logFormat ++ unknownNames values
  if problems.isEmpty then do
    return {
      root := ← root
      checker := ← checker
      tsconfig? := ← tsconfig
      globs := ← globs
      allowJs := ← allowJs
      watch := ← watch
      markers := ⟨← rerun, ← passEnd⟩
      logLevel := ← logLevel
      logFormat := ← logFormat }
  else .error problems

end TypeVerdict.Settings
