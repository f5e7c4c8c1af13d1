import TypeVerdict.Json.Parser
import TypeVerdict.SourceMap.Vlq

/-!
# Source maps

A source map says which place of an authored text each place of a generated text comes from.  It
is a JSON object whose `mappings` list, line by line of the generated text and separated by
semicolons, the segments of the line, separated by commas.  A segment starts a stretch of the line:
its column is counted from the segment before, and its source, line, column and name from the last
segment that had them.

## Main definitions

* `SourceMap.Source`: a source map as an object or as its text
* `SourceMap.Mapping`: the start of a stretch with the place that it comes from
* `SourceMap.decode`: the mappings of a source map, by generated line

## Design notes

A map that is malformed is told apart from one that cannot be judged at all (`DecodeError`): the
first kind is taken for no map, the second is an error of the request.

Only the text of a map can be nested too deeply.  A map given as an object is decoded as it stands,
without being written out before; that this could fail for its depth is left out.
-/

namespace TypeVerdict

namespace SourceMap

open Text

/-- A source map as it was collected: a decoded object or the text of one. -/
inductive Source where
  | object (value : Json)
  | text (s : String)
deriving Repr

/-- The start of a stretch of generated text, by its line and column, and the authored place that
it comes from; everything is counted from zero. -/
structure Mapping where
  line : Nat
  column : Nat
  sourceLine : Nat
  sourceColumn : Nat
deriving DecidableEq, Repr

/-- Why a source map has no mappings. -/
inductive DecodeError where
  /-- The map is not what its format asks for. -/
  | malformed
  /-- The protective first line is all that there is. -/
  | headerOnly
  /-- The mappings are no text. -/
  | mappingsNotText
  /-- A segment holds a character that no alphabet of the format reaches. -/
  | foreignCharacter
  /-- A segment leads to a negative line or column. -/
  | negativeCoordinate
  /-- The map's text is nested too deeply to be read. -/
  | tooDeep
deriving DecidableEq, Repr

/-- Where the running quantities of the map stand; they go on from line to line. -/
structure Cursor where
  source : Int := 0
  line : Int := 0
  column : Int := 0
  name : Int := 0
deriving DecidableEq, Repr

/-- What the references of segments are checked against: how many sources and names there are.
Sources that cannot be counted and indexed have no number. -/
structure Limits where
  sources? : Option Nat
  names : Nat
deriving DecidableEq, Repr

/-- An index into a list of the given length. -/
def inRange (i : Int) (n : Nat) : Bool := 0 ≤ i && i < n

/-- The cursor after a segment's fields behind its column. -/
def Cursor.advance (limits : Limits) (cur : Cursor) : List Int → Except DecodeError Cursor
  | [] => .ok cur
  | source :: line :: column :: rest => do
    let some count := limits.sources? | .error .malformed
    if !inRange (cur.source + source) count then .error .malformed
    let name := match rest with
      | [] => cur.name
      | name :: _ => cur.name + name
    if !rest.isEmpty && !inRange name limits.names then .error .malformed
    return ⟨cur.source + source, cur.line + line, cur.column + column, name⟩
  | _ => .error .malformed

/-- The mapping that a segment starts, with the column and cursor after it. -/
def decodeSegment (limits : Limits) (line : Nat) (column : Int) (cur : Cursor)
    (segment : List Char) : Except DecodeError (Mapping × Int × Cursor) := do
  match quantities segment with
  | .error (.foreignCharacter _) => .error .foreignCharacter
  | .error .unfinished => .error .malformed
  | .ok [] => .error .malformed
  | .ok (step :: fields) =>
    let column := column + step
    let cur ← cur.advance limits fields
    if column < 0 ∨ cur.line < 0 ∨ cur.column < 0 then .error .negativeCoordinate
    return (⟨line, column.toNat, cur.line.toNat, cur.column.toNat⟩, column, cur)

/-- The mappings of a line's segments; empty segments are skipped. -/
def decodeSegments (limits : Limits) (line : Nat) (column : Int) (cur : Cursor) :
    List (List Char) → Except DecodeError (List Mapping × Cursor)
  | [] => .ok ([], cur)
  | [] :: more => decodeSegments limits line column cur more
  | segment :: more => do
    let (mapping, column, cur) ← decodeSegment limits line column cur segment
    let (mappings, cur) ← decodeSegments limits line column cur more
    return (mapping :: mappings, cur)

/-- The mappings of all lines, from a given line on. -/
def decodeLines (limits : Limits) (line : Nat) (cur : Cursor) :
    List (List Char) → Except DecodeError (List (List Mapping))
  | [] => .ok []
  | text :: more => do
    let (mappings, cur) ← decodeSegments limits line 0 cur (splitAt ',' text)
    let rest ← decodeLines limits (line + 1) cur more
    return mappings :: rest

/-- Some maps begin with a line that keeps them from being run as a script. -/
def dropHeader (s : List Char) : Except DecodeError (List Char) :=
  match stripPrefix? (lit ")]\x7d") s with
  | none => .ok s
  | some _ => match s.dropWhile (· ≠ '\n') with
    | [] => .error .headerOnly
    | _ :: r => .ok r

/-- The number of names; each is read as text, whatever it is. -/
def nameCount : Json → Except DecodeError Nat
  | .array items => .ok items.length
  | .object fields => .ok fields.length
  | .text s => .ok s.length
  | _ => .error .malformed

/-- Whether a value is text. -/
def isText : Json → Bool
  | .text _ => true
  | _ => false

/-- The number of sources.  Under a common root each of them has to be text. -/
def sourceCount (root? : Option Json) (sources : Json) : Except DecodeError (Option Nat) :=
  match root?, sources with
  | none, .array items => .ok (some items.length)
  | none, .text s => .ok (some s.length)
  | none, _ => .ok none
  | some root, .array items =>
    if items.isEmpty || (isText root && items.all isText) then .ok (some items.length)
    else .error .malformed
  | some root, .text s =>
    if s.isEmpty || isText root then .ok (some s.length) else .error .malformed
  | some root, .object fields =>
    if fields.isEmpty || isText root then .ok (some fields.length) else .error .malformed
  | some _, _ => .error .malformed

/-- The common root of the sources; `null` is none. -/
def sourceRoot? (map : Json) : Option Json :=
  match map.field? "sourceRoot" with
  | some .null => none
  | found => found

/-- The mappings of a source map given as an object. -/
def decodeJson (map : Json) : Except DecodeError (List (List Mapping)) := do
  let some sources := map.field? "sources" | .error .malformed
  let some names := map.field? "names" | .error .malformed
  let names ← nameCount names
  match map.field? "mappings" with
  | none => .error .malformed
  | some (.text mappings) =>
    let sources? ← sourceCount (sourceRoot? map) sources
    decodeLines ⟨sources?, names⟩ 0 {} (splitAt ';' mappings.toList)
  | some _ => .error .mappingsNotText

/-- The mappings of a source map, by generated line. -/
def decode : Source → Except DecodeError (List (List Mapping))
  | .object map => decodeJson map
  | .text s => do
    let body ← dropHeader s.toList
    match Json.parse body with
    | .error .malformed => .error .malformed
    | .error .tooDeep => .error .tooDeep
    | .ok map => decodeJson map

end SourceMap

end TypeVerdict
