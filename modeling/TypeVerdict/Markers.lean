import TypeVerdict.Pattern.Bounds
import TypeVerdict.Pattern.Parser

/-!
# Watch markers

A checker that watches the files prints a banner when it starts over after a change and another
when it has finished a pass.  Checkers phrase them differently, so both are patterns.

## Main definitions

* `Search`: what finds a match in a text
* `Marker`: a search with the text that writes it
* `Markers`: the two banners
* `Markers.standard`: the banners of the standard checker

## Design notes

A session asks where a banner is found and not how.  So a marker carries a search, of which nothing
is known but where a match can lie, and whatever holds of all markers holds of every language of
patterns.  The texts that can be read are those of `Pattern.parse`, which leaves out inline flags,
lookbehind, references to groups and conditions.
-/

namespace TypeVerdict

/-- What finds a match in a text, at or behind an offset: its start and end. -/
structure Search where
  find : List Char → Nat → Option (Nat × Nat)
  /-- A match lies at or behind the offset and inside the text, and does not end before it
  begins. -/
  bounds {s : List Char} {offset start stop : Nat} : find s offset = some (start, stop) →
    min offset s.length ≤ start ∧ start ≤ stop ∧ stop ≤ s.length

/-- The search for a pattern. -/
def Search.ofPattern (p : Pattern) : Search := ⟨fun s offset => p.find s offset, p.find_bounds⟩

/-- A search with the text that writes it. -/
structure Marker where
  text : String
  search : Search

namespace Marker

/-- The marker that a text writes. -/
def ofText (text : String) : Except Pattern.Error Marker :=
  (Pattern.parse text.toList).map fun p => ⟨text, .ofPattern p⟩

/-- Whether a text has a marker in it. -/
def occursIn (m : Marker) (s : List Char) : Bool := (m.search.find s 0).isSome

end Marker

/-- The banners that delimit the passes of a watching checker: one announces that it starts over,
the other that a pass is complete. -/
structure Markers where
  rerun : Marker
  passEnd : Marker

namespace Markers

/-- The text of the standard checker's banner for starting over. -/
def rerunText : String := "File change detected"

/-- The text of the standard checker's banner for a complete pass. -/
def passEndText : String := "Found \\w+ errors?\\. Watching for"

/-- The standard checker's banner for starting over. -/
def rerunPattern : Pattern := Pattern.literal rerunText.toList

/-- The standard checker's banner for a complete pass. -/
def passEndPattern : Pattern :=
  .chain ("Found ".toList.map Pattern.char ++
    [.repeated .greedy 1 none (.one (.set false [.named .word false]))] ++
    " error".toList.map Pattern.char ++
    [.repeated .greedy 0 (some 1) (.char 's')] ++
    ". Watching for".toList.map Pattern.char)

/-- The banners of the standard checker. -/
def standard : Markers where
  rerun := ⟨rerunText, .ofPattern rerunPattern⟩
  passEnd := ⟨passEndText, .ofPattern passEndPattern⟩

/-- The markers that two texts write. -/
def ofTexts (rerun passEnd : String) : Except Pattern.Error Markers := do
  return ⟨← Marker.ofText rerun, ← Marker.ofText passEnd⟩

/-- The first announcement of a new pass at or behind an offset. -/
def nextRerun? (m : Markers) (output : List Char) (offset : Nat := 0) : Option (Nat × Nat) :=
  m.rerun.search.find output offset

/-- The first announcement of a complete pass at or behind an offset. -/
def nextPassEnd? (m : Markers) (output : List Char) (offset : Nat := 0) :
    Option (Nat × Nat) :=
  m.passEnd.search.find output offset

/-- Whether an output announces a new pass. -/
def announcesRerun (m : Markers) (output : List Char) : Bool := m.rerun.occursIn output

/-- Whether an output announces a complete pass. -/
def announcesPassEnd (m : Markers) (output : List Char) : Bool := m.passEnd.occursIn output

end Markers

end TypeVerdict
