import TypeVerdict.Text.Blank
import TypeVerdict.Text.Digit
import TypeVerdict.Text.Word

/-!
# Patterns

The regular expressions by which a watching checker's banners are found.

## Main definitions

* `Pattern.CharClass`: a set of characters
* `Pattern`: a regular expression
* `Pattern.literal`: the pattern of a fixed text
-/

namespace TypeVerdict

namespace Pattern

/-- The classes of characters that have an escape of their own. -/
inductive ClassName where
  | digit
  | word
  | blank
deriving DecidableEq, Repr

/-- Whether a character belongs to a named class. -/
def ClassName.holds : ClassName → Char → Bool
  | digit, c => Text.isDigit c
  | word, c => Text.isWord c
  | blank, c => Text.isBlank c

/-- A member of a bracketed set: a range of code points or a named class, possibly negated. -/
inductive SetItem where
  | range (low high : Nat)
  | named (name : ClassName) (negated : Bool)
deriving DecidableEq, Repr

/-- Whether a member of a set covers a character. -/
def SetItem.holds (c : Char) : SetItem → Bool
  | range low high => low ≤ c.toNat && c.toNat ≤ high
  | named name negated => name.holds c != negated

/-- A set of characters: any character but a line feed, or a bracketed set, possibly negated. -/
inductive CharClass where
  | any
  | set (negated : Bool) (items : List SetItem)
deriving DecidableEq, Repr

/-- Whether a character belongs to a set. -/
def CharClass.holds (c : Char) : CharClass → Bool
  | any => c ≠ '\n'
  | set negated items => items.any (·.holds c) != negated

/-- A place in a text that a pattern can ask for. -/
inductive Anchor where
  /-- The start of the text. -/
  | start
  /-- The end of the text, or before a line feed that ends it. -/
  | lineEnd
  /-- The end of the text. -/
  | stop
  /-- A border between a word character and any other, in a text that is not empty. -/
  | boundary
  /-- No such border, in a text that is not empty. -/
  | inside
deriving DecidableEq, Repr

/-- How the number of repetitions is tried: the most first, the least first, or only the most, each
of which is matched once and for all. -/
inductive Greed where
  | greedy
  | lazy
  | possessive
deriving DecidableEq, Repr

end Pattern

open Pattern in
/-- A regular expression. -/
inductive Pattern where
  | empty
  | one (c : CharClass)
  | anchor (a : Anchor)
  | seq (p q : Pattern)
  | alt (p q : Pattern)
  | group (p : Pattern)
  | atomic (p : Pattern)
  | look (negated : Bool) (p : Pattern)
  | repeated (greed : Greed) (min : Nat) (max? : Option Nat) (p : Pattern)
deriving DecidableEq, Repr

namespace Pattern

/-- The pattern of a single character. -/
def char (c : Char) : Pattern := one (.set false [.range c.toNat c.toNat])

/-- Patterns one after the other. -/
def chain : List Pattern → Pattern
  | [] => empty
  | [p] => p
  | p :: q :: more => seq p (chain (q :: more))

/-- The pattern of a fixed text. -/
def literal (s : List Char) : Pattern := chain (s.map char)

/-- Whether a pattern asks for a place only. -/
def isAnchor : Pattern → Bool
  | anchor _ => true
  | _ => false

/-- Whether a pattern is a repetition. -/
def isRepeated : Pattern → Bool
  | repeated .. => true
  | _ => false

end Pattern

end TypeVerdict
