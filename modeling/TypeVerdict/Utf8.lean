/-!
# Decoding UTF-8

A checker's output arrives as reads of octets that may end inside a character.  The decoder keeps
the octets of an unfinished character between reads and replaces every maximal part that begins no
character by U+FFFD.  The encoding of a surrogate is no character; its first two octets wait for the
next one before they are given up.

## Main definitions

* `Utf8.Partial`: what is known inside a character
* `Utf8.Pending`: what the decoder keeps between octets
* `Utf8.step`: one octet
* `Utf8.decode`: the text of a sequence of octets
* `Utf8.decode?`: the same, if it is well formed
* `Utf8.texts`: the texts of the reads of a stream
-/

namespace TypeVerdict.Utf8

/-- An octet. -/
abbrev Octet := UInt8

/-- The character that stands for octets that are no character. -/
def replacement : Char := '\uFFFD'

/-- What is known inside a character: how many octets are missing, what those read so far
contribute, and the bounds of the next one. -/
structure Partial where
  missing : Nat
  value : Nat
  low : Nat
  high : Nat
deriving DecidableEq, Repr

/-- What an octet means outside a character: a character by itself, the start of one, or neither. -/
inductive Lead where
  | character (c : Char)
  | start (p : Partial)
  | stray
deriving DecidableEq, Repr

/-- What an octet means outside a character. -/
def lead (b : Octet) : Lead :=
  let n := b.toNat
  if n < 0x80 then .character (Char.ofNat n)
  else if n < 0xC2 then .stray
  else if n < 0xE0 then .start ⟨1, n - 0xC0, 0x80, 0xBF⟩
  else if n = 0xE0 then .start ⟨2, 0, 0xA0, 0xBF⟩
  else if n = 0xED then .start ⟨2, 0xD, 0x80, 0x9F⟩
  else if n < 0xF0 then .start ⟨2, n - 0xE0, 0x80, 0xBF⟩
  else if n = 0xF0 then .start ⟨3, 0, 0x90, 0xBF⟩
  else if n < 0xF4 then .start ⟨3, n - 0xF0, 0x80, 0xBF⟩
  else if n = 0xF4 then .start ⟨3, 4, 0x80, 0x8F⟩
  else .stray

/-- What the decoder keeps between octets. -/
inductive Pending where
  /-- Nothing: the last character is complete. -/
  | nothing
  /-- The beginning of a character. -/
  | inside (p : Partial)
  /-- The first two octets of a surrogate, which are two parts that are no character.  They are
  written only once the next octet or the end is there. -/
  | surrogate
deriving DecidableEq, Repr

/-- An octet outside a character: what it adds to the text, `none` for a part that is no character,
and what is kept behind it. -/
def begin (b : Octet) : List (Option Char) × Pending :=
  match lead b with
  | .character c => ([some c], .nothing)
  | .start p => ([], .inside p)
  | .stray => ([none], .nothing)

/-- The highest second octet behind the first octet of a surrogate that makes no surrogate. -/
def belowSurrogates : Nat := 0x9F

/-- One octet: what it adds to the text and what is kept behind it. -/
def step (pending : Pending) (b : Octet) : List (Option Char) × Pending :=
  match pending with
  | .nothing => begin b
  | .surrogate =>
    let (more, pending) := begin b
    (none :: none :: more, pending)
  | .inside p =>
    let n := b.toNat
    if p.low ≤ n ∧ n ≤ p.high then
      let value := p.value * 64 + (n - 0x80)
      if p.missing ≤ 1 then ([some (Char.ofNat value)], .nothing)
      else ([], .inside ⟨p.missing - 1, value, 0x80, 0xBF⟩)
    else if p.high = belowSurrogates ∧ p.high < n ∧ n ≤ 0xBF then ([], .surrogate)
    else
      let (more, pending) := begin b
      (none :: more, pending)

/-- The octets of one read: what they add to the text and what is kept behind them. -/
def run (pending : Pending) : List Octet → List (Option Char) × Pending
  | [] => ([], pending)
  | b :: bs =>
    let (found, pending) := step pending b
    let (more, pending) := run pending bs
    (found ++ more, pending)

/-- What the end of the octets adds to the text. -/
def finish : Pending → List (Option Char)
  | .nothing => []
  | .inside _ => [none]
  | .surrogate => [none, none]

/-- The parts of a sequence of octets: characters, and `none` for each part that is none. -/
def parts (octets : List Octet) : List (Option Char) :=
  let (found, pending) := run .nothing octets
  found ++ finish pending

/-- A part as a character. -/
def shown (part : Option Char) : Char := part.getD replacement

/-- The text of a sequence of octets. -/
def decode (octets : List Octet) : List Char := (parts octets).map shown

/-- The text of a sequence of octets, if it is well formed. -/
def decode? (octets : List Octet) : Option (List Char) := (parts octets).mapM id

/-- The texts of the reads of a stream, behind those that left something pending.  A read without a
complete character has no text, and the end of the stream may have one. -/
def textsFrom (pending : Pending) : List (List Octet) → List (List Char)
  | [] => [(finish pending).map shown].filter (!·.isEmpty)
  | read :: more =>
    let (found, pending) := run pending read
    [found.map shown].filter (!·.isEmpty) ++ textsFrom pending more

/-- The texts of the reads of a stream. -/
def texts (reads : List (List Octet)) : List (List Char) := textsFrom .nothing reads

/-- Octets cut into reads of at most a given size; nothing can be read zero octets at a time. -/
def cut (size : Nat) (octets : List Octet) : List (List Octet) :=
  match size, octets with
  | 0, _ | _, [] => []
  | n + 1, b :: bs => (b :: bs.take n) :: cut (n + 1) (bs.drop n)
termination_by octets.length
decreasing_by
  simp only [List.length_drop, List.length_cons]
  omega

/-- The reads of a stream that holds some octets; without a limit everything is read at once. -/
def reads (limit? : Option Nat) (octets : List Octet) : List (List Octet) :=
  match limit? with
  | some size => cut size octets
  | none => if octets.isEmpty then [] else [octets]

end TypeVerdict.Utf8
