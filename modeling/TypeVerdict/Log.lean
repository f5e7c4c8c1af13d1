/-!
# Log lines

The two forms of a line in the log, and which records are written.

## Main definitions

* `Log.Level`: the levels that a configuration can name
* `Log.Record`: something to be logged
* `Log.timestamp`: a moment as date and time
* `Log.output`: what a log with a threshold writes for some records

## Design notes

The date is found from the number of the day by counting in cycles of 400 years, beginning with
the first of March, so that a leap day comes last.
-/

namespace TypeVerdict.Log

/-- The levels that a configuration can name. -/
inductive Level where
  | debug
  | info
  | warning
  | error
  | critical
deriving DecidableEq, Repr

namespace Level

/-- The word for a level. -/
def word : Level → String
  | debug => "DEBUG"
  | info => "INFO"
  | warning => "WARNING"
  | error => "ERROR"
  | critical => "CRITICAL"

/-- The rank of a level. -/
def rank : Level → Int
  | debug => 10
  | info => 20
  | warning => 30
  | error => 40
  | critical => 50

/-- All levels. -/
def all : List Level := [debug, info, warning, error, critical]

end Level

/-- The forms of a line. -/
inductive Format where
  | json
  | text
deriving DecidableEq, Repr

/-- The word for a form. -/
def Format.word : Format → String
  | json => "json"
  | text => "text"

/-- The form that a word stands for; everything but the word for JSON stands for plain text. -/
def formatOf (word : String) : Format := if word = Format.json.word then .json else .text

/-- The name of a rank. -/
def rankName (rank : Int) : String :=
  if rank = 0 then "NOTSET"
  else match Level.all.find? (·.rank = rank) with
    | some level => level.word
    | none => s!"Level {rank}"

/-- Something to be logged: by whom, how important, what and when, in seconds since 1970. -/
structure Record where
  logger : String
  rank : Int
  message : String
  seconds : Int
deriving DecidableEq, Repr

/-- Year, month and day of a day, counted from the first of January 1970. -/
def civil (day : Int) : Int × Int × Int :=
  let z := day + 719468
  let era := z.fdiv 146097
  let doe := z - era * 146097
  let yoe := (doe - doe.fdiv 1460 + doe.fdiv 36524 - doe.fdiv 146096).fdiv 365
  let doy := doe - (365 * yoe + yoe.fdiv 4 - yoe.fdiv 100)
  let mp := (5 * doy + 2).fdiv 153
  let d := doy - (153 * mp + 2).fdiv 5 + 1
  let m := if mp < 10 then mp + 3 else mp - 9
  (yoe + era * 400 + (if m ≤ 2 then 1 else 0), m, d)

/-- A number of two digits. -/
def twoDigits (n : Int) : String := if n < 10 then s!"0{n}" else toString n

/-- A moment, in seconds since 1970, as date and time to the millisecond. -/
def timestamp (seconds : Int) : String :=
  let day := seconds.fdiv 86400
  let rest := seconds - day * 86400
  let (y, m, d) := civil day
  let hour := twoDigits (rest.fdiv 3600)
  let minute := twoDigits ((rest.fdiv 60).fmod 60)
  let second := twoDigits (rest.fmod 60)
  s!"{y}-{twoDigits m}-{twoDigits d} {hour}:{minute}:{second},000"

/-- The line for a record.  The form of JSON takes the message as it is. -/
def line (format : Format) (r : Record) : String :=
  let time := timestamp r.seconds
  let level := rankName r.rank
  match format with
  | .text => s!"{time} - {r.logger} - {level} - {r.message}\n"
  | .json =>
    "\x7b\"time\": \"" ++ time ++ "\", \"level\": \"" ++ level ++ "\", \"message\": \"" ++
      r.message ++ "\"\x7d\n"

/-- Whether a record is written: its rank is positive and reaches the threshold. -/
def isWritten (rank : Int) (r : Record) : Bool := 0 < r.rank && rank ≤ r.rank

/-- What a log with a threshold writes for some records. -/
def output (rank : Int) (format : Format) (records : List Record) : String :=
  String.join ((records.filter (isWritten rank)).map (line format))

end TypeVerdict.Log
