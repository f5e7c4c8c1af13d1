import TypeVerdict.Log
import TypeVerdict.Text.Quoted

/-!
# The threshold of a log

The word that sets the threshold is looked up among all names that a log facility defines.  Most
of these are no levels: a switch that is on counts as the lowest rank, a text would have to name a
level itself, and an operation or a part of the facility cannot be a threshold at all.  A word that
is none of the names leaves the threshold at information.

## Main definitions

* `Log.Meaning`: what a name stands for
* `Log.meaning?`: the meaning of a name
* `Log.Threshold`: what a log can be set to
* `Log.threshold`: the threshold that a word sets
-/

namespace TypeVerdict.Log

/-- What a name of a log facility stands for. -/
inductive Meaning where
  | rank (value : Int)
  /-- A switch, which is on. -/
  | switch
  | text (value : String)
  /-- Something that is not set. -/
  | unset
  /-- An operation, or a part of the facility. -/
  | part
deriving DecidableEq, Repr

/-- The names that differ from those of the levels and still stand for ranks. -/
def otherRanks : List (String × Int) := [("NOTSET", 0), ("WARN", 30), ("FATAL", 50)]

/-- The names of switches. -/
def switches : List String :=
  ["raiseExceptions", "logThreads", "logMultiprocessing", "logProcesses"]

/-- The names of texts. -/
def texts : List (String × String) := [
  ("BASIC_FORMAT", "%(levelname)s:%(name)s:%(message)s"), ("__name__", "logging"),
  ("__package__", "logging"), ("__status__", "production"), ("__version__", "0.5.1.2"),
  ("__date__", "07 February 2010")]

/-- The names of operations on a log. -/
def operations : List String := [
  "debug", "info", "warn", "warning", "error", "exception", "critical", "fatal", "log", "disable",
  "shutdown", "basicConfig", "captureWarnings", "addLevelName", "getLevelName",
  "getLevelNamesMapping", "getLogger", "getLoggerClass", "setLoggerClass", "getLogRecordFactory",
  "setLogRecordFactory", "makeLogRecord", "currentframe", "_acquireLock", "_releaseLock",
  "_addHandlerRef", "_removeHandlerRef", "_checkLevel", "_showwarning", "_is_internal_frame",
  "_register_at_fork_reinit_lock", "_after_at_fork_child_reinit_locks", "__delattr__", "__dir__",
  "__eq__", "__format__", "__ge__", "__getattribute__", "__getstate__", "__gt__", "__hash__",
  "__init__", "__init_subclass__", "__le__", "__lt__", "__ne__", "__new__", "__reduce__",
  "__reduce_ex__", "__repr__", "__setattr__", "__sizeof__", "__str__", "__subclasshook__"]

/-- The names of the parts of a log. -/
def parts : List String := [
  "root", "lastResort", "Logger", "RootLogger", "LoggerAdapter", "Manager", "PlaceHolder",
  "LogRecord", "Handler", "StreamHandler", "FileHandler", "NullHandler", "Filter", "Filterer",
  "Formatter", "BufferingFormatter", "PercentStyle", "StrFormatStyle", "StringTemplateStyle",
  "Template", "GenericAlias", "_STYLES", "_StderrHandler", "_at_fork_reinit_lock_weakset",
  "_defaultFormatter", "_defaultLastResort", "_handlerList", "_handlers", "_levelToName", "_lock",
  "_logRecordFactory", "_loggerClass", "_nameToLevel", "_startTime", "_str_formatter", "__all__",
  "__annotations__", "__builtins__", "__class__", "__dict__", "__loader__", "__path__", "__spec__",
  "atexit", "collections", "io", "os", "re", "sys", "threading", "time", "traceback", "warnings",
  "weakref"]

/-- The meaning of a name, if a log facility defines it. -/
def meaning? (name : String) : Option Meaning :=
  match Level.all.find? (·.word = name) with
  | some level => some (.rank level.rank)
  | none =>
    (otherRanks.lookup name).map .rank <|> (texts.lookup name).map .text <|>
      if switches.contains name then some .switch
      else if name = "_warnings_showwarning" then some .unset
      else if operations.contains name || parts.contains name then some .part
      else none

/-- What a log can be set to. -/
inductive Threshold where
  | rank (value : Int)
  /-- A switch that is on. -/
  | on
deriving DecidableEq, Repr

/-- The lowest rank that reaches a threshold. -/
def Threshold.value : Threshold → Int
  | rank n => n
  | on => 1

/-- Why a word sets no threshold. -/
inductive ThresholdError where
  /-- The word stands for a text, which would have to name a level. -/
  | unknownLevel (text : String)
  /-- The word stands for something that is no level at all. -/
  | notALevel
deriving DecidableEq, Repr

/-- How it is reported that a text names no level. -/
def unknownLevelMessage (text : String) : String :=
  s!"Unknown level: {String.ofList (Text.quoted text.toList)}"

/-- The threshold that a word sets: information, unless the word is a name of the facility.  Without
a setting only warnings are written. -/
def threshold (word : String) : Except ThresholdError Threshold :=
  match meaning? word with
  | none => .ok (.rank Level.info.rank)
  | some (.rank n) => .ok (.rank n)
  | some .switch => .ok .on
  | some .unset => .ok (.rank Level.warning.rank)
  | some (.text s) => .error (.unknownLevel s)
  | some .part => .error .notALevel

end TypeVerdict.Log
