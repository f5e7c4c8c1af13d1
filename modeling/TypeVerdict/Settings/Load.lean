import TypeVerdict.Json.Parser
import TypeVerdict.Settings.EnvFile
import TypeVerdict.Settings.Fields
import TypeVerdict.Text.Lower

/-!
# Loading settings

The configuration comes from explicit values, the environment and a file; the first of these that
gives a field decides.  Names count without regard to case.  In the environment and in a file the
names of the fields stand behind a common beginning, and lists are given as JSON.

## Main definitions

* `Settings.ofEnvironment`: the values that variables give
* `Settings.unknownVariables`: the variables of a file that no field takes
* `Settings.load`: the configuration
-/

namespace TypeVerdict.Settings

/-- The beginning of the names of variables, in lower case. -/
def variablePrefix : String := "typewatch_"

/-- A name in lower case. -/
def lowered (name : String) : String := String.ofList (Text.lower name.toList)

/-- Variables by name in lower case: a variable that is set again keeps its place and takes the new
value. -/
def byLowerName (bindings : List (String × Option String)) : List (String × Option String) :=
  bindings.foldl (fun known (name, value?) => put (lowered name) value? known) []
where
  /-- A variable put behind others. -/
  put (name : String) (value? : Option String) :
      List (String × Option String) → List (String × Option String)
    | [] => [(name, value?)]
    | (n, v) :: more =>
      if n = name then (n, value?) :: more else (n, v) :: put name value? more

/-- The value that a variable gives a field, `none` if it gives none: a list is JSON, and there
`null` stands for no value. -/
def variableValue (field text : String) : Except LoadError (Option Json) :=
  if field = "include" then
    match Json.parse text.toList with
    | .error .malformed => .error .unreadableList
    | .error .tooDeep => .error .tooDeep
    | .ok .null => .ok none
    | .ok value => .ok (some value)
  else .ok (some (.text text))

/-- The values that variables give the fields, in the order of the fields. -/
def ofEnvironment (bindings : List (String × Option String)) : Except LoadError Values := do
  let known := byLowerName bindings
  let values ← fieldNames.mapM fun field => do
    match (known.lookup (variablePrefix ++ field)).join with
    | none => return none
    | some text => return (← variableValue field text).map (field, ·)
  return values.filterMap id

/-- Whether a variable of a file is meant for a field, or can be passed over: it has no value, or
its name is that of a field without the common beginning. -/
def isPassedOver (name : String) (value? : Option String) : Bool :=
  value?.getD "" = "" || fieldNames.contains name ||
    fieldNames.any fun field => name = variablePrefix ++ field

/-- The variables of a file that no field takes. -/
def unknownVariables (bindings : List (String × Option String)) : Values :=
  (byLowerName bindings).filterMap fun (name, value?) =>
    if isPassedOver name value? then none else some (name, .text (value?.getD ""))

/-- Explicit values under the names of the fields. -/
def ofExplicit (values : Values) : Values :=
  values.map fun (name, value) =>
    if fieldNames.contains (lowered name) then (lowered name, value) else (name, value)

/-- The variables of a file.  References take the values of the environment. -/
def ofFile (environment : List (String × String)) (text : String) :
    List (String × Option String) :=
  let known := environment.map fun (name, value) =>
    EnvFile.Binding.mk name.toList (some value.toList)
  (EnvFile.definitions known text.toList).map fun b =>
    (String.ofList b.name, b.value?.map String.ofList)

/-- The limit that the pattern of a marker goes beyond, if that makes every other problem
unimportant. -/
def limitError? (values : Values) (field : String) : Option LoadError :=
  match values.lookup field with
  | some (.text s) => match Marker.ofText s with
    | .error (.limit .rounds) => some .tooManyRounds
    | .error (.limit .depth) => some .tooDeep
    | _ => none
  | _ => none

/-- The configuration from explicit values, the environment and the text of a file. -/
def load (explicit : Values) (environment : List (String × String)) (file? : Option String) :
    Except LoadError Settings := do
  let inFile := (file?.map (ofFile environment)).getD []
  let fromEnvironment ← ofEnvironment (environment.map fun (name, value) => (name, some value))
  let fromFile ← ofEnvironment inFile
  let values := ofExplicit explicit ++ fromEnvironment ++ fromFile
  let unknown := unknownVariables inFile
  let values := (fieldNames.filterMap fun field => (values.lookup field).map (field, ·)) ++
    unknown ++
    (ofExplicit explicit).filter fun (name, _) =>
      !fieldNames.contains name && (unknown.lookup name).isNone
  match ["rerun_pattern", "pass_complete_pattern"].findSome? (limitError? values) with
  | some e => .error e
  | none => (validate values).mapError .invalid

end TypeVerdict.Settings
