/-!
# JSON values

The values of JSON texts, with the numbers `NaN` and `Infinity` that lenient writers produce.  A
number without fraction and exponent is an integer of any size; any other number is kept in
decimal.

## Main definitions

* `Json`: a value
* `Json.field?`: the value of a key of an object
-/

namespace TypeVerdict

/-- A JSON value.  The keys of an object are distinct and stand in the order in which they first
came. -/
inductive Json where
  | null
  | bool (value : Bool)
  | int (value : Int)
  /-- The number `mantissa * 10 ^ exponent`. -/
  | real (mantissa exponent : Int)
  | nan
  | infinity (negative : Bool)
  | text (value : String)
  | array (items : List Json)
  | object (fields : List (String × Json))
deriving Repr, Inhabited

namespace Json

/-- A field put into an object: the value of a known key is replaced in its place. -/
def setField (key : String) (value : Json) : List (String × Json) → List (String × Json)
  | [] => [(key, value)]
  | (k, v) :: more =>
    if k = key then (k, value) :: more else (k, v) :: setField key value more

/-- The value of a key, `none` if the value is not an object that has it. -/
def field? (key : String) : Json → Option Json
  | object fields => fields.lookup key
  | _ => none

end Json

end TypeVerdict
