import VpnHide.Abi

/-!
# Configuration documents (`kmod/parson.c`)

The tree a configuration is parsed into, and the getters of the JSON library. No getter fails: a member
that is missing or of another type reads as a default. The source keeps numbers as doubles and converts
each to an integer type where it is read; the numbers of the model are the integers before that
conversion.
-/

namespace VpnHide

inductive Json where
  | null
  | boolean (b : Bool)
  | number (n : ℤ)
  | string (s : String)
  | array (items : List Json)
  | object (members : List (String × Json))

/-- `JSON_Object`. The parser rejects repeated names. -/
abbrev JsonObject := List (String × Json)

def Json.getObject : Json → Option JsonObject
  | .object members => some members
  | _ => none

def Json.getString : Json → Option String
  | .string s => some s
  | _ => none

namespace JsonObject
variable (o : JsonObject) (name : String)

def getValue : Option Json := o.lookup name

/-- `json_object_has_value`; an explicit `null` is a value. -/
def hasValue : Bool := (o.getValue name).isSome

def getObject : Option JsonObject := (o.getValue name).bind Json.getObject

def getString : Option String := (o.getValue name).bind Json.getString

def getNumber : ℤ :=
  match o.getValue name with
  | some (.number n) => n
  | _ => 0

/-- `json_object_get_boolean`; `none` is the return value `-1`. -/
def getBoolean : Option Bool :=
  match o.getValue name with
  | some (.boolean b) => some b
  | _ => none

/-- `json_object_get_array`, a missing array being read as an empty one. -/
def getArray : List Json :=
  match o.getValue name with
  | some (.array items) => items
  | _ => []

/-- The elements of an array that are objects; every loop over an array of objects skips the others. -/
def objects : List JsonObject := (o.getArray name).filterMap Json.getObject

end JsonObject

/-- The bytes of a C string: those in front of the first NUL. -/
def cString (s : String) : List UInt8 := s.toUTF8.data.toList.takeWhile (· ≠ 0)

/-- `!strcmp(a, b)`. -/
def strEq (a b : String) : Bool := cString a == cString b

end VpnHide
