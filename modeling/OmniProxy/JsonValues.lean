/-!
# JSON values and their accessors

A number is kept in the form in which it was parsed: a natural number of 64 bits,
a negative integer of 64 bits, or a floating-point number. An accessor returns the
content of a value of its own kind and nothing for any other; the one for unsigned
numbers accepts only the first form.

An object lists its members; looking up a key finds the first member with it.
Parsing of JSON text is left out. Nothing here refers to a particular program.
-/

namespace OmniProxy.JsonValues

/-- A parsed number. -/
inductive Number where
  | posInt (value : UInt64)
  | negInt (value : Int64)
  | float (value : Float)

/-- A JSON value. -/
inductive Json where
  | null
  | bool (value : Bool)
  | number (value : Number)
  | string (value : String)
  | array (elements : List Json)
  | object (members : List (String × Json))

/-- The members of an object. -/
abbrev Members := List (String × Json)

/-- The value of a key. -/
def Members.get (members : Members) (key : String) : Option Json := members.lookup key

namespace Json

def asStr : Json → Option String
  | string value => some value
  | _ => none

def asBool : Json → Option Bool
  | bool value => some value
  | _ => none

def asU64 : Json → Option UInt64
  | number (.posInt value) => some value
  | _ => none

def asArray : Json → Option (List Json)
  | array elements => some elements
  | _ => none

def asObject : Json → Option Members
  | object members => some members
  | _ => none

/-- The value of a key, when the value is an object. -/
def get (value : Json) (key : String) : Option Json := value.asObject.bind (·.get key)

end Json

end OmniProxy.JsonValues
