import Mathlib.Tactic

/-!
# JSON values

What a parsed document holds. The numbers are left open.
-/

/-- A JSON value with numbers from `N`. -/
inductive Json (N : Type) where
  | null
  | bool (b : Bool)
  | number (n : N)
  | string (s : String)
  | array (values : List (Json N))
  | object (members : List (String × Json N))

namespace Json

variable {N : Type}

/-- The member of an object under a key; of two with one key a parser keeps the last. -/
def member? : Json N → String → Option (Json N)
  | object members, key => (members.reverse.find? fun m => m.1 = key).map Prod.snd
  | _, _ => none

/-- The values that a value is made of. -/
def values : Json N → List (Json N)
  | array values => values
  | object members => members.map Prod.snd
  | _ => []

/-- Whether a value is an array or an object. -/
def isObject : Json N → Bool
  | array _ => true
  | object _ => true
  | _ => false

/-- Whether a value is a string. -/
def isString : Json N → Bool
  | string _ => true
  | _ => false

/-- Whether a value is a number. -/
def isNumber : Json N → Bool
  | number _ => true
  | _ => false

/-- The elements of an array. -/
def elements? : Json N → Option (List (Json N))
  | array values => some values
  | _ => none

/-- The text of a string. -/
def string? : Json N → Option String
  | string s => some s
  | _ => none

/-- The truth value of a boolean. -/
def bool? : Json N → Option Bool
  | bool b => some b
  | _ => none

/-- The number of a number. -/
def number? : Json N → Option N
  | number n => some n
  | _ => none

/-- A member that is there. -/
def hasMember (p : Json N → Bool) (json : Json N) (key : String) : Bool :=
  (json.member? key).any p

end Json
