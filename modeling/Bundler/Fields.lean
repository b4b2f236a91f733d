import Bundler.Binary64
import Bundler.Text.Integer
import Bundler.Text.Quoted

/-!
# Checked fields

A record can come from outside as fields with values of any kind. A reader such as `Value.toText`
takes the values that it understands and refuses the other ones with a reason (`Problem`). A record
is refused with all its fields at fault, in the order in which it declares them. Unknown fields are
ignored.
-/

namespace Bundler

/-- A value of a field, before it is checked. -/
inductive Value where
  | null
  | bool (value : Bool)
  | integer (value : Int)
  | float (value : Float)
  | text (value : String)
  /-- A list or an object. -/
  | composite

/-- Why a field is refused. -/
inductive Problem where
  | missing
  | notText
  | notBool
  | unreadableBool
  | notInteger
  | unreadableInteger
  | longInteger
  | fractional
  | infinite
  | badExtension (extension : String)
deriving DecidableEq, Repr

/-- The short name of a problem. -/
def Problem.kind : Problem → String
  | .missing => "missing"
  | .notText => "string_type"
  | .notBool => "bool_type"
  | .unreadableBool => "bool_parsing"
  | .notInteger => "int_type"
  | .unreadableInteger => "int_parsing"
  | .longInteger => "int_parsing_size"
  | .fractional => "int_from_float"
  | .infinite => "finite_number"
  | .badExtension _ => "value_error"

/-- A problem in words. -/
def Problem.message : Problem → String
  | .missing => "Field required"
  | .notText => "Input should be a valid string"
  | .notBool => "Input should be a valid boolean"
  | .unreadableBool => "Input should be a valid boolean, unable to interpret input"
  | .notInteger => "Input should be a valid integer"
  | .unreadableInteger => "Input should be a valid integer, unable to parse string as an integer"
  | .longInteger => "Unable to parse input string as an integer, exceeded maximum size"
  | .fractional => "Input should be a valid integer, got a number with a fractional part"
  | .infinite => "Input should be a finite number"
  | .badExtension extension =>
    "Value error, extension must look like '.js', got " ++ Text.quoted extension

/-- A field at fault. -/
structure FieldFault where
  field : String
  problem : Problem
deriving DecidableEq, Repr

namespace Value

/-- A text; nothing else is taken for one. -/
def toText : Value → Except Problem String
  | .text value => .ok value
  | _ => .error .notText

/-- A text or nothing. -/
def toText? : Value → Except Problem (Option String)
  | .null => .ok none
  | value => value.toText.map some

/-- The bound of machine words, which are the whole numbers from `-wordBound` to below it. -/
def wordBound : Int := 9223372036854775808

/-- The whole number as a truth value. -/
def integerToBool (value : Int) : Except Problem Bool :=
  if value = 0 then .ok false else if value = 1 then .ok true else .error .unreadableBool

/-- A floating-point number as a whole one, which has to be a machine word but not the least. -/
def floatToInteger (value : Float) : Except Problem Int :=
  let shape := Binary64.shape value
  match shape.whole? with
  | some number =>
    if -wordBound < number && number < wordBound then .ok number else .error .longInteger
  | none => .error (if shape.isFinite then .fractional else .infinite)

/-- A truth value, one of its spellings in any case, or a number that is 0 or 1. Numbers that are no
machine words are not taken for truth values at all. -/
def toBool : Value → Except Problem Bool
  | .bool value => .ok value
  | .integer value =>
    if -wordBound ≤ value && value < wordBound then integerToBool value else .error .notBool
  | .float value =>
    match floatToInteger value with
    | .ok number => integerToBool number
    | .error _ => .error .notBool
  | .text value =>
    let spelling := value.map Char.toLower
    if ["0", "off", "f", "false", "n", "no"].contains spelling then .ok false
    else if ["1", "on", "t", "true", "y", "yes"].contains spelling then .ok true
    else .error .unreadableBool
  | _ => .error .notBool

/-- A whole number or a text of one. -/
def toInteger : Value → Except Problem Int
  | .integer value => .ok value
  | .bool value => .ok (if value then 1 else 0)
  | .float value => floatToInteger value
  | .text value =>
    match Text.readInteger value with
    | .ok number => .ok number
    | .error .unreadable => .error .unreadableInteger
    | .error .tooLong => .error .longInteger
  | _ => .error .notInteger

end Value

/-- The fields of a record, before they are checked. -/
abbrev Fields := List (String × Value)

namespace Fields

/-- The field, which has to be there, as the reader takes it. -/
def required {α : Type} (fields : Fields) (field : String) (read : Value → Except Problem α) :
    Except Problem α :=
  match fields.lookup field with
  | none => .error .missing
  | some value => read value

/-- The field as the reader takes it, or the default. -/
def optional {α : Type} (fields : Fields) (field : String) (read : Value → Except Problem α)
    (default : α) : Except Problem α :=
  match fields.lookup field with
  | none => .ok default
  | some value => read value

/-- The fault of a field, if it has one. -/
def fault {α : Type} (field : String) : Except Problem α → List FieldFault
  | .ok _ => []
  | .error problem => [⟨field, problem⟩]

end Fields

end Bundler
