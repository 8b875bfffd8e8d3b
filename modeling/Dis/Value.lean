import Dis.Real
import Dis.Text.Numeral
/-!
# Values a host may offer

The machine checks whatever its host hands over, so the host's side needs a type that holds more
than words: nothing, truth values, integers of any size, real numbers, texts and lists of these.
A truth value is never an integer here.
-/
namespace Dis

/-- Whatever a host may hand over. -/
inductive Value
  | null
  | truth (b : Bool)
  | int (n : Int)
  | real (x : Real)
  | text (s : String)
  | list (items : List Value)
  deriving Inhabited

namespace Value

/-- The name of a value's kind in messages. -/
def kindName : Value → String
  | null => "NoneType"
  | truth _ => "bool"
  | int _ => "int"
  | real _ => "float"
  | text _ => "str"
  | list _ => "list"

mutual

/-- A value as it appears in messages: texts between quotes, lists between brackets. An integer is
written out however long it is; more than 4300 digits are left out of account. -/
def shown : Value → String
  | null => "None"
  | truth true => "True"
  | truth false => "False"
  | int n => toString n
  | real x => x.text
  | text s => Text.quote s
  | list items => "[" ++ ", ".intercalate (shownAll items) ++ "]"

/-- Each value of a list as it appears in messages. -/
def shownAll : List Value → List String
  | [] => []
  | v :: vs => shown v :: shownAll vs

end

/-- A value turned into text: a text stays itself, anything else is written as in messages. -/
def asText : Value → String
  | text s => s
  | v => shown v

/-- Whether a value counts as given: nothing, false, zero, the empty text and the empty list do
not. -/
def isGiven : Value → Bool
  | null => false
  | truth b => b
  | int n => n != 0
  | real x => !x.isZero
  | text s => !s.isEmpty
  | list items => !items.isEmpty

/-- Two values were compared whose kinds have no order between them. -/
structure OrderError where
  sign : String
  left : String       -- the kinds
  right : String
  deriving DecidableEq, Repr

/-- The wording of a refused comparison. -/
def OrderError.message (e : OrderError) : String :=
  s!"'{e.sign}' not supported between instances of '{e.left}' and '{e.right}'"

/-- A value was used in a way that its kind does not know. -/
structure UseError where
  kind : String
  wanted : String
  deriving DecidableEq, Repr

/-- The wording of a refused use. -/
def UseError.message (e : UseError) : String :=
  s!"'{e.kind}' object has no attribute '{e.wanted}'"

/-- Why a value cannot be turned into an integer. -/
inductive ConversionError
  | numeral (e : Text.NumeralError)
  | notNumber (kind : String)
  | infinite
  | undefined

/-- The wording of a refused conversion. -/
def ConversionError.message : ConversionError → String
  | numeral e => e.message
  | notNumber kind =>
    s!"int() argument must be a string, a bytes-like object or a real number, not '{kind}'"
  | infinite => "cannot convert float infinity to integer"
  | undefined => "cannot convert float NaN to integer"

/-- The integer a value turns into: texts are read as decimal numerals, real numbers lose their
fraction, truth values count as one and zero. -/
def toInt : Value → Except ConversionError Int
  | truth b => .ok (if b then 1 else 0)
  | int n => .ok n
  | real x => match x with
    | .finite negative mantissa exponent => .ok (Real.signed negative (Real.wholePart mantissa exponent))
    | .infinite _ => .error .infinite
    | .undefined => .error .undefined
  | text s => (Text.readInt (.fixed 10) s).mapError .numeral
  | v => .error (.notNumber v.kindName)

/-- The integer a value is equal to, truth values and whole real numbers included. -/
def equalInt? : Value → Option Int
  | truth b => some (if b then 1 else 0)
  | int n => some n
  | real x => x.toWhole?
  | _ => none

end Value
end Dis
