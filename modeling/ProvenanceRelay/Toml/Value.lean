/-!
TOML values.

Floating-point numbers and dates are kept as they are written: a reader of settings only needs to
know that they are there.
-/

namespace ProvenanceRelay.Toml

inductive Value where
  | string (s : String)
  | integer (n : Int)
  | float (text : String)
  | boolean (b : Bool)
  | datetime (text : String)
  | array (elements : List Value)
  | table (entries : List (String × Value))
  deriving Inhabited

/-- The least and the greatest integer that a document can hold. -/
def minInteger : Int := Int64.minValue.toInt
def maxInteger : Int := Int64.maxValue.toInt

end ProvenanceRelay.Toml
