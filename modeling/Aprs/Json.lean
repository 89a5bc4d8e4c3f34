import Aprs.Decimal.Shortest
import Aprs.Scalar
import Aprs.Text

/-!
# JSON

Values and the text that writes them, without any space. Numbers that are not whole are written with
the fewest digits that read back, in positional notation unless the point would lie far from them.
-/

namespace Aprs

/-- A value of JSON. -/
inductive Json
  | null
  | bool (b : Bool)
  | int (n : Int)
  | float (x : Float)
  | text (t : Text)
  | array (values : List Json)
  | object (fields : List (Text × Json))

namespace Json

/-! ## Numbers -/

/-- The greatest number of digits before the point in positional notation. -/
def maxWholeDigits : Int := 16

/-- The greatest number of zeros between the point and the first digit in positional notation. -/
def maxLeadingZeros : Int := 4

/-- An exponent: its sign, which is written for a positive one too, and its digits. -/
def exponentText (exponent : Int) : Text :=
  (if exponent < 0 then '-' else '+') :: Decimal.digits exponent.natAbs

/-- The digits `ds` of a number whose point stands behind the first `point` of them. -/
def pointText (ds : Text) (point : Int) : Text :=
  let count : Int := ds.length
  if 0 < point ∧ point ≤ maxWholeDigits then
    if count ≤ point then ds ++ List.replicate (point - count).toNat '0' ++ ['.', '0']
    else ds.take point.toNat ++ '.' :: ds.drop point.toNat
  else if -maxLeadingZeros ≤ point ∧ point ≤ 0 then
    ['0', '.'] ++ List.replicate (-point).toNat '0' ++ ds
  else
    match ds with
    | [] => []
    | [d] => d :: 'e' :: exponentText (point - 1)
    | d :: rest => d :: '.' :: rest ++ 'e' :: exponentText (point - 1)

/-- The text of a finite number. -/
def floatText (x : Float) : Text :=
  let sign := if Binary.isNegative x then ['-'] else []
  if x == 0.0 then sign ++ ['0', '.', '0']
  else
    let (n, e) := Decimal.shortest (x.abs).toBits
    let ds := Decimal.digits n
    sign ++ pointText ds (ds.length + e)

/-! ## Text -/

/-- A character within a text. -/
def escape (c : Char) : Text :=
  if c = '"' ∨ c = '\\' then ['\\', c]
  else if c = '\x08' then ['\\', 'b']
  else if c = '\t' then ['\\', 't']
  else if c = '\n' then ['\\', 'n']
  else if c = '\x0c' then ['\\', 'f']
  else if c = '\r' then ['\\', 'r']
  else if c.toNat < 0x20 then
    ['\\', 'u', '0', '0', Nat.digitChar (c.toNat / 16), Nat.digitChar (c.toNat % 16)]
  else [c]

/-- A text between quotation marks. -/
def quote (t : Text) : Text := '"' :: t.flatMap escape ++ ['"']

/-! ## Values -/

mutual

/-- The text that writes a value. A number that is not finite is written as no value. -/
def render : Json → Text
  | .null => "null".toList
  | .bool b => if b then "true".toList else "false".toList
  | .int n => if n < 0 then '-' :: Decimal.digits n.natAbs else Decimal.digits n.natAbs
  | .float x => if x.isFinite then floatText x else "null".toList
  | .text t => quote t
  | .array values => '[' :: renderValues values ++ [']']
  | .object fields => '\x7b' :: renderFields fields ++ ['\x7d']

/-- The values of an array with commas between them. -/
def renderValues : List Json → Text
  | [] => []
  | [v] => render v
  | v :: rest => render v ++ ',' :: renderValues rest

/-- The fields of an object with commas between them. -/
def renderFields : List (Text × Json) → Text
  | [] => []
  | [(name, v)] => quote name ++ ':' :: render v
  | (name, v) :: rest => quote name ++ ':' :: render v ++ ',' :: renderFields rest

end

/-! ## Building values -/

/-- An object whose fields have ASCII names. -/
def ofFields (fields : List (String × Json)) : Json :=
  .object (fields.map fun (name, v) => (name.toList, v))

/-- A whole number. -/
def ofNat (n : Nat) : Json := .int n

/-- A value that may be missing. -/
def ofOption {β : Type} (f : β → Json) : Option β → Json
  | none => .null
  | some x => f x

/-- The octets of a string, each a number. -/
def ofBytes (bytes : Bytes) : Json := .array (bytes.map fun b => ofNat b.toNat)

end Json

end Aprs
