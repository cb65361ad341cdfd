import EdgeLink.Codec.JsValue
import Mathlib.Algebra.GroupWithZero.Nat

/-!
# The texts of values

What `String(v)` and `JSON.stringify(v)` give, as strings. The texts of the finite numbers are a
parameter: nothing depends on how a double is printed.
-/

namespace EdgeLink

/-- The length of a string in UTF-16 code units. -/
def utf16Length (s : String) : ℕ :=
  (s.toList.map fun c => if c.toNat < 0x10000 then 1 else 2).sum

/-- The character with the hexadecimal digit `n`. -/
def hexDigit (n : ℕ) : Char := Char.ofNat (if n < 10 then 48 + n else 87 + n)

/-- A character of a JSON string. -/
def jsonChar (c : Char) : String :=
  if c = '"' then "\\\""
  else if c = '\\' then "\\\\"
  else if c.toNat = 8 then "\\b"
  else if c.toNat = 9 then "\\t"
  else if c.toNat = 10 then "\\n"
  else if c.toNat = 12 then "\\f"
  else if c.toNat = 13 then "\\r"
  else if c.toNat < 32 then
    "\\u00" ++ String.ofList [hexDigit (c.toNat / 16), hexDigit (c.toNat % 16)]
  else String.ofList [c]

/-- A string as JSON writes it. -/
def jsonString (s : String) : String := "\"" ++ String.join (s.toList.map jsonChar) ++ "\""

namespace JsValue

variable (numberToString : ℚ → String)

/-- `String(n)`. -/
def numberText : JsNumber → String
  | .nan => "NaN"
  | .posInf => "Infinity"
  | .negInf => "-Infinity"
  | .finite q => numberToString q

mutual

/-- The text of a JSON tree. -/
def jsonText : JsValue → String
  | undefined => "null"
  | null => "null"
  | bool b => if b then "true" else "false"
  | num n => numberText numberToString n
  | str s => jsonString s
  | arr items => "[" ++ ",".intercalate (jsonTextItems items) ++ "]"
  | obj fields => "\x7b" ++ ",".intercalate (jsonTextFields fields) ++ "\x7d"

def jsonTextItems : List JsValue → List String
  | [] => []
  | v :: rest => jsonText v :: jsonTextItems rest

def jsonTextFields : List (String × JsValue) → List String
  | [] => []
  | (k, v) :: rest => (jsonString k ++ ":" ++ jsonText v) :: jsonTextFields rest

end

mutual

/-- `String(v)`. -/
def toText : JsValue → String
  | undefined => "undefined"
  | null => "null"
  | bool b => if b then "true" else "false"
  | num n => numberText numberToString n
  | str s => s
  | arr items => ",".intercalate (toTextItems items)
  | obj _ => "[object Object]"

def toTextItems : List JsValue → List String
  | [] => []
  | undefined :: rest => "" :: toTextItems rest
  | null :: rest => "" :: toTextItems rest
  | v :: rest => toText v :: toTextItems rest

end

end JsValue

end EdgeLink
