import HabiCore.UnprintableCharacters
import Mathlib.Data.String.Basic

/-!
# Debug formatting

The `{:?}` rendering of strings, vectors and pairs that error texts and log
details contain.
-/

namespace HabiCore.DebugFormat

def hexadecimal (code : Nat) : String :=
  String.ofList (Nat.toDigits 16 code)

/-- The characters that are rendered by their codes. -/
def coded (code : Nat) : Bool :=
  code < 32 || code = 127 || (128 ≤ code && unprintable code)

/-- `char::escape_debug` inside a double-quoted string. -/
def char (c : Char) : String :=
  if c.toNat = 0 then "\\0"
  else if c.toNat = 9 then "\\t"
  else if c.toNat = 10 then "\\n"
  else if c.toNat = 13 then "\\r"
  else if c.toNat = 34 then "\\\""
  else if c.toNat = 92 then "\\\\"
  else if coded c.toNat then
    "\\u\x7b" ++ hexadecimal c.toNat ++ "\x7d"
  else c.toString

def string (s : String) : String :=
  "\"" ++ String.join (s.toList.map char) ++ "\""

example : string "\u00e9\u200b'\r" = "\"\u00e9\\u\x7b200b\x7d'\\r\"" := by
  decide +kernel

def vector (items : List String) : String :=
  "[" ++ ", ".intercalate items ++ "]"

def strings (items : List String) : String :=
  vector (items.map string)

def violations (items : List (String × List String)) : String :=
  vector (items.map fun item => "(" ++ string item.1 ++ ", " ++ strings item.2 ++ ")")

end HabiCore.DebugFormat
