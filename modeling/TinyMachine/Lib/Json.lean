import Mathlib.Data.Nat.Digits.Defs

/-! JSON values of whole numbers and texts, written over several lines with two
blanks for every level. -/
namespace TinyMachine.Lib

inductive Json where
  | null
  | bool (value : Bool)
  | number (value : Nat)
  | string (value : List Char)
  | array (items : List Json)
  | object (fields : List (List Char × Json))

namespace Json

def quote : Char := .ofNat 0x22
def backslash : Char := .ofNat 0x5C

def hexDigit (n : Nat) : Char := if n < 10 then .ofNat (0x30 + n) else .ofNat (0x57 + n)

/-- How a character is written between quotation marks. -/
def escape (c : Char) : List Char :=
  if c = quote ∨ c = backslash then [backslash, c]
  else if c.toNat = 0x08 then [backslash, 'b']
  else if c.toNat = 0x09 then [backslash, 't']
  else if c.toNat = 0x0A then [backslash, 'n']
  else if c.toNat = 0x0C then [backslash, 'f']
  else if c.toNat = 0x0D then [backslash, 'r']
  else if c.toNat < 0x20 then [backslash, 'u', '0', '0', hexDigit (c.toNat / 16), hexDigit (c.toNat % 16)]
  else [c]

def quoted (text : List Char) : List Char := quote :: text.flatMap escape ++ [quote]

def newline (depth : Nat) : List Char := '\n' :: List.replicate (2 * depth) ' '

mutual

/-- The text of a value at this depth. -/
def pretty (depth : Nat) : Json → List Char
  | null => "null".toList
  | bool value => (if value then "true" else "false").toList
  | number value => Nat.toDigits 10 value
  | string value => quoted value
  | array [] => "[]".toList
  | array (item :: items) =>
    '[' :: newline (depth + 1) ++ pretty (depth + 1) item ++ prettyItems (depth + 1) items ++ newline depth ++ [']']
  | object [] => [.ofNat 0x7B, .ofNat 0x7D]
  | object ((name, value) :: fields) =>
    .ofNat 0x7B :: newline (depth + 1) ++ quoted name ++ ": ".toList ++ pretty (depth + 1) value ++
      prettyFields (depth + 1) fields ++ newline depth ++ [.ofNat 0x7D]

def prettyItems (depth : Nat) : List Json → List Char
  | [] => []
  | item :: items => ',' :: newline depth ++ pretty depth item ++ prettyItems depth items

def prettyFields (depth : Nat) : List (List Char × Json) → List Char
  | [] => []
  | (name, value) :: fields =>
    ',' :: newline depth ++ quoted name ++ ": ".toList ++ pretty depth value ++ prettyFields depth fields

end

end Json
end TinyMachine.Lib
