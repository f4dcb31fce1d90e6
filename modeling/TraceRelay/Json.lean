import TraceRelay.Bytes
import TraceRelay.Real

/-!
# JSON text

Values and their compact text: no blanks, members in the order given. Inside a string a quote, a
backslash and the characters below the space are escaped; all else stands for itself.
-/

namespace TraceRelay

inductive Json where
  | null
  | bool (b : Bool)
  | number (n : Int)
  | real (r : Real)
  | text (s : String)
  | list (items : List Json)
  | object (members : List (String × Json))
  deriving Inhabited

namespace Json

def hexDigit (n : Nat) : Char := if n < 10 then Char.ofNat (48 + n) else Char.ofNat (87 + n)

/-- How a character is written inside a string. -/
def escape (c : Char) : List Char :=
  match c with
  | '"' => ['\\', '"']
  | '\\' => ['\\', '\\']
  | '\n' => ['\\', 'n']
  | '\r' => ['\\', 'r']
  | '\t' => ['\\', 't']
  | '\x08' => ['\\', 'b']
  | '\x0c' => ['\\', 'f']
  | c =>
    if c.toNat < 32 then ['\\', 'u', '0', '0', hexDigit (c.toNat / 16), hexDigit (c.toNat % 16)]
    else [c]

/-- A string in quotes. -/
def quote (s : String) : String := String.ofList ('"' :: s.toList.flatMap escape ++ ['"'])

/-- The number `mantissa / 10 ^ places`: an integer, if it has no places and fits a word with or
without a sign, or else a real. -/
def ofDecimal (mantissa : Int) (places : Nat) : Json :=
  if places = 0 ∧ Int64.minValue.toInt ≤ mantissa ∧ mantissa < UInt64.size then number mantissa
  else real (.ofDecimal (mantissa < 0) mantissa.natAbs (-places))

mutual

/-- The compact text of a value. -/
def render : Json → String
  | null => "null"
  | bool true => "true"
  | bool false => "false"
  | number n => toString n
  | real r => r.compact
  | text s => quote s
  | list [] => "[]"
  | list (item :: items) => "[" ++ render item ++ renderItems items ++ "]"
  | object [] => "\x7b\x7d"
  | object ((key, value) :: members) =>
    "\x7b" ++ quote key ++ ":" ++ render value ++ renderMembers members ++ "\x7d"

def renderItems : List Json → String
  | [] => ""
  | item :: items => "," ++ render item ++ renderItems items

def renderMembers : List (String × Json) → String
  | [] => ""
  | (key, value) :: members => "," ++ quote key ++ ":" ++ render value ++ renderMembers members

end

end Json

end TraceRelay
