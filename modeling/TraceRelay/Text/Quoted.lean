import TraceRelay.Text.Shapeless

/-!
# Quoted text

Text in quotes, for a reader who must see what is in it: quotes, backslashes and line ends are
escaped, and every character without a shape of its own is given by its number.
-/

namespace TraceRelay.Text.Quoted

/-- How one character is written between the quotes. -/
def escape (c : Char) : List Char :=
  match c with
  | '"' => ['\\', '"']
  | '\\' => ['\\', '\\']
  | '\n' => ['\\', 'n']
  | '\r' => ['\\', 'r']
  | '\t' => ['\\', 't']
  | '\x00' => ['\\', '0']
  | c =>
    if isShapeless c then ['\\', 'u', '\x7b'] ++ Nat.toDigits 16 c.toNat ++ ['\x7d'] else [c]

def text (s : String) : String := String.ofList ('"' :: s.toList.flatMap escape ++ ['"'])

/-- Quoted texts in brackets. -/
def list (items : List String) : String := "[" ++ ", ".intercalate (items.map text) ++ "]"

end TraceRelay.Text.Quoted
