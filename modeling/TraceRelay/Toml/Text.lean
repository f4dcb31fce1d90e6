import TraceRelay.Text.Digits

/-!
# Strings and keys

Strings stand in one or three quotes, double ones with escapes, single ones without. A reader takes
the rest of a document and gives what it read and the rest after it.
-/

namespace TraceRelay.Toml

/-- Reads something off the front of a text. -/
abbrev Reader (α : Type) := List Char → Option (α × List Char)

def isBlank (c : Char) : Bool := c == ' ' || c == '\t'

/-- What may stand in a comment or a string as it is. -/
def isPlain (c : Char) : Bool := c == '\t' || (32 ≤ c.toNat && c.toNat != 127)

def isBare (c : Char) : Bool := c.isAlphanum || c == '-' || c == '_'

def skipBlanks (cs : List Char) : List Char := cs.dropWhile isBlank

/-- Takes a line end, if there is one. -/
def newline? : List Char → Option (List Char)
  | '\n' :: rest => some rest
  | '\r' :: '\n' :: rest => some rest
  | _ => none

/-- Takes a comment up to the end of its line. -/
def skipComment : List Char → List Char
  | '#' :: rest => rest.dropWhile isPlain
  | cs => cs

/-- Takes the rest of a line that holds nothing more. -/
def endLine? (cs : List Char) : Option (List Char) :=
  match skipComment (skipBlanks cs) with
  | [] => some []
  | rest => newline? rest

/-! ## Escapes -/

/-- The character whose number these digits are. -/
def scalar? (digits : List Char) : Option Char := do
  let n := Text.ofDigits 16 (← digits.mapM (Text.digit? 16))
  if n.isValidChar then some (Char.ofNat n) else none

/-- What follows a backslash. -/
def escape : Reader Char
  | 'b' :: rest => some ('\x08', rest)
  | 't' :: rest => some ('\t', rest)
  | 'n' :: rest => some ('\n', rest)
  | 'f' :: rest => some ('\x0c', rest)
  | 'r' :: rest => some ('\r', rest)
  | '"' :: rest => some ('"', rest)
  | '\\' :: rest => some ('\\', rest)
  | 'u' :: rest =>
    if rest.length < 4 then none else (scalar? (rest.take 4)).map fun c => (c, rest.drop 4)
  | 'U' :: rest =>
    if rest.length < 8 then none else (scalar? (rest.take 8)).map fun c => (c, rest.drop 8)
  | _ => none

theorem length_escape {cs rest : List Char} {c : Char} (h : escape cs = some (c, rest)) :
    rest.length < cs.length := by
  have dropped {n : Nat} {r : List Char} {o : Option Char}
      (h : (o.map fun c => (c, r.drop n)) = some (c, rest)) : rest.length ≤ r.length := by
    obtain ⟨_, _, h⟩ := Option.map_eq_some_iff.1 h
    rw [← (Prod.mk.inj h).2]; simp
  unfold escape at h
  split at h
  case h_8 | h_9 =>
    split at h
    · simp at h
    · simpa [Nat.lt_succ_iff] using dropped h
  all_goals simp_all

/-! ## Strings in one quote -/

/-- The rest of a string in double quotes. -/
def basic (cs : List Char) : Option (List Char × List Char) :=
  match cs with
  | [] => none
  | '"' :: rest => some ([], rest)
  | '\\' :: rest =>
    match h : escape rest with
    | none => none
    | some (c, after) =>
      have := length_escape h
      (basic after).map fun (s, rest) => (c :: s, rest)
  | c :: rest => if isPlain c then (basic rest).map fun (s, rest) => (c :: s, rest) else none
termination_by cs.length

/-- The rest of a string in single quotes. -/
def literal : Reader (List Char)
  | [] => none
  | '\'' :: rest => some ([], rest)
  | c :: rest => if isPlain c then (literal rest).map fun (s, rest) => (c :: s, rest) else none

/-! ## Strings in three quotes -/

/-- What follows three quotes at the end: up to two more belong to the string. -/
def lastQuotes (quote : Char) : List Char → List Char × List Char
  | a :: b :: rest =>
    if a = quote then (if b = quote then ([a, b], rest) else ([a], b :: rest))
    else ([], a :: b :: rest)
  | [a] => if a = quote then ([a], []) else ([], [a])
  | [] => ([], [])

def isGap (c : Char) : Bool := isBlank c || c == '\n'

/-- Takes blanks and line ends. -/
def skipGap : List Char → List Char
  | '\r' :: '\n' :: rest => skipGap rest
  | c :: rest => if isGap c then skipGap rest else c :: rest
  | [] => []

theorem length_skipGap (cs : List Char) : (skipGap cs).length ≤ cs.length := by
  fun_induction skipGap cs <;> simp_all <;> omega

theorem length_skipBlanks (cs : List Char) : (skipBlanks cs).length ≤ cs.length :=
  (List.dropWhile_sublist _).length_le

/-- The rest of a string in three double quotes. A backslash at the end of a line takes the gap
after it away. -/
def basicLines (cs : List Char) : Option (List Char × List Char) :=
  match cs with
  | [] => none
  | '"' :: '"' :: '"' :: rest => some (lastQuotes '"' rest)
  | '"' :: rest => (basicLines rest).map fun (s, rest) => ('"' :: s, rest)
  | '\r' :: '\n' :: rest => (basicLines rest).map fun (s, rest) => ('\n' :: s, rest)
  | '\n' :: rest => (basicLines rest).map fun (s, rest) => ('\n' :: s, rest)
  | '\\' :: rest =>
    if (newline? (skipBlanks rest)).isSome then
      have : (skipGap (skipBlanks rest)).length < rest.length + 1 := by
        have := length_skipGap (skipBlanks rest); have := length_skipBlanks rest; omega
      basicLines (skipGap (skipBlanks rest))
    else
      match h : escape rest with
      | none => none
      | some (c, after) =>
        have := length_escape h
        (basicLines after).map fun (s, rest) => (c :: s, rest)
  | c :: rest => if isPlain c then (basicLines rest).map fun (s, rest) => (c :: s, rest) else none
termination_by cs.length

/-- The rest of a string in three single quotes. -/
def literalLines : Reader (List Char)
  | [] => none
  | '\'' :: '\'' :: '\'' :: rest => some (lastQuotes '\'' rest)
  | '\r' :: '\n' :: rest => (literalLines rest).map fun (s, rest) => ('\n' :: s, rest)
  | c :: rest =>
    if isPlain c || c == '\n' then (literalLines rest).map fun (s, rest) => (c :: s, rest) else none

/-- Without a line end right after the opening quotes. -/
def dropNewline (cs : List Char) : List Char := (newline? cs).getD cs

/-- A string of any form. -/
def string : Reader String
  | '"' :: '"' :: '"' :: rest =>
    (basicLines (dropNewline rest)).map fun (s, rest) => (String.ofList s, rest)
  | '"' :: rest => (basic rest).map fun (s, rest) => (String.ofList s, rest)
  | '\'' :: '\'' :: '\'' :: rest =>
    (literalLines (dropNewline rest)).map fun (s, rest) => (String.ofList s, rest)
  | '\'' :: rest => (literal rest).map fun (s, rest) => (String.ofList s, rest)
  | _ => none

/-! ## Keys -/

/-- One part of a key: bare, or a string on one line. -/
def keyPart : Reader String
  | '"' :: rest => (basic rest).map fun (s, rest) => (String.ofList s, rest)
  | '\'' :: rest => (literal rest).map fun (s, rest) => (String.ofList s, rest)
  | cs =>
    match cs.takeWhile isBare with
    | [] => none
    | name => some (String.ofList name, cs.dropWhile isBare)

/-- A name and the names of the tables that it is in. -/
structure Key where
  path : List String
  name : String
  deriving Repr

/-- Tables, lists and keys nest less deep than this. -/
def depthLimit : Nat := 80

/-- A key of fewer than `fuel` parts joined by points, with blanks around them. -/
def keyWith : Nat → Reader Key
  | 0, _ => none
  | 1, _ => none
  | fuel + 2, cs => do
    let (name, rest) ← keyPart (skipBlanks cs)
    match skipBlanks rest with
    | '.' :: rest => do
      let (key, rest) ← keyWith (fuel + 1) rest
      return (⟨name :: key.path, key.name⟩, rest)
    | rest => some (⟨[], name⟩, rest)

def key : Reader Key := keyWith depthLimit

end TraceRelay.Toml
