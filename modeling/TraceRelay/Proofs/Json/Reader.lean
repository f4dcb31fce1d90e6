import Mathlib
import TraceRelay.Json
import TraceRelay.Text.Digits

/-!
# Reading JSON

A machine reads a JSON text one character at a time (`State.step`). It keeps the lists and objects that
are open, and how far it has got with what comes next: a value, a key, a string, a numeral, one of the
words. Blanks may stand between any two of these. `Json.read?` is the value of a whole text.

1. What `Json.quote` writes is read as the string that it was made from (`run_quote`), whatever characters
   it has.
2. The decimal digits of a number are read as the number (`run_toDigits`).
-/

namespace TraceRelay.Json

namespace Reader

/-! ## Strings -/

/-- How far the reading of a string has got with one character of it. -/
inductive Stage where
  | plain
  /-- A backslash has come. -/
  | escape
  /-- A backslash, a `u` and `count` digits have come, which make `n`. -/
  | unit (count n : Nat)
  deriving DecidableEq

structure Draft where
  chars : List Char
  /-- The first half of a pair of units, whose second must follow. -/
  high? : Option Nat
  stage : Stage
  deriving DecidableEq

namespace Draft

def empty : Draft := ⟨[], none, .plain⟩

def push (d : Draft) (c : Char) : Draft := ⟨d.chars ++ [c], none, .plain⟩

/-- A unit of sixteen bits is there. Those from D800 to DFFF come in pairs. -/
def pushUnit (d : Draft) (n : Nat) : Option Draft :=
  match d.high? with
  | none =>
    if 0xd800 ≤ n ∧ n < 0xdc00 then some { d with high? := some n, stage := .plain }
    else if 0xdc00 ≤ n ∧ n < 0xe000 then none
    else some (d.push (Char.ofNat n))
  | some high =>
    if 0xdc00 ≤ n ∧ n < 0xe000 then
      some (d.push (Char.ofNat (0x10000 + (high - 0xd800) * 0x400 + (n - 0xdc00))))
    else none

/-- What a backslash and a letter stand for. -/
def escaped? : Char → Option Char
  | '"' => some '"'
  | '\\' => some '\\'
  | '/' => some '/'
  | 'b' => some '\x08'
  | 'f' => some '\x0c'
  | 'n' => some '\n'
  | 'r' => some '\r'
  | 't' => some '\t'
  | _ => none

/-- The next character of a string that is not over. -/
def step (d : Draft) (c : Char) : Option Draft :=
  match d.stage with
  | .plain =>
    if c = '\\' then some { d with stage := .escape }
    else if d.high?.isSome ∨ c.toNat < 32 then none
    else some (d.push c)
  | .escape =>
    if c = 'u' then some { d with stage := .unit 0 0 }
    else if d.high?.isSome then none
    else (escaped? c).map d.push
  | .unit count n =>
    match Text.digit? 16 c with
    | none => none
    | some digit =>
      if count = 3 then d.pushUnit (16 * n + digit)
      else some { d with stage := .unit (count + 1) (16 * n + digit) }

/-- Whether a string is over with the next character. -/
def endsWith (d : Draft) (c : Char) : Bool := c = '"' && d.stage = .plain && d.high? = none

end Draft

/-! ## Numerals -/

/-- How far the reading of a numeral has got. -/
inductive Place where
  | sign
  | zero
  | whole
  | point
  | fraction
  | mark
  | powerSign
  | power
  deriving DecidableEq

/-- `digits / 10 ^ places * 10 ^ power`, as far as it has been read. -/
structure Numeral where
  negative : Bool
  digits : Nat
  places : Nat
  powerNegative : Bool
  power : Nat
  place : Place
  deriving DecidableEq

namespace Numeral

def empty (negative : Bool) : Numeral := ⟨negative, 0, 0, false, 0, .sign⟩

/-- One more digit. Nothing follows a zero at the beginning. -/
def digit (n : Numeral) (d : Nat) : Option Numeral :=
  match n.place with
  | .sign => some { n with digits := d, place := if d = 0 then .zero else .whole }
  | .zero => none
  | .whole => some { n with digits := 10 * n.digits + d }
  | .point | .fraction =>
    some { n with digits := 10 * n.digits + d, places := n.places + 1, place := .fraction }
  | .mark | .powerSign | .power => some { n with power := 10 * n.power + d, place := .power }

def step (n : Numeral) (c : Char) : Option Numeral :=
  match Text.digit? 10 c with
  | some d => n.digit d
  | none =>
    match n.place, c with
    | .zero, '.' | .whole, '.' => some { n with place := .point }
    | .zero, 'e' | .zero, 'E' | .whole, 'e' | .whole, 'E' | .fraction, 'e' | .fraction, 'E' =>
      some { n with place := .mark }
    | .mark, '+' => some { n with place := .powerSign }
    | .mark, '-' => some { n with powerNegative := true, place := .powerSign }
    | _, _ => none

/-- The value of a numeral that may end here. Minus zero is a real. -/
def value? (n : Numeral) : Option Json :=
  match n.place with
  | .zero | .whole =>
    if n.negative ∧ n.digits = 0 then some (.real (.ofDecimal true 0 0))
    else some (.ofDecimal (if n.negative then -n.digits else n.digits) 0)
  | .fraction | .power =>
    let power : Int := if n.powerNegative then -n.power else n.power
    some (.real (.ofDecimal n.negative n.digits (power - n.places)))
  | .sign | .point | .mark | .powerSign => none

end Numeral

/-! ## Values -/

/-- What is open around a value: a list or an object, with what came before the value. -/
inductive Frame where
  | list (before : List Json)
  | object (before : List (String × Json)) (key : String)

/-- What comes next. -/
inductive Mode where
  | value
  /-- The first item of a list, or its end. -/
  | item
  /-- The first key of an object, or its end. -/
  | member
  | key (before : List (String × Json))
  | colon (before : List (String × Json)) (key : String)
  /-- The rest of a string: a value, or a key behind the members `before?`. -/
  | text (before? : Option (List (String × Json))) (d : Draft)
  | numeral (n : Numeral)
  /-- The rest of a word, and its value. -/
  | word (rest : List Char) (value : Json)
  /-- What may follow a value. -/
  | done (value : Json)

structure State where
  frames : List Frame
  mode : Mode

def isBlank (c : Char) : Bool := c = ' ' || c = '\t' || c = '\n' || c = '\r'

/-- A value begins. -/
def begin (frames : List Frame) : Char → Option State
  | '"' => some ⟨frames, .text none .empty⟩
  | '[' => some ⟨frames, .item⟩
  | '\x7b' => some ⟨frames, .member⟩
  | 't' => some ⟨frames, .word ['r', 'u', 'e'] (.bool true)⟩
  | 'f' => some ⟨frames, .word ['a', 'l', 's', 'e'] (.bool false)⟩
  | 'n' => some ⟨frames, .word ['u', 'l', 'l'] .null⟩
  | '-' => some ⟨frames, .numeral (.empty true)⟩
  | c => ((Numeral.empty false).step c).map fun n => ⟨frames, .numeral n⟩

/-- What follows a value. -/
def follow (frames : List Frame) (value : Json) (c : Char) : Option State :=
  if isBlank c then some ⟨frames, .done value⟩
  else match frames, c with
  | .list before :: frames, ',' => some ⟨.list (before ++ [value]) :: frames, .value⟩
  | .list before :: frames, ']' => some ⟨frames, .done (.list (before ++ [value]))⟩
  | .object before key :: frames, ',' => some ⟨frames, .key (before ++ [(key, value)])⟩
  | .object before key :: frames, '\x7d' => some ⟨frames, .done (.object (before ++ [(key, value)]))⟩
  | _, _ => none

/-- A key begins behind some members. -/
def beginKey (frames : List Frame) (before : List (String × Json)) (c : Char) : Option State :=
  if isBlank c then some ⟨frames, .key before⟩
  else if c = '"' then some ⟨frames, .text (some before) .empty⟩
  else none

namespace State

def start : State := ⟨[], .value⟩

/-- The next character. -/
def step (s : State) (c : Char) : Option State :=
  match s.mode with
  | .value => if isBlank c then some s else begin s.frames c
  | .item =>
    if isBlank c then some s
    else if c = ']' then some ⟨s.frames, .done (.list [])⟩
    else begin (.list [] :: s.frames) c
  | .member =>
    if isBlank c then some s
    else if c = '\x7d' then some ⟨s.frames, .done (.object [])⟩
    else beginKey s.frames [] c
  | .key before => beginKey s.frames before c
  | .colon before key =>
    if isBlank c then some s
    else if c = ':' then some ⟨.object before key :: s.frames, .value⟩
    else none
  | .text before? d =>
    if d.endsWith c then
      match before? with
      | none => some ⟨s.frames, .done (.text (String.ofList d.chars))⟩
      | some before => some ⟨s.frames, .colon before (String.ofList d.chars)⟩
    else (d.step c).map fun d => ⟨s.frames, .text before? d⟩
  | .numeral n =>
    match n.step c with
    | some n => some ⟨s.frames, .numeral n⟩
    | none => n.value?.bind fun value => follow s.frames value c
  | .word rest value =>
    match rest with
    | [] => none
    | d :: rest =>
      if c ≠ d then none
      else some ⟨s.frames, if rest = [] then .done value else .word rest value⟩
  | .done value => follow s.frames value c

def run (s : State) (cs : List Char) : Option State := cs.foldlM step s

/-- The value of a text that may end here. -/
def value? (s : State) : Option Json :=
  match s.frames, s.mode with
  | [], .done value => some value
  | [], .numeral n => n.value?
  | _, _ => none

end State

end Reader

/-- The value of a JSON text; none if it is not one. -/
def read? (s : String) : Option Json := (Reader.State.start.run s.toList).bind Reader.State.value?

example : (read? "\t[ \"\\u00e9\\ud83d\\ude00\\/\" , -1,2.5E1 ,\x7b\x7d]").map render =
    some "[\"é😀/\",-1,25.0,\x7b\x7d]" := by decide +kernel

namespace Reader

open State (run step)

variable {s s' : State} {cs ds : List Char} {c : Char} {frames : List Frame}

theorem run_cons (s : State) (c : Char) (cs : List Char) :
    s.run (c :: cs) = (s.step c).bind (·.run cs) := rfl

theorem run_append (h : s.run cs = some s') (ds : List Char) : s.run (cs ++ ds) = s'.run ds := by
  rw [run, List.foldlM_append, ← run, h]
  rfl

theorem run_of_step (h : s.step c = some s') (cs : List Char) : s.run (c :: cs) = s'.run cs := by
  rw [run_cons, h]
  rfl

/-! ## Reading strings -/

/-- The digits that an escape is written with. -/
theorem digit?_hexDigit : ∀ n < 16, Text.digit? 16 (hexDigit n) = some n := by decide

theorem Draft.endsWith_of_ne (d : Draft) (h : c ≠ '"') : d.endsWith c = false := by
  rw [endsWith, decide_eq_false h, Bool.false_and, Bool.false_and]

/-- No string is over inside an escape. -/
theorem Draft.endsWith_of_stage {d : Draft} (h : d.stage ≠ .plain) : d.endsWith c = false := by
  rw [endsWith, decide_eq_false h, Bool.and_false, Bool.false_and]

/-- Inside a string everything but its end goes to the draft. -/
theorem step_text {before? : Option (List (String × Json))} {d d' : Draft} (goes : d.endsWith c = false)
    (h : d.step c = some d') :
    step ⟨frames, .text before? d⟩ c = some ⟨frames, .text before? d'⟩ := by
  unfold step
  dsimp only
  rw [goes, if_neg Bool.false_ne_true, h]
  rfl

/-- A character below the space, by its number. -/
theorem run_unit (before? : Option (List (String × Json))) (chars : List Char) (small : c.toNat < 32) :
    run ⟨frames, .text before? ⟨chars, none, .plain⟩⟩
        ['\\', 'u', '0', '0', hexDigit (c.toNat / 16), hexDigit (c.toNat % 16)] =
      some ⟨frames, .text before? ⟨chars ++ [c], none, .plain⟩⟩ := by
  have hfirst : Draft.step ⟨chars, none, .unit 2 0⟩ (hexDigit (c.toNat / 16)) =
      some ⟨chars, none, .unit 3 (c.toNat / 16)⟩ := by
    unfold Draft.step
    dsimp only
    rw [digit?_hexDigit _ (by omega)]
    simp
  have hsecond : Draft.step ⟨chars, none, .unit 3 (c.toNat / 16)⟩ (hexDigit (c.toNat % 16)) =
      some ⟨chars ++ [c], none, .plain⟩ := by
    unfold Draft.step
    dsimp only
    rw [digit?_hexDigit _ (by omega)]
    dsimp only
    rw [if_pos rfl, Nat.div_add_mod, Draft.pushUnit, if_neg (by omega), if_neg (by omega), Draft.push,
      Char.ofNat_toNat]
  calc run ⟨frames, .text before? ⟨chars, none, .plain⟩⟩
        ['\\', 'u', '0', '0', hexDigit (c.toNat / 16), hexDigit (c.toNat % 16)]
      = run ⟨frames, .text before? ⟨chars, none, .unit 2 0⟩⟩
          [hexDigit (c.toNat / 16), hexDigit (c.toNat % 16)] := rfl
    _ = run ⟨frames, .text before? ⟨chars, none, .unit 3 (c.toNat / 16)⟩⟩ [hexDigit (c.toNat % 16)] :=
        run_of_step (step_text (Draft.endsWith_of_stage (by nofun)) hfirst) _
    _ = some ⟨frames, .text before? ⟨chars ++ [c], none, .plain⟩⟩ :=
        run_of_step (step_text (Draft.endsWith_of_stage (by nofun)) hsecond) []

/-- A character with an escape of its own. -/
theorem run_escaped (before? : Option (List (String × Json))) (chars : List Char) {letter : Char}
    (h : Draft.escaped? letter = some c) (no_unit : letter ≠ 'u') :
    run ⟨frames, .text before? ⟨chars, none, .plain⟩⟩ ['\\', letter] =
      some ⟨frames, .text before? ⟨chars ++ [c], none, .plain⟩⟩ := by
  have hletter : Draft.step ⟨chars, none, .escape⟩ letter = some ⟨chars ++ [c], none, .plain⟩ := by
    unfold Draft.step
    dsimp only
    rw [if_neg no_unit, if_neg (by nofun), h]
    rfl
  calc run ⟨frames, .text before? ⟨chars, none, .plain⟩⟩ ['\\', letter]
      = run ⟨frames, .text before? ⟨chars, none, .escape⟩⟩ [letter] := rfl
    _ = some ⟨frames, .text before? ⟨chars ++ [c], none, .plain⟩⟩ :=
        run_of_step (step_text (Draft.endsWith_of_stage (by nofun)) hletter) []

/-- What is written for one character is read as that character. -/
theorem run_escape (before? : Option (List (String × Json))) (chars : List Char) (c : Char) :
    run ⟨frames, .text before? ⟨chars, none, .plain⟩⟩ (escape c) =
      some ⟨frames, .text before? ⟨chars ++ [c], none, .plain⟩⟩ := by
  unfold escape
  split
  case h_8 quote backslash _ _ _ _ _ =>
    split
    · next small => exact run_unit before? chars small
    · next large =>
      have hstep : Draft.step ⟨chars, none, .plain⟩ c = some ⟨chars ++ [c], none, .plain⟩ := by
        unfold Draft.step
        dsimp only
        rw [if_neg backslash, if_neg (by simpa using large), Draft.push]
      rw [run_of_step (step_text (Draft.endsWith_of_ne _ quote) hstep)]
      rfl
  all_goals exact run_escaped before? chars rfl (by decide)

theorem run_flatMap_escape (before? : Option (List (String × Json))) (chars cs : List Char) :
    run ⟨frames, .text before? ⟨chars, none, .plain⟩⟩ (cs.flatMap escape) =
      some ⟨frames, .text before? ⟨chars ++ cs, none, .plain⟩⟩ := by
  induction cs generalizing chars with
  | nil => rw [List.append_nil]; rfl
  | cons c cs ih =>
    rw [List.flatMap_cons, run_append (run_escape before? chars c), ih, List.append_assoc]
    rfl

/-- What a string leads to: a key if members stand before it, or else a value. -/
def told (before? : Option (List (String × Json))) (text : String) : Mode :=
  match before? with
  | none => .done (.text text)
  | some before => .colon before text

theorem toList_quote (text : String) : (quote text).toList = '"' :: text.toList.flatMap escape ++ ['"'] :=
  String.toList_ofList

/-- **A quoted text is read as the text**, wherever a string may begin. -/
theorem run_quote {before? : Option (List (String × Json))}
    (begins : s.step '"' = some ⟨frames, .text before? .empty⟩) (text : String) :
    s.run (quote text).toList = some ⟨frames, told before? text⟩ := by
  have hends : Draft.endsWith ⟨text.toList, none, .plain⟩ '"' = true := rfl
  have hlast : step ⟨frames, .text before? ⟨text.toList, none, .plain⟩⟩ '"' =
      some ⟨frames, told before? text⟩ := by
    unfold step
    dsimp only
    rw [if_pos hends, String.ofList_toList]
    cases before? <;> rfl
  rw [toList_quote, List.cons_append, run_of_step begins, Draft.empty,
    run_append (run_flatMap_escape before? [] text.toList), List.nil_append, run_of_step hlast]
  rfl

theorem run_quote_value {frames : List Frame} (text : String) :
    run ⟨frames, .value⟩ (quote text).toList = some ⟨frames, .done (.text text)⟩ :=
  run_quote (show step ⟨frames, .value⟩ '"' = some ⟨frames, .text none .empty⟩ from rfl) text

theorem run_quote_key {before : List (String × Json)}
    (begins : s.step '"' = some ⟨frames, .text (some before) .empty⟩) (text : String) :
    s.run (quote text).toList = some ⟨frames, .colon before text⟩ :=
  run_quote begins text

/-! ## Reading numbers -/

/-- A numeral without a sign, of the digits of `n`. -/
def natural (n : Nat) : Numeral := ⟨false, n, 0, false, 0, if n = 0 then .zero else .whole⟩

theorem value?_natural (n : Nat) : (natural n).value? = some (.ofDecimal n 0) := by
  unfold Numeral.value? natural
  by_cases h : n = 0
  · rw [if_pos h]; rfl
  · rw [if_neg h]; rfl

theorem digit?_digitChar : ∀ d < 10, Text.digit? 10 (Nat.digitChar d) = some d := by decide

theorem step_digit {d : Nat} (small : d < 10) {n n' : Numeral} (h : n.digit d = some n') :
    step ⟨frames, .numeral n⟩ (Nat.digitChar d) = some ⟨frames, .numeral n'⟩ := by
  have hnext : n.step (Nat.digitChar d) = some n' := by
    unfold Numeral.step
    rw [digit?_digitChar d small]
    exact h
  unfold step
  dsimp only
  rw [hnext]

/-- The first digit of a number, where a value comes next. -/
theorem begin_digitChar (frames : List Frame) : ∀ d < 10,
    step ⟨frames, .value⟩ (Nat.digitChar d) = some ⟨frames, .numeral (natural d)⟩ := by
  intro d small
  interval_cases d <;> rfl

/-- **Decimal digits are read as the number that they make.** -/
theorem run_toDigits (frames : List Frame) (n : Nat) :
    run ⟨frames, .value⟩ (Nat.toDigits 10 n) = some ⟨frames, .numeral (natural n)⟩ := by
  induction n using Nat.strong_induction_on with
  | _ n ih =>
    by_cases small : n < 10
    · rw [Nat.toDigits_of_lt_base small, run_of_step (begin_digitChar frames n small)]
      rfl
    · have hlast : (natural (n / 10)).digit (n % 10) = some (natural n) := by
        have htenth : n / 10 ≠ 0 := by omega
        have hnumber : n ≠ 0 := by omega
        rw [natural, natural, if_neg htenth, if_neg hnumber, Numeral.digit, Nat.div_add_mod]
      rw [Nat.toDigits_of_base_le (by decide) (by omega), run_append (ih (n / 10) (by omega)),
        run_of_step (step_digit (by omega) hlast)]
      rfl

/-- Neither a comma nor a bracket goes on with a number. -/
theorem step_natural {c : Char} (h : c = ',' ∨ c = ']' ∨ c = '\x7d') (n : Nat) :
    (natural n).step c = none := by
  unfold natural
  by_cases hzero : n = 0
  · rw [if_pos hzero]
    rcases h with rfl | rfl | rfl
    all_goals rfl
  · rw [if_neg hzero]
    rcases h with rfl | rfl | rfl
    all_goals rfl

/-- A number is over with the character behind it. -/
theorem run_number {n : Nat} (ends : (natural n).step c = none)
    (follows : follow frames (.ofDecimal n 0) c = some s') (cs : List Char) :
    run ⟨frames, .value⟩ (Nat.toDigits 10 n ++ c :: cs) = s'.run cs := by
  have hstep : step ⟨frames, .numeral (natural n)⟩ c = some s' := by
    unfold step
    dsimp only
    rw [ends]
    dsimp only
    rw [value?_natural, Option.bind_some, follows]
  rw [run_append (run_toDigits frames n), run_of_step hstep]

end Reader

end TraceRelay.Json
