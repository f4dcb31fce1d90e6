import TraceRelay.Log

/-!
# Filters of log records

A filter is a list of rules between commas: a level (`debug`), the front of a part's name and a level
(`relay::file=trace`), or such a front alone, which lets everything pass. Of the rules for a
record the one with the longest front decides; where there is none, nothing passes.
-/

namespace TraceRelay.Log

/-- A rule: which parts it is for, and how much detail passes. -/
structure Rule where
  front : String
  detail : Nat
  deriving DecidableEq, Repr

abbrev Filter := List Rule

namespace Filter

/-- The detail of everything. -/
def all : Nat := 5

/-- Names and numbers of levels, in any case. -/
def detail? (s : String) : Option Nat :=
  let level := String.ofList (s.toList.map Char.toLower)
  if level = "" then some 1
  else [("off", 0), ("error", 1), ("warn", 2), ("info", 3), ("debug", 4), ("trace", 5), ("0", 0),
    ("1", 1), ("2", 2), ("3", 3), ("4", 4), ("5", 5)].lookup level

/-- Whether a name can stand in front of a level. -/
def isFront (s : String) : Bool :=
  s.toList.all fun c => c.isAlphanum || c == '_' || c == ':' || c == '-'

def rule? (text : String) : Option Rule :=
  match text.splitOn "=" with
  | [one] =>
    match detail? one with
    | some detail => some ⟨"", detail⟩
    | none => if isFront one then some ⟨one, all⟩ else none
  | [front, level] =>
    if front ≠ "" ∧ isFront front then
      if level = "" then some ⟨front, all⟩ else (detail? level).map fun detail => ⟨front, detail⟩
    else none
  | _ => none

/-- The filter of a text; one without rules lets errors pass. -/
def parse? (text : String) : Option Filter :=
  match (text.splitOn ",").filter (· ≠ "") with
  | [] => some [⟨"", 1⟩]
  | rules => rules.mapM rule?

/-- The rule that decides on a part: the longest, and of those the last. -/
def ruleFor (f : Filter) (target : String) : Option Rule :=
  (f.filter fun r => r.front.toList.isPrefixOf target.toList).foldl (fun best r =>
    match best with
    | some b => if r.front.length < b.front.length then some b else some r
    | none => some r) none

def passes (f : Filter) (r : Record) : Bool :=
  (f.ruleFor r.part.target).any fun rule => r.level.detail ≤ rule.detail

end Filter

end TraceRelay.Log
