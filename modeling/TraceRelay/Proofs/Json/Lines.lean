import TraceRelay.Proofs.Json.Reader
import TraceRelay.Proofs.Recorder.Lossless

/-!
# Files of JSON lines

A record in JSON is one line: inside of it nothing is written as a newline (`newline_not_mem`), whatever
the event's name holds. So the lines of a file are its records (`lines_flatMap`), and each is read as the
event that it was made from (`jsonLines_by_line`, and `readLines?_records` for a whole file).
-/

namespace TraceRelay

/-! ## Lines -/

namespace Bytes

/-- The lines of a file: what ends with a newline, and what is left behind the last one. -/
def lines (b : Bytes) : List Bytes :=
  let pieces := b.splitOn 10
  if pieces.getLast? = some [] then pieces.dropLast else pieces

theorem splitOn_flatMap {ls : List Bytes} (h : ∀ l ∈ ls, 10 ∉ l) :
    (ls.flatMap (· ++ [10])).splitOn 10 = ls ++ [[]] := by
  induction ls with
  | nil => rw [List.flatMap_nil, List.splitOn_nil]; rfl
  | cons l ls ih =>
    rw [List.flatMap_cons, List.append_assoc, List.singleton_append,
      List.splitOn_append_cons_self_of_not_mem (h l (List.mem_cons_self ..)),
      ih fun l hl => h l (List.mem_cons_of_mem _ hl)]
    rfl

theorem count_newline {ls : List Bytes} (h : ∀ l ∈ ls, 10 ∉ l) :
    (ls.flatMap (· ++ [10])).count 10 = ls.length := by
  induction ls with
  | nil => rfl
  | cons l ls ih =>
    rw [List.flatMap_cons, List.count_append, List.count_append,
      List.count_eq_zero.mpr (h l (List.mem_cons_self ..)), ih fun l hl => h l (List.mem_cons_of_mem _ hl),
      List.count_singleton_self, List.length_cons]
    omega

/-- **Lines that have been put together are found again.** -/
theorem lines_flatMap {ls : List Bytes} (h : ∀ l ∈ ls, 10 ∉ l) : lines (ls.flatMap (· ++ [10])) = ls := by
  rw [lines, splitOn_flatMap h, List.getLast?_concat, if_pos rfl, List.dropLast_concat]

theorem ne_newline {n : Nat} (large : 128 ≤ n) (small : n < 256) : 10 ≠ UInt8.ofNat n := by
  intro h
  have htoNat := congrArg UInt8.toNat h
  rw [UInt8.toNat_ofNat', Nat.mod_eq_of_lt small] at htoNat
  have hten : 10 = n := htoNat
  omega

/-- No byte of a character is that of a newline, unless it is one. -/
theorem newline_mem_utf8EncodeChar {c : Char} (h : 10 ∈ String.utf8EncodeChar c) : c = '\n' := by
  unfold String.utf8EncodeChar at h
  dsimp only at h
  split at h
  · next ascii =>
    have htoNat := congrArg UInt8.toNat (List.mem_singleton.mp h)
    rw [UInt8.toNat_ofNat', Nat.mod_eq_of_lt (by omega)] at htoNat
    exact Char.ext (UInt32.toNat_inj.mp htoNat.symm)
  · exfalso
    split at h
    · simp only [List.mem_cons, List.not_mem_nil, or_false] at h
      rcases h with h | h
      all_goals exact ne_newline (by omega) (by omega) h
    · split at h
      · simp only [List.mem_cons, List.not_mem_nil, or_false] at h
        rcases h with h | h | h
        all_goals exact ne_newline (by omega) (by omega) h
      · simp only [List.mem_cons, List.not_mem_nil, or_false] at h
        rcases h with h | h | h | h
        all_goals exact ne_newline (by omega) (by omega) h

theorem newline_mem_ofText {s : String} (h : 10 ∈ ofText s) : '\n' ∈ s.toList := by
  rw [ofText, ← String.utf8Encode_toList, List.utf8Encode, List.toList_data_toByteArray,
    List.mem_flatMap] at h
  obtain ⟨c, hc, hmem⟩ := h
  rwa [newline_mem_utf8EncodeChar hmem] at hc

end Bytes

/-! ## The text of an event -/

namespace Json

theorem newline_not_mem_escape (c : Char) : '\n' ∉ escape c := by
  unfold escape
  split
  case h_8 _ _ newline _ _ _ _ =>
    split
    · next small =>
      have hdigit : ∀ d < 16, hexDigit d ≠ '\n' := by decide
      have hfirst := hdigit (c.toNat / 16) (by omega)
      have hsecond := hdigit (c.toNat % 16) (by omega)
      simp [Ne.symm hfirst, Ne.symm hsecond]
    · intro h
      exact newline (List.mem_singleton.mp h).symm
  all_goals decide

theorem newline_not_mem_quote (text : String) : '\n' ∉ (quote text).toList := by
  have hbody : '\n' ∉ text.toList.flatMap escape := by
    intro h
    obtain ⟨c, -, hc⟩ := List.mem_flatMap.mp h
    exact newline_not_mem_escape c hc
  rw [Reader.toList_quote]
  simp [hbody]

end Json

namespace Event

open Json.Reader

/-- The text of an event, piece by piece. -/
theorem toList_render (e : Event) : e.json.render.toList =
    '\x7b' :: (Json.quote "name").toList ++ ':' :: (Json.quote e.name).toList ++
      ',' :: (Json.quote "seq").toList ++ ':' :: Nat.toDigits 10 e.seq.toNat ++ ['\x7d'] := by
  have hnumber : (toString (e.seq.toNat : Int)).toList = Nat.toDigits 10 e.seq.toNat := by
    show (Nat.repr e.seq.toNat).toList = _
    rw [Nat.repr_eq_ofList_toDigits, String.toList_ofList]
  have hopen : "\x7b".toList = ['\x7b'] := rfl
  have hcolon : ":".toList = [':'] := rfl
  have hcomma : ",".toList = [','] := rfl
  have hclose : "\x7d".toList = ['\x7d'] := rfl
  have hend : "".toList = [] := rfl
  rw [json, Json.render, Json.render, Json.renderMembers, Json.render, Json.renderMembers]
  simp only [String.toList_append, List.append_assoc, hnumber, hopen, hcolon, hcomma, hclose, hend,
    List.cons_append, List.nil_append]

/-- **The record of an event is a line**, whatever its name holds. -/
theorem newline_not_mem (e : Event) : '\n' ∉ e.json.render.toList := by
  have hdigits : '\n' ∉ Nat.toDigits 10 e.seq.toNat := fun h =>
    absurd (Nat.isDigit_of_mem_toDigits (by decide) (by decide) h) (by decide)
  have hquote := Json.newline_not_mem_quote
  rw [toList_render]
  simp [hquote, hdigits]

theorem ofDecimal_seq (e : Event) : Json.ofDecimal e.seq.toNat 0 = .number e.seq.toNat := by
  have hlt : (e.seq.toNat : Int) < UInt64.size := Int.ofNat_lt.mpr e.seq.toNat_lt_size
  have hle : Int64.minValue.toInt ≤ (e.seq.toNat : Int) :=
    Int.le_trans (by decide) (Int.natCast_nonneg e.seq.toNat)
  rw [Json.ofDecimal, if_pos ⟨rfl, hle, hlt⟩]

/-- **The text of an event is read as its value.** -/
theorem read?_render (e : Event) : Json.read? e.json.render = some e.json := by
  have hopen : State.start.step '\x7b' = some ⟨[], .member⟩ := rfl
  have hname : State.run ⟨[], .member⟩ (Json.quote "name").toList = some ⟨[], .colon [] "name"⟩ :=
    run_quote_key rfl "name"
  have hcolon : ∀ before key, State.step ⟨[], .colon before key⟩ ':' =
      some ⟨[.object before key], .value⟩ := fun _ _ => rfl
  have hcomma : State.step ⟨[.object [] "name"], .done (.text e.name)⟩ ',' =
      some ⟨[], .key [("name", .text e.name)]⟩ := rfl
  have hseq : State.run ⟨[], .key [("name", .text e.name)]⟩ (Json.quote "seq").toList =
      some ⟨[], .colon [("name", .text e.name)] "seq"⟩ := run_quote_key rfl "seq"
  have hclose : follow [.object [("name", .text e.name)] "seq"] (.ofDecimal e.seq.toNat 0) '\x7d' =
      some ⟨[], .done e.json⟩ := by rw [ofDecimal_seq]; rfl
  have hrun : State.start.run e.json.render.toList = some ⟨[], .done e.json⟩ := by
    rw [toList_render]
    simp only [List.cons_append, List.append_assoc]
    rw [run_of_step hopen, run_append hname, run_of_step (hcolon _ _), run_append (run_quote_value e.name),
      run_of_step hcomma, run_append hseq, run_of_step (hcolon _ _),
      run_number (step_natural (.inr (.inr rfl)) _) hclose]
    rfl
  rw [Json.read?, hrun]
  rfl

/-! ## Files -/

/-- The value under a key that is there once. -/
def only? (key : String) (members : List (String × Json)) : Option Json :=
  match members.filter (·.1 = key) with
  | [(_, value)] => some value
  | _ => none

/-- The event that a value stands for. Other members may be there as well. -/
def ofJson? : Json → Option Event
  | .object members =>
    match only? "name" members, only? "seq" members with
    | some (.text name), some (.number seq) =>
      if 0 ≤ seq ∧ seq < UInt64.size then some ⟨name, .ofNat seq.toNat⟩ else none
    | _, _ => none
  | _ => none

/-- The event that a line stands for. -/
def ofLine? (line : Bytes) : Option Event :=
  (Bytes.text? line).bind fun text => (Json.read? text).bind ofJson?

/-- The events of a file of JSON lines; none if a line is not one. -/
def readLines? (file : Bytes) : Option (List Event) := (Bytes.lines file).mapM ofLine?

theorem ofJson?_json (e : Event) : ofJson? e.json = some e := by
  have hname : only? "name" [("name", .text e.name), ("seq", .number e.seq.toNat)] =
      some (.text e.name) := by simp [only?]
  have hseq : only? "seq" [("name", .text e.name), ("seq", .number e.seq.toNat)] =
      some (.number e.seq.toNat) := by simp [only?]
  have hfits : (0 : Int) ≤ e.seq.toNat ∧ (e.seq.toNat : Int) < UInt64.size :=
    ⟨Int.natCast_nonneg _, Int.ofNat_lt.mpr e.seq.toNat_lt_size⟩
  rw [json, ofJson?, hname, hseq]
  dsimp only
  rw [if_pos hfits, Int.toNat_natCast, UInt64.ofNat_toNat]

/-- The line of an event, without the newline behind it. -/
def line (e : Event) : Bytes := Bytes.ofText e.json.render

theorem ofLine?_line (e : Event) : ofLine? e.line = some e := by
  rw [ofLine?, line, Bytes.text?_ofText, Option.bind_some, read?_render, Option.bind_some, ofJson?_json]

theorem newline_not_mem_line (e : Event) : 10 ∉ e.line :=
  fun h => newline_not_mem e (Bytes.newline_mem_ofText h)

theorem lines_map_line (es : List Event) :
    Bytes.lines ((es.map line).flatMap (· ++ [10])) = es.map line :=
  Bytes.lines_flatMap (List.forall_mem_map.mpr fun e _ => newline_not_mem_line e)

theorem mapM_ofLine? (es : List Event) : (es.map line).mapM ofLine? = some es := by
  induction es with
  | nil => rfl
  | cons e es ih => rw [List.map_cons, List.mapM_cons, ofLine?_line, ih]; rfl

/-- **What is written in JSON lines is read line by line**, as the events that it was made from. -/
theorem readLines?_records (es : List Event) : readLines? (Recorder.records .jsonLines es) = some es := by
  have hrecords : Recorder.records .jsonLines es = (es.map line).flatMap (· ++ [10]) := by
    rw [List.flatMap_map]
    rfl
  rw [readLines?, hrecords, lines_map_line]
  exact mapM_ofLine? es

theorem appendAll_jsonLines (out : Bytes) (es : List Event) :
    Encoder.jsonLines.appendAll out es = (out ++ (es.map line).flatMap (· ++ [10]),
      es.map fun e => .ok (e.line.length + 1)) := by
  induction es generalizing out with
  | nil => rw [List.map_nil, List.flatMap_nil, List.append_nil]; rfl
  | cons e es ih =>
    have hone : Encoder.jsonLines.append out e =
        (out ++ (e.line ++ [10]), .ok (e.line ++ [10]).length) := rfl
    rw [Encoder.appendAll, hone]
    dsimp only
    rw [ih, List.map_cons, List.map_cons, List.flatMap_cons, List.append_assoc, List.length_append]
    rfl

/-- **JSON lines are one record a line**, whatever the names and numbers of the events are. Behind what
is there before, each record is its line and a newline, and has no other; so there are as many newlines
as events, the lines are those of the events, and each is read as the event it was made from. -/
theorem jsonLines_by_line (out : Bytes) (es : List Event) :
    ∃ text, Encoder.jsonLines.appendAll out es =
        (out ++ text, es.map fun e => .ok (e.line.length + 1)) ∧
      text = (es.map line).flatMap (· ++ [10]) ∧ (∀ e ∈ es, 10 ∉ e.line) ∧
      text.count 10 = es.length ∧ text.splitOn 10 = es.map line ++ [[]] ∧
      (Bytes.lines text).length = es.length ∧
      ∀ (i : Nat) (e : Event), es[i]? = some e → ((Bytes.lines text)[i]?).bind ofLine? = some e := by
  have hnewline : ∀ l ∈ es.map line, 10 ∉ l := List.forall_mem_map.mpr fun e _ => newline_not_mem_line e
  refine ⟨_, appendAll_jsonLines out es, rfl, fun e _ => newline_not_mem_line e, ?_,
    Bytes.splitOn_flatMap hnewline, ?_, ?_⟩
  · rw [Bytes.count_newline hnewline, List.length_map]
  · rw [lines_map_line, List.length_map]
  · intro i e hi
    rw [lines_map_line, List.getElem?_map, hi, Option.map_some, Option.bind_some, ofLine?_line]

example : (Event.mk "a\n\"\u2028" 7).json.render =
    "\x7b\"name\":\"a\\n\\\"\u2028\",\"seq\":7\x7d" := by decide +kernel

end Event

end TraceRelay
