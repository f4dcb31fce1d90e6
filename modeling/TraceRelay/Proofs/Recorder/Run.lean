import TraceRelay.Proofs.Recorder.Step

/-!
# Runs of a recorder

A `Run` is any order of moves. Along with it goes the list of events that the recorder has accepted.
`Step` joins the moves of others to `Work`; `Run.induct` is the induction that every fact on runs goes
by.
-/

namespace TraceRelay.Recorder

variable {α : Type}

/-- A move of a caller, of time, or of the recorder's own work, and the events accepted in it. -/
inductive Step (r : Recorder α) : List α → Recorder α → Prop where
  | accept (e : α) (open_ : r.intake.buffer.closed = false) : Step r [e] (r.trace e)
  | refuse (e : α) (closed : r.intake.buffer.closed = true) : Step r [] (r.trace e)
  | close : Step r [] r.close
  | abandon : Step r [] r.abandon
  | advance {t : Nat} (later : r.clock ≤ t) : Step r [] (r.advance t)
  | work {r' : Recorder α} (w : Work r r') : Step r [] r'

/-- The events accepted in a move. -/
def accepts (r : Recorder α) : Move α → List α
  | .trace e => if r.intake.buffer.closed then [] else [e]
  | _ => []

theorem trace_eq (r : Recorder α) (e : α) : r.trace e = { r with intake := r.intake.trace e } := rfl

theorem move_cases {r r' : Recorder α} {m : Move α} (h : r.move m = some r') :
    Step r (r.accepts m) r' := by
  cases m with
  | trace e =>
    cases h
    show Step r (if r.intake.buffer.closed then [] else [e]) (r.trace e)
    cases hclosed : r.intake.buffer.closed with
    | true => exact .refuse e hclosed
    | false => exact .accept e hclosed
  | close => cases h; exact .close
  | abandon => cases h; exact .abandon
  | advance t =>
    simp only [move] at h
    split at h
    · next later => cases h; exact .advance later
    · cases h
  | work => exact .work (work_cases h)

theorem isEnded_iff {r : Recorder α} : r.isEnded = true ↔ r.phase = .ended := by
  unfold isEnded
  constructor
  · intro h
    split at h
    · next hp => exact hp
    · cases h
  · intro h
    rw [h]

/-- A step of its own neither closes a recorder nor changes its encoder. -/
theorem Work.same {r r' : Recorder α} (w : Work r r') :
    r'.encoder = r.encoder ∧ r'.intake.buffer.closed = r.intake.buffer.closed := by
  have hcomplain : ∀ (r : Recorder α) (message error : String),
      (r.complain message error).encoder = r.encoder ∧
        (r.complain message error).intake.buffer = r.intake.buffer := fun r message error =>
    ⟨rfl, Intake.buffer_logAll _ _⟩
  cases w with
  | wake | close => exact ⟨rfl, Intake.closed_wait _⟩
  | roomWaits at_ ready out | roomMade at_ ready out | flushPart at_ ready some_ out
  | finishPart at_ ready some_ out | finishFails at_ ready some_ out =>
    obtain ⟨_, _, rfl, -⟩ := writeOut_spec out
    exact ⟨rfl, rfl⟩
  | roomFails at_ ready out | flushFails at_ ready some_ out =>
    obtain ⟨_, _, rfl, -⟩ := writeOut_spec out
    exact ⟨rfl, congrArg _ (hcomplain _ _ _).2⟩
  | encodeFails | throughFails | outputFlushFails => exact ⟨rfl, congrArg _ (hcomplain _ _ _).2⟩
  | _ => exact ⟨rfl, rfl⟩

/-- Nor does it change its name. -/
theorem Work.name {r r' : Recorder α} (w : Work r r') : r'.intake.name = r.intake.name := by
  have hcomplain : ∀ (r : Recorder α) (message error : String),
      (r.complain message error).intake.name = r.intake.name := fun _ _ _ => Intake.name_logAll _ _
  cases w with
  | roomWaits at_ ready out | roomMade at_ ready out | flushPart at_ ready some_ out
  | finishPart at_ ready some_ out | finishFails at_ ready some_ out =>
    obtain ⟨_, _, rfl, -⟩ := writeOut_spec out
    rfl
  | roomFails at_ ready out | flushFails at_ ready some_ out =>
    obtain ⟨_, _, rfl, -⟩ := writeOut_spec out
    exact hcomplain _ _ _
  | encodeFails | throughFails | outputFlushFails => exact hcomplain _ _ _
  | _ => rfl

/-- No time passes in a step. -/
theorem Work.clock {r r' : Recorder α} (w : Work r r') : r'.clock = r.clock := by
  cases w with
  | roomWaits at_ ready out | roomMade at_ ready out | roomFails at_ ready out
  | flushPart at_ ready some_ out | flushFails at_ ready some_ out
  | finishPart at_ ready some_ out | finishFails at_ ready some_ out =>
    obtain ⟨_, _, rfl, -⟩ := writeOut_spec out
    rfl
  | _ => rfl

theorem Step.encoder {r r' : Recorder α} {new : List α} (st : Step r new r') :
    r'.encoder = r.encoder := by
  cases st with
  | work w => exact w.same.1
  | _ => rfl

/-- What may have happened to a recorder: the moves, and the events that were accepted. -/
inductive Run (r₀ : Recorder α) : List (Move α) → List α → Recorder α → Prop where
  | start : Run r₀ [] [] r₀
  | move {ms : List (Move α)} {es : List α} {r r' : Recorder α} {m : Move α} (run : Run r₀ ms es r)
      (h : r.move m = some r') : Run r₀ (ms ++ [m]) (es ++ r.accepts m) r'

/-- What holds at the start, and is kept by every step, holds at the end of every run. -/
theorem Run.induct {r₀ r : Recorder α} {P : List α → Recorder α → Prop} {ms : List (Move α)}
    {es : List α} (run : Run r₀ ms es r) (start : P [] r₀)
    (step : ∀ {es r new r'}, P es r → Step r new r' → P (es ++ new) r') : P es r := by
  induction run with
  | start => exact start
  | move _ h ih => exact step ih (move_cases h)

/-! ## The close -/

/-- Whether a move refuses events from then on. -/
def Move.closes : Move α → Bool
  | .close | .abandon => true
  | _ => false

/-- The events of the trace calls among some moves. -/
def traced (ms : List (Move α)) : List α :=
  ms.filterMap fun
    | .trace e => some e
    | _ => none

/-- The events of the calls that came before the first close. -/
def early (ms : List (Move α)) : List α := traced (ms.takeWhile fun m => !m.closes)

/-- The events of the calls that came after it. -/
def late (ms : List (Move α)) : List α := traced (ms.dropWhile fun m => !m.closes)

theorem traced_append (ms ns : List (Move α)) : traced (ms ++ ns) = traced ms ++ traced ns :=
  List.filterMap_append

theorem early_append_late (ms : List (Move α)) : early ms ++ late ms = traced ms := by
  rw [early, late, ← traced_append, List.takeWhile_append_dropWhile]

theorem early_concat (ms : List (Move α)) (m : Move α) :
    early (ms ++ [m]) = early ms ++ if ms.any Move.closes then [] else traced [m] := by
  unfold early
  induction ms with
  | nil => cases m <;> rfl
  | cons m₀ ms ih =>
    cases hcloses : m₀.closes with
    | true => simp [hcloses]
    | false =>
      have htake : ∀ ns : List (Move α), (m₀ :: ns).takeWhile (fun m => !m.closes) =
          [m₀] ++ ns.takeWhile fun m => !m.closes := fun ns => by simp [hcloses]
      rw [List.cons_append, htake, htake, traced_append, traced_append, ih, List.any_cons, hcloses,
        Bool.false_or, List.append_assoc]

theorem late_concat (ms : List (Move α)) (m : Move α) :
    late (ms ++ [m]) = late ms ++ if ms.any Move.closes then traced [m] else [] := by
  unfold late
  induction ms with
  | nil => cases m <;> rfl
  | cons m₀ ms ih =>
    cases hcloses : m₀.closes with
    | true => simp [hcloses, ← traced_append]
    | false => simpa [hcloses] using ih

theorem accepts_eq (r : Recorder α) (m : Move α) :
    r.accepts m = if r.intake.buffer.closed then [] else traced [m] := by
  cases m with
  | trace e => rfl
  | _ => exact (ite_self _).symm

theorem closed_of_move {r r' : Recorder α} {m : Move α} (h : r.move m = some r') :
    r'.intake.buffer.closed = (r.intake.buffer.closed || m.closes) := by
  cases m with
  | trace e =>
    cases h
    refine Eq.trans ?_ (Bool.or_false _).symm
    rw [trace_eq]
    cases hclosed : r.intake.buffer.closed with
    | true => rw [Intake.trace_of_closed hclosed]; exact hclosed
    | false => rw [Intake.trace_of_open hclosed]; exact hclosed
  | close => cases h; rw [Move.closes, Bool.or_true]; exact Intake.closed_close _
  | abandon => cases h; rw [Move.closes, Bool.or_true]; rfl
  | advance t =>
    rw [Recorder.move, Option.ite_none_right_eq_some] at h
    obtain ⟨-, ⟨⟩⟩ := h
    exact (Bool.or_false _).symm
  | work => exact (work_cases h).same.2.trans (Bool.or_false _).symm

/-- **The events accepted are those traced before the close.** -/
theorem Run.accepted {r₀ r : Recorder α} {ms : List (Move α)} {es : List α} (run : Run r₀ ms es r)
    (open_ : r₀.intake.buffer.closed = false) :
    r.intake.buffer.closed = ms.any Move.closes ∧ es = early ms := by
  induction run with
  | start => exact ⟨open_, rfl⟩
  | move run h ih =>
    obtain ⟨hclosed, hes⟩ := ih
    rw [closed_of_move h, accepts_eq, early_concat, hclosed, hes, List.any_append]
    exact ⟨by simp, rfl⟩

/-- A recorder that has done nothing yet. -/
structure Fresh (encoder : Encoder α) (plan : ChannelPlan) (r : Recorder α) : Prop where
  encoder : r.encoder = encoder
  phase : r.phase = .starting
  buffer : r.intake.buffer = .empty
  tally : r.intake.tally = .zero
  output : r.output = .start "" plan
  held : r.held = .empty

theorem fresh_start (name : String) (encoder : Encoder α) (plan : ChannelPlan) :
    (start name encoder plan).Fresh encoder plan := ⟨rfl, rfl, rfl, rfl, rfl, rfl⟩

theorem Run.encoder {r₀ r : Recorder α} {ms : List (Move α)} {es : List α} (run : Run r₀ ms es r) :
    r.encoder = r₀.encoder :=
  run.induct (P := fun _ r => r.encoder = r₀.encoder) rfl fun h st => st.encoder.trans h

theorem Run.name {r₀ r : Recorder α} {ms : List (Move α)} {es : List α} (run : Run r₀ ms es r) :
    r.intake.name = r₀.intake.name := by
  refine run.induct (P := fun _ r => r.intake.name = r₀.intake.name) rfl fun h st => Eq.trans ?_ h
  cases st with
  | accept e | refuse e => exact Intake.name_trace _ e
  | close => exact Intake.name_close _
  | abandon | advance => rfl
  | work w => exact w.name

theorem Run.foldlM_move {r₀ r : Recorder α} {ms : List (Move α)} {es : List α}
    (run : Run r₀ ms es r) : ms.foldlM Recorder.move r₀ = some r := by
  induction run with
  | start => rfl
  | move _ h ih => rw [List.foldlM_append, ih]; simpa using h

/-- Several events are traced in turn. -/
theorem Run.traceAll {r₀ r : Recorder α} {ms : List (Move α)} {es : List α} (run : Run r₀ ms es r)
    (events : List α) :
    ∃ es, Run r₀ (ms ++ events.map .trace) es (events.foldl Recorder.trace r) := by
  induction events generalizing ms es r with
  | nil => exact ⟨es, by rwa [List.map_nil, List.append_nil]⟩
  | cons e events ih =>
    obtain ⟨es, hes⟩ := ih (run.move (m := .trace e) rfl)
    refine ⟨es, ?_⟩
    rwa [List.append_assoc] at hes

/-- Several moves in turn. -/
def moves (r : Recorder α) : List (Move α) → Option (List α × Recorder α)
  | [] => some ([], r)
  | m :: ms =>
    match r.move m with
    | none => none
    | some r' => (r'.moves ms).map fun (es, r'') => (r.accepts m ++ es, r'')

theorem Run.moves {r₀ r r' : Recorder α} {old ms : List (Move α)} {es new : List α}
    (run : Run r₀ old es r) (h : r.moves ms = some (new, r')) :
    Run r₀ (old ++ ms) (es ++ new) r' := by
  induction ms generalizing old es r new with
  | nil => cases h; rw [List.append_nil, List.append_nil]; exact run
  | cons m ms ih =>
    rw [Recorder.moves] at h
    split at h
    · cases h
    · next r₁ hmove =>
      rw [Option.map_eq_some_iff] at h
      obtain ⟨⟨more, r₂⟩, hrest, heq⟩ := h
      cases heq
      rw [← List.append_assoc, List.append_cons]
      exact ih (run.move hmove) hrest

end TraceRelay.Recorder
