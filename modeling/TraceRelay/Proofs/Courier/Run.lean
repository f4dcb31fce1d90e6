import TraceRelay.Proofs.Courier.Step

/-!
# Runs of a courier

A `Run` is any order of moves. Along with it goes the record of its deeds, from which one reads

* the events that were accepted, and those that were refused,
* the batches as they left the buffer, in order (`Deeds.taken`),
* what became of each (`Deeds.settled`).

`Step` joins the moves of others to `Work`; `Run.induct` is the induction that every fact on runs
goes by.
-/

namespace TraceRelay.Courier

variable {α : Type}

/-! ## Records -/

/-- Deeds, first to last. -/
abbrev Deeds (α : Type) := List (Deed α)

namespace Deeds

def accepted (ds : Deeds α) : List α :=
  ds.filterMap fun
    | .accepted e => some e
    | _ => none

def refused (ds : Deeds α) : List α :=
  ds.filterMap fun
    | .refused e => some e
    | _ => none

def taken (ds : Deeds α) : List (List α) :=
  ds.filterMap fun
    | .took events => some events
    | _ => none

def settled (ds : Deeds α) : List (List α × Fate) :=
  ds.filterMap fun
    | .settled events fate => some (events, fate)
    | _ => none

/-- The batches with some fate, among those that are done with. -/
def having (fate : Fate → Bool) (ds : Deeds α) : List (List α) :=
  ((settled ds).filter fun b => fate b.2).map Prod.fst

/-- The batches sent, on whatever stream. -/
def sent (ds : Deeds α) : List (List α) := having (· matches .sent _) ds

def lost (ds : Deeds α) : List (List α) := having (· matches .lost _) ds

def abandoned (ds : Deeds α) : List (List α) := having (· matches .abandoned) ds

def sentOn (i : Nat) (ds : Deeds α) : List (List α) := having (· == .sent i) ds

def lostOn (i : Nat) (ds : Deeds α) : List (List α) := having (· == .lost i) ds

/-- The number of events in some batches. -/
def size (batches : List (List α)) : Nat := batches.flatten.length

variable (ds es : Deeds α)

@[simp] theorem accepted_append : accepted (ds ++ es) = accepted ds ++ accepted es :=
  List.filterMap_append

@[simp] theorem refused_append : refused (ds ++ es) = refused ds ++ refused es :=
  List.filterMap_append

@[simp] theorem taken_append : taken (ds ++ es) = taken ds ++ taken es := List.filterMap_append

@[simp] theorem settled_append : settled (ds ++ es) = settled ds ++ settled es :=
  List.filterMap_append

@[simp] theorem having_append (fate : Fate → Bool) :
    having fate (ds ++ es) = having fate ds ++ having fate es := by
  rw [having, settled_append, List.filter_append, List.map_append]; rfl

@[simp] theorem sent_append : sent (ds ++ es) = sent ds ++ sent es := having_append ..

@[simp] theorem lost_append : lost (ds ++ es) = lost ds ++ lost es := having_append ..

@[simp] theorem abandoned_append : abandoned (ds ++ es) = abandoned ds ++ abandoned es :=
  having_append ..

@[simp] theorem sentOn_append (i : Nat) : sentOn i (ds ++ es) = sentOn i ds ++ sentOn i es :=
  having_append ..

@[simp] theorem lostOn_append (i : Nat) : lostOn i (ds ++ es) = lostOn i ds ++ lostOn i es :=
  having_append ..

@[simp] theorem size_append (a b : List (List α)) : size (a ++ b) = size a + size b := by
  rw [size, List.flatten_append, List.length_append]; rfl

/-- Nothing is settled on stream `i`. -/
def Spares (i : Nat) : Prop := sentOn i ds = [] ∧ lostOn i ds = []

theorem Spares.append {new : Deeds α} {i : Nat} (h : new.Spares i) (ds : Deeds α) :
    sentOn i (ds ++ new) = sentOn i ds ∧ lostOn i (ds ++ new) = lostOn i ds := by
  rw [sentOn_append, lostOn_append, h.1, h.2]
  exact ⟨List.append_nil _, List.append_nil _⟩

theorem spares_nil (i : Nat) : Spares ([] : Deeds α) i := ⟨rfl, rfl⟩

theorem spares_took (i : Nat) (events : List α) : Spares [.took events] i := ⟨rfl, rfl⟩

theorem spares_abandoned (i : Nat) (events : List α) :
    Spares [.took events, .settled events .abandoned] i := ⟨rfl, rfl⟩

theorem spares_sent {i j : Nat} (h : j ≠ i) (events : List α) :
    Spares [.settled events (.sent i)] j := by
  simp [Spares, sentOn, lostOn, having, settled, Ne.symm h]

theorem spares_lost {i j : Nat} (h : j ≠ i) (events : List α) :
    Spares [.settled events (.lost i)] j := by
  simp [Spares, sentOn, lostOn, having, settled, Ne.symm h]

theorem sentOn_sent (i : Nat) (events : List α) :
    sentOn i [.settled events (.sent i)] = [events] := by
  simp [sentOn, having, settled]

theorem lostOn_sent (i : Nat) (events : List α) : lostOn i [.settled events (.sent i)] = [] := by
  simp [lostOn, having, settled]

theorem sentOn_lost (i : Nat) (events : List α) : sentOn i [.settled events (.lost i)] = [] := by
  simp [sentOn, having, settled]

theorem lostOn_lost (i : Nat) (events : List α) :
    lostOn i [.settled events (.lost i)] = [events] := by
  simp [lostOn, having, settled]

/-- Every batch has one fate. -/
theorem size_settled :
    size ((settled ds).map Prod.fst) = size (sent ds) + size (lost ds) + size (abandoned ds) := by
  unfold sent lost abandoned having
  induction settled ds with
  | nil => rfl
  | cons b bs ih =>
    obtain ⟨events, fate⟩ := b
    simp only [size, List.map_cons, List.flatten_cons, List.length_append] at ih ⊢
    cases fate with
    | sent i => simp at ih ⊢; omega
    | lost i => simp at ih ⊢; omega
    | abandoned => simp at ih ⊢; omega

end Deeds

/-! ## Steps and runs -/

/-- A move of a caller, of time, or of the courier's own work. -/
inductive Step [Message α] (c : Courier α) : Deeds α → Courier α → Prop where
  | accept (e : α) (open_ : c.intake.buffer.closed = false) : Step c [.accepted e] (c.trace e)
  | refuse (e : α) (closed : c.intake.buffer.closed = true) : Step c [.refused e] (c.trace e)
  | close : Step c [] c.close
  | abandon : Step c [] c.abandon
  | cancel : Step c [] c.cancel
  | advance {t : Nat} (later : c.net.clock ≤ t) : Step c [] (c.advance t)
  | work {ds : Deeds α} {c' : Courier α} (w : Work c ds c') : Step c ds c'

theorem move_cases [Message α] {c c' : Courier α} {m : Move α} (h : c.move m = some c') :
    Step c (c.deeds m) c' := by
  cases m with
  | trace e =>
    cases h
    show Step c (if c.intake.buffer.closed then [.refused e] else [.accepted e]) (c.trace e)
    cases hclosed : c.intake.buffer.closed with
    | true => exact .refuse e hclosed
    | false => exact .accept e hclosed
  | close => cases h; exact .close
  | abandon => cases h; exact .abandon
  | cancel => cases h; exact .cancel
  | advance t =>
    simp only [move] at h
    split at h
    · next later => cases h; exact .advance later
    · cases h
  | work pick => exact .work (work_cases h)

/-- What may have happened to a courier: the moves, and the deeds of them, first to last. -/
inductive Run [Message α] (c₀ : Courier α) : List (Move α) → Deeds α → Courier α → Prop where
  | start : Run c₀ [] [] c₀
  | move {ms : List (Move α)} {ds : Deeds α} {c c' : Courier α} {m : Move α} (r : Run c₀ ms ds c)
      (h : c.move m = some c') : Run c₀ (ms ++ [m]) (ds ++ c.deeds m) c'

theorem Run.append [Message α] {c₀ c c' : Courier α} {ms more : List (Move α)} {ds new : Deeds α}
    (r : Run c₀ ms ds c) (r' : Run c more new c') : Run c₀ (ms ++ more) (ds ++ new) c' := by
  induction r' with
  | start => rw [List.append_nil, List.append_nil]; exact r
  | move _ h ih => rw [← List.append_assoc, ← List.append_assoc]; exact ih.move h

/-- What holds at the start, and is kept by every step, holds at the end of every run. -/
theorem Run.induct [Message α] {c₀ c : Courier α} {P : Deeds α → Courier α → Prop}
    {ms : List (Move α)} {ds : Deeds α} (r : Run c₀ ms ds c) (start : P [] c₀)
    (step : ∀ {ds c new c'}, P ds c → Step c new c' → P (ds ++ new) c') : P ds c := by
  induction r with
  | start => exact start
  | move _ h ih => exact step ih (move_cases h)

theorem name_endOpening (c : Courier α) (again : Bool) (result : Except OpenFailure Nat) :
    (c.endOpening again result).intake.name = c.intake.name := by
  cases result with
  | ok i => cases again <;> rfl
  | error e => cases e <;> rfl

theorem name_discard (c : Courier α) : c.discard.intake.name = c.intake.name := by
  unfold discard
  dsimp only
  split <;> rfl

/-- A courier keeps its name. -/
theorem Work.name [Message α] {c c' : Courier α} {ds : Deeds α} (w : Work c ds c') :
    c'.intake.name = c.intake.name := by
  cases w with
  | opened | gaveUp => exact c.name_endOpening _ _
  | @connect o closing again turn =>
    show ((if turn.counted then _ else _ : Intake α).logAll _).name = _
    rw [Intake.name_logAll]
    cases turn.counted <;> rfl
  | heedNoted => rw [intake_heed]
  | heed | heedCancel => rw [intake_heed]; rfl
  | takeNothing => rw [intake_endBatch]; rfl
  | flush => rw [sent, intake_endBatch]; rfl
  | discardNothing | discard => exact c.name_discard
  | _ => rfl

theorem Run.name [Message α] {c₀ c : Courier α} {ms : List (Move α)} {ds : Deeds α}
    (r : Run c₀ ms ds c) : c.intake.name = c₀.intake.name := by
  refine r.induct (P := fun _ c => c.intake.name = c₀.intake.name) rfl fun h st => Eq.trans ?_ h
  cases st with
  | accept e | refuse e => exact Intake.name_trace _ e
  | close => exact Intake.name_close _
  | abandon | cancel | advance => rfl
  | work w => exact w.name

/-- The events of the trace calls among some moves. -/
def traced (ms : List (Move α)) : List α :=
  ms.filterMap fun
    | .trace e => some e
    | _ => none

theorem Work.no_call [Message α] {c c' : Courier α} {ds : Deeds α} (w : Work c ds c') :
    ds.accepted = [] ∧ ds.refused = [] := by
  cases w <;> exact ⟨rfl, rfl⟩

/-- Every trace call is accepted or refused, and nothing else is. -/
theorem Run.calls [Message α] {c₀ c : Courier α} {ms : List (Move α)} {ds : Deeds α}
    (r : Run c₀ ms ds c) : (traced ms).length = ds.accepted.length + ds.refused.length := by
  induction r with
  | start => rfl
  | @move ms ds c c' m r h ih =>
    rw [traced, List.filterMap_append, List.length_append, ← traced, ih, Deeds.accepted_append,
      Deeds.refused_append, List.length_append, List.length_append]
    have hone : (traced [m]).length =
        (Deeds.accepted (c.deeds m)).length + (Deeds.refused (c.deeds m)).length := by
      cases m with
      | trace e => cases hclosed : c.intake.buffer.closed <;> simp [deeds, hclosed] <;> rfl
      | work pick =>
        obtain ⟨haccepted, hrefused⟩ := (work_cases h).no_call
        rw [haccepted, hrefused]
        rfl
      | close | abandon | cancel | advance => rfl
    rw [show List.filterMap _ [m] = traced [m] from rfl, hone]
    omega

/-- Where none is refused, the events accepted are those of the trace calls. -/
theorem Run.accepted_eq_traced [Message α] {c₀ c : Courier α} {ms : List (Move α)} {ds : Deeds α}
    (r : Run c₀ ms ds c) (none_refused : ds.refused = []) : ds.accepted = traced ms := by
  induction r with
  | start => rfl
  | @move ms ds c c' m r h ih =>
    rw [Deeds.refused_append, List.append_eq_nil_iff] at none_refused
    obtain ⟨hbefore, hnow⟩ := none_refused
    have hone : Deeds.accepted (c.deeds m) = traced [m] := by
      cases m with
      | trace e =>
        cases hclosed : c.intake.buffer.closed with
        | true => simp [deeds, hclosed, Deeds.refused] at hnow
        | false => simp [deeds, hclosed]; rfl
      | work pick => exact (work_cases h).no_call.1
      | close | abandon | cancel | advance => rfl
    rw [Deeds.accepted_append, ih hbefore, hone, traced, traced, traced, List.filterMap_append]

/-- Several moves in turn. -/
def moves [Message α] (c : Courier α) : List (Move α) → Option (Deeds α × Courier α)
  | [] => some ([], c)
  | m :: ms =>
    match c.move m with
    | none => none
    | some c' => (c'.moves ms).map fun (ds, c'') => (c.deeds m ++ ds, c'')

theorem moves_cons [Message α] {c c' : Courier α} {m : Move α} (h : c.move m = some c')
    (ms : List (Move α)) :
    c.moves (m :: ms) = (c'.moves ms).map fun (ds, c'') => (c.deeds m ++ ds, c'') := by
  rw [moves, h]

theorem moves_append [Message α] {c c' c'' : Courier α} {ms more : List (Move α)} {ds new : Deeds α}
    (h : c.moves ms = some (ds, c')) (h' : c'.moves more = some (new, c'')) :
    c.moves (ms ++ more) = some (ds ++ new, c'') := by
  induction ms generalizing c ds with
  | nil => cases h; exact h'
  | cons m ms ih =>
    rw [Courier.moves] at h
    split at h
    · cases h
    · next c₁ hmove =>
      obtain ⟨⟨rest, c₂⟩, hrest, heq⟩ := Option.map_eq_some_iff.mp h
      cases heq
      rw [List.cons_append, moves_cons hmove, ih hrest, List.append_assoc]
      rfl

theorem Run.moves [Message α] {c₀ c c' : Courier α} {old ms : List (Move α)} {ds new : Deeds α}
    (r : Run c₀ old ds c) (h : c.moves ms = some (new, c')) :
    Run c₀ (old ++ ms) (ds ++ new) c' := by
  induction ms generalizing old ds c new with
  | nil => cases h; rw [List.append_nil, List.append_nil]; exact r
  | cons m ms ih =>
    rw [Courier.moves] at h
    split at h
    · cases h
    · next c₁ hmove =>
      rw [Option.map_eq_some_iff] at h
      obtain ⟨⟨more, c₂⟩, hrest, heq⟩ := h
      cases heq
      rw [← List.append_assoc, List.append_cons]
      exact ih (r.move hmove) hrest

/-- A run is known by what is seen at the end of its moves. -/
theorem Run.seen [Message α] {β : Type} {c₀ : Courier α} {ms : List (Move α)}
    {see : Deeds α × Courier α → β} {b : β} (h : (c₀.moves ms).map see = some b) :
    ∃ ds c, Run c₀ ms ds c ∧ see (ds, c) = b := by
  obtain ⟨⟨ds, c⟩, hmoves, hseen⟩ := Option.map_eq_some_iff.mp h
  exact ⟨ds, c, Run.start.moves hmoves, hseen⟩

end TraceRelay.Courier
