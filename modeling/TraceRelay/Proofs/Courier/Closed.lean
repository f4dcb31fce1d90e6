import TraceRelay.Proofs.Courier.Handling

/-!
# How a closed courier comes to its end

1. Nothing is accepted any more (`Run.none_accepted`).
2. Once its opening has ended one way or the other, a closed courier is nearer to its end with every step
   (`Work.nearer`), so that it comes there by itself (`ends_of_closed`), unless its stream makes it wait or
   loses a batch.

A courier that is not cancelled heeds the wakes that are left before it sees the close: they come first in
the measure.
-/

namespace TraceRelay.Courier

variable {α : Type} [Message α] {c c' : Courier α} {ds new : Deeds α}

/-! ## Nothing is accepted -/

theorem Step.none_accepted (st : Step c new c') (closed : c.intake.buffer.closed = true) :
    c'.intake.buffer.closed = true ∧ new.accepted = [] := by
  cases st with
  | accept e open_ =>
    rw [closed] at open_
    cases open_
  | refuse e _ =>
    refine ⟨?_, rfl⟩
    rw [trace_eq, Intake.trace_of_closed closed]
    exact closed
  | close => exact ⟨Intake.closed_close _, rfl⟩
  | abandon => exact ⟨rfl, rfl⟩
  | cancel | advance => exact ⟨closed, rfl⟩
  | work w => exact ⟨w.stays_closed closed, w.no_call.1⟩

/-- **After a close nothing is accepted.** -/
theorem Run.none_accepted {ms : List (Move α)} (r : Run c ms ds c')
    (closed : c.intake.buffer.closed = true) :
    c'.intake.buffer.closed = true ∧ ds.accepted = [] := by
  refine r.induct (P := fun ds c' => c'.intake.buffer.closed = true ∧ ds.accepted = [])
    ⟨closed, rfl⟩ ?_
  rintro ds c₁ new c₂ ⟨hclosed, haccepted⟩ st
  obtain ⟨hclosed', haccepted'⟩ := st.none_accepted hclosed
  refine ⟨hclosed', ?_⟩
  rw [Deeds.accepted_append, haccepted, haccepted', List.append_nil]

/-! ## What is ahead -/

/-- The opening has ended, if there is one. -/
def Phase.isOpened : Phase → Bool
  | .starting => false
  | .opening o _ _ => o.result?.isSome
  | _ => true

omit [Message α] in
theorem unopened_cases (h : c.phase.isOpened = false) :
    c.phase = .starting ∨ ∃ o closing again, c.phase = .opening o closing again ∧ o.result? = none := by
  cases hp : c.phase with
  | starting => exact .inl rfl
  | opening o closing again =>
    rw [hp] at h
    exact .inr ⟨o, closing, again, rfl, Option.isNone_iff_eq_none.mp (Option.isSome_eq_false_iff.mp h)⟩
  | _ =>
    rw [hp] at h
    cases h

/-- The place of a phase on the way to the end. -/
def Phase.rank : Phase → Nat
  | .opening _ false _ => 16
  | .opening _ true _ => 15
  | .gathering _ _ => 14
  | .collecting _ false => 13
  | .writing _ false _ _ => 12
  | .flushing _ false _ => 11
  | .waiting _ => 10
  | .collecting _ true => 9
  | .writing _ true _ _ => 8
  | .flushing _ true _ => 7
  | .completing _ _ => 6
  | .flushingEnd _ => 5
  | .closing _ => 4
  | .leaving => 3
  | .discarding => 2
  | .ended | .starting => 1

/-- How much is left to write. -/
def Phase.left : Phase → Nat
  | .writing _ _ _ rest | .completing _ rest => rest.length
  | _ => 0

/-- The wakes that are still to be heeded. A token may have to be noted first. -/
def wakesLeft (c : Courier α) : Nat := 2 * c.intake.buffer.token.toNat + c.pendingWake.toNat

def toGo (c : Courier α) : Nat × Nat × Nat := (c.wakesLeft, c.phase.rank, c.phase.left)

/-- `c'` is nearer to the end than `c`. -/
def Nearer (c c' : Courier α) : Prop :=
  Prod.Lex (· < ·) (Prod.Lex (· < ·) (· < ·)) c'.toGo c.toGo

omit [Message α] in
theorem nearer_of_wakes (h : c'.wakesLeft < c.wakesLeft) : Nearer c c' := .left _ _ h

omit [Message α] in
theorem nearer_of_rank {p : Phase} (at_ : c.phase = p) (wakes : c'.wakesLeft = c.wakesLeft)
    (h : c'.phase.rank < p.rank) : Nearer c c' := by
  unfold Nearer toGo
  rw [wakes, at_]
  exact .right _ (.left _ _ h)

omit [Message α] in
theorem nearer_of_left {p : Phase} (at_ : c.phase = p) (wakes : c'.wakesLeft = c.wakesLeft)
    (rank : c'.phase.rank = p.rank) (h : c'.phase.left < p.left) : Nearer c c' := by
  unfold Nearer toGo
  rw [wakes, rank, at_]
  exact .right _ (.right _ h)

omit [Message α] in
/-- A wake that is noted is one step less to its being heeded. -/
theorem nearer_of_noteWake (wait : c.intake.wait.2 = some .wake) :
    Nearer c { c with intake := c.intake.wait.1, pendingWake := true } := by
  obtain ⟨htoken, hused⟩ := Intake.token_of_wake wait
  refine nearer_of_wakes ?_
  show 2 * c.intake.wait.1.buffer.token.toNat + 1 < 2 * c.intake.buffer.token.toNat + _
  rw [htoken, hused, Bool.toNat_false, Bool.toNat_true]
  omega

omit [Message α] in
theorem nearer_of_noteClose {o : Opening} {again : Bool} (at_ : c.phase = .opening o false again)
    (wait : c.intake.wait.2 = some .closed) :
    Nearer c { c with intake := c.intake.wait.1, stopped := true, phase := .opening o true again } := by
  obtain ⟨htoken, hused⟩ := Intake.token_of_closed wait
  refine nearer_of_rank at_ ?_ (Nat.lt_succ_self 15)
  show 2 * c.intake.wait.1.buffer.token.toNat + _ = 2 * c.intake.buffer.token.toNat + _
  rw [htoken, hused]

omit [Message α] in
theorem wakesLeft_discard (c : Courier α) : c.discard.wakesLeft = c.wakesLeft := by
  rw [wakesLeft, wakesLeft, token_discard]
  rfl

/-- The stream answers that the courier has to wait. -/
inductive Stalls (c : Courier α) : Courier α → Prop where
  | write {i : Nat} {data : Bytes} {net : Net} (on_ : c.stream? = some i)
      (write : c.net.write i data = (net, none)) : Stalls c { c with net }
  | close {i : Nat} {net : Net} (on_ : c.stream? = some i) (close : c.net.close i = (net, none)) :
      Stalls c { c with net }

omit [Message α] in
theorem Stalls.on_stream (h : Stalls c c') : (∃ i, c.stream? = some i) ∧ c'.phase = c.phase := by
  cases h with
  | write on_ | close on_ => exact ⟨⟨_, on_⟩, rfl⟩

/-- **A step leads nearer to the end**, unless it loses a batch or the stream has answered that the courier
has to wait. -/
theorem Work.nearer (w : Work c new c') (opened : c.phase.isOpened = true) :
    (c.use ≠ .idle ∧ Stalls c c') ∨ new.lost ≠ [] ∨ Nearer c c' ∧ c'.phase.isOpened = true := by
  cases w with
  | start at_ => rw [at_] at opened; cases opened
  | connect at_ result => rw [at_] at opened; rw [Phase.isOpened, result] at opened; cases opened
  | @opened o closing again i at_ result =>
    refine .inr (.inr ⟨nearer_of_rank at_ ?_ ?_, rfl⟩)
    · rw [wakesLeft, buffer_endOpening, pendingWake_endOpening]
      rfl
    · cases closing with
      | false => exact (by decide : 10 < 16)
      | true => exact (by decide : 10 < 15)
  | @gaveUp o closing again e at_ result =>
    obtain ⟨-, hphase⟩ := c.asksNothing_giveUp again e
    refine .inr (.inr ⟨nearer_of_rank at_ ?_ ?_, by rw [hphase]; rfl⟩)
    · rw [wakesLeft, buffer_endOpening, pendingWake_endOpening]
      rfl
    · rw [hphase]
      cases closing with
      | false => exact (by decide : 3 < 16)
      | true => exact (by decide : 3 < 15)
  | noteWake at_ wait => exact .inr (.inr ⟨nearer_of_noteWake wait, opened⟩)
  | noteClose at_ wait =>
    rw [at_] at opened
    exact .inr (.inr ⟨nearer_of_noteClose at_ wait, opened⟩)
  | heedNoted at_ noted =>
    refine .inr (.inr ⟨nearer_of_wakes ?_, rfl⟩)
    show 2 * c.intake.buffer.token.toNat + 0 < 2 * c.intake.buffer.token.toNat + c.pendingWake.toNat
    rw [noted, Bool.toNat_true]
    omega
  | @heed s signal at_ noted wait =>
    cases signal with
    | wake =>
      obtain ⟨htoken, hused⟩ := Intake.token_of_wake wait
      refine .inr (.inr ⟨nearer_of_wakes ?_, rfl⟩)
      show 2 * c.intake.wait.1.buffer.token.toNat + c.pendingWake.toNat <
        2 * c.intake.buffer.token.toNat + c.pendingWake.toNat
      rw [htoken, hused, Bool.toNat_false, Bool.toNat_true]
      omega
    | closed =>
      obtain ⟨htoken, hused⟩ := Intake.token_of_closed wait
      refine .inr (.inr ⟨nearer_of_rank at_ ?_ (Nat.lt_succ_self 9), rfl⟩)
      show 2 * c.intake.wait.1.buffer.token.toNat + _ = 2 * c.intake.buffer.token.toNat + _
      rw [htoken, hused]
      rfl
  | heedCancel at_ => exact .inr (.inr ⟨nearer_of_rank at_ rfl (Nat.lt_succ_self 9), rfl⟩)
  | gathered at_ => exact .inr (.inr ⟨nearer_of_rank at_ rfl (Nat.lt_succ_self 13), rfl⟩)
  | @takeNothing s last at_ =>
    cases last with
    | false => exact .inr (.inr ⟨nearer_of_rank at_ rfl (by decide : 10 < 13), rfl⟩)
    | true => exact .inr (.inr ⟨nearer_of_rank at_ rfl (by decide : 6 < 9), rfl⟩)
  | @take s last at_ =>
    cases last with
    | false => exact .inr (.inr ⟨nearer_of_rank at_ rfl (Nat.lt_succ_self 12), rfl⟩)
    | true => exact .inr (.inr ⟨nearer_of_rank at_ rfl (Nat.lt_succ_self 8), rfl⟩)
  | writeWaits at_ ready write | completeWaits at_ ready write =>
    refine .inl ⟨fun hidle => ?_, .write (by rw [stream?, at_]) write⟩
    rw [use, at_] at hidle
    cases hidle
  | closeWaits at_ ready close =>
    refine .inl ⟨fun hidle => ?_, .close (by rw [stream?, at_]) close⟩
    rw [use, at_] at hidle
    cases hidle
  | @writePart s last parcel rest net n at_ ready write some_ left =>
    exact .inr (.inr ⟨nearer_of_left at_ rfl (by cases last <;> rfl) (length_drop_lt some_ left), rfl⟩)
  | @writeAll s last parcel rest net n at_ =>
    cases last with
    | false => exact .inr (.inr ⟨nearer_of_rank at_ rfl (Nat.lt_succ_self 11), rfl⟩)
    | true => exact .inr (.inr ⟨nearer_of_rank at_ rfl (Nat.lt_succ_self 7), rfl⟩)
  | writeFails | flushFails => exact .inr (.inl (List.cons_ne_nil _ _))
  | @flush s last parcel net at_ =>
    cases last with
    | false => exact .inr (.inr ⟨nearer_of_rank at_ rfl (Nat.lt_succ_self 10), rfl⟩)
    | true => exact .inr (.inr ⟨nearer_of_rank at_ rfl (Nat.lt_succ_self 6), rfl⟩)
  | completePart at_ ready write some_ left =>
    exact .inr (.inr ⟨nearer_of_left at_ rfl rfl (length_drop_lt some_ left), rfl⟩)
  | completeAll at_ => exact .inr (.inr ⟨nearer_of_rank at_ rfl (Nat.lt_succ_self 5), rfl⟩)
  | completeFails at_ => exact .inr (.inr ⟨nearer_of_rank at_ rfl (by decide : 3 < 6), rfl⟩)
  | flushEnd at_ => exact .inr (.inr ⟨nearer_of_rank at_ rfl (Nat.lt_succ_self 4), rfl⟩)
  | flushEndFails at_ => exact .inr (.inr ⟨nearer_of_rank at_ rfl (by decide : 3 < 5), rfl⟩)
  | closed at_ | closeFails at_ =>
    exact .inr (.inr ⟨nearer_of_rank at_ rfl (Nat.lt_succ_self 3), rfl⟩)
  | leave at_ => exact .inr (.inr ⟨nearer_of_rank at_ rfl (Nat.lt_succ_self 2), rfl⟩)
  | discardNothing at_ | discard at_ =>
    exact .inr (.inr ⟨nearer_of_rank at_ c.wakesLeft_discard (Nat.lt_succ_self 1), rfl⟩)

/-! ## The way to the end -/

/-- The courier is held up by what it does with its stream. -/
def AwaitsStream (c : Courier α) (pick : Pick) : Prop :=
  c.use ≠ .idle ∧ ∃ i, c.stream? = some i ∧ c.HeldUp i pick

/-- Only time, or its stream, may keep a closed courier waiting. -/
theorem works_of_closed (closed : c.intake.buffer.closed = true) (opened : c.phase.isOpened = true)
    (going : c.phase ≠ .ended) (pick : Pick) :
    (∃ c', c.work pick = some c') ∨ (∃ s deadline, c.phase = .gathering s deadline) ∨
      c.AwaitsStream pick := by
  have hstream : ∀ {i : Nat}, c.use ≠ .idle → c.stream? = some i →
      (∃ next, c.work pick = c.onStream i next) → (∃ c', c.work pick = some c') ∨
        c.AwaitsStream pick := by
    rintro i huse hstream ⟨next, hwork⟩
    cases hready : c.net.isReady i with
    | true => exact .inl ⟨next, hwork.trans (onStream_eq_some.mpr ⟨hready, rfl⟩)⟩
    | false => exact .inr ⟨huse, i, hstream, .inl hready⟩
  cases hp : c.phase with
  | starting => rw [hp] at opened; cases opened
  | ended => exact absurd hp going
  | gathering s deadline => exact .inr (.inl ⟨s, deadline, rfl⟩)
  | collecting | leaving | discarding =>
    left
    rw [Courier.work, hp]
    exact ⟨_, rfl⟩
  | opening o closing again =>
    rw [hp] at opened
    obtain ⟨result, hresult⟩ := Option.isSome_iff_exists.mp opened
    left
    rw [Courier.work, hp]
    have hover : ∃ c', c.workOpening o closing again = some c' := by
      rw [workOpening, hresult]
      exact ⟨_, rfl⟩
    obtain ⟨c', hc', -⟩ := Pick.choose_of_former (P := fun _ => True) pick hover fun _ _ => trivial
    exact ⟨c', hc'⟩
  | waiting s =>
    left
    rw [Courier.work, hp]
    dsimp only
    split
    · exact ⟨_, rfl⟩
    · obtain ⟨signal, hsignal⟩ := Intake.wait_of_closed closed
      have hnotice : ∃ c', c.noticeSignal s = some c' :=
        ⟨_, noticeSignal_eq_some.mpr ⟨signal, hsignal, rfl⟩⟩
      obtain ⟨c', hc', -⟩ := Pick.choose_of_former (P := fun _ => True) pick hnotice fun _ _ => trivial
      exact ⟨c', hc'⟩
  | writing | flushing | completing | flushingEnd | closing =>
    have huse : c.use ≠ .idle := by
      intro hidle
      rw [use, hp] at hidle
      cases hidle
    refine (hstream huse (by rw [stream?, hp]) ?_).imp_right .inr
    rw [Courier.work, hp]
    exact ⟨_, rfl⟩

/-- **A closed courier comes to its end by itself** once its opening has ended, unless its stream makes it
wait, or loses a batch. -/
theorem ends_of_closed (c : Courier α) (closed : c.intake.buffer.closed = true)
    (opened : c.phase.isOpened = true) (pick : Pick) :
    ∃ own ds c', (∀ m ∈ own, Move.IsOwn pick m) ∧ c.moves own = some (ds, c') ∧
      (c'.phase = .ended ∨ c'.AwaitsStream pick ∨ ds.lost ≠ []) := by
  by_cases hended : c.phase = .ended
  · exact ⟨[], [], c, nofun, rfl, .inl hended⟩
  rcases works_of_closed closed opened hended pick with ⟨c₁, hwork⟩ | ⟨s, deadline, hgathering⟩ | hheld
  · have w := work_cases hwork
    have hmove : c.move (.work pick) = some c₁ := hwork
    rcases w.nearer opened with ⟨huse, hstalls⟩ | hlost | ⟨hnearer, hopened⟩
    · obtain ⟨⟨i, hi⟩, hsame⟩ := hstalls.on_stream
      exact ⟨[], [], c, nofun, rfl, .inr (.inl ⟨huse, i, hi, .inr ⟨c₁, hwork, hsame⟩⟩)⟩
    · refine ⟨[.work pick], c.deeds (.work pick), c₁, ?_, ?_, .inr (.inr hlost)⟩
      · intro m hm
        rw [List.mem_singleton.mp hm]
        rfl
      · rw [moves_cons hmove]
        simp [moves]
    · obtain ⟨own, ds, c', hown, hmoves, hc'⟩ :=
        ends_of_closed c₁ (w.stays_closed closed) hopened pick
      refine ⟨.work pick :: own, c.deeds (.work pick) ++ ds, c', ?_, ?_, ?_⟩
      · rintro m (_ | ⟨_, hm⟩)
        · rfl
        · exact hown m hm
      · rw [moves_cons hmove, hmoves]
        rfl
      · rw [Deeds.lost_append]
        exact hc'.imp_right (Or.imp_right fun h hnil => h (List.append_eq_nil_iff.mp hnil).2)
  · have hcollects := collects_of_gathering hgathering pick
    have hnearer : Nearer c { c.advance (max c.net.clock deadline) with phase := .collecting s false } :=
      nearer_of_rank hgathering rfl (Nat.lt_succ_self 13)
    obtain ⟨own, ds, c', hown, hmoves, hc'⟩ := ends_of_closed
      { c.advance (max c.net.clock deadline) with phase := .collecting s false } closed rfl pick
    refine ⟨_, _, c', ?_, moves_append hcollects hmoves, hc'⟩
    rintro m (_ | ⟨_, _ | ⟨_, hm⟩⟩)
    · trivial
    · rfl
    · exact hown m hm
  · exact ⟨[], [], c, nofun, rfl, .inr (.inl hheld)⟩
termination_by c.toGo
decreasing_by
  · exact hnearer
  · exact hnearer

end TraceRelay.Courier
