import TraceRelay.Proofs.Connector.Stopping
import TraceRelay.Proofs.Courier.Ending
import TraceRelay.Proofs.Courier.Laps

/-!
# A closed courier ends, if it is given its turns

Nothing is known here of the host but that its streams answer: attempts may fail or be left without an answer,
writes may be refused or cut short, others may call whatever they like at any time.

1. `Work.onward`: a step of a closed courier leads onward, by the batches that may still be lost, by the way
   to the end, by what is left of an opening, and by what the stream may make it wait. The one step that need
   not is one of the connector's, before the courier has looked at its signals.
2. `course`: what becomes of a courier, turn by turn. A turn that comes too early is passed over.
3. `course_onward`: where the turns are fair, the courier is further on at some time; so it ends
   (`course_ends`).
4. `ends_once_closed`: all that is left to a closed courier, whatever was pending.
-/

namespace TraceRelay

namespace Courier

variable {α : Type} [Message α] {c c' d : Courier α} {ds new : Deeds α} {ms : List (Move α)}

/-- Answers are answers to the call that was made, and a close that was seen has stopped the connector. -/
def Phase.Tended (stopped : Bool) : Phase → Prop
  | .opening o seen _ => o.Suited ∧ (seen = true → stopped = true)
  | _ => True

def Tended (c : Courier α) : Prop := c.phase.Tended c.stopped

theorem Tended.work (h : Tended c) (w : Work c new c') : Tended c' := by
  cases w with
  | start => exact ⟨trivial, nofun⟩
  | @opened o seen again => cases again <;> trivial
  | @gaveUp o seen again e => cases e <;> trivial
  | connect at_ result step =>
    rw [Tended, at_] at h
    exact ⟨Connector.suited_of_step step, h.2⟩
  | noteWake => exact h
  | noteClose at_ =>
    rw [Tended, at_] at h
    exact ⟨h.1, fun _ => rfl⟩
  | @heed s signal => cases signal <;> trivial
  | @takeNothing s last => cases last <;> trivial
  | @flush s last => cases last <;> trivial
  | @writeFails s last | @flushFails s last =>
    cases last with
    | false => exact ⟨trivial, nofun⟩
    | true => trivial
  | writeWaits | completeWaits | closeWaits => exact h
  | _ => trivial

theorem Tended.step (h : Tended c) (st : Step c new c') : Tended c' := by
  cases st with
  | work w => exact h.work w
  | _ => exact h

/-! ## What is to be done -/

/-- An opening is to begin. -/
def Phase.unopened : Phase → Nat
  | .starting => 1
  | _ => 0

/-- What is left of an opening: its steps, once the connector was told to stop, and before that its end. -/
def Phase.triesLeft : Phase → Nat
  | .opening o true _ => o.stepsLeft
  | .opening o false _ => o.result?.isNone.toNat
  | _ => 0

/-- The openings that there may still be. -/
def openingsLeft (c : Courier α) : Nat := c.atStake + c.phase.unopened

def toDo (c : Courier α) : Nat × (Nat × Nat × Nat) × Nat × Nat :=
  (c.openingsLeft, c.toGo, c.phase.triesLeft, c.hesitations)

/-- `c'` is further on than `c`. -/
def Onward (c c' : Courier α) : Prop :=
  Prod.Lex (· < ·)
    (Prod.Lex (Prod.Lex (· < ·) (Prod.Lex (· < ·) (· < ·))) (Prod.Lex (· < ·) (· < ·))) c'.toDo c.toDo

/-- A stream is being opened, and the courier has not seen yet that it was closed. -/
def Looking (c : Courier α) : Prop := ∃ o again, c.phase = .opening o false again ∧ o.result? = none

omit [Message α] in
theorem onward_of_openings (h : c'.openingsLeft < c.openingsLeft) : Onward c c' := .left _ _ h

omit [Message α] in
theorem Nearer.onward (h : Nearer c c') (openings : c'.openingsLeft ≤ c.openingsLeft) : Onward c c' := by
  rcases Nat.lt_or_eq_of_le openings with hlt | heq
  · exact onward_of_openings hlt
  · unfold Onward toDo
    rw [heq]
    exact .right _ (.left _ _ h)

omit [Message α] in
theorem onward_of_tries (openings : c'.openingsLeft = c.openingsLeft) (way : c'.toGo = c.toGo)
    (h : c'.phase.triesLeft < c.phase.triesLeft) : Onward c c' := by
  unfold Onward toDo
  rw [openings, way]
  exact .right _ (.right _ (.left _ _ h))

/-- **No step leads to more openings** than there may still be. -/
theorem Work.openings (w : Work c new c') : new.lost.length + c'.openingsLeft ≤ c.openingsLeft := by
  have hbatches := w.batches.2
  have hnone : c'.phase.unopened = 0 := by
    cases w with
    | noteWake at_ | writeWaits at_ | completeWaits at_ | closeWaits at_ =>
      dsimp only
      rw [at_]
      rfl
    | @opened o seen again => cases again <;> rfl
    | @gaveUp o seen again e => cases e <;> rfl
    | @heed s signal => cases signal <;> rfl
    | @takeNothing s last => cases last <;> rfl
    | @writeFails s last | @flush s last | @flushFails s last => cases last <;> rfl
    | _ => rfl
  unfold openingsLeft
  omega

theorem Work.openings_le (w : Work c new c') : c'.openingsLeft ≤ c.openingsLeft :=
  Nat.le_trans (Nat.le_add_left ..) w.openings

omit [Message α] in
theorem Stalls.onward (h : Stalls c c') (prompt : Prompt c) : Onward c c' := by
  obtain ⟨net, rfl, hfewer⟩ := h.hesitations prompt
  exact .right _ (.right _ (.right _ hfewer))

omit [Message α] in
theorem Looking.rest (h : Looking c) : c.phase.triesLeft = 1 ∧ c.hesitations = 0 := by
  obtain ⟨o, again, hp, hnone⟩ := h
  have hstream : c.stream? = none := by
    rw [stream?, hp]
    cases o with
    | opened i => cases hnone
    | _ => rfl
  rw [hp, Phase.triesLeft, hnone, hesitations, hstream]
  exact ⟨rfl, rfl⟩

omit [Message α] in
/-- A step of the connector is neither a lap of the courier's nor a loss. -/
theorem same_of_connect {o : Opening} {turn : Opening.Turn} {seen again : Bool}
    (at_ : c.phase = .opening o seen again)
    (turned : c' = { c with
      intake := (if turn.counted then c.intake.count .connectFailure else c.intake).logAll turn.records
      net := turn.net
      phase := .opening turn.opening seen again }) :
    c'.openingsLeft = c.openingsLeft ∧ c'.toGo = c.toGo := by
  have hbuffer : c'.intake.buffer = c.intake.buffer := by
    rw [turned]
    show (Intake.logAll _ _).buffer = _
    rw [Intake.buffer_logAll]
    split <;> rfl
  have hphase : c'.phase = .opening turn.opening seen again := by rw [turned]
  have hnoted : c'.pendingWake = c.pendingWake := by rw [turned]
  constructor
  · rw [openingsLeft, openingsLeft, atStake, atStake, queued_congr (congrArg _ hbuffer), onItsWay, onItsWay,
      hphase, at_]
    rfl
  · rw [toGo, toGo, wakesLeft, wakesLeft, hbuffer, hnoted, hphase, at_]
    cases seen <;> rfl

omit [Message α] in
/-- A step of the connector leads onward if the courier has told it to stop, or if it ends the opening. -/
theorem onward_or_looking {o : Opening} {turn : Opening.Turn} {seen again : Bool}
    (at_ : c.phase = .opening o seen again) (under_way : o.result? = none)
    (tended : o.Suited ∧ (seen = true → c.stopped = true))
    (step : c.connector.step c.cancelled c.stopped c.net o = some turn)
    (turned : c' = { c with
      intake := (if turn.counted then c.intake.count .connectFailure else c.intake).logAll turn.records
      net := turn.net
      phase := .opening turn.opening seen again }) :
    Onward c c' ∨ Looking c ∧ Looking c' ∧ c'.toDo = c.toDo := by
  obtain ⟨hsame, hway⟩ := same_of_connect at_ turned
  have hphase : c'.phase = .opening turn.opening seen again := by rw [turned]
  cases seen with
  | true =>
    rw [tended.2 rfl] at step
    refine .inl (onward_of_tries hsame hway ?_)
    rw [hphase, at_]
    exact c.connector.stepsLeft_of_step step tended.1
  | false =>
    cases hresult : turn.opening.result? with
    | some result =>
      refine .inl (onward_of_tries hsame hway ?_)
      rw [hphase, at_, Phase.triesLeft, Phase.triesLeft, under_way, hresult]
      exact Nat.one_pos
    | none =>
      have hbefore : Looking c := ⟨o, again, at_, under_way⟩
      have hafter : Looking c' := ⟨turn.opening, again, hphase, hresult⟩
      refine .inr ⟨hbefore, hafter, ?_⟩
      rw [toDo, toDo, hsame, hway, hbefore.rest.1, hbefore.rest.2, hafter.rest.1, hafter.rest.2]

/-- **A step leads onward**, unless it is one of the connector's while the courier has not looked yet. -/
theorem Work.onward (w : Work c new c') (tended : Tended c) (prompt : Prompt c) :
    Onward c c' ∨ Looking c ∧ Looking c' ∧ c'.toDo = c.toDo := by
  have hopenings := w.openings
  have hfewer := w.openings_le
  have hstake : c'.atStake ≤ c.atStake := Nat.le_trans (Nat.le_add_left ..) w.batches.2
  cases hopened : c.phase.isOpened with
  | true =>
    rcases w.nearer hopened with ⟨-, hstalls⟩ | hlost | ⟨hnearer, -⟩
    · exact .inl (hstalls.onward prompt)
    · have hsome := List.length_pos_iff.mpr hlost
      exact .inl (onward_of_openings (by omega))
    · exact .inl (hnearer.onward hfewer)
  | false =>
    rcases unopened_cases hopened with hp | ⟨o, seen, again, hp, hnone⟩
    · cases w with
      | start at_ =>
        refine .inl (onward_of_openings ?_)
        rw [openingsLeft, openingsLeft, hp]
        exact Nat.lt_succ_of_le hstake
      | _ => simp_all only [reduceCtorEq]
    · rw [Tended, hp] at tended
      rcases w.at_opening hp with ⟨result, hover, -⟩ | ⟨turn, -, hstep, hturned⟩ | ⟨-, hwait, rfl⟩ |
        ⟨rfl, hwait, rfl⟩
      · rw [hnone] at hover
        cases hover
      · exact onward_or_looking hp hnone tended hstep hturned
      · exact .inl ((nearer_of_noteWake hwait).onward hfewer)
      · exact .inl ((nearer_of_noteClose hp hwait).onward hfewer)

/-- What is known of a closed courier, as it goes on. -/
structure Concluding (c : Courier α) : Prop where
  closed : c.intake.buffer.closed = true
  tended : Tended c
  prompt : Prompt c

theorem Run.concluding (r : Run c ms ds c') (h : Concluding c) : Concluding c' :=
  r.induct (P := fun _ c' => Concluding c') h fun h st =>
    ⟨(st.none_accepted h.closed).1, h.tended.step st, h.prompt.step st⟩

/-! ## Turns -/

/-- What becomes of a courier, turn by turn. A move that cannot be made is passed over. -/
def course (c : Courier α) (turns : Nat → Move α) : Nat → Courier α
  | 0 => c
  | n + 1 => ((c.course turns n).move (turns n)).getD (c.course turns n)

/-- Time goes on without end, and the courier has its turn again and again, also one in which it looks at its
signals first. Others may move in between as they like. -/
structure Fair (turns : Nat → Move α) : Prop where
  works : ∀ n, ∃ m, n ≤ m ∧ turns m = .work .latter
  passes : ∀ n t, ∃ m t', n ≤ m ∧ t ≤ t' ∧ turns m = .advance t'

theorem course_next (c : Courier α) (turns : Nat → Move α) (n : Nat) :
    c.course turns (n + 1) = c.course turns n ∨
      (c.course turns n).move (turns n) = some (c.course turns (n + 1)) := by
  rw [course]
  cases (c.course turns n).move (turns n) with
  | none => exact .inl rfl
  | some c' => exact .inr rfl

/-- The moves that are made are among the turns, in order. -/
theorem course_run (c : Courier α) (turns : Nat → Move α) (n : Nat) :
    ∃ ms new, ms.Sublist ((List.range n).map turns) ∧ Run c ms new (c.course turns n) := by
  induction n with
  | zero => exact ⟨[], [], .slnil, .start⟩
  | succ n ih =>
    obtain ⟨ms, new, hamong, r⟩ := ih
    rw [List.range_succ, List.map_append]
    rcases c.course_next turns n with hsame | hmove
    · rw [hsame]
      exact ⟨ms, new, hamong.trans (List.sublist_append_left ..), r⟩
    · exact ⟨_, _, hamong.append (.refl _), r.move hmove⟩

theorem Concluding.course (h : Concluding c) (turns : Nat → Move α) (n : Nat) :
    Concluding (c.course turns n) := by
  obtain ⟨_, _, -, r⟩ := c.course_run turns n
  exact r.concluding h

theorem Step.clock_le (st : Step c new c') : c.net.clock ≤ c'.net.clock := by
  cases st with
  | work w => exact Nat.le_of_eq w.clock.symm
  | advance later => exact later
  | _ => exact Nat.le_refl _

theorem clock_course (c : Courier α) (turns : Nat → Move α) {n m : Nat} (h : n ≤ m) :
    (c.course turns n).net.clock ≤ (c.course turns m).net.clock := by
  induction m, h using Nat.le_induction with
  | base => exact Nat.le_refl _
  | succ m _ ih =>
    rcases c.course_next turns m with hsame | hmove
    · rwa [hsame]
    · exact ih.trans (move_cases hmove).clock_le

/-- A turn of time makes it that late. -/
theorem clock_of_advance {turns : Nat → Move α} {n t : Nat} (turn : turns n = .advance t) :
    t ≤ (c.course turns (n + 1)).net.clock := by
  rw [course, turn, move]
  split
  · exact Nat.le_refl _
  · next hlate => exact Nat.le_of_not_le hlate

/-! ## Between two steps onward -/

omit [Message α] in
theorem Undisturbing.refl (c : Courier α) : Undisturbing c c := ⟨rfl, rfl, rfl, rfl, rfl, Nat.le_refl _⟩

omit [Message α] in
theorem Undisturbing.trans (h : Undisturbing d c) (h' : Undisturbing c c') : Undisturbing d c' :=
  ⟨h'.phase.trans h.phase, h'.buffer.trans h.buffer, h'.scratch.trans h.scratch,
    h'.pendingWake.trans h.pendingWake, h'.channels.trans h.channels, h.later.trans h'.later⟩

omit [Message α] in
theorem Undisturbing.toDo (h : Undisturbing c c') : c'.toDo = c.toDo := by
  rw [Courier.toDo, Courier.toDo, openingsLeft, openingsLeft, h.atStake, toGo, toGo, wakesLeft, wakesLeft,
    hesitations, hesitations, stream?, stream?, h.phase, h.buffer, h.pendingWake]
  simp only [Net.channel, h.channels]

omit [Message α] in
theorem Undisturbing.due (h : Undisturbing c c') : c'.due = c.due := by
  rw [Courier.due, Courier.due, h.phase]
  simp only [Net.channel, h.channels]

/-- A courier that looks at its signals finds one. -/
theorem Looking.works (h : Looking c) (closed : c.intake.buffer.closed = true) :
    ∃ c', c.work .latter = some c' ∧ Onward c c' := by
  obtain ⟨o, again, hp, -⟩ := h
  have hnotice : ∀ {c'}, c.noticeOpening o false again = some c' → c.work .latter = some c' := by
    intro c' h
    rw [work, hp]
    show (c.noticeOpening o false again <|> c.workOpening o false again) = _
    rw [h]
    rfl
  obtain ⟨signal, hsignal⟩ := Intake.wait_of_closed closed
  have hwait : c.intake.wait = (c.intake.wait.1, some signal) := Prod.ext rfl hsignal
  cases signal with
  | wake =>
    have hfewer := (Work.noteWake hp hsignal).openings_le
    refine ⟨_, hnotice ?_, (nearer_of_noteWake hsignal).onward hfewer⟩
    rw [noticeOpening, hwait]
    rfl
  | closed =>
    have hfewer := (Work.noteClose hp hsignal).openings_le
    refine ⟨_, hnotice ?_, (nearer_of_noteClose hp hsignal).onward hfewer⟩
    rw [noticeOpening, hwait]
    rfl

/-- `c` is no further on than `d`: nothing has happened, or nothing but steps of the connector. -/
def Bides (d c : Courier α) : Prop := c.toDo = d.toDo ∧ (Looking c ∨ Undisturbing d c)

theorem Bides.move (h : Bides d c) (concluding : Concluding c) {m : Move α} (hmove : c.move m = some c') :
    Onward d c' ∨ Bides d c' := by
  obtain ⟨hsame, hbides⟩ := h
  by_cases hwork : ∃ pick, m = .work pick
  · obtain ⟨pick, rfl⟩ := hwork
    rcases (work_cases hmove).onward concluding.tended concluding.prompt with honward | ⟨-, hlooking, hstays⟩
    · rw [Onward, hsame] at honward
      exact .inl honward
    · exact .inr ⟨hstays.trans hsame, .inl hlooking⟩
  · obtain ⟨hstill, -, -⟩ := undisturbing_of_closed hmove concluding.closed fun pick hm => hwork ⟨pick, hm⟩
    refine .inr ⟨hstill.toDo.trans hsame, ?_⟩
    rcases hbides with ⟨o, again, hp, hnone⟩ | hbefore
    · exact .inl ⟨o, again, hstill.phase.trans hp, hnone⟩
    · exact .inr (hbefore.trans hstill)

/-- When it is due, a courier that bides makes a step onward. -/
theorem Bides.works (h : Bides d c) (concluding : Concluding c) (running : d.phase ≠ .ended)
    (due : ∀ t, d.due = some t → t ≤ c.net.clock) : ∃ c', c.work .latter = some c' ∧ Onward d c' := by
  obtain ⟨hsame, hbides⟩ := h
  have hstep : ∃ c', c.work .latter = some c' ∧ Onward c c' := by
    rcases hbides with hlooking | hstill
    · exact hlooking.works concluding.closed
    · obtain ⟨c', hwork⟩ := works_when_due concluding.prompt.net.streams concluding.closed
        (hstill.phase ▸ running) (hstill.due ▸ due) .latter
      rcases (work_cases hwork).onward concluding.tended concluding.prompt with honward | ⟨hlooking, -, -⟩
      · exact ⟨c', hwork, honward⟩
      · exact hlooking.works concluding.closed
  obtain ⟨c', hwork, honward⟩ := hstep
  rw [Onward, hsame] at honward
  exact ⟨c', hwork, honward⟩

/-! ## Fair turns -/

variable {turns : Nat → Move α}

theorem course_bides (concluding : Concluding c) (turns : Nat → Move α) (n k : Nat) :
    (∃ m, n < m ∧ Onward (c.course turns n) (c.course turns m)) ∨
      Bides (c.course turns n) (c.course turns (n + k)) := by
  induction k with
  | zero => exact .inr ⟨rfl, .inr (.refl _)⟩
  | succ k ih =>
    rcases ih with hfurther | hbides
    · exact .inl hfurther
    · rcases c.course_next turns (n + k) with hsame | hmove
      · exact .inr (hsame ▸ hbides)
      · exact (hbides.move (concluding.course turns _) hmove).imp_left fun honward =>
          ⟨n + k + 1, by omega, honward⟩

/-- **Where the turns are fair, a closed courier goes onward.** -/
theorem course_onward (concluding : Concluding c) (fair : Fair turns) (n : Nat)
    (running : (c.course turns n).phase ≠ .ended) :
    ∃ m, n < m ∧ Onward (c.course turns n) (c.course turns m) := by
  -- first time goes on until the courier is due, then it has its turn
  obtain ⟨p, t, hnp, ht, hpasses⟩ := fair.passes n ((c.course turns n).due.getD 0)
  obtain ⟨q, hpq, hworks⟩ := fair.works (p + 1)
  have hlate : t ≤ (c.course turns q).net.clock := (clock_of_advance hpasses).trans (c.clock_course turns hpq)
  rcases course_bides concluding turns n (q - n) with hfurther | hbides
  · exact hfurther
  · rw [show n + (q - n) = q by omega] at hbides
    obtain ⟨c', hwork, honward⟩ := hbides.works (concluding.course turns q) running fun t' hdue => by
      rw [hdue] at ht
      exact ht.trans hlate
    refine ⟨q + 1, by omega, ?_⟩
    have hmove : (c.course turns q).move (.work .latter) = some c' := hwork
    rw [show c.course turns (q + 1) = c' by rw [course, hworks, hmove]; rfl]
    exact honward

/-- **Where the turns are fair, a closed courier ends.** -/
theorem course_ends (concluding : Concluding c) (fair : Fair turns) (n : Nat) :
    ∃ m, n ≤ m ∧ (c.course turns m).phase = .ended := by
  by_cases hended : (c.course turns n).phase = .ended
  · exact ⟨n, Nat.le_refl n, hended⟩
  · obtain ⟨m, hlater, honward⟩ := course_onward concluding fair n hended
    obtain ⟨k, hmk, hk⟩ := course_ends concluding fair m
    exact ⟨k, by omega, hk⟩
termination_by (c.course turns n).toDo
decreasing_by exact honward

/-- What has ended stays so. -/
theorem course_ended (concluding : Concluding c) {n m : Nat} (later : n ≤ m)
    (ended : (c.course turns n).phase = .ended) : (c.course turns m).phase = .ended := by
  induction m, later using Nat.le_induction with
  | base => exact ended
  | succ m _ ih =>
    rcases c.course_next turns m with hsame | hmove
    · rwa [hsame]
    · have hothers : ∀ pick, turns m ≠ .work pick := by
        intro pick hturn
        rw [hturn] at hmove
        exact (work_cases hmove).running ih
      exact (undisturbing_of_closed hmove (concluding.course turns m).closed hothers).1.phase.trans ih

/-! ## The end -/

section

variable {connector : Connector} {window : Duration} {method : Gzip.Method} {level : Nat} {net : Net}
  {cancelled : Bool}

theorem Run.tended (r : Run (.start connector window method level net cancelled) ms ds c) : Tended c :=
  r.induct (P := fun _ c => Tended c) trivial fun h st => h.step st

/-- **A closed courier ends, whatever was pending.** After the close nothing is accepted; whatever comes, one
more batch is taken at most, and two are lost at most; there are three rounds of sending, and five laps
around openings, at most; what has ended has been emptied. And it does end, for good, if its streams answer
and the turns are fair. -/
theorem ends_once_closed (r : Run (.start connector window method level net cancelled) ms ds c)
    (closed : c.intake.buffer.closed = true) :
    (∀ {more new c'}, Run c more new c' →
      c'.intake.buffer.closed = true ∧ new.accepted = [] ∧ new.taken.length ≤ 1 ∧ new.lost.length ≤ 2 ∧
      (c.laps more).count .round ≤ 3 ∧ (c.laps more).count .watch ≤ 5 ∧
      (c'.phase = .ended → c'.intake.buffer.events = #[])) ∧
    (Prompt c → ∀ turns, Fair turns → ∃ n, ∀ m, n ≤ m →
      ∃ more new, more.Sublist ((List.range m).map turns) ∧ Run c more new (c.course turns m) ∧
        (c.course turns m).phase = .ended ∧ (c.course turns m).intake.buffer.closed = true ∧
        (c.course turns m).intake.buffer.events = #[]) := by
  constructor
  · intro more new c' r'
    obtain ⟨hclosed, haccepted⟩ := r'.none_accepted closed
    obtain ⟨htaken, hlost⟩ := r'.batches closed
    have hrounds := r'.laps closed .round
    have hwatches := r'.laps closed .watch
    have hround := c.roundsLeft_le
    have hwatch := c.watchesLeft_le
    have hqueued := c.queued_le_one
    have hstake := c.atStake_le_two
    exact ⟨hclosed, haccepted, by omega, by omega, by omega, by omega, (r.append r').leaving.empty⟩
  · intro prompt turns fair
    have hconcluding : Concluding c := ⟨closed, r.tended, prompt⟩
    obtain ⟨n, -, hended⟩ := course_ends hconcluding fair 0
    refine ⟨n, fun m hm => ?_⟩
    obtain ⟨more, new, hamong, r'⟩ := c.course_run turns m
    have hstays := course_ended hconcluding hm hended
    exact ⟨more, new, hamong, r', hstays, (r'.none_accepted closed).1, (r.append r').leaving.empty hstays⟩

end

/-- The courier has its turn in both ways, and then time goes on. -/
def byTurns : Nat → Move α := fun n =>
  match n % 3 with
  | 0 => .work .former
  | 1 => .work .latter
  | _ => .advance n

omit [Message α] in
theorem fair_byTurns : Fair (byTurns : Nat → Move α) where
  works n := by
    refine ⟨3 * n + 1, by omega, ?_⟩
    have hmod : (3 * n + 1) % 3 = 1 := by omega
    simp only [byTurns, hmod]
  passes n t := by
    refine ⟨3 * (n + t) + 2, 3 * (n + t) + 2, by omega, by omega, ?_⟩
    have hmod : (3 * (n + t) + 2) % 3 = 2 := by omega
    simp only [byTurns, hmod]

/-- A close with one batch on its way, on a stream that takes no more, and another event queued. -/
def closedMidBatch : List (Move Event) :=
  let works (n : Nat) : List (Move Event) := List.replicate n (.work .former)
  [.trace ⟨"a", 1⟩] ++ works 11 ++ [.trace ⟨"b", 2⟩] ++ works 3 ++ [.trace ⟨"c", 3⟩, .close]

theorem ends_once_closed_midBatch :
    ∃ ds c, Run fourFatesStart closedMidBatch ds c ∧ c.intake.buffer.closed = true ∧ c.atStake = 2 ∧
      Prompt c ∧ Fair (byTurns : Nat → Move Event) ∧
      (∀ {more new c'}, Run c more new c' → new.taken.length ≤ 1 ∧ (c.laps more).count .round ≤ 3) ∧
      ∃ n, (c.course byTurns n).phase = .ended ∧ (c.course byTurns n).intake.buffer.events = #[] := by
  have hmoves : (fourFatesStart.moves closedMidBatch).map (fun (_, c) =>
      (c.intake.buffer.closed, c.atStake)) = some (true, 2) := by decide +kernel
  obtain ⟨ds, c, hrun, hstate⟩ := Run.seen hmoves
  simp only [Prod.mk.injEq] at hstate
  obtain ⟨hclosed, hstake⟩ := hstate
  have hplan : ChannelPlan.Prompt { writes := ⟨[.takes], .fails .writeZero⟩ } := by
    refine ⟨fun turn hgives => ?_, nofun⟩
    rcases hgives with hgives | rfl
    · rw [List.mem_singleton.mp hgives]
      nofun
    · nofun
  have hprompt : Prompt c := by
    refine hrun.prompt (fun reaction hgives plan hanswer => ?_) rfl
    rcases hgives with hgives | rfl
    · cases hgives
    · cases hanswer
      exact hplan
  obtain ⟨hbounds, hends⟩ := ends_once_closed hrun hclosed
  obtain ⟨n, hn⟩ := hends hprompt byTurns fair_byTurns
  obtain ⟨_, _, -, -, hended, -, hempty⟩ := hn n (Nat.le_refl n)
  exact ⟨ds, c, hrun, hclosed, hstake, hprompt, fair_byTurns,
    fun r => ⟨(hbounds r).2.2.1, (hbounds r).2.2.2.2.1⟩, n, hended, hempty⟩

end Courier

end TraceRelay
