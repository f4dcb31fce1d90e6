import TraceRelay.Proofs.Recorder.Accounting

/-!
# The rounds of a recorder

When a recorder wakes it takes the events that it finds, gives each its turn, and flushes. It finds none
and does not flush, if it was woken for events that the round before had taken.

1. `acts`: what a recorder brings to an end along a run. `Run.fates_of_acts` and `Run.lapses_of_acts`:
   all that is known of fates and lapses can be read off it.
2. `Pace`: what may be done at each place of a round. `Work.pace`: every step keeps to it, so that the
   acts of a run fall into rounds (`Run.paced`).
3. `balanced_at_end`: the counters of a recorder that has ended add up.
-/

namespace TraceRelay.Recorder

variable {α : Type} {r₀ r r' : Recorder α} {ms : List (Move α)} {es : List α} {encoder : Encoder α}
  {plan : ChannelPlan}

/-! ## Acts -/

/-- What a recorder brings to an end. -/
inductive Act where
  /-- It takes so many events. -/
  | take (events : Nat)
  /-- An event has had its turn. -/
  | settle (f : Fate)
  | flush (ok : Bool)
  | close (ok : Bool)
  deriving DecidableEq, Repr

namespace Act

def fate? : Act → Option Fate
  | .settle f => some f
  | _ => none

def lapse? : Act → Option Lapse
  | .flush false => some .flush
  | .close false => some .close
  | _ => none

end Act

/-- What a step of its own brings to an end. A flush, and a close, first write out what is held: they
fail there, or when it is the turn of the output itself. -/
def doings (r : Recorder α) : List Act :=
  match r.phase with
  | .collecting _ => [.take r.intake.buffer.events.size]
  | .flushing _ => r.slips.map fun _ => .flush false
  | .flushingOutput _ => [.flush r.slips.isEmpty]
  | .finishing => r.slips.map fun _ => .close false
  | .closingOutput => if (r.output.close r.clock).2.isSome then [.close r.slips.isEmpty] else []
  | _ => r.settles.map .settle

/-- What a move brings to an end. -/
def act (r : Recorder α) : Move α → List Act
  | .work => r.doings
  | _ => []

def acts (r₀ : Recorder α) (ms : List (Move α)) : List Act := Trail.along move act r₀ ms

theorem acts_concat (run : Run r₀ ms es r) (m : Move α) :
    acts r₀ (ms ++ [m]) = acts r₀ ms ++ r.act m :=
  Trail.along_concat run.foldlM_move m

theorem act_of_call {m : Move α} (call : m ≠ .work) : r.act m = [] := by
  cases m with
  | work => exact absurd rfl call
  | _ => rfl

theorem fates_of_settles (fs : List Fate) : (fs.map Act.settle).filterMap Act.fate? = fs := by
  rw [List.filterMap_map]
  exact List.filterMap_some

theorem lapses_of_settles (fs : List Fate) : (fs.map Act.settle).filterMap Act.lapse? = [] := by
  rw [List.filterMap_map]
  exact List.filterMap_eq_nil_iff.mpr fun _ _ => rfl

theorem fates_of_doings (r : Recorder α) : r.doings.filterMap Act.fate? = r.settles := by
  have hnone : ∀ (ls : List Lapse) (ok : Bool),
      (ls.map fun _ => Act.flush ok).filterMap Act.fate? = [] ∧
        (ls.map fun _ => Act.close ok).filterMap Act.fate? = [] := by
    intro ls ok
    rw [List.filterMap_map, List.filterMap_map]
    exact ⟨List.filterMap_eq_nil_iff.mpr fun _ _ => rfl, List.filterMap_eq_nil_iff.mpr fun _ _ => rfl⟩
  cases hp : r.phase with
  | collecting | flushingOutput => simp only [doings, settles, hp]; rfl
  | flushing => simp only [doings, settles, hp]; exact (hnone _ _).1
  | finishing => simp only [doings, settles, hp]; exact (hnone _ _).2
  | closingOutput => simp only [doings, settles, hp]; split <;> rfl
  | starting | waiting | encoding | writing | makingRoom | ended =>
    simp only [doings, hp]
    exact fates_of_settles _

theorem lapses_of_doings (r : Recorder α) : r.doings.filterMap Act.lapse? = r.slips := by
  cases hp : r.phase with
  | collecting => simp only [doings, slips, hp]; rfl
  | flushing | finishing | flushingOutput =>
    simp only [doings, slips, hp]
    split_ifs <;> rfl
  | closingOutput =>
    simp only [doings, slips, hp]
    rcases (r.output.close r.clock).2 with _ | f | _ <;> rfl
  | starting | waiting | encoding | writing | makingRoom | ended =>
    simp only [doings, slips, hp]
    exact lapses_of_settles _

/-- **Fates are acts.** -/
theorem Run.fates_of_acts (run : Run r₀ ms es r) :
    (acts r₀ ms).filterMap Act.fate? = fates r₀ ms := by
  induction run with
  | start => rfl
  | @move ms es r r' m run h ih =>
    rw [acts_concat run, fates_concat run, List.filterMap_append, ih]
    cases m with
    | work => exact congrArg _ (fates_of_doings r)
    | _ => rfl

/-- **Lapses are acts.** -/
theorem Run.lapses_of_acts (run : Run r₀ ms es r) :
    (acts r₀ ms).filterMap Act.lapse? = lapses r₀ ms := by
  induction run with
  | start => rfl
  | @move ms es r r' m run h ih =>
    rw [acts_concat run, lapses_concat run, List.filterMap_append, ih]
    cases m with
    | work => exact congrArg _ (lapses_of_doings r)
    | _ => rfl

/-! ## The pace -/

/-- Where a recorder is among its rounds. -/
inductive Place where
  /-- Nothing is taken. -/
  | between
  /-- So many of the events that were taken have not had their turn. -/
  | turns (left : Nat)
  /-- The output is closed, or its close has failed. -/
  | over (ok : Bool)

def place (r : Recorder α) : Place :=
  match r.phase with
  | .encoding left _ => .turns left.length
  | .writing _ _ left _ | .makingRoom _ _ left _ => .turns (left.length + 1)
  | .flushing _ | .flushingOutput _ => .turns 0
  | .ended => .over (r.output.outcome = .closed)
  | _ => .between

/-- What may be done at a place, and where it leads. -/
inductive Pace : Place → List Act → Place → Prop where
  | rest (p : Place) : Pace p [] p
  | skip : Pace .between [.take 0] .between
  | take (n : Nat) : Pace .between [.take (n + 1)] (.turns (n + 1))
  | settle (n : Nat) (f : Fate) : Pace (.turns (n + 1)) [.settle f] (.turns n)
  | flush (ok : Bool) : Pace (.turns 0) [.flush ok] .between
  | close (ok : Bool) : Pace .between [.close ok] (.over ok)

theorem Pace.rest_of {p q : Place} {as : List Act} (same : q = p) (nothing : as = []) :
    Pace p as q := by
  rw [same, nothing]
  exact .rest p

theorem place_endRound (r : Recorder α) (last : Bool) : (r.endRound last).place = .between := by
  cases last <;> rfl

/-- An event has had its turn. -/
theorem Pace.settled {left : List α} {last : Bool} {f : Fate}
    (at_ : r.place = .turns (left.length + 1)) (doings : r.doings = r.settles.map .settle)
    (settles : r.settles = [f]) (now : r'.phase = .encoding left last) :
    Pace r.place r.doings r'.place := by
  rw [at_, doings, settles, place, now]
  exact .settle _ f

/-- **Every step keeps the pace.** -/
theorem Work.pace (w : Work r r') (shut : Shut r) : Pace r.place r.doings r'.place := by
  cases w with
  -- a round begins, or is over at once
  | start at_ | wake at_ | close at_ =>
    exact .rest_of (by rw [place, place, at_]) (by rw [doings, settles, at_]; rfl)
  | @takeNothing last at_ events =>
    rw [place_endRound, place, doings, at_]
    simp only [events]
    exact .skip
  | @take last at_ events =>
    have hsome : r.intake.buffer.events.size ≠ 0 :=
      fun hnone => events (Array.eq_empty_of_size_eq_zero hnone)
    obtain ⟨n, hn⟩ := Nat.exists_eq_succ_of_ne_zero hsome
    rw [place, place, doings, at_]
    simp only [Array.length_toList, hn]
    exact .take n
  | encoded at_ =>
    exact .rest_of (by rw [place, place, at_]; rfl) (by rw [doings, settles, at_]; rfl)
  -- the turns of the events
  | encode at_ fine =>
    exact .rest_of (by rw [place, place, at_]; rfl) (by rw [doings, settles, at_]; simp [fine])
  | encodeFails at_ failure =>
    exact .settled (by rw [place, at_]; rfl) (by rw [doings, at_])
      (by rw [settles, at_]; simp [failure]; rfl) rfl
  | written at_ =>
    exact .settled (by rw [place, at_]) (by rw [doings, at_]) (by rw [settles, at_]; rfl) rfl
  | wait at_ ready some_ way =>
    exact .rest_of (by rw [place, place, at_]) (by rw [doings, settles, at_]; simp [some_, way])
  | hold at_ ready some_ way =>
    exact .settled (by rw [place, at_]) (by rw [doings, at_])
      (by rw [settles, at_]; simp [some_, way]; rfl) rfl
  | throughWaits at_ ready some_ way write =>
    exact .rest_of (by rw [place, place, at_])
      (by rw [doings, settles, at_]; simp [some_, way, write])
  | @throughFails size rest left last output result f at_ ready some_ way write failure =>
    exact .settled (by rw [place, at_]) (by rw [doings, at_])
      (settles_of_refused at_ some_ way write failure) rfl
  | @throughPart size n rest left last output at_ ready some_ way write took =>
    have hnone := settles_of_took at_ some_ way write took
    exact .rest_of (by rw [place, place, at_]) (by rw [doings, hnone, at_]; rfl)
  | @roomWaits size rest left last r' result at_ ready out more =>
    have hnone := settles_of_room at_ out (fine_of_more more)
    obtain ⟨output, held, rfl, -⟩ := writeOut_spec out
    exact .rest_of (by rw [place, place, at_]) (by rw [doings, hnone, at_]; rfl)
  | @roomMade size rest left last r' at_ ready out =>
    have hnone := settles_of_room at_ out (by simp)
    obtain ⟨output, held, rfl, -⟩ := writeOut_spec out
    exact .rest_of (by rw [place, place, at_]) (by rw [doings, hnone, at_]; rfl)
  | @roomFails size rest left last r' f at_ ready out =>
    exact .settled (by rw [place, at_]) (by rw [doings, at_]) (settles_of_no_room at_ out) rfl
  -- the flush, or the close
  | flushed at_ ready none_held | finished at_ ready none_held =>
    exact .rest_of (by rw [place, place, at_])
      (by rw [doings, slips, at_]; simp [WriteBuffer.isEmpty, none_held])
  | @flushPart last r' result at_ ready some_held out fine =>
    have hnone := slips_of_fine (.inl ⟨last, at_⟩) out fine
    obtain ⟨output, held, rfl, -⟩ := writeOut_spec out
    exact .rest_of (by rw [place, place, at_]) (by rw [doings, hnone, at_]; rfl)
  | @flushFails last r' f at_ ready some_held out =>
    have hslips := slips_of_flush at_ some_held out
    rw [place_endRound, place, doings, hslips, at_]
    exact .flush false
  | outputFlushed at_ | outputFlushFails at_ =>
    rw [place_endRound, place, doings, at_]
    exact .flush _
  | @finishPart r' result at_ ready some_held out fine =>
    have hnone := slips_of_fine (.inr at_) out fine
    obtain ⟨output, held, rfl, -⟩ := writeOut_spec out
    exact .rest_of (by rw [place, place, at_]) (by rw [doings, hnone, at_]; rfl)
  | @finishFails r' f at_ ready some_held out =>
    have hslips := slips_of_finish at_ some_held out
    have hlive : r.output.outcome = .live := shut.live (by rw [at_]; simp)
    obtain ⟨output, held, rfl, -, houtcome, -⟩ := writeOut_spec out
    have hnow : (({ r with output, held }.closeFailed f).leave).place = .over false := by
      show Place.over (output.outcome = .closed) = _
      rw [houtcome, hlive]
      rfl
    rw [hnow, place, doings, hslips, at_]
    exact .close false
  | closeWaits at_ ready close =>
    exact .rest_of (by rw [place, place, at_]) (by rw [doings, at_]; simp [close])
  | @closed output at_ ready close =>
    have houtcome := (r.output.close_spec r.clock).2
    rw [close] at houtcome
    have hnow : ({ r with output }.leave).place = .over true := by
      show Place.over (output.outcome = .closed) = _
      rw [show output.outcome = .closed from houtcome]
      rfl
    have hdoings : r.doings = [.close true] := by
      rw [doings, slips, at_]; simp [close]
    rw [hnow, hdoings, place, at_]
    exact .close true
  | @closeFails output f at_ ready close =>
    have houtcome := (r.output.close_spec r.clock).2
    rw [close] at houtcome
    have hnow : (({ r with output }.closeFailed f).leave).place = .over false := by
      show Place.over (output.outcome = .closed) = _
      rw [show output.outcome = .closeFailed from houtcome]
      rfl
    have hdoings : r.doings = [.close false] := by
      rw [doings, slips, at_]; simp [close]
    rw [hnow, hdoings, place, at_]
    exact .close false

/-! ## Rounds -/

/-- What is done in a round: some events are taken, each has its turn, whatever became of those before
it, and there is one flush. If there are none to take, there is no flush. -/
inductive Round : List Act → Prop where
  | empty : Round [.take 0]
  | full {fs : List Fate} (some_ : fs ≠ []) (ok : Bool) :
      Round (.take fs.length :: fs.map .settle ++ [.flush ok])

/-- Rounds, and perhaps one that is going on, or the close. -/
inductive Paced : List Act → Place → Prop where
  | between {rounds : List (List Act)} (all : ∀ as ∈ rounds, Round as) : Paced rounds.flatten .between
  | turns {rounds : List (List Act)} (all : ∀ as ∈ rounds, Round as) {fs : List Fate} {left : Nat}
      (some_ : fs.length + left ≠ 0) :
      Paced (rounds.flatten ++ .take (fs.length + left) :: fs.map .settle) (.turns left)
  | over {rounds : List (List Act)} (all : ∀ as ∈ rounds, Round as) (ok : Bool) :
      Paced (rounds.flatten ++ [.close ok]) (.over ok)

theorem Paced.pace {as bs : List Act} {p q : Place} (h : Paced as p) (pace : Pace p bs q) :
    Paced (as ++ bs) q := by
  have hmore : ∀ {rounds : List (List Act)} {round : List Act}, (∀ as ∈ rounds, Round as) →
      Round round → ∀ as ∈ rounds ++ [round], Round as := by
    intro rounds round all one as has
    rcases List.mem_append.mp has with has | has
    · exact all as has
    · rw [List.mem_singleton.mp has]; exact one
  cases pace with
  | rest => rwa [List.append_nil]
  | skip =>
    obtain @⟨rounds, all⟩ := h
    have hnow := Paced.between (hmore all .empty)
    rwa [List.flatten_append, List.flatten_singleton] at hnow
  | take n =>
    obtain @⟨rounds, all⟩ := h
    have hnow : Paced (rounds.flatten ++ .take (([] : List Fate).length + (n + 1)) :: [].map .settle)
        (.turns (n + 1)) := .turns all (by simp)
    rwa [List.length_nil, Nat.zero_add] at hnow
  | settle n f =>
    obtain _ | @⟨rounds, all, fs, left, some_⟩ := h
    have hnow : Paced (rounds.flatten ++ .take ((fs ++ [f]).length + n) :: (fs ++ [f]).map .settle)
        (.turns n) := .turns all (by simp)
    rw [List.length_append, List.length_singleton, Nat.add_assoc, Nat.add_comm 1,
      List.map_append] at hnow
    rw [List.append_assoc]
    exact hnow
  | flush ok =>
    obtain _ | @⟨rounds, all, fs, left, some_⟩ := h
    have hsome : fs ≠ [] := fun hnone => some_ (by rw [hnone]; rfl)
    have hnow := Paced.between (hmore all (.full hsome ok))
    rw [List.flatten_append, List.flatten_singleton] at hnow
    rw [List.append_assoc]
    exact hnow
  | close ok =>
    obtain @⟨rounds, all⟩ := h
    exact .over all ok

theorem place_eq (phase : r'.phase = r.phase) (output : r'.output = r.output) :
    r'.place = r.place := by
  rw [place, place, phase, output]

/-- **The acts of a run fall into rounds.** -/
theorem Run.paced (run : Run r₀ ms es r) (fresh : r₀.Fresh encoder plan) :
    Paced (acts r₀ ms) r.place := by
  induction run with
  | start =>
    rw [show r₀.place = .between by rw [place, fresh.phase]]
    have hnone : Paced ([] : List (List Act)).flatten .between := .between nofun
    exact hnone
  | @move ms es r r' m run h ih =>
    rw [acts_concat run]
    rcases own_or_call h with ⟨rfl, w⟩ | ⟨call, same⟩
    · exact ih.pace (w.pace (run.shut fresh))
    · rw [act_of_call call, List.append_nil, place_eq same.phase same.output]
      exact ih

/-! ## The balance -/

theorem Act.length_lapses (as : List Act) :
    (as.filterMap Act.lapse?).length = as.count (.flush false) + as.count (.close false) := by
  induction as with
  | nil => rfl
  | cons a as ih =>
    simp only [List.filterMap_cons, List.count_cons]
    cases a with
    | take | settle => simp [Act.lapse?, ih]
    | flush ok =>
      cases ok with
      | false => simp [Act.lapse?, ih, Nat.add_right_comm]
      | true => simp [Act.lapse?, ih]
    | close ok =>
      cases ok with
      | false => simp [Act.lapse?, ih, Nat.add_assoc]
      | true => simp [Act.lapse?, ih]

theorem Round.not_close {as : List Act} (h : Round as) (ok : Bool) : Act.close ok ∉ as := by
  cases h with
  | empty => simp
  | full => simp

/-- The close is the last act, and there is one. -/
theorem count_close {rounds : List (List Act)} (all : ∀ as ∈ rounds, Round as) (ok : Bool) :
    (rounds.flatten ++ [Act.close ok]).count (.close false) = if ok then 0 else 1 := by
  have hnone : rounds.flatten.count (Act.close false) = 0 := by
    rw [List.count_eq_zero]
    intro hmem
    obtain ⟨as, has, hclose⟩ := List.mem_flatten.mp hmem
    exact (all as has).not_close false hclose
  rw [List.count_append, hnone]
  cases ok <;> rfl

/-- The events that cannot be encoded are those whose encoding fails. -/
theorem count_unencodable {fs : List Fate} (length : fs.length = es.length)
    (fits : ∀ d ∈ es.zip fs, d.2.Fits encoder d.1) :
    fs.count .unencodable = es.countP fun e => (encoder e).failure?.isSome := by
  induction es generalizing fs with
  | nil =>
    cases List.eq_nil_of_length_eq_zero length
    rfl
  | cons e es ih =>
    obtain ⟨f, fs, rfl⟩ := List.exists_cons_of_length_eq_add_one length
    rw [List.zip_cons_cons] at fits
    have hrest := ih (Nat.succ.inj length) fun d hd => fits d (List.mem_cons_of_mem _ hd)
    have hfits := fits _ (List.mem_cons_self ..)
    rw [List.countP_cons, List.count_cons, hrest]
    cases f with
    | recorded => simp [show (encoder e).failure? = none from hfits]
    | unencodable => simp [Option.isSome_iff_ne_none.mpr hfits]
    | failed taken => simp [show (encoder e).failure? = none from hfits.1]

/-- What a recorder that has ended did, and what it counted, in numbers of the events traced before the
close and after it. -/
structure Balanced (encoder : Encoder α) (r₀ : Recorder α) (ms : List (Move α)) (r : Recorder α) :
    Prop where
  /-- Every event has had its turn, once. -/
  length : (fates r₀ ms).length = (early ms).length
  fits : ∀ d ∈ (early ms).zip (fates r₀ ms), d.2.Fits encoder d.1
  eventsTraced : r.intake.tally.eventsTraced = .ofNat (early ms).length
  eventsDropped : r.intake.tally.eventsDropped = .ofNat (late ms).length
  eventsWritten : r.intake.tally.eventsWritten = .ofNat ((fates r₀ ms).count .recorded)
  encodeErrors : r.intake.tally.encodeErrors =
    .ofNat ((early ms).countP fun e => (encoder e).failure?.isSome)
  writeErrors : r.intake.tally.writeErrors =
    .ofNat (failures (fates r₀ ms) + (acts r₀ ms).count (.flush false) +
      if r.output.outcome = .closed then 0 else 1)
  balance : r.intake.tally.eventsTraced =
    r.intake.tally.eventsWritten + r.intake.tally.encodeErrors + .ofNat (failures (fates r₀ ms))
  /-- The turns of the events are among the acts, in order. -/
  settled : (acts r₀ ms).filterMap Act.fate? = fates r₀ ms
  rounds : ∃ rounds : List (List Act), (∀ as ∈ rounds, Round as) ∧
    acts r₀ ms = rounds.flatten ++ [.close (r.output.outcome = .closed)]

/-- **The counters of a recorder that has ended add up**, whatever failed on the way. Each event traced
before the close is counted once: as written, as one that could not be encoded, or as one whose writing
failed. The other write errors are flushes that failed, of which there is one in each round that had
events, and the close. -/
theorem balanced_at_end (fresh : r₀.Fresh encoder plan) (run : Run r₀ ms es r)
    (ended : r.phase = .ended) : Balanced encoder r₀ ms r := by
  obtain ⟨hlength, -, hfits⟩ := (run.booked fresh.booked).ended (run.sealed fresh.sealed) ended
  rw [(run.accepted (by rw [fresh.buffer]; rfl)).2] at hlength hfits
  rw [run.encoder, fresh.encoder] at hfits
  have hcalls := run.calls fresh
  have houtcomes := run.outcomes fresh
  simp only [Recorder.calls, Recorder.outcomes, outcomesOf, List.cons.injEq, and_true]
    at hcalls houtcomes
  obtain ⟨htraced, hdropped⟩ := hcalls
  obtain ⟨hwritten, hencode, hwrite⟩ := houtcomes
  have hpaced := run.paced fresh
  rw [show r.place = .over (r.output.outcome = .closed) by rw [place, ended]] at hpaced
  generalize hacts : acts r₀ ms = as at hpaced
  obtain _ | _ | @⟨rounds, all⟩ := hpaced
  have hlapses : (lapses r₀ ms).length =
      (acts r₀ ms).count (.flush false) + if r.output.outcome = .closed then 0 else 1 := by
    rw [← run.lapses_of_acts, Act.length_lapses, hacts, count_close all]
    simp
  exact {
    length := hlength
    fits := hfits
    eventsTraced := htraced
    eventsDropped := hdropped
    eventsWritten := hwritten
    encodeErrors := by rw [hencode, count_unencodable hlength hfits]
    writeErrors := by rw [hwrite, hlapses, Nat.add_assoc]
    balance := by
      rw [htraced, hwritten, hencode, ← hlength, length_fates, UInt64.ofNat_add, UInt64.ofNat_add]
    settled := run.fates_of_acts
    rounds := ⟨rounds, all, hacts⟩ }

/-- An output whose first write, first flush and close fail. -/
def failingOnce : ChannelPlan :=
  { writes := ⟨[.fails .writeZero], .takes⟩, flushes := ⟨[some .writeZero], none⟩,
    closes := ⟨[.fails .writeZero], .succeeds⟩ }

/-- Of three events the first cannot be encoded, and the second has a record of 8193 bytes, which goes to
the output at once. One event comes before the close and one after it. -/
def failingRounds : List (Move Bytes) :=
  List.flatten [[.trace [1], .trace (List.replicate 8191 0), .trace [2, 3]], List.replicate 12 .work,
    [.trace [4, 5], .close, .trace [6, 7]], List.replicate 12 .work]

/-- Two events are recorded. Of the write errors one is the second event's, one the first flush's and
one the close's; the last round finds no event and does not flush. -/
theorem balanced_at_end_failing :
    ∃ es r, Run (.start "file" picky failingOnce) failingRounds es r ∧ r.phase = .ended ∧
      r.intake.tally = { Tally.zero with
        eventsTraced := 4, eventsDropped := 1, eventsWritten := 2, bytesWritten := 6,
        encodeErrors := 1, writeErrors := 3 } ∧
      acts (.start "file" picky failingOnce) failingRounds =
        [.take 3, .settle .unencodable, .settle (.failed 0), .settle .recorded, .flush false,
          .take 1, .settle .recorded, .flush true, .take 0, .close false] ∧
      Balanced picky (.start "file" picky failingOnce) failingRounds r := by
  have hmoves : ((Recorder.start "file" picky failingOnce).moves failingRounds).map
      (fun (_, r) => (r.isEnded, r.intake.tally)) = some (true, { Tally.zero with
        eventsTraced := 4, eventsDropped := 1, eventsWritten := 2, bytesWritten := 6,
        encodeErrors := 1, writeErrors := 3 }) := by
    decide +kernel
  rw [Option.map_eq_some_iff] at hmoves
  obtain ⟨⟨es, r⟩, hmoves, hstate⟩ := hmoves
  simp only [Prod.mk.injEq] at hstate
  obtain ⟨hended, htally⟩ := hstate
  have hrun : Run (.start "file" picky failingOnce) failingRounds es r := Run.start.moves hmoves
  have hphase : r.phase = .ended := isEnded_iff.mp hended
  exact ⟨es, r, hrun, hphase, htally, by decide +kernel,
    balanced_at_end (fresh_start "file" picky failingOnce) hrun hphase⟩

end TraceRelay.Recorder
