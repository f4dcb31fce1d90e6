import TraceRelay.Proofs.Courier.Ending
import TraceRelay.Proofs.Recorder.Complete
import TraceRelay.Proofs.Tracer.Loop

/-!
# Tracers that are fed together

A fleet is a group of configured tracers and its shutdowns. Every call goes to all of them, and their
write loops and the clock go on in any order in between. A shutdown closes all, waits for one after the
other, and notes what each reports; others may call while it waits. When it has returned, the next may
begin: it closes and notes again, and finds nothing to wait for.

1. `Change`: what a move comes to for one tracer, and `Fared`: each tracer makes a run of its own, in which
   it accepts the events that were traced before the close (`Fared.change`).
2. `Fared.tells`: what a tracer reports when it has ended.
3. `Run.kept`: what is known of a fleet at every moment, and of what its latest shutdown has noted.
-/

namespace TraceRelay.Tracer

/-- Tracers that are fed together, and what the latest shutdown has noted, if one has begun. -/
structure Fleet where
  group : Group Member
  noted? : Option (List (String × Tally))

/-- One step of the loop that is there; of two things that are ready at once a courier looks first at the
one picked. -/
def Member.work (pick : Courier.Pick) : Member → Option Member
  | .file f => f.recorder.work.map fun recorder => .file { f with recorder }
  | .remote c => (c.work pick).map .remote

theorem Member.now_work {pick : Courier.Pick} {a b : Member} (h : a.work pick = some b) :
    Clocked.now b = Clocked.now a := by
  cases a with
  | file f =>
    obtain ⟨recorder, hwork, rfl⟩ := Option.map_eq_some_iff.mp h
    exact (Recorder.work_cases hwork).clock
  | remote c =>
    obtain ⟨c', hwork, rfl⟩ := Option.map_eq_some_iff.mp h
    exact (Courier.work_cases hwork).clock

theorem Member.step_eq (a : Member) : Clocked.step a = a.work .former := by
  cases a <;> rfl

theorem Member.now_advance (a : Member) (t : Nat) : Clocked.now (Clocked.advance a t) = t := by
  cases a <;> rfl

/-- Only the first close changes anything. -/
theorem Member.close_of_closed {a : Member} (h : WriteLoop.isClosed a = true) :
    WriteLoop.close a = a := by
  cases a with
  | file f =>
    show Member.file { f with recorder := { f.recorder with intake := f.recorder.intake.close } } = _
    rw [Intake.close_of_closed h]
  | remote c =>
    show Member.remote { c with intake := c.intake.close } = _
    rw [Intake.close_of_closed h]

theorem Member.now_trace (e : Event) (a : Member) : Clocked.now (WriteLoop.trace a e) = Clocked.now a := by
  cases a <;> rfl

theorem Member.now_close (a : Member) : Clocked.now (WriteLoop.close a) = Clocked.now a := by
  cases a <;> rfl

namespace Fleet

def start (members : List Member) : Fleet := ⟨.ofLoops members, none⟩

def loops (s : Fleet) : List Member := s.group.members.map (·.loop)

/-- No shutdown is under way: the latest has noted what every tracer reports. -/
def isFree (s : Fleet) : Bool := s.noted?.all (s.group.members.length ≤ ·.length)

/-! ## Moves -/

/-- What may come next. -/
inductive Move where
  | trace (e : Event)
  | close
  | advance (t : Nat)
  /-- The write loop of tracer number `i` makes a step. -/
  | work (i : Nat) (pick : Courier.Pick)
  /-- A shutdown begins. -/
  | shutdown
  /-- The shutdown has waited for the next tracer, and notes what it reports. -/
  | join

/-- The fleet after a move; none if it cannot be made. There is one shutdown at a time. -/
def move (s : Fleet) : Move → Option Fleet
  | .trace e => some { s with group := s.group.trace e }
  | .close => some { s with group := s.group.close }
  | .advance t =>
    if s.group.members.all (Clocked.now ·.loop ≤ t) then
      some { s with group := Clocked.advance s.group t }
    else none
  | .work i pick =>
    s.group.members[i]?.bind fun x => (x.loop.work pick).map fun loop =>
      { s with group.members := s.group.members.set i { x with loop } }
  | .shutdown => if s.isFree then some ⟨s.group.close, some []⟩ else none
  | .join =>
    s.noted?.bind fun noted => s.group.members[noted.length]?.bind fun x =>
      let (closed, waits) := x.beginShutdown
      if waits && !WriteLoop.isEnded closed.loop then none
      else some ⟨{ s.group with members := s.group.members.set noted.length closed },
        some (noted ++ [closed.report])⟩

/-- What callers ask in a move, as each tracer sees it. -/
def Move.asked : Move → List (Recorder.Move Event)
  | .trace e => [.trace e]
  | .close | .shutdown => [.close]
  | .advance _ | .work _ _ | .join => []

def asked (ms : List Move) : List (Recorder.Move Event) := ms.flatMap Move.asked

/-- The events traced before the close. -/
def early (ms : List Move) : List Event := Recorder.early (asked ms)

/-- The events traced after it. -/
def late (ms : List Move) : List Event := Recorder.late (asked ms)

/-- Whether there has been a close, or a shutdown. -/
def closed (ms : List Move) : Bool := (asked ms).any Recorder.Move.closes

theorem asked_concat (ms : List Move) (m : Move) : asked (ms ++ [m]) = asked ms ++ m.asked := by
  rw [asked, List.flatMap_append, List.flatMap_singleton]
  rfl

theorem asked_append (ms more : List Move) : asked (ms ++ more) = asked ms ++ asked more :=
  List.flatMap_append

theorem asked_of_none {ms : List Move} (h : ∀ m ∈ ms, m.asked = []) : asked ms = [] :=
  List.flatMap_eq_nil_iff.mpr h

/-- Moves that are neither the callers' nor the shutdown's. -/
def Move.IsOwn : Move → Prop
  | .work _ _ | .advance _ => True
  | _ => False

theorem Move.IsOwn.asked {m : Move} (h : m.IsOwn) : m.asked = [] := by
  cases m with
  | work | advance => rfl
  | trace | close | shutdown | join => exact h.elim

variable {m : Move}

/-- A call of callers. -/
theorem early_call (ms : List Move) {call : Recorder.Move Event} (h : m.asked = [call]) :
    early (ms ++ [m]) = early ms ++ (if closed ms then [] else Recorder.traced [call]) ∧
    late (ms ++ [m]) = late ms ++ (if closed ms then Recorder.traced [call] else []) ∧
    closed (ms ++ [m]) = (closed ms || call.closes) := by
  unfold early late closed
  rw [asked_concat, h]
  refine ⟨Recorder.early_concat _ _, Recorder.late_concat _ _, ?_⟩
  rw [List.any_append, List.any_cons, List.any_nil, Bool.or_false]

/-- A move in which callers ask nothing. -/
theorem early_idle (ms : List Move) (h : m.asked = []) :
    early (ms ++ [m]) = early ms ∧ late (ms ++ [m]) = late ms ∧ closed (ms ++ [m]) = closed ms := by
  unfold early late closed
  rw [asked_concat, h, List.append_nil]
  exact ⟨rfl, rfl, rfl⟩

/-- No event is early behind a close. -/
theorem early_of_closed {ms : List Move} (h : closed ms = true) (m : Move) :
    early (ms ++ [m]) = early ms ∧ closed (ms ++ [m]) = true := by
  cases hasked : m.asked with
  | nil =>
    obtain ⟨hearly, -, hclosed⟩ := early_idle ms hasked
    exact ⟨hearly, hclosed.trans h⟩
  | cons call rest =>
    have hone : rest = [] := by
      cases m <;> cases hasked <;> rfl
    subst hone
    obtain ⟨hearly, -, hclosed⟩ := early_call ms hasked
    rw [hearly, hclosed, h]
    exact ⟨List.append_nil _, rfl⟩

/-! ## What a move comes to for one tracer -/

inductive Change : Move → Member → Member → Prop where
  | trace {e : Event} {a : Member} : Change (.trace e) a (WriteLoop.trace a e)
  | close {a : Member} : Change .close a (WriteLoop.close a)
  | shutdown {a : Member} : Change .shutdown a (WriteLoop.close a)
  | advance {t : Nat} {a : Member} (later : Clocked.now a ≤ t) :
      Change (.advance t) a (Clocked.advance a t)
  | work {i : Nat} {pick : Courier.Pick} {a b : Member} (h : a.work pick = some b) :
      Change (.work i pick) a b
  | join {a : Member} : Change .join a (WriteLoop.close a)
  /-- It is another tracer's turn. -/
  | idle {m : Move} {a : Member} (none_asked : m.asked = []) : Change m a a

/-- What a move comes to. -/
inductive Step (s : Fleet) : Move → Fleet → Prop where
  | trace (e : Event) : Step s (.trace e) { s with group := s.group.trace e }
  | close : Step s .close { s with group := s.group.close }
  | advance {t : Nat} (later : ∀ x ∈ s.group.members, Clocked.now x.loop ≤ t) :
      Step s (.advance t) { s with group := Clocked.advance s.group t }
  | work {i : Nat} {pick : Courier.Pick} {x : Tracer Member} {loop : Member}
      (at_ : s.group.members[i]? = some x) (goes : x.loop.work pick = some loop) :
      Step s (.work i pick) { s with group.members := s.group.members.set i { x with loop } }
  | shutdown (free : s.isFree = true) : Step s .shutdown ⟨s.group.close, some []⟩
  | join {noted : List (String × Tally)} {x : Tracer Member} (so_far : s.noted? = some noted)
      (at_ : s.group.members[noted.length]? = some x)
      (ended : x.joinable = true → WriteLoop.isEnded x.loop = true) :
      Step s .join ⟨{ s.group with members := s.group.members.set noted.length x.beginShutdown.1 },
        some (noted ++ [x.beginShutdown.1.report])⟩

variable {ms : List Move} {s s' : Fleet}

theorem move_cases (h : s.move m = some s') : Step s m s' := by
  cases m with
  | trace e => cases h; exact .trace e
  | close => cases h; exact .close
  | advance t =>
    rw [move, Option.ite_none_right_eq_some] at h
    obtain ⟨later, ⟨⟩⟩ := h
    exact .advance fun x hx => of_decide_eq_true (List.all_eq_true.mp later x hx)
  | work i pick =>
    obtain ⟨x, hat, h⟩ := Option.bind_eq_some_iff.mp h
    obtain ⟨loop, hgoes, rfl⟩ := Option.map_eq_some_iff.mp h
    exact .work hat hgoes
  | shutdown =>
    rw [move, Option.ite_none_right_eq_some] at h
    obtain ⟨free, ⟨⟩⟩ := h
    exact .shutdown free
  | join =>
    obtain ⟨noted, hnoted, h⟩ := Option.bind_eq_some_iff.mp h
    obtain ⟨x, hat, h⟩ := Option.bind_eq_some_iff.mp h
    dsimp only [Tracer.beginShutdown] at h
    rw [Option.ite_none_left_eq_some] at h
    obtain ⟨hready, ⟨⟩⟩ := h
    refine .join hnoted hat fun joinable => ?_
    rw [joinable, Bool.true_and, Bool.not_eq_true, Bool.not_eq_false'] at hready
    rwa [← WriteLoop.Lawful.ended_touch x.loop (.close : WriteLoop.Touch Event)]

/-- What is done to all loops is done to each. -/
theorem member_onLoops {g : Group Member} (f : Member → Member) {i : Nat} {x : Tracer Member}
    (h : (g.onLoops f).members[i]? = some x) :
    ∃ y, g.members[i]? = some y ∧ x = { y with loop := f y.loop } := by
  rw [Group.onLoops, List.getElem?_map, Option.map_eq_some_iff] at h
  obtain ⟨y, hy, rfl⟩ := h
  exact ⟨y, hy, rfl⟩

/-- **What a move comes to for each tracer.** Only its own join takes what there is to wait for. -/
theorem Step.change (st : Step s m s') {i : Nat} {x : Tracer Member}
    (at_ : s'.group.members[i]? = some x) : ∃ y, s.group.members[i]? = some y ∧
      Change m y.loop x.loop ∧
      (x.joinable = y.joinable ∨ m = .join ∧ s.noted?.map List.length = some i) := by
  cases st with
  | trace e =>
    obtain ⟨y, hy, rfl⟩ := member_onLoops (WriteLoop.trace · e) at_
    exact ⟨y, hy, .trace, .inl rfl⟩
  | close =>
    obtain ⟨y, hy, rfl⟩ := member_onLoops WriteLoop.close at_
    exact ⟨y, hy, .close, .inl rfl⟩
  | @advance t later =>
    obtain ⟨y, hy, rfl⟩ := member_onLoops (Clocked.advance · t) at_
    exact ⟨y, hy, .advance (later y (List.mem_of_getElem? hy)), .inl rfl⟩
  | shutdown =>
    obtain ⟨y, hy, rfl⟩ := member_onLoops WriteLoop.close at_
    exact ⟨y, hy, .shutdown, .inl rfl⟩
  | @work j pick y loop hy goes =>
    by_cases hj : j = i
    · subst hj
      rw [List.getElem?_set_self (List.getElem?_eq_some_iff.mp hy).1] at at_
      cases at_
      exact ⟨y, hy, .work goes, .inl rfl⟩
    · rw [List.getElem?_set_ne hj] at at_
      exact ⟨x, at_, .idle rfl, .inl rfl⟩
  | @join noted y so_far hy ended =>
    by_cases hj : noted.length = i
    · subst hj
      rw [List.getElem?_set_self (List.getElem?_eq_some_iff.mp hy).1] at at_
      cases at_
      exact ⟨y, hy, .join, .inr ⟨rfl, by rw [so_far]; rfl⟩⟩
    · rw [List.getElem?_set_ne hj] at at_
      exact ⟨x, at_, .idle rfl, .inl rfl⟩

/-- No tracer is added or taken away. -/
theorem Step.length (st : Step s m s') : s'.group.members.length = s.group.members.length := by
  cases st with
  | trace | close | advance | shutdown => exact List.length_map _
  | work | join => exact List.length_set

/-! ## What becomes of each tracer -/

/-- A file tracer whose output does not fail, for events that can all be encoded. -/
structure Sturdy (f : FileRecorder Event) : Prop where
  fresh : ∃ encoder plan, f.recorder.Fresh encoder plan ∧ plan.Faultless
  fine : ∀ e, (f.recorder.encoder e).failure? = none

/-- A remote tracer that is not cancelled, whose host is willing and gives streams that do not fail. -/
structure Welcome (c : Courier Event) : Prop where
  begins : ∃ connector window method level net, c = .start connector window method level net false ∧
    net.Willing connector.attemptTimeout.ticks
  fresh : c.net.channels = #[]
  faultless : c.net.Faultless
  sound : c.method.Sound c.compressionLevel

/-- What has become of a tracer: it has made a run of its own, and accepted what was traced before the
close. -/
inductive Fared (ms : List Move) : Member → Member → Prop where
  | file {f : FileRecorder Event} {r : Recorder Event} {rms : List (Recorder.Move Event)}
      {es : List Event} (sturdy : Sturdy f) (run : Recorder.Run f.recorder rms es r)
      (early_eq : Recorder.early rms = early ms) (late_eq : Recorder.late rms = late ms)
      (closed_eq : rms.any Recorder.Move.closes = closed ms) :
      Fared ms (.file f) (.file { f with recorder := r })
  | remote {c₀ c : Courier Event} {cms : List (Courier.Move Event)} {ds : Courier.Deeds Event}
      (welcome : Welcome c₀) (run : Courier.Run c₀ cms ds c) (accepted : ds.accepted = early ms)
      (refused : ds.refused = late ms) (closed_eq : c.intake.buffer.closed = closed ms)
      (going : c.cancelled = false) : Fared ms (.remote c₀) (.remote c)

theorem Fared.change_file {f : FileRecorder Event} {r : Recorder Event} {b : Member}
    (h : Fared ms (.file f) (.file { f with recorder := r }))
    (ch : Change m (.file { f with recorder := r }) b) (shut : m = .join → closed ms = true) :
    Fared (ms ++ [m]) (.file f) b := by
  cases h with
  | @file f r rms es sturdy run early_eq late_eq closed_eq =>
    have hcall : ∀ call r', m.asked = [call] → r.move call = some r' →
        Fared (ms ++ [m]) (.file f) (.file { f with recorder := r' }) := by
      intro call r' hasked hmove
      obtain ⟨hearly, hlate, hclosed⟩ := early_call ms hasked
      refine .file sturdy (run.move hmove) ?_ ?_ ?_
      · rw [Recorder.early_concat, early_eq, closed_eq, hearly]
      · rw [Recorder.late_concat, late_eq, closed_eq, hlate]
      · rw [List.any_append, closed_eq, hclosed, List.any_cons, List.any_nil, Bool.or_false]
    have hidle : ∀ own r', m.asked = [] → r.move own = some r' → Recorder.traced [own] = [] →
        (own.closes = true → closed ms = true) →
        Fared (ms ++ [m]) (.file f) (.file { f with recorder := r' }) := by
      intro own r' hasked hmove htraced hcloses
      obtain ⟨hearly, hlate, hclosed⟩ := early_idle ms hasked
      refine .file sturdy (run.move hmove) ?_ ?_ ?_
      · rw [Recorder.early_concat, htraced, ite_self, List.append_nil, early_eq, hearly]
      · rw [Recorder.late_concat, htraced, ite_self, List.append_nil, late_eq, hlate]
      · rw [List.any_append, closed_eq, hclosed, List.any_cons, List.any_nil, Bool.or_false]
        cases hown : own.closes with
        | true => rw [hcloses hown]; rfl
        | false => exact Bool.or_false _
    cases ch with
    | @trace e => exact hcall (.trace e) _ rfl rfl
    | close | shutdown => exact hcall .close _ rfl rfl
    | @advance t a later => exact hidle (.advance t) _ rfl (if_pos later) rfl nofun
    | work goes =>
      obtain ⟨r', hwork, rfl⟩ := Option.map_eq_some_iff.mp goes
      exact hidle .work r' rfl hwork rfl nofun
    | join => exact hidle .close _ rfl rfl rfl fun _ => shut rfl
    | idle none_asked =>
      obtain ⟨hearly, hlate, hclosed⟩ := early_idle ms none_asked
      exact .file sturdy run (early_eq.trans hearly.symm) (late_eq.trans hlate.symm)
        (closed_eq.trans hclosed.symm)

theorem Fared.change_remote {c₀ c : Courier Event} {b : Member} (h : Fared ms (.remote c₀) (.remote c))
    (ch : Change m (.remote c) b) (shut : m = .join → closed ms = true) :
    Fared (ms ++ [m]) (.remote c₀) b := by
  cases h with
  | @remote c₀ c cms ds welcome run accepted refused closed_eq going =>
    -- a move that neither accepts nor refuses anything
    have hquiet : ∀ own c', c.move own = some c' → Courier.Deeds.accepted (c.deeds own) = [] →
        Courier.Deeds.refused (c.deeds own) = [] → early (ms ++ [m]) = early ms →
        late (ms ++ [m]) = late ms → c'.intake.buffer.closed = closed (ms ++ [m]) →
        c'.cancelled = c.cancelled → Fared (ms ++ [m]) (.remote c₀) (.remote c') := by
      intro own c' hmove haccepted hrefused hearly hlate hclosed hgoing
      refine .remote welcome (run.move hmove) ?_ ?_ hclosed (hgoing.trans going)
      · rw [Courier.Deeds.accepted_append, haccepted, List.append_nil, accepted, hearly]
      · rw [Courier.Deeds.refused_append, hrefused, List.append_nil, refused, hlate]
    have hclose : ∀ c', c.move .close = some c' → m.asked = [.close] →
        Fared (ms ++ [m]) (.remote c₀) (.remote c') := by
      rintro c' ⟨⟩ hasked
      obtain ⟨hearly, hlate, hclosed⟩ := early_call ms hasked
      rw [show Recorder.traced [.close] = ([] : List Event) from rfl, ite_self, List.append_nil]
        at hearly hlate
      refine hquiet .close _ rfl rfl rfl hearly hlate ?_ rfl
      rw [hclosed]
      exact (Intake.closed_close _).trans (Bool.or_true _).symm
    cases ch with
    | @trace e =>
      obtain ⟨hearly, hlate, hclosed⟩ := early_call ms (m := .trace e) rfl
      refine .remote welcome (run.move (m := .trace e) rfl) ?_ ?_ ?_ going
      · rw [hearly, Courier.Deeds.accepted_append, accepted, Courier.deeds, closed_eq]
        cases closed ms <;> rfl
      · rw [hlate, Courier.Deeds.refused_append, refused, Courier.deeds, closed_eq]
        cases closed ms <;> rfl
      · rw [hclosed]
        exact (Intake.closed_trace _ e).trans (closed_eq.trans (Bool.or_false _).symm)
    | close | shutdown => exact hclose _ rfl rfl
    | @advance t a later =>
      obtain ⟨hearly, hlate, hclosed⟩ := early_idle ms (m := .advance t) rfl
      exact hquiet (.advance t) _ (if_pos later) rfl rfl hearly hlate (closed_eq.trans hclosed.symm) rfl
    | @work i pick a b goes =>
      obtain ⟨c', hwork, rfl⟩ := Option.map_eq_some_iff.mp goes
      have w := Courier.work_cases hwork
      obtain ⟨hearly, hlate, hclosed⟩ := early_idle ms (m := .work i pick) rfl
      obtain ⟨connector, window, method, level, net, rfl, hwilling⟩ := welcome.begins
      have hsame := run.closed_of_work hwilling welcome.sound welcome.fresh welcome.faultless going w
      exact hquiet (.work pick) c' hwork w.no_call.1 w.no_call.2 hearly hlate
        (hsame.trans (closed_eq.trans hclosed.symm)) w.cancelled
    | join =>
      obtain ⟨hearly, hlate, hclosed⟩ := early_idle ms (m := .join) rfl
      refine hquiet .close _ rfl rfl rfl hearly hlate ?_ rfl
      rw [hclosed, shut rfl]
      exact Intake.closed_close _
    | idle none_asked =>
      obtain ⟨hearly, hlate, hclosed⟩ := early_idle ms none_asked
      exact .remote welcome run (accepted.trans hearly.symm) (refused.trans hlate.symm)
        (closed_eq.trans hclosed.symm) going

/-- **Whatever comes next, each tracer makes a run of its own.** -/
theorem Fared.change {m₀ a b : Member} (h : Fared ms m₀ a) (ch : Change m a b)
    (shut : m = .join → closed ms = true) : Fared (ms ++ [m]) m₀ b := by
  cases h with
  | file sturdy run early_eq late_eq closed_eq =>
    exact Fared.change_file (.file sturdy run early_eq late_eq closed_eq) ch shut
  | remote welcome run accepted refused closed_eq going =>
    exact Fared.change_remote (.remote welcome run accepted refused closed_eq going) ch shut

/-! ## What a tracer leaves when it has ended -/

/-- The counters of a tracer that has accepted and written some events, and refused others. -/
structure Counted (accepted refused : Nat) (t : Tally) : Prop where
  traced : t.eventsTraced = .ofNat accepted
  written : t.eventsWritten = .ofNat accepted
  dropped : t.eventsDropped = .ofNat refused

/-- The report of such a tracer. -/
structure Tells (name : String) (accepted refused : Nat) (report : String × Tally) : Prop where
  name : report.1 = name
  counted : Counted accepted refused report.2

/-- A file tracer has written the records of all events that were traced before the close. -/
theorem Fared.of_file {f : FileRecorder Event} {b : Member} (h : Fared ms (.file f) b)
    (ended : WriteLoop.isEnded b = true) : ∃ r, b = .file { f with recorder := r } ∧
      r.output.accepted = Recorder.records f.recorder.encoder (early ms) ∧
      Tells f.recorder.intake.name (early ms).length (late ms).length
        (r.intake.name, r.intake.tally) := by
  cases h with
  | @file f r rms es sturdy run early_eq late_eq closed_eq =>
    obtain ⟨encoder, plan, hfresh, hfaultless⟩ := sturdy.fresh
    have hcomplete := run.complete hfresh hfaultless (Recorder.isEnded_iff.mp ended)
    have hall : Recorder.recordable encoder (early ms) = early ms := by
      rw [← hfresh.encoder]
      exact List.filter_eq_self.mpr fun e _ => by rw [sturdy.fine]; rfl
    refine ⟨r, rfl, ?_, run.name, ?_, ?_, ?_⟩
    · rw [hcomplete.accepted, early_eq, hfresh.encoder]
    · rw [hcomplete.eventsTraced, early_eq]
    · rw [hcomplete.eventsWritten, early_eq, hall]
    · rw [hcomplete.eventsDropped, late_eq]

/-- A remote tracer has sent all events that were traced before the close, in whole frames on its one
stream, which has been closed. -/
theorem Fared.of_remote {c₀ : Courier Event} {b : Member} (h : Fared ms (.remote c₀) b)
    (ended : WriteLoop.isEnded b = true) : ∃ c ds, b = .remote c ∧ ds.accepted = early ms ∧
      c.net.channels.size = 1 ∧ Courier.Whole (.start c₀.method c₀.compressionLevel) ds c ∧
      Tells c₀.intake.name (early ms).length (late ms).length (c.intake.name, c.intake.tally) := by
  cases h with
  | @remote c₀ c cms ds welcome run accepted refused closed_eq going =>
    obtain ⟨connector, window, method, level, net, rfl, hwilling⟩ := welcome.begins
    have hended : c.phase = .ended := Courier.isEnded_iff.mp ended
    have hopened := run.served hwilling going hended
    have hwhole := run.whole welcome.sound welcome.fresh welcome.faultless hended hopened
    have hunbroken := run.unbroken welcome.sound welcome.fresh welcome.faultless
    have habandoned : ds.abandoned = [] :=
      hunbroken.none_abandoned.resolve_right fun h => hopened h.2
    have hstage := hunbroken.stage
    rw [Courier.Stage, hended] at hstage
    have hsize := (hstage.resolve_left hopened).1
    have hcounts := run.counted.counts
    simp only [Courier.counts, Courier.countsOf, List.cons.injEq, and_true] at hcounts
    obtain ⟨htraced, hdropped, -⟩ := hcounts
    refine ⟨c, ds, rfl, accepted, hsize, hwhole, run.name, ?_, ?_, ?_⟩
    · rw [htraced, accepted]
    · rw [hwhole.written, accepted]
    · rw [hdropped, habandoned, refused]
      rfl

theorem Fared.tells {m₀ b : Member} (h : Fared ms m₀ b) (ended : WriteLoop.isEnded b = true) :
    Tells (WriteLoop.name m₀) (early ms).length (late ms).length
      (WriteLoop.name b, WriteLoop.tally b) := by
  cases m₀ with
  | file f =>
    obtain ⟨r, rfl, -, htells⟩ := h.of_file ended
    exact htells
  | remote c₀ =>
    obtain ⟨c, ds, rfl, -, -, -, htells⟩ := h.of_remote ended
    exact htells

/-- What has ended stays so. -/
theorem Change.ended {a b : Member} (ch : Change m a b) (ended : WriteLoop.isEnded a = true) :
    WriteLoop.isEnded b = true := by
  have htouch : ∀ t : WriteLoop.Touch Event, WriteLoop.isEnded (WriteLoop.touch a t) = true :=
    fun t => (WriteLoop.Lawful.ended_touch a t).trans ended
  cases ch with
  | trace => exact htouch (.trace _)
  | close | shutdown | join => exact htouch .close
  | advance => exact htouch (.advance _)
  | @work i pick a b goes =>
    have hgoes : WriteLoop.Lawful.Goes a b := by
      cases a with
      | file f =>
        obtain ⟨r', hwork, rfl⟩ := Option.map_eq_some_iff.mp goes
        exact .file hwork
      | remote c =>
        obtain ⟨c', hwork, rfl⟩ := Option.map_eq_some_iff.mp goes
        exact .remote ⟨pick, hwork⟩
    rw [WriteLoop.Lawful.running hgoes] at ended
    cases ended
  | idle => exact ended

/-! ## What is known of a fleet -/

/-- What may have happened to a fleet. -/
inductive Run (s₀ : Fleet) : List Move → Fleet → Prop where
  | start : Run s₀ [] s₀
  | move {ms : List Move} {s s' : Fleet} {m : Move} (run : Run s₀ ms s) (h : s.move m = some s') :
      Run s₀ (ms ++ [m]) s'

theorem Run.follow {s₀ s s' : Fleet} {old ms : List Move} (run : Run s₀ old s)
    (h : ms.foldlM Fleet.move s = some s') : Run s₀ (old ++ ms) s' := by
  induction ms generalizing old s with
  | nil => cases h; rwa [List.append_nil]
  | cons m ms ih =>
    rw [List.foldlM_cons] at h
    obtain ⟨s₁, hmove, hrest⟩ := Option.bind_eq_some_iff.mp h
    have hrun := ih (run.move hmove) hrest
    rwa [List.append_assoc] at hrun

theorem Run.length {s₀ s : Fleet} {ms : List Move} (run : Run s₀ ms s) :
    s.group.members.length = s₀.group.members.length := by
  induction run with
  | start => rfl
  | move _ h ih => exact (move_cases h).length.trans ih

/-- For each join of the latest shutdown, how many events had been refused by then. -/
def lateAtJoins (ms : List Move) : List Nat :=
  ms.inits.foldl (fun counts before =>
    match before.getLast? with
    | some .shutdown => []
    | some .join => counts ++ [(late before).length]
    | _ => counts) []

theorem lateAtJoins_concat (ms : List Move) (m : Move) : lateAtJoins (ms ++ [m]) =
    match m with
    | .shutdown => []
    | .join => lateAtJoins ms ++ [(late (ms ++ [m])).length]
    | _ => lateAtJoins ms := by
  have hinits : (ms ++ [m]).inits = ms.inits ++ [ms ++ [m]] := by rw [List.inits_append]; simp
  rw [lateAtJoins, hinits, List.foldl_append, List.foldl_cons, List.foldl_nil, List.getLast?_concat]
  cases m <;> rfl

/-- An entry is among those that were there, or the one that has been added. -/
theorem getElem?_concat_cases {α : Type} {l : List α} {a b : α} {i : Nat}
    (h : (l ++ [a])[i]? = some b) : i < l.length ∧ l[i]? = some b ∨ i = l.length ∧ a = b := by
  by_cases hi : i < l.length
  · rw [List.getElem?_append_left hi] at h
    exact .inl ⟨hi, h⟩
  · have hlt := (List.getElem?_eq_some_iff.mp h).1
    rw [List.length_append, List.length_singleton] at hlt
    have hlast : i = l.length := by omega
    subst hlast
    rw [List.getElem?_concat_length, Option.some.injEq] at h
    exact .inr ⟨rfl, h⟩

/-- What the latest shutdown has noted so far; nothing, if there is none. -/
def noted (s : Fleet) : List (String × Tally) := s.noted?.getD []

structure Kept (members : List Member) (ms : List Move) (s : Fleet) : Prop where
  length : s.group.members.length = members.length
  fared : ∀ (i : Nat) x, s.group.members[i]? = some x →
    ∃ m₀, members[i]? = some m₀ ∧ Fared ms m₀ x.loop
  /-- There is something to wait for until a shutdown has waited for it. -/
  joinable : ∀ (i : Nat) x, s.group.members[i]? = some x → s.noted.length ≤ i →
    x.joinable = true ∨ WriteLoop.isEnded x.loop = true
  ended : ∀ (i : Nat) x, s.group.members[i]? = some x → i < s.noted.length →
    WriteLoop.isEnded x.loop = true
  closed : s.noted? ≠ none → closed ms = true
  joins : (lateAtJoins ms).length = s.noted.length
  tells : ∀ (i : Nat) report, s.noted[i]? = some report → ∃ m₀ n, members[i]? = some m₀ ∧
    (lateAtJoins ms)[i]? = some n ∧ Tells (WriteLoop.name m₀) (early ms).length n report

variable {members : List Member}

theorem Kept.fared_step (h : Kept members ms s) (st : Step s m s') (no_join : m ≠ .join) (i : Nat)
    (x : Tracer Member) (at_ : s'.group.members[i]? = some x) :
    ∃ m₀, members[i]? = some m₀ ∧ Fared (ms ++ [m]) m₀ x.loop := by
  obtain ⟨y, hy, hchange, -⟩ := st.change at_
  obtain ⟨m₀, hm₀, hfared⟩ := h.fared i y hy
  exact ⟨m₀, hm₀, hfared.change hchange fun hjoin => absurd hjoin no_join⟩

/-- A move that is neither a join nor a shutdown. -/
theorem Kept.carry (h : Kept members ms s) (st : Step s m s') (no_join : m ≠ .join)
    (no_shutdown : m ≠ .shutdown) (same : s'.noted? = s.noted?) : Kept members (ms ++ [m]) s' := by
  have hjoins : lateAtJoins (ms ++ [m]) = lateAtJoins ms := by
    rw [lateAtJoins_concat]
    cases m with
    | join => exact absurd rfl no_join
    | shutdown => exact absurd rfl no_shutdown
    | _ => rfl
  have hclosed : s.noted? ≠ none → Fleet.closed (ms ++ [m]) = true := fun hsome =>
    (early_of_closed (h.closed hsome) m).2
  replace hclosed := same ▸ hclosed
  replace same : s'.noted = s.noted := by rw [noted, noted, same]
  refine ⟨st.length.trans h.length, h.fared_step st no_join, ?_, ?_, hclosed, ?_, ?_⟩
  · intro i x at_ hle
    obtain ⟨y, hy, hchange, hsame⟩ := st.change at_
    rw [hsame.resolve_right fun h => no_join h.1]
    exact (h.joinable i y hy (same ▸ hle)).imp_right hchange.ended
  · intro i x at_ hlt
    obtain ⟨y, hy, hchange, -⟩ := st.change at_
    exact hchange.ended (h.ended i y hy (same ▸ hlt))
  · rw [hjoins, same, h.joins]
  · intro i report at_
    rw [same] at at_
    obtain ⟨m₀, n, hm₀, hn, htells⟩ := h.tells i report at_
    have hclosed : Fleet.closed ms = true := h.closed fun hnone => by
      rw [noted, hnone] at at_
      cases at_
    rw [hjoins, (early_of_closed hclosed m).1]
    exact ⟨m₀, n, hm₀, hn, htells⟩

/-- A shutdown begins. If it is not the first, all loops have ended. -/
theorem Kept.begin (h : Kept members ms s) (free : s.isFree = true) :
    Kept members (ms ++ [.shutdown]) ⟨s.group.close, some []⟩ := by
  have st : Step s .shutdown ⟨s.group.close, some []⟩ := .shutdown free
  have hjoins : lateAtJoins (ms ++ [.shutdown]) = [] := lateAtJoins_concat ms .shutdown
  refine ⟨st.length.trans h.length, h.fared_step st nofun, ?_, ?_, fun _ => ?_, ?_, ?_⟩
  · intro i x at_ _
    obtain ⟨y, hy, hchange, hsame⟩ := st.change at_
    have hjoinable : x.joinable = y.joinable := hsame.resolve_right fun h => nomatch h.1
    rw [hjoinable]
    rcases Nat.lt_or_ge i s.noted.length with hlt | hle
    · exact .inr (hchange.ended (h.ended i y hy hlt))
    · exact (h.joinable i y hy hle).imp_right hchange.ended
  · exact fun i x _ hlt => absurd hlt (Nat.not_lt_zero i)
  · rw [(early_call ms (m := .shutdown) rfl).2.2]
    exact Bool.or_true _
  · rw [hjoins]
    rfl
  · exact fun i report hreport => nomatch (List.getElem?_nil (i := i)).symm.trans hreport

/-- The shutdown has waited for one more. -/
theorem Kept.join (h : Kept members ms s) (st : Step s .join s') :
    Kept members (ms ++ [.join]) s' := by
  have hst := st
  cases st with
  | @join noted x so_far at_ ended =>
    have hnoted : s.noted = noted := by rw [Fleet.noted, so_far]; rfl
    have hclosed : Fleet.closed ms = true := h.closed (by rw [so_far]; nofun)
    have hended : WriteLoop.isEnded x.loop = true :=
      (h.joinable _ x at_ (Nat.le_of_eq (congrArg List.length hnoted))).elim ended id
    have hlt : noted.length < s.group.members.length := (List.getElem?_eq_some_iff.mp at_).1
    have hlength : (noted ++ [x.beginShutdown.1.report]).length = noted.length + 1 :=
      List.length_append
    refine ⟨hst.length.trans h.length, ?_, ?_, ?_, fun _ => (early_of_closed hclosed .join).2, ?_, ?_⟩
    · intro i y hy
      obtain ⟨z, hz, hchange, -⟩ := hst.change hy
      obtain ⟨m₀, hm₀, hfared⟩ := h.fared i z hz
      exact ⟨m₀, hm₀, hfared.change hchange fun _ => hclosed⟩
    · intro i y hy hle
      have hlater : noted.length + 1 ≤ i := hlength ▸ hle
      rw [List.getElem?_set_ne (by omega)] at hy
      exact h.joinable i y hy (by rw [hnoted]; omega)
    · intro i y hy hbefore
      have hbefore : i < noted.length + 1 := hlength ▸ hbefore
      by_cases hi : noted.length = i
      · subst hi
        rw [List.getElem?_set_self hlt] at hy
        cases hy
        exact (WriteLoop.Lawful.ended_touch x.loop (.close : WriteLoop.Touch Event)).trans hended
      · rw [List.getElem?_set_ne hi] at hy
        exact h.ended i y hy (by rw [hnoted]; omega)
    · rw [lateAtJoins_concat, List.length_append, h.joins, hnoted]
      exact hlength.symm
    · intro i report hreport
      rw [lateAtJoins_concat, (early_of_closed hclosed .join).1]
      rcases getElem?_concat_cases (show (noted ++ _)[i]? = _ from hreport) with
        ⟨hi, hold⟩ | ⟨rfl, rfl⟩
      · obtain ⟨m₀, n, hm₀, hn, htells⟩ := h.tells i report (by rw [hnoted]; exact hold)
        refine ⟨m₀, n, hm₀, ?_, htells⟩
        rw [List.getElem?_append_left (by rw [h.joins, hnoted]; exact hi), hn]
      · obtain ⟨m₀, hm₀, hfared⟩ := h.fared _ x at_
        have hnow := (hfared.change (.join (a := x.loop)) fun _ => hclosed).tells
          ((Change.join (a := x.loop)).ended hended)
        rw [(early_of_closed hclosed .join).1] at hnow
        refine ⟨m₀, _, hm₀, ?_, hnow⟩
        rw [← hnoted, ← h.joins]
        exact List.getElem?_concat_length

/-- **A move keeps what is known.** -/
theorem Kept.step (h : Kept members ms s) (st : Step s m s') : Kept members (ms ++ [m]) s' := by
  have hst := st
  cases st with
  | trace | close | advance | work => exact h.carry hst nofun nofun rfl
  | shutdown free => exact h.begin free
  | join => exact h.join hst

theorem Run.kept (run : Run (.start members) ms s) (able : ∀ m₀ ∈ members, Fared [] m₀ m₀) :
    Kept members ms s := by
  induction run with
  | start =>
    have hat : ∀ (i : Nat) x, (members.map Tracer.start)[i]? = some x →
        ∃ m₀, members[i]? = some m₀ ∧ Tracer.start m₀ = x :=
      fun i x at_ => by rwa [List.getElem?_map, Option.map_eq_some_iff] at at_
    have hnone : (Fleet.start members).noted = [] := rfl
    refine ⟨List.length_map _, ?_, ?_, ?_, fun h => absurd rfl h, rfl, ?_⟩
    · intro i x at_
      obtain ⟨m₀, hm₀, rfl⟩ := hat i x at_
      exact ⟨m₀, hm₀, able m₀ (List.mem_of_getElem? hm₀)⟩
    · intro i x at_ _
      obtain ⟨m₀, -, rfl⟩ := hat i x at_
      exact .inl rfl
    · intro i x _ hlt
      rw [hnone] at hlt
      exact absurd hlt (Nat.not_lt_zero i)
    · intro i report hreport
      rw [hnone] at hreport
      cases hreport
  | move _ h ih => exact ih.step (move_cases h)

end Fleet

end TraceRelay.Tracer
