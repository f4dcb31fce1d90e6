import TraceRelay.Proofs.Recorder.Lossless
import TraceRelay.Proofs.Trail

/-!
# What becomes of each event, whatever the output does

An output may fail at any call and go on after it. A recorder turns to the next event then.

1. `fates`: along a run, what became of the events that had their turn, one after the other: the first
   fate is that of the first event accepted.
2. `Book`: what the output has accepted and what is held in front of it are the shares of those events,
   in order, and of the record in hand what was written. A record of which the output has taken a part
   goes past the room in front of it, to its end or to a failure.
3. `Run.booked`: this is so at every moment of every run.
-/

namespace TraceRelay.Recorder

variable {α : Type}

/-! ## Fates -/

/-- What became of an event that had its turn. -/
inductive Fate where
  /-- Its record was written as far as the recorder can tell. -/
  | recorded
  | unencodable
  /-- The writing of its record failed, when the output had accepted this much of it. -/
  | failed (taken : Nat)
  deriving DecidableEq, Repr

/-- What a step of its own makes of the event whose turn it is. -/
def settles (r : Recorder α) : List Fate :=
  match r.phase with
  | .encoding (e :: _) _ => if (r.encoder e).failure?.isSome then [.unencodable] else []
  | .writing size rest _ _ =>
    if rest.isEmpty then [.recorded]
    else match r.held.way rest with
    | .waits => []
    | .held => [.recorded]
    | .through =>
      match (r.output.write r.clock rest).2 with
      | some (.error _) | some (.ok 0) => [.failed (size - rest.length)]
      | _ => []
  | .makingRoom size rest _ _ =>
    match r.writeOut.2 with
    | some (.error _) => [.failed (size - rest.length)]
    | _ => []
  | _ => []

section

variable {r r' : Recorder α} {size : Nat} {rest : Bytes} {left : List α} {last : Bool}
  {output : Channel}

/-- The output refuses the rest of a record. -/
theorem settles_of_refused {result : Option (Except Fault Nat)} {f : Fault}
    (at_ : r.phase = .writing size rest left last) (some_ : rest ≠ [])
    (way : r.held.way rest = .through) (write : r.output.write r.clock rest = (output, result))
    (failure : result = some (.error f) ∨ result = some (.ok 0) ∧ f = .writeZero) :
    r.settles = [.failed (size - rest.length)] := by
  rw [settles, at_]
  rcases failure with rfl | ⟨rfl, -⟩ <;> simp [some_, way, write]

/-- The output takes some of it. -/
theorem settles_of_took {n : Nat} (at_ : r.phase = .writing size rest left last) (some_ : rest ≠ [])
    (way : r.held.way rest = .through)
    (write : r.output.write r.clock rest = (output, some (.ok n))) (took : n ≠ 0) :
    r.settles = [] := by
  obtain ⟨n, rfl⟩ := Nat.exists_eq_succ_of_ne_zero took
  rw [settles, at_]
  simp [some_, way, write]

/-- There is no room for a record, as what is held cannot be written out. -/
theorem settles_of_no_room {f : Fault} (at_ : r.phase = .makingRoom size rest left last)
    (out : r.writeOut = (r', some (.error f))) : r.settles = [.failed (size - rest.length)] := by
  rw [settles, at_]
  simp [out]

theorem settles_of_room {result : Option (Except Fault Bool)}
    (at_ : r.phase = .makingRoom size rest left last) (out : r.writeOut = (r', result))
    (fine : ∀ f, result ≠ some (.error f)) : r.settles = [] := by
  rw [settles, at_]
  rcases result with _ | f | all
  · simp [out]
  · exact absurd rfl (fine f)
  · simp [out]

/-- The call goes on, or has made all the room. -/
theorem fine_of_more {result : Option (Except Fault Bool)}
    (more : result = none ∨ result = some (.ok false)) (f : Fault) : result ≠ some (.error f) := by
  rcases more with rfl | rfl <;> simp

end

/-- What a move makes of the event whose turn it is. -/
def fate (r : Recorder α) : Move α → List Fate
  | .work => r.settles
  | _ => []

def fates (r₀ : Recorder α) (ms : List (Move α)) : List Fate := Trail.along move fate r₀ ms

/-- What the output is given for an event. -/
def share (encoder : Encoder α) (e : α) : Fate → Bytes
  | .recorded => (encoder e).appended
  | .unencodable => []
  | .failed taken => (encoder e).appended.take taken

/-- What the output is given for the first of some events, those whose fate is known. -/
def shares (encoder : Encoder α) (es : List α) (fs : List Fate) : Bytes :=
  (es.zip fs).flatMap fun d => share encoder d.1 d.2

/-- A fate that an event can have. What fails when part of it is written is long. -/
def Fate.Fits (encoder : Encoder α) (e : α) : Fate → Prop
  | .recorded => (encoder e).failure? = none
  | .unencodable => (encoder e).failure? ≠ none
  | .failed taken => (encoder e).failure? = none ∧
    (taken = 0 ∨ taken + WriteBuffer.capacity ≤ (encoder e).appended.length)

section

variable {encoder : Encoder α} {done : List α} {fs : List Fate}

theorem zip_concat {β : Type} {fs : List β} (h : fs.length = done.length) (e : α) (f : β) :
    (done ++ [e]).zip (fs ++ [f]) = done.zip fs ++ [(e, f)] := by
  rw [List.zip_append h.symm]; rfl

theorem shares_concat (h : fs.length = done.length) (e : α) (f : Fate) :
    shares encoder (done ++ [e]) (fs ++ [f]) = shares encoder done fs ++ share encoder e f := by
  rw [shares, zip_concat h, List.flatMap_append, List.flatMap_singleton]; rfl

end

/-- A beginning of some parts put together is the first of them, and a beginning of the next one. -/
theorem prefix_flatMap {β γ : Type} {f : β → List γ} {l : List β} {data : List γ}
    (h : data <+: l.flatMap f) :
    ∃ whole others rest, l = whole ++ others ∧ data = whole.flatMap f ++ rest ∧
      rest <+: others.flatMap f ∧ ∀ x ∈ others.head?, rest <+: f x ∧ rest ≠ f x := by
  induction l generalizing data with
  | nil => exact ⟨[], [], data, rfl, rfl, h, nofun⟩
  | cons x l ih =>
    by_cases hwhole : f x <+: data
    · obtain ⟨data, rfl⟩ := hwhole
      rw [List.flatMap_cons, List.prefix_append_right_inj] at h
      obtain ⟨whole, others, rest, rfl, rfl, hrest, hpart⟩ := ih h
      refine ⟨x :: whole, others, rest, rfl, ?_, hrest, hpart⟩
      rw [List.flatMap_cons, List.append_assoc]
    · refine ⟨[], x :: l, data, rfl, rfl, h, ?_⟩
      rintro _ ⟨⟩
      rw [List.flatMap_cons] at h
      have hpart := (List.prefix_or_prefix_of_prefix h (List.prefix_append _ _)).resolve_right hwhole
      refine ⟨hpart, ?_⟩
      rintro rfl
      exact hwhole List.prefix_rfl

/-! ## Reports change no event -/

section

variable (r : Recorder α) (f : Fault)

theorem buffer_encodeFailed (f : EncodeFailure) :
    (r.encodeFailed f).intake.buffer = r.intake.buffer := Intake.buffer_logAll _ _

theorem buffer_writeFailed : (r.writeFailed f).intake.buffer = r.intake.buffer :=
  Intake.buffer_logAll _ _

theorem buffer_flushFailed : (r.flushFailed f).intake.buffer = r.intake.buffer :=
  Intake.buffer_logAll _ _

end

/-! ## The book -/

/-- The book of a recorder: the events `done` have had their turn, and of the record of `hand?` the
output has accepted `part`. -/
structure Book (done : List α) (hand? : Option α) (part : Bytes) (es : List α) (fs : List Fate)
    (r : Recorder α) : Prop where
  split : es = done ++ hand?.toList ++ (r.phase.left ++ r.intake.buffer.events.toList)
  length : fs.length = done.length
  bytes : r.output.accepted ++ r.held.held = shares r.encoder done fs ++ part
  fits : ∀ d ∈ done.zip fs, d.2.Fits r.encoder d.1
  size : r.phase.size? = hand?.map fun e => (r.encoder e).appended.length
  whole : ∀ e, hand? = some e →
    (r.encoder e).failure? = none ∧ part ++ r.phase.rest = (r.encoder e).appended
  idle : hand? = none → part = []
  /-- A part is accepted only of a record that is past the room. -/
  through : part ≠ [] → r.held.held = []
  room : ∀ size rest left last, r.phase = .makingRoom size rest left last → part = []

variable {es done new : List α} {hand? : Option α} {part : Bytes} {fs : List Fate}
  {r r' : Recorder α} {e : α}

/-- Nothing happens to events and their records, but for bytes that are written out. -/
theorem Book.same {p q : Phase α} (h : Book done hand? part es fs r) (at_ : r.phase = p)
    (now : r'.phase = q) (encoder : r'.encoder = r.encoder)
    (left : q.left ++ r'.intake.buffer.events.toList = p.left ++ r.intake.buffer.events.toList)
    (bytes : r'.output.accepted ++ r'.held.held = r.output.accepted ++ r.held.held)
    (rest : q.rest = p.rest) (size : q.size? = p.size?)
    (through : part ≠ [] → r'.held.held = [])
    (room : ∀ size rest left last, q = .makingRoom size rest left last → part = []) :
    Book done hand? part es fs r' where
  split := by rw [now, left, ← at_]; exact h.split
  length := h.length
  bytes := by rw [bytes, encoder]; exact h.bytes
  fits := by rw [encoder]; exact h.fits
  size := by rw [now, size, ← at_, encoder]; exact h.size
  whole := by rw [now, rest, ← at_, encoder]; exact h.whole
  idle := h.idle
  through := through
  room := by rw [now]; exact room

/-- Between two records. -/
theorem Book.idle_of_size (h : Book done hand? part es fs r) (idle : r.phase.size? = none) :
    hand? = none ∧ part = [] := by
  have hsize := h.size
  rw [idle] at hsize
  cases hand? with
  | none => exact ⟨rfl, h.idle rfl⟩
  | some e => cases hsize

/-- One more event has had its turn. -/
theorem Book.settle (h : Book done hand? part es fs r) {f : Fate} (fits : f.Fits r.encoder e)
    (encoder : r'.encoder = r.encoder)
    (split : es = done ++ [e] ++ (r'.phase.left ++ r'.intake.buffer.events.toList))
    (bytes : r'.output.accepted ++ r'.held.held =
      shares r.encoder done fs ++ share r.encoder e f)
    (size : r'.phase.size? = none) (resting : ∀ size rest left last,
      r'.phase ≠ .makingRoom size rest left last) :
    Book (done ++ [e]) none [] es (fs ++ [f]) r' where
  split := by rw [Option.toList_none, List.append_nil]; exact split
  length := by rw [List.length_append, List.length_append, h.length]; rfl
  bytes := by rw [encoder, shares_concat h.length, List.append_nil]; exact bytes
  fits := by
    rw [encoder, zip_concat h.length]
    intro d hd
    rcases List.mem_append.mp hd with hd | hd
    · exact h.fits d hd
    · rw [List.mem_singleton] at hd
      subst hd
      exact fits
  size := size
  whole := nofun
  idle _ := rfl
  through := fun hne => absurd rfl hne
  room _ _ _ _ hp := absurd hp (resting _ _ _ _)

/-- The event in hand, of whose record the output is to be given `rest`. -/
theorem Book.in_hand (h : Book done hand? part es fs r) {size : Nat} {rest : Bytes}
    (at_ : r.phase.size? = some size) (rest_ : r.phase.rest = rest) :
    ∃ e, hand? = some e ∧ (r.encoder e).failure? = none ∧
      part ++ rest = (r.encoder e).appended ∧ part.length = size - rest.length := by
  have hsize := h.size
  rw [at_] at hsize
  cases hand? with
  | none => cases hsize
  | some e =>
    rw [Option.map_some, Option.some.injEq] at hsize
    obtain ⟨hfine, hwhole⟩ := h.whole e rfl
    rw [rest_] at hwhole
    refine ⟨e, rfl, hfine, hwhole, ?_⟩
    rw [hsize, ← hwhole, List.length_append]
    omega

theorem length_of_through {b : WriteBuffer} {data : Bytes} (h : b.way data = .through) :
    WriteBuffer.capacity ≤ data.length := by
  unfold WriteBuffer.way at h
  split at h
  · cases h
  · split at h
    · next hlarge => exact hlarge
    · cases h

/-! ## Steps -/

/-- Every event that was accepted is in the book. -/
def Booked (es : List α) (fs : List Fate) (r : Recorder α) : Prop :=
  ∃ done hand? part, Book done hand? part es fs r

theorem Book.quiet (h : Book done hand? part es fs r') (none_ : r.settles = []) :
    Booked es (fs ++ r.settles) r' := by
  rw [none_, List.append_nil]; exact ⟨_, _, _, h⟩

/-- The record in hand is written, or held. -/
theorem Book.recorded (h : Book done hand? part es fs r) {size : Nat} {rest : Bytes}
    {left : List α} {last : Bool} (at_ : r.phase = .writing size rest left last)
    {held : WriteBuffer} (bytes : held.held = r.held.held ++ rest) :
    Booked es (fs ++ [.recorded]) ({ r with held }.recorded size left last) := by
  have hsized : r.phase.size? = some size := by rw [at_]; rfl
  have hrest : r.phase.rest = rest := by rw [at_]; rfl
  obtain ⟨e, rfl, hfine, hwhole, -⟩ := h.in_hand hsized hrest
  refine ⟨_, _, _, h.settle (f := .recorded) hfine rfl (by rw [h.split, at_]; rfl) ?_ rfl nofun⟩
  show r.output.accepted ++ held.held = shares r.encoder done fs ++ (r.encoder e).appended
  rw [bytes, ← List.append_assoc, h.bytes, List.append_assoc, hwhole]

/-- The writing of the record in hand fails. -/
theorem Book.failed (h : Book done hand? part es fs r) {size : Nat} {rest : Bytes}
    {left : List α} {last : Bool} (sized : r.phase.size? = some size) (rest_ : r.phase.rest = rest)
    (left_ : r.phase.left = left)
    (long : part = [] ∨ WriteBuffer.capacity ≤ rest.length) {output : Channel} {held : WriteBuffer}
    (bytes : output.accepted ++ held.held = r.output.accepted ++ r.held.held) (f : Fault) :
    Booked es (fs ++ [.failed (size - rest.length)])
      (({ r with output, held }.writeFailed f).proceed left last) := by
  obtain ⟨e, rfl, hfine, hwhole, hlength⟩ := h.in_hand sized rest_
  refine ⟨_, _, _, h.settle (f := .failed (size - rest.length)) ⟨hfine, ?_⟩ rfl ?_ ?_ rfl nofun⟩
  · rw [← hlength, ← hwhole, List.length_append]
    rcases long with rfl | hlong
    · exact .inl rfl
    · right; omega
  · show _ = _ ++ (left ++ ({ r with output, held }.writeFailed f).intake.buffer.events.toList)
    rw [buffer_writeFailed, h.split, left_]
    rfl
  · show output.accepted ++ held.held = _
    rw [bytes, h.bytes, share, ← hlength, ← hwhole, List.take_left']
    rfl

/-- The output accepts more of the record in hand. -/
theorem Book.throughPart (h : Book done hand? part es fs r) {size n : Nat} {rest : Bytes}
    {left : List α} {last : Bool} {output : Channel} (at_ : r.phase = .writing size rest left last)
    (way : r.held.way rest = .through)
    (write : r.output.write r.clock rest = (output, some (.ok n))) :
    Book done hand? (part ++ rest.take n) es fs
      { r with output, phase := .writing size (rest.drop n) left last } := by
  have hsized : r.phase.size? = some size := by rw [at_]; rfl
  have hrest : r.phase.rest = rest := by rw [at_]; rfl
  obtain ⟨e, rfl, hfine, hwhole, -⟩ := h.in_hand hsized hrest
  have hheld := held_of_through way
  have hbytes := h.bytes
  have haccepted := (r.output.write_spec r.clock rest).1
  rw [write] at haccepted
  have haccepted : output.accepted = r.output.accepted ++ rest.take n := haccepted
  rw [hheld, List.append_nil] at hbytes
  exact {
    split := by rw [h.split, at_]; rfl
    length := h.length
    bytes := by rw [haccepted, hheld, List.append_nil, hbytes, List.append_assoc]
    fits := h.fits
    size := by rw [← h.size, at_]; rfl
    whole := by
      rintro _ ⟨⟩
      refine ⟨hfine, ?_⟩
      show part ++ rest.take n ++ rest.drop n = _
      rw [List.append_assoc, List.take_append_drop, hwhole]
    idle := nofun
    through := fun _ => hheld
    room := nofun }

/-- The next event is encoded. -/
theorem Book.encode (h : Book done hand? part es fs r) {left : List α} {last : Bool}
    (at_ : r.phase = .encoding (e :: left) last) (fine : (r.encoder e).failure? = none) :
    Book done (some e) [] es fs { r with
      encoded := (r.encoder e).appended
      phase := .writing (r.encoder e).appended.length (r.encoder e).appended left last } := by
  obtain ⟨rfl, rfl⟩ := h.idle_of_size (by rw [at_]; rfl)
  have hsplit := h.split
  rw [at_] at hsplit
  exact {
    split := by rw [hsplit]; simp [Phase.left]
    length := h.length
    bytes := h.bytes
    fits := h.fits
    size := rfl
    whole := by rintro _ ⟨⟩; exact ⟨fine, rfl⟩
    idle := nofun
    through := fun hne => absurd rfl hne
    room := fun _ _ _ _ _ => rfl }

/-- The next event cannot be encoded. -/
theorem Book.encodeFails (h : Book done hand? part es fs r) {left : List α} {last : Bool}
    {f : EncodeFailure} (at_ : r.phase = .encoding (e :: left) last)
    (failure : (r.encoder e).failure? = some f) :
    Booked es (fs ++ [.unencodable])
      (({ r with encoded := (r.encoder e).appended }.encodeFailed f).proceed left last) := by
  obtain ⟨rfl, rfl⟩ := h.idle_of_size (by rw [at_]; rfl)
  have hsplit := h.split
  rw [at_] at hsplit
  have hfits : Fate.unencodable.Fits r.encoder e := fun hfine => by rw [failure] at hfine; cases hfine
  refine ⟨_, _, _, h.settle hfits rfl ?_ ?_ rfl nofun⟩
  · show _ = _ ++ (left ++ (Recorder.encodeFailed _ f).intake.buffer.events.toList)
    rw [buffer_encodeFailed, hsplit]
    simp [Phase.left]
  · exact h.bytes

/-- A round has come to its end, perhaps with a failure. -/
theorem Book.endRound (h : Book done hand? part es fs r) (r' : Recorder α) {p : Phase α}
    (at_ : r.phase = p) (left : p.left = []) (rest : p.rest = []) (size : p.size? = none)
    (encoder : r'.encoder = r.encoder)
    (events : r'.intake.buffer.events = r.intake.buffer.events)
    (bytes : r'.output.accepted ++ r'.held.held = r.output.accepted ++ r.held.held) (last : Bool) :
    Book done hand? part es fs (r'.endRound last) := by
  have hpart := (h.idle_of_size (at_ ▸ size)).2
  have hleft : [] ++ r'.intake.buffer.events.toList = p.left ++ r.intake.buffer.events.toList := by
    rw [left, events]
  cases last with
  | true => exact h.same at_ rfl encoder hleft bytes rest.symm size.symm (absurd hpart) nofun
  | false => exact h.same at_ rfl encoder hleft bytes rest.symm size.symm (absurd hpart) nofun

/-- **Every step is in the book.** -/
theorem Book.work (h : Book done hand? part es fs r) (w : Work r r') :
    Booked es (fs ++ r.settles) r' := by
  cases w with
  -- no event is done with between turns
  | start at_ | encoded at_ | flushed at_ | finished at_ =>
    exact Book.quiet (h.same at_ rfl rfl rfl rfl rfl rfl h.through nofun) (by rw [settles, at_])
  | wake at_ wait | close at_ wait =>
    refine Book.quiet (h.same at_ rfl rfl ?_ rfl rfl rfl h.through nofun) (by rw [settles, at_])
    rw [Intake.events_wait]
    rfl
  | @takeNothing last at_ events =>
    exact (h.endRound { r with intake := (r.intake.swap #[]).1 } at_ rfl rfl rfl rfl
      ((Intake.events_swap _ _).trans events.symm) rfl last).quiet (by rw [settles, at_])
  | @take last at_ events =>
    refine Book.quiet (h.same at_ rfl rfl ?_ rfl rfl rfl h.through nofun) (by rw [settles, at_])
    rw [Intake.events_swap]
    exact List.append_nil _
  -- an event has its turn, and one line of the book says what became of it
  | encode at_ fine =>
    exact Book.quiet (h.encode at_ fine) (by rw [settles, at_]; simp [fine])
  | encodeFails at_ failure =>
    rw [show r.settles = [.unencodable] by rw [settles, at_]; simp [failure]]
    exact h.encodeFails at_ failure
  | written at_ ready =>
    rw [show r.settles = [.recorded] by rw [settles, at_]; rfl]
    exact h.recorded at_ (List.append_nil _).symm
  | @wait size rest left last at_ ready some_ way =>
    refine Book.quiet (h.same at_ rfl rfl rfl rfl rfl rfl h.through ?_)
      (by rw [settles, at_]; simp [some_, way])
    rintro _ _ _ _ ⟨⟩
    exact Classical.byContradiction fun hne => held_of_waits way (h.through hne)
  | hold at_ ready some_ way =>
    rw [show r.settles = [.recorded] by rw [settles, at_]; simp [some_, way]]
    exact h.recorded at_ rfl
  | @throughWaits size rest left last output at_ ready some_ way write =>
    have haccepted := (r.output.write_spec r.clock rest).1
    rw [write] at haccepted
    have haccepted : output.accepted = r.output.accepted := haccepted.trans (List.append_nil _)
    exact Book.quiet (h.same at_ at_ rfl rfl (by rw [haccepted]) rfl rfl h.through nofun)
      (by rw [settles, at_]; simp [some_, way, write])
  | @throughFails size rest left last output result f at_ ready some_ way write failure =>
    have haccepted := (r.output.write_spec r.clock rest).1
    rw [write] at haccepted
    have haccepted : output.accepted = r.output.accepted := by
      rcases failure with rfl | ⟨rfl, -⟩ <;> exact haccepted.trans (List.append_nil _)
    rw [settles_of_refused at_ some_ way write failure]
    exact h.failed (by rw [at_]; rfl) (by rw [at_]; rfl) (by rw [at_]; rfl)
      (.inr (length_of_through way)) (by rw [haccepted]) f
  | @throughPart size n rest left last output at_ ready some_ way write took =>
    exact (h.throughPart at_ way write).quiet (settles_of_took at_ some_ way write took)
  | @roomWaits size rest left last r' result at_ ready out more =>
    obtain ⟨output, held, rfl, hbytes, -⟩ := writeOut_spec out
    have hpart := h.room _ _ _ _ at_
    exact Book.quiet (h.same at_ at_ rfl rfl hbytes rfl rfl (absurd hpart) fun _ _ _ _ _ => hpart)
      (settles_of_room at_ out (fine_of_more more))
  | @roomMade size rest left last r' at_ ready out =>
    obtain ⟨output, held, rfl, hbytes, -⟩ := writeOut_spec out
    exact Book.quiet (h.same at_ rfl rfl rfl hbytes rfl rfl (absurd (h.room _ _ _ _ at_)) nofun)
      (settles_of_room at_ out (by simp))
  | @roomFails size rest left last r' f at_ ready out =>
    obtain ⟨output, held, rfl, hbytes, -⟩ := writeOut_spec out
    rw [settles_of_no_room at_ out]
    exact h.failed (by rw [at_]; rfl) (by rw [at_]; rfl) (by rw [at_]; rfl)
      (.inl (h.room _ _ _ _ at_)) hbytes f
  -- flushes and the end settle nothing, although what is held may be lost in them
  | flushPart at_ ready some_held out fine | finishPart at_ ready some_held out fine =>
    obtain ⟨output, held, rfl, hbytes, -⟩ := writeOut_spec out
    have hpart := (h.idle_of_size (by rw [at_]; rfl)).2
    exact Book.quiet (h.same at_ at_ rfl rfl hbytes rfl rfl (absurd hpart) nofun)
      (by rw [settles, at_])
  | @flushFails last r' f at_ ready some_held out =>
    obtain ⟨output, held, rfl, hbytes, -⟩ := writeOut_spec out
    exact (h.endRound ({ r with output, held }.flushFailed f) at_ rfl rfl rfl rfl
      (congrArg _ (buffer_flushFailed ..)) hbytes last).quiet (by rw [settles, at_])
  | @outputFlushed last output at_ ready flush =>
    have haccepted := r.output.flush_spec.1
    rw [flush] at haccepted
    exact (h.endRound { r with output } at_ rfl rfl rfl rfl rfl (by rw [haccepted]) last).quiet
      (by rw [settles, at_])
  | @outputFlushFails last output f at_ ready flush =>
    have haccepted := r.output.flush_spec.1
    rw [flush] at haccepted
    exact (h.endRound ({ r with output }.flushFailed f) at_ rfl rfl rfl rfl
      (congrArg _ (buffer_flushFailed ..)) (by rw [← haccepted]; rfl) last).quiet
      (by rw [settles, at_])
  | @finishFails r' f at_ ready some_held out =>
    obtain ⟨output, held, rfl, hbytes, -⟩ := writeOut_spec out
    have hpart := (h.idle_of_size (by rw [at_]; rfl)).2
    exact Book.quiet (h.same at_ rfl rfl rfl hbytes rfl rfl (absurd hpart) nofun)
      (by rw [settles, at_])
  | @closeWaits output at_ ready close =>
    have haccepted := (r.output.close_spec r.clock).1
    rw [close] at haccepted
    exact Book.quiet (h.same at_ at_ rfl rfl (by rw [haccepted]) rfl rfl h.through nofun)
      (by rw [settles, at_])
  | closed at_ ready close | closeFails at_ ready close =>
    have haccepted := (r.output.close_spec r.clock).1
    rw [close] at haccepted
    exact Book.quiet (h.same at_ rfl rfl rfl (by rw [← haccepted]; rfl) rfl rfl h.through nofun)
      (by rw [settles, at_])

/-! ## Runs -/

/-- A call puts an event behind the others, or none. -/
theorem Book.call (h : Book done hand? part es fs r) {k : Intake α}
    (events : k.buffer.events.toList = r.intake.buffer.events.toList ++ new) :
    Book done hand? part (es ++ new) fs { r with intake := k } where
  split := by rw [h.split, events]; simp only [List.append_assoc]
  length := h.length
  bytes := h.bytes
  fits := h.fits
  size := h.size
  whole := h.whole
  idle := h.idle
  through := h.through
  room := h.room

theorem Book.move {m : Move α} (h : Book done hand? part es fs r) (move : r.move m = some r') :
    Booked (es ++ r.accepts m) (fs ++ r.fate m) r' := by
  cases m with
  | trace e =>
    cases move
    rw [trace_eq, show r.fate (.trace e) = [] from rfl, List.append_nil]
    cases hclosed : r.intake.buffer.closed with
    | true =>
      rw [show r.accepts (.trace e) = [] from if_pos hclosed, Intake.trace_of_closed hclosed]
      exact ⟨_, _, _, h.call (List.append_nil _).symm⟩
    | false =>
      have hopen : r.accepts (.trace e) = [e] := if_neg (by rw [hclosed]; exact Bool.false_ne_true)
      rw [hopen, Intake.trace_of_open hclosed]
      exact ⟨_, _, _, h.call Array.toList_push⟩
  | close =>
    cases move
    rw [show r.fate .close = [] from rfl, List.append_nil]
    exact ⟨_, _, _, h.call (by rw [Intake.events_close]; exact (List.append_nil _).symm)⟩
  | abandon =>
    cases move
    rw [show r.fate .abandon = [] from rfl, List.append_nil]
    exact ⟨_, _, _, h.call (List.append_nil _).symm⟩
  | advance t =>
    rw [Recorder.move, Option.ite_none_right_eq_some] at move
    obtain ⟨-, ⟨⟩⟩ := move
    rw [show r.fate (.advance t) = [] from rfl, show r.accepts (.advance t) = [] from rfl,
      List.append_nil, List.append_nil]
    exact ⟨_, _, _, h.same rfl rfl rfl rfl rfl rfl rfl h.through h.room⟩
  | work =>
    rw [show r.accepts .work = [] from rfl, List.append_nil]
    exact h.work (work_cases move)

theorem fates_concat {r₀ : Recorder α} {ms : List (Move α)} (run : Run r₀ ms es r) (m : Move α) :
    fates r₀ (ms ++ [m]) = fates r₀ ms ++ r.fate m :=
  Trail.along_concat run.foldlM_move m

theorem Fresh.booked {encoder : Encoder α} {plan : ChannelPlan} (h : r.Fresh encoder plan) :
    Booked [] [] r := by
  refine ⟨[], none, [], ?_, rfl, ?_, nofun, ?_, nofun, fun _ => rfl, fun hne => absurd rfl hne, ?_⟩
  · rw [h.phase, h.buffer]; rfl
  · rw [h.output, h.held]; rfl
  · rw [h.phase]; rfl
  · rw [h.phase]; nofun

/-- **What the output has been given is in the book** at every moment of every run. -/
theorem Run.booked {r₀ : Recorder α} {ms : List (Move α)} (run : Run r₀ ms es r)
    (start : Booked [] [] r₀) : Booked es (fates r₀ ms) r := by
  induction run with
  | start => exact start
  | move run h ih =>
    obtain ⟨done, hand?, part, hbook⟩ := ih
    rw [fates_concat run]
    exact hbook.move h

end TraceRelay.Recorder
