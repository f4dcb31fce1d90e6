import TraceRelay.Proofs.Recorder.Run

/-!
# A recorder loses nothing while its output does not fail

1. `Ledger`: the events accepted are those done with, the one in hand, those taken, and those in the
   buffer, in order. What the output has accepted and what is held in front of it are the records of
   those done with, and of the one in hand as much as was written.
2. `Orderly`: an output that does not fail, and a buffer that is closed and empty once it was taken for
   the last time.
3. `Run.lossless`: a recorder that has ended has written the records of all events it accepted, and
   counted them.
-/

namespace TraceRelay.Recorder

variable {α : Type}

/-! ## Records -/

/-- The record of an event; none if the event cannot be encoded. -/
def record (encoder : Encoder α) (e : α) : Bytes :=
  if (encoder e).failure?.isNone then (encoder e).appended else []

def records (encoder : Encoder α) (es : List α) : Bytes := es.flatMap (record encoder)

/-- The events that can be encoded. -/
def recordable (encoder : Encoder α) (es : List α) : List α :=
  es.filter fun e => (encoder e).failure?.isNone

section

variable {encoder : Encoder α} {e : α} {f : EncodeFailure}

theorem records_concat (encoder : Encoder α) (es : List α) (e : α) :
    records encoder (es ++ [e]) = records encoder es ++ record encoder e := by
  rw [records, List.flatMap_append, List.flatMap_singleton]; rfl

theorem record_of_fine (h : (encoder e).failure? = none) :
    record encoder e = (encoder e).appended := by rw [record, h]; rfl

theorem record_of_failure (h : (encoder e).failure? = some f) : record encoder e = [] := by
  rw [record, h]; rfl

theorem recordable_of_fine (h : (encoder e).failure? = none) (es : List α) :
    recordable encoder (es ++ [e]) = recordable encoder es ++ [e] := by
  simp [recordable, List.filter_append, h]

theorem recordable_of_failure (h : (encoder e).failure? = some f) (es : List α) :
    recordable encoder (es ++ [e]) = recordable encoder es := by
  simp [recordable, List.filter_append, h]

theorem length_recordable_le (encoder : Encoder α) (es : List α) :
    (recordable encoder es).length ≤ es.length := List.length_filter_le _ _

end

/-! ## Counters -/

/-- The counters of what became of events. -/
def counts (t : Tally) : List UInt64 :=
  [t.eventsWritten, t.bytesWritten, t.encodeErrors, t.writeErrors]

/-- The counters for events that were done with and did not fail to be written. -/
def countsOf (encoder : Encoder α) (es : List α) : List UInt64 :=
  [.ofNat (recordable encoder es).length, .ofNat (records encoder es).length,
    .ofNat (es.length - (recordable encoder es).length), 0]

section

variable {encoder : Encoder α} {e : α} {f : EncodeFailure} {es : List α} {t : Tally}

theorem countsOf_written (h : counts t = countsOf encoder es) (fine : (encoder e).failure? = none) :
    counts (t.written 1 (encoder e).appended.length) = countsOf encoder (es ++ [e]) := by
  simp only [counts, countsOf, List.cons.injEq, and_true] at h ⊢
  obtain ⟨hwritten, hbytes, herrors, hwrites⟩ := h
  rw [recordable_of_fine fine, records_concat, record_of_fine fine, List.length_append,
    List.length_append, List.length_append, List.length_singleton, UInt64.ofNat_add,
    UInt64.ofNat_add, ← hwritten, ← hbytes, Nat.add_sub_add_right, ← herrors]
  exact ⟨rfl, rfl, rfl, hwrites⟩

theorem countsOf_encodeError (h : counts t = countsOf encoder es)
    (failure : (encoder e).failure? = some f) :
    counts t.encodeError = countsOf encoder (es ++ [e]) := by
  simp only [counts, countsOf, List.cons.injEq, and_true] at h ⊢
  obtain ⟨hwritten, hbytes, herrors, hwrites⟩ := h
  have hle := length_recordable_le encoder es
  rw [recordable_of_failure failure, records_concat, record_of_failure failure, List.append_nil,
    List.length_append, List.length_singleton, Nat.sub_add_comm hle, UInt64.ofNat_add, ← herrors]
  exact ⟨hwritten, hbytes, rfl, hwrites⟩

end

/-! ## Phases -/

namespace Phase

/-- The events that were taken and have not had their turn. -/
def left : Phase α → List α
  | .encoding left _ | .writing _ _ left _ | .makingRoom _ _ left _ => left
  | _ => []

/-- What is still to be written of the record in hand. -/
def rest : Phase α → Bytes
  | .writing _ rest _ _ | .makingRoom _ rest _ _ => rest
  | _ => []

/-- The length of the record in hand. -/
def size? : Phase α → Option Nat
  | .writing size _ _ _ | .makingRoom size _ _ _ => some size
  | _ => none

/-- Whether the buffer is taken for the last time. -/
def isLast : Phase α → Bool
  | .collecting last | .encoding _ last | .writing _ _ _ last | .makingRoom _ _ _ last
  | .flushing last | .flushingOutput last => last
  | .finishing | .closingOutput | .ended => true
  | _ => false

/-- Whether the buffer has been taken for the last time. -/
def isEmptied : Phase α → Bool
  | .collecting _ => false
  | p => p.isLast

/-- What a phase that is not the last asks of what is held. -/
def Fits (held : WriteBuffer) : Phase α → Prop
  | .makingRoom _ _ _ _ => held.held ≠ []
  | .closingOutput => held.held = []
  | .ended => False
  | _ => True

section

variable {held : WriteBuffer} {p : Phase α}

theorem Fits.room {size : Nat} {rest : Bytes} {left : List α} {last : Bool} (fits : p.Fits held)
    (at_ : p = .makingRoom size rest left last) : held.held ≠ [] := by
  subst at_
  exact fits

theorem Fits.written (fits : p.Fits held) (at_ : p = .closingOutput ∨ p = .ended) :
    held.held = [] := by
  rcases at_ with rfl | rfl
  · exact fits
  · exact fits.elim

theorem Fits.running (fits : p.Fits held) : p ≠ .ended := by
  rintro rfl
  exact fits

end

theorem isLast_of_isEmptied {p : Phase α} (h : p.isEmptied = true) : p.isLast = true := by
  cases p with
  | collecting last => cases h
  | _ => exact h

end Phase

/-! ## The ledger -/

/-- Where the events `es` are, of which `done` are done with and `hand?` is being written. -/
structure Ledger (es done : List α) (hand? : Option α) (r : Recorder α) : Prop where
  split : es = done ++ hand?.toList ++ (r.phase.left ++ r.intake.buffer.events.toList)
  bytes : r.output.accepted ++ r.held.held ++ r.phase.rest =
    records r.encoder (done ++ hand?.toList)
  size : r.phase.size? = hand?.map fun e => (r.encoder e).appended.length
  fine : ∀ e, hand? = some e → (r.encoder e).failure? = none
  counts : counts r.intake.tally = countsOf r.encoder done

variable {es done new : List α} {hand? : Option α} {r r' : Recorder α} {e : α}

/-- Nothing happens to events. -/
theorem Ledger.same (h : Ledger es done hand? r) (encoder : r'.encoder = r.encoder)
    (left : r'.phase.left ++ r'.intake.buffer.events.toList =
      r.phase.left ++ r.intake.buffer.events.toList)
    (bytes : r'.output.accepted ++ r'.held.held ++ r'.phase.rest =
      r.output.accepted ++ r.held.held ++ r.phase.rest)
    (size : r'.phase.size? = r.phase.size?)
    (counts : Recorder.counts r'.intake.tally = Recorder.counts r.intake.tally) :
    Ledger es done hand? r' := by
  refine ⟨?_, ?_, ?_, ?_, ?_⟩
  · rw [left]; exact h.split
  · rw [bytes, encoder]; exact h.bytes
  · rw [size, encoder]; exact h.size
  · rw [encoder]; exact h.fine
  · rw [counts, encoder]; exact h.counts

/-- The event in hand is done with. -/
theorem Ledger.record (h : Ledger es done hand? r) (size : Nat) (at_ : r.phase.size? = some size)
    (encoder : r'.encoder = r.encoder) (left : r'.phase.left = r.phase.left)
    (events : r'.intake.buffer.events = r.intake.buffer.events)
    (bytes : r'.output.accepted ++ r'.held.held = r.output.accepted ++ r.held.held ++ r.phase.rest)
    (rest : r'.phase.rest = []) (none_ : r'.phase.size? = none)
    (tally : r'.intake.tally = r.intake.tally.written 1 size) :
    Ledger es (done ++ hand?.toList) none r' := by
  have hsize := h.size
  rw [at_] at hsize
  cases hand? with
  | none => cases hsize
  | some e =>
    rw [Option.map_some, Option.some.injEq] at hsize
    refine ⟨?_, ?_, none_, nofun, ?_⟩
    · rw [left, events, Option.toList_none, List.append_nil]; exact h.split
    · rw [rest, encoder, bytes, List.append_nil, Option.toList_none, List.append_nil]
      exact h.bytes
    · rw [tally, encoder, hsize]
      exact countsOf_written h.counts (h.fine e rfl)

/-! ## Order -/

structure Orderly (r : Recorder α) : Prop where
  faultless : r.output.plan.Faultless
  closed : r.phase.isLast = true → r.intake.buffer.closed = true
  empty : r.phase.isEmptied = true → r.intake.buffer.events = #[]
  /-- Room is made only where something is held. -/
  room : ∀ size rest left last, r.phase = .makingRoom size rest left last → r.held.held ≠ []
  written : r.phase = .closingOutput ∨ r.phase = .ended → r.held.held = []
  outcome : r.output.outcome = if r.isEnded then .closed else .live

/-- A call that writes out does not fail. -/
theorem Orderly.writeOut (h : Orderly r) (some_ : r.held.held ≠ [])
    {result : Option (Except Fault Bool)} (out : r.writeOut = (r', result)) :
    r'.output.plan.Faultless ∧ ∀ f, result ≠ some (.error f) := by
  obtain ⟨hfaultless, hresult⟩ := Channel.write_faultless h.faultless r.clock r.held.held
  unfold Recorder.writeOut at out
  generalize r.output.write r.clock r.held.held = written at out hfaultless hresult
  obtain ⟨output, answer⟩ := written
  rcases hresult with rfl | ⟨n, rfl, hn⟩
  · cases out; exact ⟨hfaultless, nofun⟩
  · obtain ⟨n, rfl⟩ := Nat.exists_eq_succ_of_ne_zero (hn some_)
    cases out
    exact ⟨hfaultless, nofun⟩

/-- A write that goes through finds nothing held. -/
theorem held_of_through {b : WriteBuffer} {data : Bytes} (h : b.way data = .through) :
    b.held = [] := by
  unfold WriteBuffer.way at h
  split at h
  · cases h
  · next hfits =>
    split at h
    · next hlarge =>
      apply Classical.byContradiction
      intro hsome
      have := List.length_pos_iff.mpr hsome
      exact hfits ⟨hsome, by omega⟩
    · cases h

theorem held_of_waits {b : WriteBuffer} {data : Bytes} (h : b.way data = .waits) : b.held ≠ [] := by
  unfold WriteBuffer.way at h
  split at h
  · next hfull => exact hfull.1
  · split at h <;> cases h

/-! ## Steps -/

/-- Nothing is lost so far. -/
structure Lossless (es : List α) (r : Recorder α) : Prop where
  orderly : Orderly r
  ledger : ∃ done hand?, Ledger es done hand? r

/-- Between two records. -/
theorem Lossless.idle (h : Lossless es r) (idle : r.phase.size? = none) :
    ∃ done, Ledger es done none r := by
  obtain ⟨done, hand?, h⟩ := h.ledger
  have hsize := h.size
  rw [idle] at hsize
  cases hand? with
  | none => exact ⟨done, h⟩
  | some e => cases hsize

theorem isEnded_eq_false {p : Phase α} (at_ : r.phase = p) (running : p ≠ .ended) :
    r.isEnded = false := by
  unfold isEnded
  split
  · next hp => exact absurd (at_.symm.trans hp) running
  · rfl

variable {p q : Phase α}

/-- The recorder turns to something else. -/
theorem Lossless.turn (h : Lossless es r) (at_ : r.phase = p) {k : Intake α}
    (left : q.left ++ k.buffer.events.toList = p.left ++ r.intake.buffer.events.toList)
    (rest : q.rest = p.rest) (size : q.size? = p.size?)
    (tally : counts k.tally = counts r.intake.tally)
    (closed : q.isLast = true → k.buffer.closed = true)
    (empty : q.isEmptied = true → k.buffer.events = #[])
    (fits : q.Fits r.held) (running : p ≠ .ended) :
    Lossless es { r with intake := k, phase := q } := by
  obtain ⟨done, hand?, hl⟩ := h.ledger
  have houtcome := h.orderly.outcome
  subst at_
  rw [isEnded_eq_false rfl running] at houtcome
  refine ⟨⟨h.orderly.faultless, closed, empty, fun _ _ _ _ => fits.room, fits.written, ?_⟩, done,
    hand?, hl.same rfl left ?_ size tally⟩
  · rw [isEnded_eq_false rfl fits.running]; exact houtcome
  · show _ ++ _ ++ q.rest = _
    rw [rest]

/-- The output takes more of what is there. -/
theorem Lossless.pour (h : Lossless es r) (at_ : r.phase = p) {output : Channel}
    {held : WriteBuffer} (same : r' = { r with output, held, phase := q })
    (bytes : output.accepted ++ held.held ++ q.rest = r.output.accepted ++ r.held.held ++ p.rest)
    (faultless : output.plan.Faultless) (outcome : output.outcome = r.output.outcome)
    (left : q.left = p.left) (size : q.size? = p.size?)
    (last : q.isLast = p.isLast) (emptied : q.isEmptied = p.isEmptied)
    (fits : q.Fits held) (running : p ≠ .ended) : Lossless es r' := by
  obtain ⟨done, hand?, hl⟩ := h.ledger
  have houtcome := h.orderly.outcome
  subst at_ same
  rw [isEnded_eq_false rfl running] at houtcome
  refine ⟨⟨faultless, ?_, ?_, fun _ _ _ _ => fits.room, fits.written, ?_⟩, done, hand?,
    hl.same rfl ?_ bytes size rfl⟩
  · exact fun hq => h.orderly.closed (last.symm.trans hq)
  · exact fun hq => h.orderly.empty (emptied.symm.trans hq)
  · rw [isEnded_eq_false rfl fits.running]; exact outcome.trans houtcome
  · show q.left ++ _ = _
    rw [left]

/-- The record in hand is written, or held. -/
theorem Lossless.recorded (h : Lossless es r) {size : Nat} {rest : Bytes} {left : List α}
    {last : Bool} (at_ : r.phase = .writing size rest left last) {held : WriteBuffer}
    (bytes : held.held = r.held.held ++ rest) :
    Lossless es ({ r with held }.recorded size left last) := by
  have ho := h.orderly
  obtain ⟨done, hand?, hl⟩ := h.ledger
  have hclosed := ho.closed
  have hempty := ho.empty
  have houtcome := ho.outcome
  rw [at_] at hclosed hempty
  rw [isEnded_eq_false at_ nofun] at houtcome
  refine ⟨⟨ho.faultless, hclosed, hempty, nofun, fun hp => hp.elim nofun nofun, houtcome⟩, _, none,
    hl.record size (by rw [at_]; rfl) rfl (by rw [at_]; rfl) rfl ?_ rfl rfl rfl⟩
  show r.output.accepted ++ held.held = _
  rw [bytes, at_, List.append_assoc]
  rfl

/-- The next event is encoded. -/
theorem Lossless.encode (h : Lossless es r) {e : α} {left : List α} {last : Bool}
    (at_ : r.phase = .encoding (e :: left) last) (fine : (r.encoder e).failure? = none) :
    Lossless es { r with
      encoded := (r.encoder e).appended
      phase := .writing (r.encoder e).appended.length (r.encoder e).appended left last } := by
  have ho := h.orderly
  obtain ⟨done, hl⟩ := h.idle (by rw [at_]; rfl)
  have hclosed := ho.closed
  have hempty := ho.empty
  have houtcome := ho.outcome
  have hsplit := hl.split
  have hbytes := hl.bytes
  rw [at_] at hclosed hempty hsplit hbytes
  rw [isEnded_eq_false at_ nofun] at houtcome
  refine ⟨⟨ho.faultless, hclosed, hempty, nofun, fun hp => hp.elim nofun nofun, houtcome⟩, done,
    some e, ?_, ?_, rfl, ?_, hl.counts⟩
  · rw [hsplit]
    simp [Phase.left]
  · rw [Option.toList_some, records_concat, record_of_fine fine]
    rw [Option.toList_none, List.append_nil] at hbytes
    rw [← hbytes]
    simp [Phase.rest]
  · rintro _ ⟨⟩
    exact fine

/-- The next event cannot be encoded. -/
theorem Lossless.encodeFails (h : Lossless es r) {e : α} {left : List α} {last : Bool}
    {f : EncodeFailure} (at_ : r.phase = .encoding (e :: left) last)
    (failure : (r.encoder e).failure? = some f) :
    Lossless es
      (({ r with encoded := (r.encoder e).appended }.encodeFailed f).proceed left last) := by
  have ho := h.orderly
  obtain ⟨done, hl⟩ := h.idle (by rw [at_]; rfl)
  have hclosed := ho.closed
  have hempty := ho.empty
  have houtcome := ho.outcome
  have hsplit := hl.split
  have hbytes := hl.bytes
  have hbuffer : ({ r with encoded := (r.encoder e).appended }.encodeFailed f).intake.buffer =
      r.intake.buffer := Intake.buffer_logAll _ _
  have htally : ({ r with encoded := (r.encoder e).appended }.encodeFailed f).intake.tally =
      r.intake.tally.encodeError := Intake.tally_logAll _ _
  rw [at_] at hclosed hempty hsplit hbytes
  rw [isEnded_eq_false at_ nofun] at houtcome
  refine ⟨⟨ho.faultless, ?_, ?_, nofun, fun hp => hp.elim nofun nofun, houtcome⟩, done ++ [e], none,
    ?_, ?_, rfl, nofun, ?_⟩
  · rw [proceed, hbuffer]; exact hclosed
  · rw [proceed, hbuffer]; exact hempty
  · rw [proceed, hbuffer, hsplit]
    simp [Phase.left]
  · rw [Option.toList_none, List.append_nil, records_concat]
    rw [Option.toList_none, List.append_nil] at hbytes
    show _ = records r.encoder done ++ record r.encoder e
    rw [record_of_failure failure, List.append_nil, ← hbytes]
    rfl
  · rw [proceed, htally]
    exact countsOf_encodeError hl.counts failure

/-- **No step loses anything.** -/
theorem Lossless.work (h : Lossless es r) (w : Work r r') : Lossless es r' := by
  have ho := h.orderly
  have hclosed := ho.closed
  have hempty := ho.empty
  cases w with
  -- the events that are queued and those that were taken are the same as before, in order
  | start at_ => exact h.turn at_ rfl rfl rfl rfl nofun nofun trivial nofun
  | wake at_ wait =>
    exact h.turn at_ (by rw [Intake.events_wait]; rfl) rfl rfl rfl nofun nofun trivial nofun
  | close at_ wait =>
    refine h.turn at_ (by rw [Intake.events_wait]; rfl) rfl rfl rfl ?_ nofun trivial nofun
    intro _
    rw [Intake.closed_wait]
    exact Intake.closed_of_wait wait
  | @takeNothing last at_ events =>
    rw [at_] at hclosed
    cases last with
    | true =>
      exact h.turn at_ (by rw [Intake.events_swap, events]; rfl) rfl rfl rfl hclosed
        (fun _ => Intake.events_swap _ _) trivial nofun
    | false =>
      exact h.turn at_ (by rw [Intake.events_swap, events]; rfl) rfl rfl rfl nofun nofun trivial
        nofun
  | @take last at_ events =>
    rw [at_] at hclosed
    refine h.turn at_ ?_ rfl rfl rfl hclosed (fun _ => Intake.events_swap _ _) trivial nofun
    rw [Intake.events_swap]
    exact List.append_nil _
  | @encoded last at_ =>
    rw [at_] at hclosed hempty
    exact h.turn at_ rfl rfl rfl rfl hclosed hempty trivial nofun
  -- an event has its turn: its record is held or written, or there is none
  | encode at_ fine => exact h.encode at_ fine
  | encodeFails at_ failure => exact h.encodeFails at_ failure
  | written at_ ready => exact h.recorded at_ (List.append_nil _).symm
  | wait at_ ready some_ way =>
    rw [at_] at hclosed hempty
    exact h.turn at_ rfl rfl rfl rfl hclosed hempty (held_of_waits way) nofun
  | hold at_ ready some_ way => exact h.recorded at_ rfl
  | @throughWaits size rest left last output at_ ready some_ way write =>
    obtain ⟨haccepted, -, houtcome⟩ := r.output.write_spec r.clock rest
    have hfaultless := (Channel.write_faultless ho.faultless r.clock rest).1
    rw [write] at haccepted houtcome hfaultless
    refine h.pour at_ (by rw [← at_]) ?_ hfaultless houtcome rfl rfl rfl rfl trivial nofun
    rw [show output.accepted = r.output.accepted from haccepted.trans (List.append_nil _)]
  | @throughFails size rest left last output result f at_ ready some_ way write failure =>
    obtain ⟨-, hresult⟩ := Channel.write_faultless ho.faultless r.clock rest
    rw [write] at hresult
    rcases hresult with rfl | ⟨n, rfl, hn⟩
    · rcases failure with failure | ⟨failure, -⟩ <;> cases failure
    · rcases failure with failure | ⟨failure, -⟩
      · cases failure
      · cases failure
        exact absurd rfl (hn some_)
  | @throughPart size n rest left last output at_ ready some_ way write took =>
    obtain ⟨haccepted, -, houtcome⟩ := r.output.write_spec r.clock rest
    have hfaultless := (Channel.write_faultless ho.faultless r.clock rest).1
    rw [write] at haccepted houtcome hfaultless
    have haccepted : output.accepted = r.output.accepted ++ rest.take n := haccepted
    refine h.pour at_ rfl ?_ hfaultless houtcome rfl rfl rfl rfl trivial nofun
    rw [haccepted, held_of_through way, List.append_nil, List.append_nil, List.append_assoc]
    exact congrArg _ (List.take_append_drop n rest)
  | @roomWaits size rest left last r' result at_ ready out more =>
    have hheld := ho.room _ _ _ _ at_
    have hfaultless := (ho.writeOut hheld out).1
    obtain ⟨output, held, rfl, hbytes, houtcome, hsame, hall⟩ := writeOut_spec out
    refine h.pour at_ (by rw [← at_]) (by rw [hbytes]) hfaultless houtcome rfl rfl rfl rfl ?_ nofun
    rcases more with rfl | rfl
    · rw [hsame rfl]; exact hheld
    · exact fun hnil => absurd (hall false rfl) (by rw [WriteBuffer.isEmpty, hnil]; nofun)
  | @roomMade size rest left last r' at_ ready out =>
    have hfaultless := (ho.writeOut (ho.room _ _ _ _ at_) out).1
    obtain ⟨output, held, rfl, hbytes, houtcome, -, -⟩ := writeOut_spec out
    exact h.pour at_ rfl (by rw [hbytes]; rfl) hfaultless houtcome rfl rfl rfl rfl trivial nofun
  | roomFails at_ ready out =>
    exact absurd rfl ((ho.writeOut (ho.room _ _ _ _ at_) out).2 _)
  | @flushed last at_ ready none_held =>
    rw [at_] at hclosed hempty
    exact h.turn at_ rfl rfl rfl rfl hclosed hempty trivial nofun
  -- the output does not fail: what is held goes out, and only the output may wait
  | flushPart at_ ready some_held out fine | finishPart at_ ready some_held out fine =>
    have hfaultless := (ho.writeOut some_held out).1
    obtain ⟨output, held, rfl, hbytes, houtcome, -, -⟩ := writeOut_spec out
    exact h.pour at_ (by rw [← at_]) (by rw [hbytes]) hfaultless houtcome rfl rfl rfl rfl trivial
      nofun
  | flushFails at_ ready some_held out | finishFails at_ ready some_held out =>
    exact absurd rfl ((ho.writeOut some_held out).2 _)
  | @outputFlushed last output at_ ready flush =>
    obtain ⟨haccepted, houtcome⟩ := r.output.flush_spec
    have hfaultless := (Channel.flush_faultless ho.faultless).1
    rw [flush] at haccepted houtcome hfaultless
    have hpoured : Lossless es { r with output } :=
      h.pour at_ (by rw [← at_]) (by rw [haccepted]) hfaultless houtcome rfl rfl rfl rfl trivial nofun
    rw [at_] at hclosed hempty
    cases last with
    | true => exact hpoured.turn at_ rfl rfl rfl rfl hclosed hempty trivial nofun
    | false => exact hpoured.turn at_ rfl rfl rfl rfl nofun nofun trivial nofun
  | outputFlushFails at_ ready flush =>
    have hresult := (Channel.flush_faultless ho.faultless).2
    rw [flush] at hresult
    cases hresult
  | finished at_ ready none_held =>
    rw [at_] at hclosed hempty
    exact h.turn at_ rfl rfl rfl rfl hclosed hempty none_held nofun
  -- nothing is held when the output is closed
  | @closeWaits output at_ ready close =>
    obtain ⟨haccepted, houtcome⟩ := r.output.close_spec r.clock
    have hfaultless := (Channel.close_faultless ho.faultless r.clock).1
    rw [close] at haccepted houtcome hfaultless
    exact h.pour at_ (by rw [← at_]) (by rw [haccepted]) hfaultless houtcome rfl rfl rfl rfl
      (ho.written (.inl at_)) nofun
  | @closed output at_ ready close =>
    obtain ⟨haccepted, houtcome⟩ := r.output.close_spec r.clock
    have hfaultless := (Channel.close_faultless ho.faultless r.clock).1
    rw [close] at haccepted houtcome hfaultless
    obtain ⟨done, hl⟩ := h.idle (by rw [at_]; rfl)
    have hwritten := ho.written (.inl at_)
    rw [at_] at hclosed hempty
    refine ⟨⟨hfaultless, hclosed, hempty, nofun, fun _ => hwritten, houtcome⟩, done, none,
      hl.same rfl ?_ ?_ ?_ rfl⟩
    · rw [at_]; rfl
    · rw [at_]
      show output.accepted ++ _ ++ _ = _
      rw [haccepted]
      rfl
    · rw [at_]; rfl
  | closeFails at_ ready close =>
    rcases (Channel.close_faultless ho.faultless r.clock).2 with hresult | hresult
    · rw [close] at hresult; cases hresult
    · rw [close] at hresult; cases hresult

/-! ## Runs -/

/-- A call that accepts nothing. -/
theorem Lossless.call (h : Lossless es r) {k : Intake α}
    (events : k.buffer.events = r.intake.buffer.events)
    (closed : r.intake.buffer.closed = true → k.buffer.closed = true)
    (tally : counts k.tally = counts r.intake.tally) : Lossless es { r with intake := k } := by
  have ho := h.orderly
  obtain ⟨done, hand?, hl⟩ := h.ledger
  refine ⟨⟨ho.faultless, fun hp => closed (ho.closed hp), ?_, ho.room, ho.written, ho.outcome⟩, done,
    hand?, hl.same rfl ?_ rfl rfl tally⟩
  · rw [events]; exact ho.empty
  · rw [events]

theorem Lossless.step (h : Lossless es r) (st : Step r new r') : Lossless (es ++ new) r' := by
  cases st with
  | accept e open_ =>
    have ho := h.orderly
    have hlast : r.phase.isLast = false := by
      cases hp : r.phase.isLast with
      | true => rw [ho.closed hp] at open_; cases open_
      | false => rfl
    obtain ⟨done, hand?, hl⟩ := h.ledger
    rw [trace_eq, Intake.trace_of_open open_]
    refine ⟨⟨ho.faultless, ?_, ?_, ho.room, ho.written, ho.outcome⟩, done, hand?, ?_, hl.bytes,
      hl.size, hl.fine, hl.counts⟩
    · intro hp; rw [hlast] at hp; cases hp
    · intro hp; rw [Phase.isLast_of_isEmptied hp] at hlast; cases hlast
    · rw [Array.toList_push, hl.split]
      simp only [List.append_assoc]
  | refuse e closed =>
    rw [List.append_nil, trace_eq, Intake.trace_of_closed closed]
    exact h.call rfl id rfl
  | close =>
    rw [List.append_nil]
    exact h.call (Intake.events_close _) (fun _ => Intake.closed_close _)
      (by rw [Intake.tally_close])
  | abandon => rw [List.append_nil]; exact h.call rfl (fun _ => rfl) rfl
  | advance =>
    have ho := h.orderly
    obtain ⟨done, hand?, hl⟩ := h.ledger
    rw [List.append_nil]
    exact ⟨⟨ho.faultless, ho.closed, ho.empty, ho.room, ho.written, ho.outcome⟩, done, hand?,
      hl.same rfl rfl rfl rfl rfl⟩
  | work w => rw [List.append_nil]; exact h.work w

/-- Several trace calls in turn. -/
theorem Lossless.traceAll (h : Lossless es r) (open_ : r.intake.buffer.closed = false) (xs : List α) :
    Lossless (es ++ xs) (xs.foldl trace r) ∧ (xs.foldl trace r).intake.buffer.closed = false ∧
      (xs.foldl trace r).encoder = r.encoder := by
  induction xs generalizing es r with
  | nil => rw [List.append_nil]; exact ⟨h, open_, rfl⟩
  | cons x xs ih =>
    have hclosed : (r.trace x).intake.buffer.closed = false := by
      rw [trace_eq, Intake.trace_of_open open_]; exact open_
    rw [List.append_cons]
    exact ih (h.step (.accept x open_)) hclosed

theorem Fresh.lossless {encoder : Encoder α} {plan : ChannelPlan} (h : r.Fresh encoder plan)
    (faultless : plan.Faultless) : Lossless [] r := by
  refine ⟨⟨?_, ?_, ?_, ?_, ?_, ?_⟩, [], none, ?_, ?_, ?_, nofun, ?_⟩
  · rw [h.output]; exact faultless
  · rw [h.phase]; nofun
  · rw [h.phase]; nofun
  · rw [h.phase]; nofun
  · intro _; rw [h.held]; rfl
  · rw [h.output, isEnded_eq_false h.phase nofun]; rfl
  · rw [h.phase, h.buffer]; rfl
  · rw [h.output, h.held, h.phase]; rfl
  · rw [h.phase]; rfl
  · rw [h.tally]; rfl

theorem Run.lossless {r₀ : Recorder α} {ms : List (Move α)} (run : Run r₀ ms es r)
    (start : Lossless [] r₀) : Lossless es r := run.induct start Lossless.step

/-- **Once it has ended a recorder has written every event that it accepted**, in order and once each,
and counted it; the output is closed. -/
theorem Lossless.written (h : Lossless es r) (ended : r.phase = .ended) :
    r.output.accepted = records r.encoder es ∧ counts r.intake.tally = countsOf r.encoder es ∧
      r.output.outcome = .closed := by
  have ho := h.orderly
  obtain ⟨done, hl⟩ := h.idle (by rw [ended]; rfl)
  have hempty := ho.empty (by rw [ended]; rfl)
  have hheld := ho.written (.inr ended)
  have hdone : es = done := by
    rw [hl.split, ended, hempty]
    simp [Phase.left]
  have hbytes := hl.bytes
  rw [ended, hheld] at hbytes
  refine ⟨?_, ?_, ?_⟩
  · rw [hdone]
    simpa [Phase.rest] using hbytes
  · rw [hdone]; exact hl.counts
  · rw [ho.outcome, isEnded, ended]; rfl

end TraceRelay.Recorder
