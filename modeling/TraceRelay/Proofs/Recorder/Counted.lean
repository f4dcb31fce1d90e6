import TraceRelay.Proofs.Recorder.Accounting

/-!
# The events counted as written

An event is counted as written when its record is held in front of the output, or has gone to it. The
output may have failed before, and may fail after.

1. `counted`: of some events and their fates, those counted. `Run.bytesWritten`: the bytes counted are
   those of their records.
2. `givenWhole_of_short`: a short record is given to the output whole, or not at all.
3. `keeps_counted`: while all records are short, what the output has accepted and what is held are the
   records of the events counted.
-/

namespace TraceRelay.Recorder

variable {α : Type} {r₀ r r' : Recorder α} {ms : List (Move α)} {es done more : List α}
  {hand? : Option α} {part : Bytes} {e : α} {f : Fate} {fs : List Fate} {encoder : Encoder α}
  {plan : ChannelPlan}

/-! ## The events counted -/

/-- Of some events with their fates, those that were recorded. -/
def recordedOf (ds : List (α × Fate)) : List α := (ds.filter fun d => d.2 = .recorded).map Prod.fst

def counted (es : List α) (fs : List Fate) : List α := recordedOf (es.zip fs)

theorem recordedOf_append (ds ds' : List (α × Fate)) :
    recordedOf (ds ++ ds') = recordedOf ds ++ recordedOf ds' := by
  rw [recordedOf, List.filter_append, List.map_append]
  rfl

theorem recordedOf_of_other (other : f ≠ .recorded) (e : α) : recordedOf [(e, f)] = [] := by
  simp [recordedOf, other]

/-- Events that have not had their turn have no fate. -/
theorem zip_done (length : fs.length = done.length) (more : List α) :
    (done ++ more).zip fs = done.zip fs := by
  have hzip : (done ++ more).zip (fs ++ []) = done.zip fs ++ more.zip [] :=
    List.zip_append length.symm
  rwa [List.append_nil, List.zip_nil_right, List.append_nil] at hzip

theorem zip_turn (length : fs.length = done.length) (e : α) (more : List α) (f : Fate) :
    (done ++ e :: more).zip (fs ++ [f]) = done.zip fs ++ [(e, f)] := by
  rw [List.zip_append length.symm, List.zip_cons_cons, List.zip_nil_right]

theorem counted_sublist (es : List α) (fs : List Fate) : (counted es fs).Sublist es := by
  induction es generalizing fs with
  | nil => exact List.nil_sublist _
  | cons e es ih =>
    cases fs with
    | nil => exact List.nil_sublist _
    | cons f fs =>
      rw [counted, List.zip_cons_cons, ← List.singleton_append, recordedOf_append]
      by_cases hrecorded : f = .recorded
      · subst hrecorded
        exact (ih fs).cons_cons e
      · rw [recordedOf_of_other hrecorded]
        exact (ih fs).cons e

theorem length_counted (enough : fs.length ≤ es.length) :
    (counted es fs).length = fs.count .recorded := by
  rw [counted, recordedOf, List.length_map, ← List.countP_eq_length_filter, List.count]
  conv_rhs => rw [← List.map_snd_zip enough, List.countP_map]
  rfl

/-! ## The bytes counted -/

theorem bytesWritten_settles (size : Nat) (fs : List Fate) (t : Tally) :
    (fs.foldl (settle size) t).bytesWritten =
      t.bytesWritten + .ofNat (fs.count .recorded * size) := by
  induction fs generalizing t with
  | nil => rw [List.count_nil, Nat.zero_mul]; exact (UInt64.add_zero _).symm
  | cons f fs ih =>
    rw [List.foldl_cons, ih, List.count_cons, Nat.add_mul, UInt64.ofNat_add, UInt64.add_comm (.ofNat _),
      ← UInt64.add_assoc]
    cases f with
    | recorded => simp [settle, Tally.written]
    | unencodable | failed => simp [settle, Tally.encodeError, Tally.writeError]

theorem bytesWritten_slips (ls : List Lapse) (t : Tally) :
    (ls.foldl (fun t _ => t.writeError) t).bytesWritten = t.bytesWritten := by
  induction ls generalizing t with
  | nil => rfl
  | cons l ls ih => exact ih _

/-- What a step makes of the event whose turn it is. -/
theorem settles_cases (r : Recorder α) :
    r.settles = [] ∨
    (r.settles = [.unencodable] ∧ ∃ e left last, r.phase = .encoding (e :: left) last) ∨
    (∃ size, r.phase.size? = some size ∧ r.settles = [.recorded]) ∨
    ∃ size, r.phase.size? = some size ∧ r.settles = [.failed (size - r.phase.rest.length)] ∧
      ((∃ rest left last, r.phase = .makingRoom size rest left last) ∨
        r.held.way r.phase.rest = .through) := by
  cases hp : r.phase with
  | encoding left last =>
    cases left with
    | nil => left; rw [settles, hp]
    | cons e left =>
      rw [settles, hp]
      by_cases hfails : (r.encoder e).failure?.isSome = true
      · exact .inr (.inl ⟨if_pos hfails, e, left, last, rfl⟩)
      · exact .inl (if_neg hfails)
  | writing size rest left last =>
    rw [settles, hp]
    dsimp only
    split
    · exact .inr (.inr (.inl ⟨size, rfl, rfl⟩))
    · split
      · exact .inl rfl
      · exact .inr (.inr (.inl ⟨size, rfl, rfl⟩))
      · next hway =>
        split
        · exact .inr (.inr (.inr ⟨size, rfl, rfl, .inr hway⟩))
        · exact .inr (.inr (.inr ⟨size, rfl, rfl, .inr hway⟩))
        · exact .inl rfl
  | makingRoom size rest left last =>
    rw [settles, hp]
    dsimp only
    split
    · exact .inr (.inr (.inr ⟨size, rfl, rfl, .inl ⟨rest, left, last, rfl⟩⟩))
    · exact .inl rfl
  | starting | waiting | collecting | flushing | flushingOutput | finishing | closingOutput | ended =>
    left
    rw [settles, hp]

/-- The event whose turn a step brings to an end is the next of those accepted. If it is recorded, its
record was in hand, and if its record is torn, nothing was held. -/
theorem Book.turn (h : Book done hand? part es fs r) :
    r.settles = [] ∨ ∃ e more f, r.settles = [f] ∧ es = done ++ e :: more ∧
      (f = .recorded → hand? = some e) ∧ ∀ n, f = .failed (n + 1) → r.held.held = [] := by
  have hsplit := h.split
  rw [List.append_assoc] at hsplit
  rcases settles_cases r with hnone | ⟨hone, e, left, last, hp⟩ | ⟨size, hsize, hone⟩ |
    ⟨size, hsize, hone, hway⟩
  · exact .inl hnone
  · obtain ⟨rfl, -⟩ := h.idle_of_size (by rw [hp]; rfl)
    rw [hp] at hsplit
    exact .inr ⟨e, _, _, hone, hsplit, nofun, nofun⟩
  · obtain ⟨e, rfl, -⟩ := h.in_hand hsize rfl
    exact .inr ⟨e, _, _, hone, hsplit, fun _ => rfl, nofun⟩
  · obtain ⟨e, rfl, -, -, hpart⟩ := h.in_hand hsize rfl
    refine .inr ⟨e, _, _, hone, hsplit, nofun, fun n htorn => ?_⟩
    rcases hway with ⟨rest, left, last, hp⟩ | hthrough
    · rw [h.room _ _ _ _ hp] at hpart
      rw [Fate.failed.injEq, ← hpart] at htorn
      cases htorn
    · exact held_of_through hthrough

/-- The records of the events counted, after a step. -/
theorem Book.length_counted (h : Book done hand? part es fs r) :
    (records r.encoder (counted es (fs ++ r.settles))).length =
      (records r.encoder (counted es fs)).length +
        r.settles.count .recorded * r.phase.size?.getD 0 := by
  rcases h.turn with hnone | ⟨e, more, f, hone, rfl, hhand, -⟩
  · rw [hnone, List.append_nil, List.count_nil, Nat.zero_mul]; rfl
  · rw [hone, counted, zip_turn h.length, recordedOf_append, counted, zip_done h.length]
    by_cases hrecorded : f = .recorded
    · subst hrecorded
      cases hhand rfl
      have hsize : r.phase.size? = some (r.encoder e).appended.length := h.size
      rw [show recordedOf [(e, Fate.recorded)] = [e] from rfl, records_concat,
        record_of_fine (h.whole e rfl).1, List.length_append, hsize, List.count_singleton_self,
        Nat.one_mul, Option.getD_some]
    · rw [recordedOf_of_other hrecorded, List.append_nil, List.count_singleton]
      simp [hrecorded]

theorem Book.bytesWritten (h : Book done hand? part es fs r) (w : Work r r')
    (before : r.intake.tally.bytesWritten = .ofNat (records r.encoder (counted es fs)).length) :
    r'.intake.tally.bytesWritten =
      .ofNat (records r'.encoder (counted es (fs ++ r.settles))).length := by
  rw [w.same.1, w.tally, reckoned, bytesWritten_slips, bytesWritten_settles, before, h.length_counted,
    UInt64.ofNat_add]

theorem Book.zip_eq (h : Book done hand? part es fs r) : es.zip fs = done.zip fs := by
  rw [h.split, List.append_assoc, zip_done h.length]

/-- Events that come later change nothing for those that have had their turn. -/
theorem Book.zip_append (h : Book done hand? part es fs r) (new : List α) :
    (es ++ new).zip fs = es.zip fs := by
  rw [h.zip_eq, h.split, List.append_assoc, List.append_assoc, zip_done h.length]

/-- The events that have had their turn are among those accepted. -/
theorem Book.length_le (h : Book done hand? part es fs r) : fs.length ≤ es.length := by
  rw [h.length, h.split, List.append_assoc, List.length_append]
  exact Nat.le_add_right _ _

/-- **The bytes counted are those of the records of the events counted**, at every moment of every run. -/
theorem Run.bytesWritten (run : Run r₀ ms es r) (fresh : r₀.Fresh encoder plan) :
    r.intake.tally.bytesWritten = .ofNat (records r.encoder (counted es (fates r₀ ms))).length := by
  induction run with
  | start => rw [fresh.tally]; rfl
  | @move ms es r r' m run h ih =>
    obtain ⟨done, hand?, part, hbook⟩ := run.booked fresh.booked
    rw [fates_concat run]
    rcases own_or_call h with ⟨rfl, w⟩ | ⟨call, same⟩
    · rw [show r.accepts .work = [] from rfl, List.append_nil]
      exact hbook.bytesWritten w ih
    · have hbytes : r'.intake.tally.bytesWritten = r.intake.tally.bytesWritten := by
        have hcounts := same.counts
        simp only [Recorder.counts, List.cons.injEq, and_true] at hcounts
        exact hcounts.2.1
      rw [hbytes, ih, same.encoder, fate_of_call call, List.append_nil, counted, counted,
        hbook.zip_append]

theorem Run.eventsWritten (run : Run r₀ ms es r) (fresh : r₀.Fresh encoder plan) :
    r.intake.tally.eventsWritten = .ofNat (counted es (fates r₀ ms)).length := by
  obtain ⟨done, hand?, part, hbook⟩ := run.booked fresh.booked
  have houtcomes := run.outcomes fresh
  simp only [Recorder.outcomes, outcomesOf, List.cons.injEq, and_true] at houtcomes
  rw [length_counted hbook.length_le]
  exact houtcomes.1

/-! ## Short records -/

/-- The output is given all of a record if it is counted, and else nothing. -/
def GivenWhole (encoder : Encoder α) (d : α × Fate) : Prop :=
  share encoder d.1 d.2 = if d.2 = .recorded then record encoder d.1 else []

theorem givenWhole_of_short (fits : f.Fits encoder e)
    (short : (record encoder e).length < WriteBuffer.capacity) : GivenWhole encoder (e, f) := by
  cases f with
  | recorded => exact (record_of_fine fits).symm
  | unencodable => rfl
  | failed taken =>
    obtain ⟨hfine, hzero | hlong⟩ := fits
    · rw [hzero]; rfl
    · rw [record_of_fine hfine] at short
      omega

theorem flatMap_share {ds : List (α × Fate)} (whole : ∀ d ∈ ds, GivenWhole encoder d) :
    (ds.flatMap fun d => share encoder d.1 d.2) = records encoder (recordedOf ds) := by
  induction ds with
  | nil => rfl
  | cons d ds ih =>
    have hshare : share encoder d.1 d.2 = _ := whole d (List.mem_cons_self ..)
    have hrest := ih fun d hd => whole d (List.mem_cons_of_mem _ hd)
    rw [List.flatMap_cons, hrest, hshare, ← List.singleton_append, recordedOf_append]
    by_cases hrecorded : d.2 = .recorded
    · simp [hrecorded, records, recordedOf]
    · simp [hrecorded, recordedOf]

/-! ## What is kept of them -/

/-- What a recorder counts of events whose records are short, and what there is of them. -/
structure Exact (encoder : Encoder α) (es : List α) (fs : List Fate) (ls : List Lapse)
    (r : Recorder α) : Prop where
  /-- No byte of an event that is not counted is among them, and none of one that is counted is
  missing. -/
  bytes : r.output.accepted ++ r.held.held = records encoder (counted es fs)
  eventsWritten : r.intake.tally.eventsWritten = .ofNat (counted es fs).length
  bytesWritten : r.intake.tally.bytesWritten = .ofNat (r.output.accepted ++ r.held.held).length
  /-- The other events that have had their turn are charged with what failed of them. -/
  encodeErrors : r.intake.tally.encodeErrors = .ofNat (fs.count .unencodable)
  writeErrors : r.intake.tally.writeErrors = .ofNat (failures fs + ls.length)
  turns : fs.length ≤ es.length
  fits : ∀ d ∈ es.zip fs, d.2.Fits encoder d.1

theorem Run.exact (run : Run r₀ ms es r) (fresh : r₀.Fresh encoder plan)
    (short : ∀ e ∈ es, (record encoder e).length < WriteBuffer.capacity)
    (between : r.phase.size? = none) : Exact encoder es (fates r₀ ms) (lapses r₀ ms) r := by
  obtain ⟨done, hand?, part, hbook⟩ := run.booked fresh.booked
  have hencoder : r.encoder = encoder := run.encoder.trans fresh.encoder
  obtain ⟨rfl, rfl⟩ := hbook.idle_of_size between
  have hfits : ∀ d ∈ es.zip (fates r₀ ms), d.2.Fits encoder d.1 := by
    rw [hbook.zip_eq, ← hencoder]
    exact hbook.fits
  have hwhole : ∀ d ∈ es.zip (fates r₀ ms), GivenWhole encoder d := fun d hd =>
    givenWhole_of_short (hfits d hd) (short d.1 (List.of_mem_zip hd).1)
  have hbytes := hbook.bytes
  rw [List.append_nil, hencoder, shares, ← hbook.zip_eq, flatMap_share hwhole] at hbytes
  have houtcomes := run.outcomes fresh
  simp only [Recorder.outcomes, outcomesOf, List.cons.injEq, and_true] at houtcomes
  obtain ⟨-, hencode, hwrite⟩ := houtcomes
  refine ⟨hbytes, run.eventsWritten fresh, ?_, hencode, hwrite, hbook.length_le, hfits⟩
  rw [hbytes, run.bytesWritten fresh, hencoder]
  rfl

/-- **A failure costs the events that it is charged to, and no other.** While all records are shorter
than the room in front of the output, whatever the output does, between any two records that are written
what it has accepted and what is held in front of it are the records of the events counted as written.
If it is closed in the end, it has accepted just these, and every other event is charged with a failure
of its own. -/
theorem keeps_counted (fresh : r₀.Fresh encoder plan) (run : Run r₀ ms es r)
    (short : ∀ e ∈ es, (record encoder e).length < WriteBuffer.capacity) :
    (r.phase.size? = none → Exact encoder es (fates r₀ ms) (lapses r₀ ms) r) ∧
    (r.output.outcome = .closed →
      r.output.accepted = records encoder (counted es (fates r₀ ms)) ∧
      (fates r₀ ms).length = es.length ∧
      es.length - (counted es (fates r₀ ms)).length =
        (fates r₀ ms).count .unencodable + failures (fates r₀ ms)) := by
  refine ⟨run.exact fresh short, fun closed => ?_⟩
  have hshut := run.shut fresh
  have hended := hshut.ended closed
  have hbytes := (run.exact fresh short (by rw [hended]; rfl)).bytes
  rw [hshut.closed closed, List.append_nil] at hbytes
  have hturns := ((run.booked fresh.booked).ended (run.sealed fresh.sealed) hended).1
  refine ⟨hbytes, hturns, ?_⟩
  have hfates := length_fates (fates r₀ ms)
  rw [length_counted hturns.le]
  omega

/-- An output that takes a byte and fails, takes two and fails again, and then takes everything. -/
def recovering : ChannelPlan :=
  { writes := ⟨[.upTo 1, .fails .writeZero, .upTo 2, .fails .writeZero], .takes⟩ }

/-- An event whose record fits into the room, but not twice. -/
def middling (b : UInt8) : Bytes := List.replicate 4096 b

/-- The second record is to make the first leave the room when the output fails for the first time. At
the flush it fails for the second time. -/
def recoveringRounds : List (Move Bytes) :=
  List.flatten [[.trace (middling 1), .trace (middling 2), .trace [3]], List.replicate 14 .work,
    [.trace [4], .close], List.replicate 12 .work]

/-- The first flush fails when the first record is out in part. What is left of it goes out before the
other records, and only the second event is not in the output. -/
theorem keeps_counted_recovering :
    ∃ es r, Run (.start "file" .rawDelimited recovering) recoveringRounds es r ∧
      es = [middling 1, middling 2, [3], [4]] ∧
      fates (.start "file" .rawDelimited recovering) recoveringRounds =
        [.recorded, .failed 0, .recorded, .recorded] ∧
      lapses (.start "file" .rawDelimited recovering) recoveringRounds = [.flush] ∧
      r.phase.size? = none ∧ r.output.outcome = .closed ∧
      Exact .rawDelimited es (fates (.start "file" .rawDelimited recovering) recoveringRounds)
        (lapses (.start "file" .rawDelimited recovering) recoveringRounds) r ∧
      r.output.accepted = records .rawDelimited [middling 1, [3], [4]] := by
  have hmoves : ((Recorder.start "file" .rawDelimited recovering).moves recoveringRounds).map
      (fun (_, r) => (r.phase.size?, r.output.outcome)) = some (none, .closed) := by
    decide +kernel
  rw [Option.map_eq_some_iff] at hmoves
  obtain ⟨⟨es, r⟩, hmoves, hstate⟩ := hmoves
  simp only [Prod.mk.injEq] at hstate
  obtain ⟨hsize, houtcome⟩ := hstate
  have hrun : Run (.start "file" .rawDelimited recovering) recoveringRounds es r :=
    Run.start.moves hmoves
  have hes : es = [middling 1, middling 2, [3], [4]] := (hrun.accepted rfl).2
  have hfates : fates (.start "file" .rawDelimited recovering) recoveringRounds =
      [.recorded, .failed 0, .recorded, .recorded] := by decide +kernel
  have hshort : ∀ e ∈ es, (record .rawDelimited e).length < WriteBuffer.capacity := by
    rw [hes]
    decide +kernel
  obtain ⟨hexact, hclosed⟩ :=
    keeps_counted (fresh_start "file" .rawDelimited recovering) hrun hshort
  refine ⟨es, r, hrun, hes, hfates, by decide +kernel, hsize, houtcome, hexact hsize, ?_⟩
  rw [(hclosed houtcome).1, hes, hfates]
  rfl

end TraceRelay.Recorder
