import TraceRelay.Proofs.Recorder.Counted

/-!
# Events counted that are not in the output

An event is counted when its record is held, before the output has had a say in it. What the output
refuses in the end stays counted.

1. `Contains`: bytes in which whole records stand, in order.
2. `Recent`: what is held came after everything that was torn. `Run.recent`: so it is along every run.
3. `overcounts_held`: the events counted are those whose records the output has accepted whole and those
   of which a part is held. So `Honest` holds once the output is closed, and may fail where it was not.
-/

namespace TraceRelay.Recorder

variable {α : Type} {r₀ r r' : Recorder α} {ms : List (Move α)} {es es' done : List α}
  {hand? : Option α} {part held data data' : Bytes} {e : α} {f : Fate} {fs : List Fate}
  {ds : List (α × Fate)} {encoder : Encoder α} {plan : ChannelPlan}

/-! ## Whole records among other bytes -/

/-- The whole records of some events, in order, with anything between them. -/
inductive Contains (encoder : Encoder α) : List α → Bytes → Prop where
  | nil (gap : Bytes) : Contains encoder [] gap
  | cons (gap : Bytes) (e : α) {es : List α} {data : Bytes} (rest : Contains encoder es data) :
      Contains encoder (e :: es) (gap ++ record encoder e ++ data)

theorem Contains.behind (h : Contains encoder es data) (gap : Bytes) :
    Contains encoder es (gap ++ data) := by
  cases h with
  | nil => exact .nil _
  | cons front e rest =>
    rw [← List.append_assoc, ← List.append_assoc]
    exact .cons _ e rest

theorem Contains.append (h : Contains encoder es data) (h' : Contains encoder es' data') :
    Contains encoder (es ++ es') (data ++ data') := by
  induction h with
  | nil gap => exact h'.behind gap
  | cons gap e rest ih =>
    rw [List.append_assoc]
    exact .cons gap e ih

theorem contains_record (encoder : Encoder α) (e : α) : Contains encoder [e] (record encoder e) := by
  have hone : Contains encoder [e] ([] ++ record encoder e ++ []) := .cons [] e (.nil [])
  rwa [List.nil_append, List.append_nil] at hone

theorem contains_records (encoder : Encoder α) (es : List α) :
    Contains encoder es (records encoder es) := by
  induction es with
  | nil => exact .nil _
  | cons e es ih => exact (contains_record encoder e).append ih

theorem Contains.length_le (h : Contains encoder es data) :
    (records encoder es).length ≤ data.length := by
  induction h with
  | nil => exact Nat.zero_le _
  | cons gap e rest ih =>
    rw [records, List.flatMap_cons, List.length_append, List.length_append, List.length_append]
    change (records encoder _).length ≤ _ at ih
    rw [records] at ih
    omega

/-- What the output is given for some events contains the records of those counted. -/
theorem contains_shares (fits : ∀ d ∈ ds, d.2.Fits encoder d.1) :
    Contains encoder (recordedOf ds) (ds.flatMap fun d => share encoder d.1 d.2) := by
  induction ds with
  | nil => exact .nil _
  | cons d ds ih =>
    have hrest := ih fun d hd => fits d (List.mem_cons_of_mem _ hd)
    obtain ⟨e, f⟩ := d
    rw [List.flatMap_cons, ← List.singleton_append, recordedOf_append]
    by_cases hrecorded : f = .recorded
    · subst hrecorded
      have hfine : (encoder e).failure? = none := fits _ (List.mem_cons_self ..)
      have hone := contains_record encoder e
      rw [record_of_fine hfine] at hone
      exact hone.append hrest
    · rw [recordedOf_of_other hrecorded, List.nil_append]
      exact hrest.behind _

/-! ## What is held is recent -/

theorem held_of_writeOut {result : Option (Except Fault Bool)} (out : r.writeOut = (r', result)) :
    ∃ n, r'.held.held = r.held.held.drop n := by
  unfold writeOut at out
  split at out
  · cases out; exact ⟨0, rfl⟩
  · cases out; exact ⟨0, rfl⟩
  · cases out; exact ⟨0, rfl⟩
  · cases out; exact ⟨_, rfl⟩

/-- A step writes out some of what is held, or holds what is left of a record, and counts it. -/
theorem Work.holds (w : Work r r') :
    (∃ n, r'.held.held = r.held.held.drop n) ∨
    r.settles = [.recorded] ∧ r'.held.held = r.held.held ++ r.phase.rest ∧
      r'.held.held.length ≤ WriteBuffer.capacity := by
  cases w with
  | hold at_ ready some_ way =>
    refine .inr ⟨by rw [settles, at_]; simp [some_, way], by rw [at_]; rfl, ?_⟩
    exact WriteBuffer.length_hold way
  | roomWaits at_ ready out | roomMade at_ ready out | roomFails at_ ready out
  | flushPart at_ ready some_held out | flushFails at_ ready some_held out
  | finishPart at_ ready some_held out | finishFails at_ ready some_held out =>
    have hheld := held_of_writeOut out
    exact .inl hheld
  | _ => exact .inl ⟨0, rfl⟩

/-- What is held is no longer than what the output was given of events of which none was torn, after all
others. -/
def Recent (encoder : Encoder α) (ds : List (α × Fate)) (held : Bytes) : Prop :=
  ∃ before after, ds = before ++ after ∧ (∀ d ∈ after, GivenWhole encoder d) ∧
    held.length ≤ (after.flatMap fun d => share encoder d.1 d.2).length

theorem Recent.drop (h : Recent encoder ds held) (n : Nat) : Recent encoder ds (held.drop n) := by
  obtain ⟨before, after, hsplit, hwhole, hlength⟩ := h
  refine ⟨before, after, hsplit, hwhole, le_trans ?_ hlength⟩
  rw [List.length_drop]
  exact Nat.sub_le _ _

/-- One more event was given whole, or not at all. -/
theorem Recent.concat (h : Recent encoder ds held) (whole : GivenWhole encoder (e, f))
    (more : data.length ≤ held.length + (share encoder e f).length) :
    Recent encoder (ds ++ [(e, f)]) data := by
  obtain ⟨before, after, rfl, hwhole, hlength⟩ := h
  refine ⟨before, after ++ [(e, f)], List.append_assoc .., ?_, ?_⟩
  · intro d hd
    rcases List.mem_append.mp hd with hd | hd
    · exact hwhole d hd
    · rw [List.mem_singleton.mp hd]; exact whole
  · rw [List.flatMap_append, List.flatMap_singleton, List.length_append]
    exact le_trans more (Nat.add_le_add_right hlength _)

/-- Nothing is held. -/
theorem recent_nil (encoder : Encoder α) (ds : List (α × Fate)) : Recent encoder ds [] :=
  ⟨ds, [], (List.append_nil _).symm, nofun, Nat.zero_le _⟩

theorem Book.recent (h : Book done hand? part es fs r) (w : Work r r')
    (recent : Recent r.encoder (es.zip fs) r.held.held) :
    Recent r.encoder (es.zip (fs ++ r.settles)) r'.held.held := by
  rcases h.turn with hnone | ⟨e, more, f, hone, rfl, hhand, htorn⟩
  · rw [hnone, List.append_nil]
    rcases w.holds with ⟨n, hheld⟩ | ⟨hrecorded, -⟩
    · rw [hheld]
      exact recent.drop n
    · rw [hnone] at hrecorded
      cases hrecorded
  · rw [zip_done h.length] at recent
    rw [hone, zip_turn h.length]
    have hkept : f ≠ .recorded → r'.held.held.length ≤ r.held.held.length := by
      intro hother
      rcases w.holds with ⟨n, hheld⟩ | ⟨hrecorded, -⟩
      · rw [hheld, List.length_drop]
        exact Nat.sub_le _ _
      · rw [hone] at hrecorded
        cases hrecorded
        exact absurd rfl hother
    cases f with
    | recorded =>
      obtain rfl := hhand rfl
      obtain ⟨hfine, hwhole⟩ := h.whole e rfl
      refine recent.concat (record_of_fine hfine).symm ?_
      rcases w.holds with ⟨n, hheld⟩ | ⟨-, hheld, -⟩
      · rw [hheld, List.length_drop]
        omega
      · rw [hheld, share, ← hwhole, List.length_append, List.length_append]
        omega
    | unencodable => exact recent.concat rfl (le_trans (hkept (by simp)) (Nat.le_add_right _ _))
    | failed taken =>
      cases taken with
      | zero => exact recent.concat rfl (le_trans (hkept (by simp)) (Nat.le_add_right _ _))
      | succ n =>
        have hnone : r'.held.held = [] := by
          have hlength := hkept (by simp)
          rw [htorn n rfl] at hlength
          exact List.eq_nil_of_length_eq_zero (Nat.le_zero.mp hlength)
        rw [hnone]
        exact recent_nil _ _

/-- **What is held came after everything that was torn**, at every moment of every run, and fits into
the room. -/
theorem Run.recent (run : Run r₀ ms es r) (fresh : r₀.Fresh encoder plan) :
    Recent r.encoder (es.zip (fates r₀ ms)) r.held.held ∧
      r.held.held.length ≤ WriteBuffer.capacity := by
  induction run with
  | start =>
    rw [fresh.held]
    exact ⟨recent_nil _ _, Nat.zero_le _⟩
  | @move ms es r r' m run h ih =>
    obtain ⟨done, hand?, part, hbook⟩ := run.booked fresh.booked
    rw [fates_concat run]
    rcases own_or_call h with ⟨rfl, w⟩ | ⟨call, same⟩
    · rw [show r.accepts .work = [] from rfl, List.append_nil, w.same.1]
      refine ⟨hbook.recent w ih.1, ?_⟩
      rcases w.holds with ⟨n, hheld⟩ | ⟨-, -, hlength⟩
      · rw [hheld, List.length_drop]
        exact le_trans (Nat.sub_le _ _) ih.2
      · exact hlength
    · rw [fate_of_call call, List.append_nil, hbook.zip_append, same.encoder, same.held]
      exact ih

/-! ## What is counted too early -/

/-- Of the events counted, the output has accepted the whole records of those in `reached`. Of those in
`pending` it has accepted no whole record: `cut` is there of the first of them, and the rest is held. -/
structure Split (encoder : Encoder α) (written : List α) (accepted held : Bytes)
    (reached pending : List α) (front cut : Bytes) : Prop where
  events : written = reached ++ pending
  output : accepted = front ++ cut
  whole : Contains encoder reached front
  bytes : cut ++ held = records encoder pending
  cut_short : ∀ e ∈ pending.head?, cut <+: record encoder e ∧ cut ≠ record encoder e
  none_held : pending = [] ↔ held = []

/-- Of two ways to cut bytes in two, the one with the shorter end cuts behind the other. -/
theorem ends_behind {front back : Bytes} (h : data ++ held = front ++ back)
    (short : held.length ≤ back.length) : ∃ more, data = front ++ more ∧ more ++ held = back := by
  have hlength := congrArg List.length h
  rw [List.length_append, List.length_append] at hlength
  have hfront : front <+: data ++ held := h ▸ List.prefix_append front back
  obtain ⟨more, rfl⟩ := List.prefix_of_prefix_length_le hfront (List.prefix_append data held) (by omega)
  rw [List.append_assoc] at h
  exact ⟨more, rfl, List.append_cancel_left h⟩

theorem Recent.split (h : Recent encoder ds held) (fits : ∀ d ∈ ds, d.2.Fits encoder d.1)
    {accepted : Bytes} (bytes : accepted ++ held = ds.flatMap fun d => share encoder d.1 d.2) :
    ∃ reached pending front cut,
      Split encoder (recordedOf ds) accepted held reached pending front cut := by
  obtain ⟨before, after, rfl, hwhole, hlength⟩ := h
  have hbefore := contains_shares fun d hd => fits d (List.mem_append_left _ hd)
  rw [flatMap_share hwhole] at hlength
  rw [List.flatMap_append, flatMap_share hwhole] at bytes
  -- the output holds all that was torn, and of the records behind it what is not held
  obtain ⟨data, rfl, hdata⟩ := ends_behind bytes hlength
  obtain ⟨whole, pending, cut, hafter, rfl, -, hcut⟩ :=
    prefix_flatMap (hdata ▸ List.prefix_append data held : data <+: records encoder _)
  have hpending : cut ++ held = records encoder pending := by
    rw [hafter, show records encoder (whole ++ pending) = _ from List.flatMap_append,
      List.append_assoc] at hdata
    exact List.append_cancel_left hdata
  refine ⟨recordedOf before ++ whole, pending, _, cut, ?_, (List.append_assoc ..).symm,
    hbefore.append (contains_records encoder whole), hpending, hcut, ?_⟩
  · rw [recordedOf_append, hafter, List.append_assoc]
  · constructor
    · rintro rfl
      exact (List.append_eq_nil_iff.mp hpending).2
    · rintro rfl
      cases pending with
      | nil => rfl
      | cons e pending =>
        obtain ⟨hpart, hshort⟩ := hcut e rfl
        have hwhole : record encoder e <+: cut := by
          rw [← List.append_nil cut, hpending]
          exact List.prefix_append _ _
        exact absurd (hpart.eq_of_length_le hwhole.length_le) hshort

/-- No more is counted than the output has accepted: so many whole records, and so many bytes. -/
def Honest (encoder : Encoder α) (es : List α) (r : Recorder α) : Prop :=
  ∃ whole, whole.Sublist es ∧ Contains encoder whole r.output.accepted ∧
    r.intake.tally.eventsWritten.toNat ≤ whole.length ∧
    r.intake.tally.bytesWritten.toNat ≤ r.output.accepted.length

theorem toNat_ofNat_le (n : Nat) : (UInt64.ofNat n).toNat ≤ n := by
  rw [UInt64.toNat_ofNat']
  exact Nat.mod_le _ _

/-- **The events counted are those that have reached the output, and those that are held.** What is held
is at most 8 KiB. Once the output is closed nothing is held, and no more is counted than it has
accepted. -/
theorem overcounts_held (fresh : r₀.Fresh encoder plan) (run : Run r₀ ms es r)
    (between : r.phase.size? = none) :
    (∃ reached pending front cut,
      Split encoder (counted es (fates r₀ ms)) r.output.accepted r.held.held reached pending front
        cut ∧
      r.intake.tally.eventsWritten = .ofNat (reached.length + pending.length) ∧
      r.intake.tally.bytesWritten =
        .ofNat ((records encoder reached).length + (records encoder pending).length)) ∧
    r.held.held.length ≤ WriteBuffer.capacity ∧
    r.intake.tally.bytesWritten.toNat ≤ r.output.accepted.length + r.held.held.length ∧
    (r.output.outcome = .closed → Honest encoder es r) := by
  obtain ⟨done, hand?, part, hbook⟩ := run.booked fresh.booked
  have hencoder : r.encoder = encoder := run.encoder.trans fresh.encoder
  obtain ⟨rfl, rfl⟩ := hbook.idle_of_size between
  obtain ⟨hrecent, hroom⟩ := run.recent fresh
  have hbytes := hbook.bytes
  rw [List.append_nil, shares, ← hbook.zip_eq, hencoder] at hbytes
  have hfits := hbook.fits
  rw [← hbook.zip_eq, hencoder] at hfits
  rw [hencoder] at hrecent
  obtain ⟨reached, pending, front, cut, hsplit⟩ := hrecent.split hfits hbytes
  have hevents := run.eventsWritten fresh
  have hwritten := run.bytesWritten fresh
  rw [hencoder] at hwritten
  have hrecords : (records encoder (counted es (fates r₀ ms))).length =
      (records encoder reached).length + (records encoder pending).length := by
    rw [counted, hsplit.events, records, List.flatMap_append, List.length_append]
    rfl
  have hcontained := hsplit.whole.length_le
  have hpending := congrArg List.length hsplit.bytes
  have haccepted := congrArg List.length hsplit.output
  rw [List.length_append] at hpending haccepted
  have hle : r.intake.tally.bytesWritten.toNat ≤ r.output.accepted.length + r.held.held.length := by
    rw [hwritten]
    refine le_trans (toNat_ofNat_le _) ?_
    omega
  refine ⟨⟨reached, pending, front, cut, hsplit, ?_, ?_⟩, hroom, hle, fun closed => ?_⟩
  · rw [hevents, counted, hsplit.events, List.length_append]
  · rw [hwritten, hrecords]
  · have hnone := (run.shut fresh).closed closed
    have hnone_pending := hsplit.none_held.mpr hnone
    refine ⟨counted es (fates r₀ ms), counted_sublist _ _, ?_, ?_, ?_⟩
    · rw [counted, hsplit.events, hnone_pending, hsplit.output]
      exact hsplit.whole.append (.nil cut)
    · rw [hevents]
      exact toNat_ofNat_le _
    · rwa [hnone, List.length_nil, Nat.add_zero] at hle

/-- An output that takes one record, breaks off twice in the middle of another, and then fails for good. -/
def breaking : ChannelPlan :=
  { writes := ⟨[.takes, .upTo 1, .fails .writeZero, .upTo 1], .fails .writeZero⟩ }

/-- The first event is flushed. Of the others, the first has a record of 8193 bytes, which goes to the
output at once and is torn, and the second is held. -/
def breakingRounds : List (Move Bytes) :=
  List.flatten [[.trace [1]], List.replicate 9 .work,
    [.trace (List.replicate 8191 0), .trace [2], .close], List.replicate 13 .work]

/-- Of the two events counted one is in the output. It has a byte of the other as well, behind the byte
of the torn record. -/
theorem overcounts_held_breaking :
    ∃ es r, Run (.start "file" .rawDelimited breaking) breakingRounds es r ∧ r.phase.size? = none ∧
      counted es (fates (.start "file" .rawDelimited breaking) breakingRounds) = [[1], [2]] ∧
      r.output.accepted = [1, 1, 255, 1] ∧ r.held.held = [2] ∧
      (∃ reached pending front cut,
        Split .rawDelimited
          (counted es (fates (.start "file" .rawDelimited breaking) breakingRounds))
          r.output.accepted r.held.held reached pending front cut ∧
        r.intake.tally.eventsWritten = .ofNat (reached.length + pending.length) ∧
        r.intake.tally.bytesWritten = .ofNat ((records .rawDelimited reached).length +
          (records .rawDelimited pending).length)) ∧
      r.held.held.length ≤ WriteBuffer.capacity ∧
      r.intake.tally.bytesWritten.toNat ≤ r.output.accepted.length + r.held.held.length ∧
      (r.output.outcome = .closed → Honest .rawDelimited es r) := by
  have hmoves : ((Recorder.start "file" .rawDelimited breaking).moves breakingRounds).map
      (fun (_, r) => (r.phase.size?, r.output.accepted, r.held.held)) =
        some (none, [1, 1, 255, 1], [2]) := by
    decide +kernel
  rw [Option.map_eq_some_iff] at hmoves
  obtain ⟨⟨es, r⟩, hmoves, hstate⟩ := hmoves
  simp only [Prod.mk.injEq] at hstate
  obtain ⟨hsize, haccepted, hheld⟩ := hstate
  have hrun : Run (.start "file" .rawDelimited breaking) breakingRounds es r :=
    Run.start.moves hmoves
  have hes : es = [[1], List.replicate 8191 0, [2]] := (hrun.accepted rfl).2
  have hfates : fates (.start "file" .rawDelimited breaking) breakingRounds =
      [.recorded, .failed 1, .recorded] := by decide +kernel
  have hcounted :
      counted es (fates (.start "file" .rawDelimited breaking) breakingRounds) = [[1], [2]] := by
    rw [hes, hfates]
    rfl
  exact ⟨es, r, hrun, hsize, hcounted, haccepted, hheld,
    overcounts_held (fresh_start "file" .rawDelimited breaking) hrun hsize⟩

/-- An output that accepts nothing. -/
def refusing : ChannelPlan := { writes := .always (.fails .writeZero) }

/-- One event, and the close when its round is over. -/
def refusedRound : List (Move Bytes) :=
  List.flatten [[.trace [1]], List.replicate 7 .work, [.close], List.replicate 3 .work]

/-- **An event counted as written of which the output has no byte.** The recorder has ended, and its
counters say that one event of two bytes was written. -/
theorem counted_not_accepted :
    ∃ es r, Run (.start "file" .rawDelimited refusing) refusedRound es r ∧ r.phase = .ended ∧
      es = [[1]] ∧ r.output.accepted = [] ∧ r.intake.tally.eventsWritten = 1 ∧
      r.intake.tally.bytesWritten = 2 ∧
      (∀ whole, whole.Sublist es → Contains .rawDelimited whole r.output.accepted →
        whole.length < r.intake.tally.eventsWritten.toNat) ∧
      r.output.accepted.length < r.intake.tally.bytesWritten.toNat ∧
      ¬ Honest .rawDelimited es r := by
  have hmoves : ((Recorder.start "file" .rawDelimited refusing).moves refusedRound).map
      (fun (_, r) => (r.isEnded, r.output.accepted, r.intake.tally.eventsWritten,
        r.intake.tally.bytesWritten)) = some (true, [], 1, 2) := by
    decide +kernel
  rw [Option.map_eq_some_iff] at hmoves
  obtain ⟨⟨es, r⟩, hmoves, hstate⟩ := hmoves
  simp only [Prod.mk.injEq] at hstate
  obtain ⟨hended, haccepted, hevents, hbytes⟩ := hstate
  have hrun : Run (.start "file" .rawDelimited refusing) refusedRound es r := Run.start.moves hmoves
  have hes : es = [[1]] := (hrun.accepted rfl).2
  have hwhole : ∀ whole, whole.Sublist es → Contains .rawDelimited whole r.output.accepted →
      whole.length < r.intake.tally.eventsWritten.toNat := by
    intro whole horder hcontains
    have hlength := hcontains.length_le
    rw [haccepted, List.length_nil, Nat.le_zero] at hlength
    have hnone : ∀ whole ∈ ([[1]] : List Bytes).sublists,
        (records .rawDelimited whole).length = 0 → whole.length < 1 := by decide +kernel
    rw [hes] at horder
    rw [hevents]
    exact hnone whole (List.mem_sublists.mpr horder) hlength
  have hmore : r.output.accepted.length < r.intake.tally.bytesWritten.toNat := by
    rw [haccepted, hbytes]
    decide
  refine ⟨es, r, hrun, isEnded_iff.mp hended, hes, haccepted, hevents, hbytes, hwhole, hmore, ?_⟩
  rintro ⟨whole, horder, hcontains, hle, -⟩
  exact absurd hle (Nat.not_le.mpr (hwhole whole horder hcontains))

end TraceRelay.Recorder
