import Mathlib.Data.List.Sublists
import TraceRelay.Proofs.Framing.TraceFile
import TraceRelay.Proofs.Recorder.Fates

/-!
# Torn records

A record is torn if its writing fails when the output has accepted a part of it and not all: the next
record then stands behind that part. Smaller records cannot be torn, since they wait in front of the
output until it has accepted them whole.

1. `Keeps`: of which events an output holds how much. `Book.keeps`: it holds whole records, in order,
   but for records of more than 8 KiB whose writing failed with at least 8 KiB to go.
2. `Untorn`: whole records and the beginning of one more. What is so is read back up to there.
3. `torn_only_if_long` puts this together; `torn_by_failing_write` is a record that is torn.
-/

namespace TraceRelay.Recorder

variable {α : Type}

/-! ## What is kept -/

/-- How much the output has accepted of each record that is torn. -/
def torn (fs : List Fate) : List Nat :=
  fs.filterMap fun
    | .failed (n + 1) => some (n + 1)
    | _ => none

/-- Of which event the output is given how much, for an event and its fate. -/
def keep (encoder : Encoder α) (e : α) : Fate → List (α × Nat)
  | .recorded => [(e, (encoder e).appended.length)]
  | .failed (n + 1) => [(e, n + 1)]
  | .unencodable | .failed 0 => []

/-- The bytes that are kept of some events. -/
def keptBytes (encoder : Encoder α) (ks : List (α × Nat)) : Bytes :=
  ks.flatMap fun k => (encoder k.1).appended.take k.2

/-- Whether only a part is kept. -/
def isPart (encoder : Encoder α) (k : α × Nat) : Bool := k.2 < (encoder k.1).appended.length

/-- All of a record is kept, or a part of one that has at least 8 KiB more. -/
def KeptWell (encoder : Encoder α) (k : α × Nat) : Prop :=
  (encoder k.1).failure? = none ∧ (k.2 = (encoder k.1).appended.length ∨
    0 < k.2 ∧ k.2 + WriteBuffer.capacity ≤ (encoder k.1).appended.length)

/-- Of the events `es`, those in `ks` are kept, each as far as it says; `parts` are the lengths of those
that are torn. -/
structure Keeps (encoder : Encoder α) (es : List α) (ks : List (α × Nat)) (parts : List Nat) :
    Prop where
  order : (ks.map Prod.fst).Sublist es
  well : ∀ k ∈ ks, KeptWell encoder k
  parts : (ks.filter (isPart encoder)).map Prod.snd = parts

variable {encoder : Encoder α} {e : α} {es es' : List α} {ks ks' : List (α × Nat)}
  {parts parts' : List Nat} {f : Fate}

theorem Keeps.append (h : Keeps encoder es ks parts) (h' : Keeps encoder es' ks' parts') :
    Keeps encoder (es ++ es') (ks ++ ks') (parts ++ parts') where
  order := by rw [List.map_append]; exact h.order.append h'.order
  well := fun k hk => (List.mem_append.mp hk).elim (h.well k) (h'.well k)
  parts := by rw [List.filter_append, List.map_append, h.parts, h'.parts]

theorem Keeps.of_sublist (h : Keeps encoder es ks parts) (sub : es.Sublist es') :
    Keeps encoder es' ks parts := ⟨h.order.trans sub, h.well, h.parts⟩

/-- A record that is kept whole. -/
theorem keeps_whole (fine : (encoder e).failure? = none) :
    Keeps encoder [e] [(e, (encoder e).appended.length)] [] where
  order := List.Sublist.refl _
  well := by
    intro k hk
    rw [List.mem_singleton] at hk
    subst hk
    exact ⟨fine, .inl rfl⟩
  parts := by simp [isPart]

theorem keeps_nothing (es : List α) : Keeps encoder es [] [] :=
  ⟨List.nil_sublist _, nofun, rfl⟩

theorem keeps_keep (fits : f.Fits encoder e) : Keeps encoder [e] (keep encoder e f) (torn [f]) := by
  cases f with
  | recorded => exact keeps_whole fits
  | unencodable => exact keeps_nothing _
  | failed taken =>
    cases taken with
    | zero => exact keeps_nothing _
    | succ n =>
      obtain ⟨hfine, hzero | hlong⟩ := fits
      · cases hzero
      · have hpart : n + 1 < (encoder e).appended.length :=
          Nat.lt_of_lt_of_le (Nat.lt_add_of_pos_right (by decide)) hlong
        refine ⟨List.Sublist.refl _, ?_, ?_⟩
        · intro k hk
          rw [keep, List.mem_singleton] at hk
          subst hk
          exact ⟨hfine, .inr ⟨Nat.succ_pos n, hlong⟩⟩
        · simp [keep, isPart, hpart, torn]

theorem keptBytes_keep (e : α) (f : Fate) :
    keptBytes encoder (keep encoder e f) = share encoder e f := by
  cases f with
  | recorded => simp [keptBytes, keep, share]
  | unencodable => rfl
  | failed taken =>
    cases taken with
    | zero => rfl
    | succ n => simp [keptBytes, keep, share]

theorem torn_append (fs fs' : List Fate) : torn (fs ++ fs') = torn fs ++ torn fs' :=
  List.filterMap_append

theorem keptBytes_append (ks ks' : List (α × Nat)) :
    keptBytes encoder (ks ++ ks') = keptBytes encoder ks ++ keptBytes encoder ks' :=
  List.flatMap_append

/-- What is kept of events that had their turn. -/
theorem keeps_done {done : List α} {fs : List Fate} (length : fs.length = done.length)
    (fits : ∀ d ∈ done.zip fs, d.2.Fits encoder d.1) :
    ∃ ks, Keeps encoder done ks (torn fs) ∧ keptBytes encoder ks = shares encoder done fs := by
  induction done generalizing fs with
  | nil =>
    cases List.eq_nil_of_length_eq_zero length
    exact ⟨[], keeps_nothing _, rfl⟩
  | cons e done ih =>
    obtain ⟨f, fs, rfl⟩ := List.exists_cons_of_length_eq_add_one length
    rw [List.zip_cons_cons] at fits
    obtain ⟨ks, hkeeps, hbytes⟩ := ih (Nat.succ.inj length)
      fun d hd => fits d (List.mem_cons_of_mem _ hd)
    refine ⟨keep encoder e f ++ ks, ?_, ?_⟩
    · have := (keeps_keep (fits _ (List.mem_cons_self ..))).append hkeeps
      rwa [← torn_append] at this
    · rw [keptBytes_append, keptBytes_keep, hbytes]
      rfl

/-- **What an output holds**: of some events, in order, the whole record, or a part of a long one. -/
theorem Book.keeps {done : List α} {hand? : Option α} {part : Bytes} {fs : List Fate} {r : Recorder α}
    (h : Book done hand? part es fs r) :
    ∃ ks, Keeps r.encoder es ks (torn fs) ∧ r.output.accepted <+: keptBytes r.encoder ks := by
  obtain ⟨ks, hkeeps, hbytes⟩ := keeps_done h.length h.fits
  have haccepted : r.output.accepted <+: keptBytes r.encoder ks ++ part := by
    rw [hbytes, ← h.bytes]
    exact List.prefix_append _ _
  cases hhand : hand? with
  | none =>
    rw [h.idle hhand, List.append_nil] at haccepted
    refine ⟨ks, hkeeps.of_sublist ?_, haccepted⟩
    rw [h.split, List.append_assoc]
    exact List.sublist_append_left _ _
  | some e =>
    obtain ⟨hfine, hwhole⟩ := h.whole e hhand
    refine ⟨ks ++ [(e, (r.encoder e).appended.length)], ?_, ?_⟩
    · have := hkeeps.append (keeps_whole hfine)
      rw [List.append_nil] at this
      refine this.of_sublist ?_
      rw [h.split, hhand]
      exact List.sublist_append_left _ _
    · refine haccepted.trans ?_
      rw [keptBytes_append, List.prefix_append_right_inj, keptBytes, List.flatMap_singleton,
        List.take_length, ← hwhole]
      exact List.prefix_append _ _

/-! ## Whole records -/

/-- Whole records of some of the events, in order, and perhaps the beginning of one more. -/
def Untorn (encoder : Encoder α) (es : List α) (data : Bytes) : Prop :=
  ∃ whole, whole.Sublist es ∧ (∀ e ∈ whole, (encoder e).failure? = none) ∧
    data <+: records encoder whole

/-- Where no record is torn, whole records are kept. -/
theorem Keeps.untorn (h : Keeps encoder es ks []) {data : Bytes}
    (holds : data <+: keptBytes encoder ks) : Untorn encoder es data := by
  have hall : ∀ k ∈ ks, k.2 = (encoder k.1).appended.length := by
    intro k hk
    have hparts := List.map_eq_nil_iff.mp h.parts
    obtain hall | ⟨-, hlong⟩ := (h.well k hk).2
    · exact hall
    · have hpart : isPart encoder k = true :=
        decide_eq_true (Nat.lt_of_lt_of_le (Nat.lt_add_of_pos_right (by decide)) hlong)
      exact absurd hpart (List.filter_eq_nil_iff.mp hparts k hk)
  refine ⟨ks.map Prod.fst, h.order, List.forall_mem_map.mpr fun k hk => (h.well k hk).1, ?_⟩
  suffices keptBytes encoder ks = records encoder (ks.map Prod.fst) from this ▸ holds
  rw [keptBytes, records, List.flatMap_map]
  refine List.flatMap_congr fun k hk => ?_
  rw [hall k hk, List.take_length, record_of_fine (h.well k hk).1]

/-- What stands behind the last whole record is the beginning of another one. -/
theorem Untorn.ends {data : Bytes} (h : Untorn encoder es data) :
    ∃ whole rest, whole.Sublist es ∧ (∀ e ∈ whole, (encoder e).failure? = none) ∧
      data = records encoder whole ++ rest ∧
      (rest = [] ∨ ∃ e ∈ es, rest <+: record encoder e ∧ rest ≠ record encoder e) := by
  obtain ⟨all, horder, hfine, hdata⟩ := h
  obtain ⟨whole, others, rest, rfl, rfl, hrest, hpart⟩ := prefix_flatMap hdata
  have hfront := List.sublist_append_left whole others
  refine ⟨whole, rest, hfront.trans horder, fun e he => hfine e (hfront.subset he), rfl, ?_⟩
  cases others with
  | nil => exact .inl (List.prefix_nil.mp hrest)
  | cons e others =>
    exact .inr ⟨e, horder.subset (List.mem_append_right _ (List.mem_cons_self ..)), hpart e rfl⟩

/-- Records of blocks are read back one by one. -/
theorem nextAll_records {body : α → Bytes} (blocks : ∀ e, encoder e = ⟨Wire.block (body e), none⟩)
    {limit : Nat} (word : limit < UInt64.size) {whole : List α}
    (fits : ∀ e ∈ whole, (body e).length ≤ limit) :
    (⟨Source.ofBytes (records encoder whole), limit⟩ : Frame.Reader Source).nextAll
      (whole.length + 1) = (whole.map body, .ok ()) := by
  have hrecords : records encoder whole = (whole.map body).flatMap Wire.block := by
    rw [records, List.flatMap_map]
    refine List.flatMap_congr fun e _ => ?_
    rw [record, blocks]
    rfl
  rw [hrecords]
  exact Frame.Reader.nextAll_blocks Source.serves word (List.forall_mem_map.mpr fits)
    ⟨rfl, Source.calm_ofBytes _⟩ (by rw [List.length_map]; exact Nat.lt_succ_self _)

/-! ## Runs -/

variable {r₀ r : Recorder α} {plan : ChannelPlan} {ms : List (Move α)}

/-- **Only long records are torn**, whatever the output does, at every moment of every run. Where none
is torn, the output holds whole records, in order, and the beginning of one more, and a file of blocks
is read back up to there. -/
theorem torn_only_if_long (fresh : r₀.Fresh encoder plan) (run : Run r₀ ms es r) :
    (∃ ks, Keeps encoder es ks (torn (fates r₀ ms)) ∧ r.output.accepted <+: keptBytes encoder ks) ∧
    (torn (fates r₀ ms) = [] → Untorn encoder es r.output.accepted ∧
      ∃ whole rest, whole.Sublist es ∧ r.output.accepted = records encoder whole ++ rest ∧
        (rest = [] ∨ ∃ e ∈ es, rest <+: record encoder e ∧ rest ≠ record encoder e) ∧
        ∀ body : α → Bytes, (∀ e, encoder e = ⟨Wire.block (body e), none⟩) →
          ∀ limit < UInt64.size, (∀ e ∈ es, (body e).length ≤ limit) →
          (⟨Source.ofBytes (records encoder whole), limit⟩ : Frame.Reader Source).nextAll
            (whole.length + 1) = (whole.map body, .ok ())) := by
  obtain ⟨done, hand?, part, hbook⟩ := run.booked fresh.booked
  have hkeeps := hbook.keeps
  rw [run.encoder, fresh.encoder] at hkeeps
  obtain ⟨ks, hkeeps, hholds⟩ := hkeeps
  refine ⟨⟨ks, hkeeps, hholds⟩, fun hnone => ?_⟩
  rw [hnone] at hkeeps
  have huntorn := hkeeps.untorn hholds
  obtain ⟨whole, rest, horder, -, hdata, hrest⟩ := huntorn.ends
  exact ⟨huntorn, whole, rest, horder, hdata, hrest, fun body blocks limit word fits =>
    nextAll_records blocks word fun e he => fits e (horder.subset he)⟩

/-- An output that takes one byte, fails, and takes everything after that. -/
def stumbling : ChannelPlan := { writes := ⟨[.upTo 1, .fails .writeZero], .takes⟩ }

/-- Two records go to the output at a time. The rest of them is held when it fails, and goes out before
the record of the third event. -/
def twoRounds : List (Move Bytes) :=
  List.flatten [[.trace [1], .trace [2]], List.replicate 10 .work, [.trace [3]],
    List.replicate 7 .work]

theorem torn_only_if_long_twoRounds :
    ∃ es r, Run (.start "file" .rawDelimited stumbling) twoRounds es r ∧ es = [[1], [2], [3]] ∧
      r.output.accepted = [1, 1, 1, 2, 1, 3] ∧
      torn (fates (.start "file" .rawDelimited stumbling) twoRounds) = [] ∧
      ((∃ ks, Keeps .rawDelimited es ks
          (torn (fates (.start "file" .rawDelimited stumbling) twoRounds)) ∧
        r.output.accepted <+: keptBytes .rawDelimited ks) ∧
      (torn (fates (.start "file" .rawDelimited stumbling) twoRounds) = [] →
        Untorn .rawDelimited es r.output.accepted ∧
        ∃ whole rest, whole.Sublist es ∧
          r.output.accepted = records .rawDelimited whole ++ rest ∧
          (rest = [] ∨ ∃ e ∈ es, rest <+: record .rawDelimited e ∧ rest ≠ record .rawDelimited e) ∧
          ∀ body : Bytes → Bytes, (∀ e, Encoder.rawDelimited e = ⟨Wire.block (body e), none⟩) →
            ∀ limit < UInt64.size, (∀ e ∈ es, (body e).length ≤ limit) →
            (⟨Source.ofBytes (records .rawDelimited whole), limit⟩ : Frame.Reader Source).nextAll
              (whole.length + 1) = (whole.map body, .ok ()))) := by
  have hmoves : ((Recorder.start "file" .rawDelimited stumbling).moves twoRounds).map
      (fun (es, r) => (es, r.output.accepted)) = some ([[1], [2], [3]], [1, 1, 1, 2, 1, 3]) := by
    decide +kernel
  rw [Option.map_eq_some_iff] at hmoves
  obtain ⟨⟨es, r⟩, hmoves, hstate⟩ := hmoves
  simp only [Prod.mk.injEq] at hstate
  obtain ⟨hes, haccepted⟩ := hstate
  have hrun : Run (.start "file" .rawDelimited stumbling) twoRounds es r := Run.start.moves hmoves
  exact ⟨es, r, hrun, hes, haccepted, by decide +kernel,
    torn_only_if_long (fresh_start "file" .rawDelimited stumbling) hrun⟩

/-- An event whose record has 8193 bytes. -/
def largeEvent : Bytes := List.replicate 8191 0

def largeThenSmall : List (Move Bytes) :=
  .trace largeEvent :: .trace [66] :: List.replicate 10 .work

/-- **A torn record.** Of the first record one byte is in the output when its writing fails; the second
record stands behind that byte. -/
theorem torn_by_failing_write :
    ∃ es r, Run (.start "file" .rawDelimited stumbling) largeThenSmall es r ∧
      es = [largeEvent, [66]] ∧ r.output.accepted = [255, 1, 66] ∧
      ¬ Untorn .rawDelimited es r.output.accepted := by
  have hmoves : ((Recorder.start "file" .rawDelimited stumbling).moves largeThenSmall).map
      (fun (_, r) => r.output.accepted) = some [255, 1, 66] := by
    decide +kernel
  rw [Option.map_eq_some_iff] at hmoves
  obtain ⟨⟨es, r⟩, hmoves, haccepted⟩ := hmoves
  have hrun : Run (.start "file" .rawDelimited stumbling) largeThenSmall es r :=
    Run.start.moves hmoves
  have hes : es = [largeEvent, [66]] := (hrun.accepted rfl).2
  refine ⟨es, r, hrun, hes, haccepted, ?_⟩
  rw [hes, show r.output.accepted = _ from haccepted]
  rintro ⟨whole, horder, -, hdata⟩
  have hnone : ∀ whole ∈ [largeEvent, [66]].sublists,
      ¬ [255, 1, 66] <+: records .rawDelimited whole := by decide +kernel
  exact hnone whole (List.mem_sublists.mpr horder) hdata

end TraceRelay.Recorder
