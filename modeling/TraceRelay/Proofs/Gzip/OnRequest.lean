import TraceRelay.Gzip.Reader
import TraceRelay.Proofs.Gzip.Growth
import TraceRelay.Proofs.Source

/-!
# Decompression on request

`Gzip.Reader` over a stream that shows no fault gives, however it is asked and however its source
cuts or interrupts its answers, the bytes that the stream decompresses to, and then says how the
stream ends (`Reader.serves`). The stream need not be complete.
-/

namespace TraceRelay.Gzip

/-- What a reader says once all was handed out: nothing more if the stream is complete, and else
what is wrong with its end. -/
def Decoder.lastAnswer (d : Decoder) : LastAnswer :=
  match d.part with
  | .header _ => some .unexpectedEof
  | .data => some incompleteData
  | .trailer got =>
    if got.length = trailerSize then (if d.agrees then none else some Defect.mismatch.fault)
    else some .unexpectedEof
  | .failed defect => some defect.fault

theorem Decoder.lastAnswer_of_agrees {d : Decoder} (h : d.agrees = true) :
    d.lastAnswer = none := by
  have hagrees := h
  unfold agrees at h
  unfold lastAnswer
  split at h
  · next got hpart =>
    rw [hpart]
    simp only [Bool.and_eq_true, beq_iff_eq] at h
    dsimp only
    rw [if_pos h.1.1, if_pos hagrees]
  · cases h

theorem Decoder.isInterrupted_lastAnswer (d : Decoder) :
    isInterrupted d.lastAnswer.result = false := by
  unfold lastAnswer
  split
  · rfl
  · rfl
  · split
    · split <;> rfl
    · rfl
  · next defect _ => exact defect.isInterrupted_fault

namespace Reader

open ByteSource (Serves Served Interrupted)

variable {stream : Bytes}

/-- In the middle of reading `stream`, with the bytes `left` still to be handed out. -/
structure Reads (stream : Bytes) (r : Reader) (left : Bytes) : Prop where
  calm : r.source.Calm
  fed : ∃ fed, fed ++ (r.chunk ++ r.source.data) = stream ∧ r.decoder = .feedAll .start fed
  given_le : r.given ≤ r.ready
  ready_le : r.ready ≤ r.decoder.out.size
  left_eq : left = (Decoder.feedAll .start stream).out.toList.drop r.given

theorem reads_ofSource {source : Source} (h : source.Calm) :
    Reads source.data (ofSource source) (Decoder.feedAll .start source.data).out.toList where
  calm := h
  fed := ⟨[], rfl, rfl⟩
  given_le := Nat.le_refl _
  ready_le := Nat.zero_le _
  left_eq := rfl

namespace Reads

variable {r : Reader} {left : Bytes}

theorem out_prefix (hr : Reads stream r left) :
    r.decoder.out.toList <+: (Decoder.feedAll .start stream).out.toList := by
  obtain ⟨fed, hfed, hd⟩ := hr.fed
  rw [hd]
  exact Decoder.out_prefix_of_prefix _ ⟨_, hfed⟩

theorem fault? (hr : Reads stream r left)
    (h : (Decoder.feedAll .start stream).fault? = none) : r.decoder.fault? = none := by
  obtain ⟨fed, hfed, hd⟩ := hr.fed
  rw [hd]
  exact Decoder.fault?_of_prefix ⟨_, hfed⟩ h

/-- The whole stream has been taken. -/
theorem decoder_of_empty (hr : Reads stream r left) (hchunk : r.chunk = [])
    (hsource : r.source.data = []) : r.decoder = .feedAll .start stream := by
  obtain ⟨fed, hfed, hd⟩ := hr.fed
  rw [hchunk, hsource, List.append_nil, List.append_nil] at hfed
  rw [hd, hfed]

/-- What follows in a trailer completes it at most. -/
theorem of_trailer (hr : Reads stream r left)
    (h : (Decoder.feedAll .start stream).fault? = none) {got : Bytes}
    (hpart : r.decoder.part = .trailer got) :
    got.length + (r.chunk ++ r.source.data).length ≤ trailerSize ∧ got.length ≤ trailerSize := by
  obtain ⟨fed, hfed, hd⟩ := hr.fed
  have hbound := Decoder.bounded_start.feedAll fed got (by rw [← hd, hpart])
  rw [← hfed, Decoder.feedAll_append, ← hd] at h
  exact ⟨(Decoder.feedAll_of_trailer hpart h hbound).2, hbound⟩

theorem size_of_header (hr : Reads stream r left) {header : Header}
    (hpart : r.decoder.part = .header header) : r.decoder.out.size = 0 := by
  obtain ⟨fed, hfed, hd⟩ := hr.fed
  rw [hd] at hpart ⊢
  rw [Decoder.out, Decoder.inflate_of_header hpart]
  rfl

/-- Everything that the bytes taken so far decompress to was handed out, and no byte is left. -/
theorem left_of_empty (hr : Reads stream r left) (hd : r.decoder = .feedAll .start stream)
    (hgiven : r.decoder.out.size ≤ r.given) : left = [] := by
  rw [hr.left_eq, ← hd]
  exact List.drop_of_length_le (by rw [Array.length_toList]; exact hgiven)

/-! ## Parts of a read -/

/-- A chunk was looked for and, if there are bytes left, found. -/
structure Refilled (stream : Bytes) (r r' : Reader) (left : Bytes) : Prop where
  reads : Reads stream r' left
  decoder : r'.decoder = r.decoder
  given : r'.given = r.given
  ready : r'.ready = r.ready
  remaining : r'.remaining = r.remaining
  at_end : r'.chunk = [] → r'.source.data = []

theorem refill_waiting (hr : Reads stream r left) (hchunk : r.chunk ≠ [])
    {read : Source → Nat → Except Fault Bytes × Source} :
    r.refill read = (.ok (), r) ∧ Refilled stream r r left := by
  unfold Reader.refill
  split
  · next h => exact absurd h hchunk
  · exact ⟨rfl, hr, rfl, rfl, rfl, rfl, fun h => absurd h hchunk⟩

/-- A read that gives a chunk of what the source holds. -/
theorem refill_chunk (hr : Reads stream r left) (hempty : r.chunk = [])
    {read : Source → Nat → Except Fault Bytes × Source} {n : Nat} {source : Source} (hn : 0 < n)
    (hread : read r.source chunkSize = (.ok (r.source.data.take n), source))
    (hdata : source.data = r.source.data.drop n) (hcalm : source.Calm) :
    ∃ r', r.refill read = (.ok (), r') ∧ Refilled stream r r' left := by
  refine ⟨{ r with source, chunk := r.source.data.take n }, ?_, ⟨hcalm, ?_, hr.given_le,
    hr.ready_le, hr.left_eq⟩, rfl, rfl, rfl, ?_, ?_⟩
  · unfold Reader.refill
    rw [hempty, hread]
  · obtain ⟨fed, hfed, hd⟩ := hr.fed
    refine ⟨fed, ?_, hd⟩
    dsimp only
    rw [← hfed, hempty, hdata, List.take_append_drop, List.nil_append]
  · simp only [Reader.remaining, hempty, hdata, List.length_take, List.length_drop, List.length_nil]
    omega
  · intro htake
    dsimp only at htake ⊢
    rw [hdata]
    rcases List.take_eq_nil_iff.mp htake with h0 | hnil
    · omega
    · rw [hnil, List.drop_nil]

theorem refill_patiently (hr : Reads stream r left) :
    ∃ r', r.refill ByteSource.readPatiently = (.ok (), r') ∧ Refilled stream r r' left := by
  by_cases hempty : r.chunk = []
  · obtain ⟨n, source, hn, -, hread, hdata, hcalm⟩ :=
      Source.serves.chunk ⟨rfl, hr.calm⟩ (show 0 < chunkSize by decide)
    exact hr.refill_chunk hempty hn hread hdata hcalm
  · exact ⟨r, hr.refill_waiting hempty⟩

theorem refill (hr : Reads stream r left) :
    (∃ f r', r.refill ByteSource.read = (.error f, r') ∧ f.isInterrupted = true ∧
      Reads stream r' left) ∨
    (∃ r', r.refill ByteSource.read = (.ok (), r') ∧ Refilled stream r r' left) := by
  by_cases hempty : r.chunk = []
  · rcases r.source.read_cases (show 0 < chunkSize by decide) with
      ⟨n, turns, hn, -, hturns, hread⟩ | ⟨f, turns, hturns, hread⟩
    · exact .inr (hr.refill_chunk hempty hn hread rfl fun turn h => hr.calm turn (hturns h))
    · have hcalm := hr.calm
      rw [Source.Calm, hturns, List.forall_mem_cons] at hcalm
      refine .inl ⟨f, { r with source := ⟨r.source.data, turns⟩ }, ?_, hcalm.1,
        ⟨hcalm.2, hr.fed, hr.given_le, hr.ready_le, hr.left_eq⟩⟩
      unfold Reader.refill
      rw [hempty, show ByteSource.read r.source chunkSize = _ from hread]
  · exact .inr ⟨r, hr.refill_waiting hempty⟩

/-- Either the stream is used up, or one more byte of it is taken. -/
theorem feedNext (hr : Reads stream r left) :
    (∃ r', r.feedNext = (.ok false, r') ∧ Reads stream r' left ∧
      r'.decoder = .feedAll .start stream ∧ r'.decoder = r.decoder ∧ r'.given = r.given) ∨
    (∃ r' b, r.feedNext = (.ok true, r') ∧ Reads stream r' left ∧
      r'.decoder = r.decoder.feed b ∧ r'.given = r.given ∧ r'.remaining + 1 = r.remaining) := by
  obtain ⟨r₁, hrefill, h₁⟩ := hr.refill_patiently
  have hr₁ := h₁.reads
  unfold Reader.feedNext
  rw [hrefill]
  dsimp only
  cases hchunk : r₁.chunk with
  | nil =>
    exact .inl ⟨r₁, rfl, hr₁, hr₁.decoder_of_empty hchunk (h₁.at_end hchunk), h₁.decoder, h₁.given⟩
  | cons b chunk =>
    refine .inr ⟨_, b, rfl, ?_, by rw [h₁.decoder], h₁.given, ?_⟩
    · obtain ⟨fed, hfed, hd⟩ := hr₁.fed
      refine ⟨hr₁.calm, ⟨fed ++ [b], ?_, ?_⟩, hr₁.given_le, ?_, hr₁.left_eq⟩
      · rw [← hfed, hchunk]; simp
      · rw [hd, Decoder.feedAll_append]; rfl
      · exact Nat.le_trans hr₁.ready_le (r₁.decoder.size_le_feedAll [b])
    · rw [← h₁.remaining, Reader.remaining, Reader.remaining, hchunk, List.length_cons]
      dsimp only
      omega

end Reads

/-- A run takes bytes off the chunk, and at least one if there is something to decompress. -/
theorem runTo_spec (limit : Nat) (d : Decoder) (chunk : Bytes) :
    ∃ eaten, chunk = eaten ++ (runTo limit d chunk).2 ∧
      (runTo limit d chunk).1 = d.feedAll eaten ∧
      (d.part = .data → d.out.size ≤ limit → chunk ≠ [] → eaten ≠ []) := by
  induction chunk generalizing d with
  | nil => exact ⟨[], rfl, rfl, fun _ _ h => h⟩
  | cons b rest ih =>
    rw [runTo]
    split
    · split
      · next hlimit => exact ⟨[], rfl, rfl, fun _ h => absurd h (by omega)⟩
      · obtain ⟨eaten, hchunk, hd, -⟩ := ih (d.feed b)
        refine ⟨b :: eaten, ?_, ?_, fun _ _ _ => List.cons_ne_nil _ _⟩
        · rw [List.cons_append, ← hchunk]
        · rw [hd, Decoder.feedAll_cons]
    · next hpart => exact ⟨[], rfl, rfl, fun h => absurd h hpart⟩

theorem lt_limit (r : Reader) : r.ready < r.limit := by
  have := Nat.div_add_mod r.ready windowSize
  have hpos : r.ready % windowSize < windowSize := Nat.mod_lt _ (by decide)
  rw [limit, Nat.add_mul, Nat.one_mul, Nat.mul_comm]
  omega

namespace Reads

variable {r : Reader} {left : Bytes}

/-- A run took the bytes `eaten` off the chunk and found no corruption: all that they decompress to is
ready up to the limit. -/
structure Ran (stream : Bytes) (r after : Reader) (eaten left : Bytes) : Prop where
  reads : Reads stream after left
  decoder : after.decoder = r.decoder.feedAll eaten
  chunk : r.chunk = eaten ++ after.chunk
  source : after.source = r.source
  given : after.given = r.given
  ready : after.ready = min after.decoder.out.size r.limit
  eats : r.decoder.part = .data → r.decoder.out.size ≤ r.limit → r.chunk ≠ [] → eaten ≠ []

theorem run (hr : Reads stream r left) (h : (Decoder.feedAll .start stream).fault? = none) :
    ∃ after eaten, r.run = .ok after ∧ Ran stream r after eaten left := by
  obtain ⟨eaten, hchunk, hd, heats⟩ := runTo_spec r.limit r.decoder r.chunk
  obtain ⟨fed, hfed, hfeed⟩ := hr.fed
  have hstream : fed ++ eaten ++ ((runTo r.limit r.decoder r.chunk).2 ++ r.source.data) = stream := by
    rw [← hfed]
    conv => rhs; rw [hchunk]
    simp only [List.append_assoc]
  have hdecoder : r.decoder.feedAll eaten = .feedAll .start (fed ++ eaten) := by
    rw [hfeed, Decoder.feedAll_append]
  have hfault : (r.decoder.feedAll eaten).fault? = none := by
    rw [hdecoder]
    exact Decoder.fault?_of_prefix ⟨_, hstream⟩ h
  have hle := r.decoder.size_le_feedAll eaten
  have hlimit := r.lt_limit
  have hgiven := hr.given_le
  have hready := hr.ready_le
  unfold Reader.run
  generalize runTo r.limit r.decoder r.chunk = ran at *
  obtain ⟨decoder, chunk⟩ := ran
  dsimp only at hchunk hd hstream ⊢
  subst hd
  refine ⟨{ r with
      decoder := r.decoder.feedAll eaten
      chunk
      ready := min (r.decoder.feedAll eaten).out.size r.limit }, eaten, ?_,
    ⟨?_, rfl, hchunk, rfl, rfl, rfl, heats⟩⟩
  · split
    · next hf => rw [Decoder.fault?_of_failed hf] at hfault; cases hfault
    · rfl
  · exact ⟨hr.calm, ⟨fed ++ eaten, hstream, hdecoder⟩, by dsimp only; omega, Nat.min_le_left _ _,
      hr.left_eq⟩

theorem Ran.size_le {after : Reader} {eaten : Bytes} (h : Ran stream r after eaten left) :
    r.decoder.out.size ≤ after.decoder.out.size := by
  rw [h.decoder]
  exact r.decoder.size_le_feedAll eaten

end Reads

/-! ## A read -/

/-- The answer to a request for `want` bytes when `left` is still to come. -/
abbrev Answers (stream : Bytes) (want : Nat) (left : Bytes) (answer : Except Fault Bytes × Reader) :
    Prop :=
  Served (Reads stream) (Decoder.feedAll .start stream).lastAnswer want left answer

/-- What is ready is handed out. -/
theorem Reads.hand {r : Reader} {left : Bytes} (hr : Reads stream r left) {want : Nat}
    (hwant : 0 < want) (hready : r.given < r.ready) : Answers stream want left (r.hand want) := by
  obtain ⟨more, hmore⟩ := hr.out_prefix
  have hle := hr.ready_le
  have hleft : left = r.decoder.out.toList.drop r.given ++ more := by
    rw [hr.left_eq, ← hmore, List.drop_append_of_le_length (by rw [Array.length_toList]; omega)]
  have hpos : 0 < (r.decoder.out.toList.drop r.given).length := by
    rw [List.length_drop, Array.length_toList]; omega
  refine .inl ⟨min want (r.ready - r.given), by omega, Nat.min_le_left _ _, ?_, ?_, ?_⟩
  · intro hnil
    rw [hleft, List.append_eq_nil_iff] at hnil
    rw [hnil.1] at hpos
    exact absurd hpos (by simp)
  · show Except.ok _ = Except.ok _
    congr 1
    rw [Array.toList_extract, List.extract_eq_take_drop, Nat.add_sub_cancel_left, hleft,
      List.take_append_of_le_length (by rw [List.length_drop, Array.length_toList]; omega)]
  · refine ⟨hr.calm, hr.fed, ?_, hr.ready_le, ?_⟩
    · show r.given + min want (r.ready - r.given) ≤ r.ready
      omega
    · rw [hr.left_eq, List.drop_drop]
      rfl

/-- The end, once the whole stream was taken and all of it handed out. -/
theorem Reads.ended {r : Reader} {left : Bytes} (hr : Reads stream r left) {want : Nat}
    (hd : r.decoder = .feedAll .start stream) (hgiven : r.decoder.out.size ≤ r.given)
    {result : Except Fault Bytes} (hresult : result = r.decoder.lastAnswer.result) :
    Answers stream want left (result, r) := by
  have hnil := hr.left_of_empty hd hgiven
  exact .inr ⟨hnil, by rw [hresult, hd], hnil ▸ hr⟩

/-- What a round comes to: an answer, an interruption, or another round with less to take. -/
def Round (stream : Bytes) (want fuel : Nat) (left : Bytes) (r : Reader) : Prop :=
  Answers stream want left (readWith want (fuel + 1) r) ∨
  Interrupted (Reads stream) left (readWith want (fuel + 1) r) ∨
  ∃ r', Reads stream r' left ∧ r'.remaining < r.remaining ∧
    readWith want (fuel + 1) r = readWith want fuel r'

/-- A round that takes a byte of the header. -/
theorem Reads.header_round {r : Reader} {left : Bytes} (hr : Reads stream r left)
    (h : (Decoder.feedAll .start stream).fault? = none) {want fuel : Nat} {header : Header}
    (hpart : r.decoder.part = .header header) : Round stream want fuel left r := by
  have hgiven := hr.given_le
  have hready := hr.ready_le
  have hsize := hr.size_of_header hpart
  unfold Round
  rw [readWith, hpart]
  dsimp only
  rcases hr.feedNext with
    ⟨r', hnext, hr', hd, hsame, hgiven'⟩ | ⟨r', b, hnext, hr', -, -, hremaining⟩
  · rw [hnext]
    refine .inl (hr'.ended hd (by rw [hsame]; omega) ?_)
    rw [hsame, Decoder.lastAnswer, hpart]
    rfl
  · rw [hnext]
    have hfault := hr'.fault? h
    refine .inr (.inr ⟨r', hr', by omega, ?_⟩)
    dsimp only
    split
    · next hf => rw [Decoder.fault?_of_failed hf] at hfault; cases hfault
    · rfl

/-- A round that takes a byte of the trailer, or finds it complete. -/
theorem Reads.trailer_round {r : Reader} {left : Bytes} (hr : Reads stream r left)
    (h : (Decoder.feedAll .start stream).fault? = none) {want fuel : Nat} {got : Bytes}
    (hpart : r.decoder.part = .trailer got) (hdrained : r.isDrained = true) :
    Round stream want fuel left r := by
  have hall : r.given = r.decoder.out.size := by simpa [isDrained] using hdrained
  obtain ⟨hbound, hgot⟩ := hr.of_trailer h hpart
  have hlast : r.decoder.lastAnswer =
      if got.length = trailerSize then
        (if r.decoder.agrees then none else some Defect.mismatch.fault)
      else some .unexpectedEof := by rw [Decoder.lastAnswer, hpart]
  unfold Round
  rw [readWith, hpart, hdrained]
  dsimp only
  by_cases hfull : got.length = trailerSize
  · have hrest : r.chunk ++ r.source.data = [] := List.length_eq_zero_iff.mp (by omega)
    rw [List.append_eq_nil_iff] at hrest
    rw [if_pos hfull]
    refine .inl (hr.ended (hr.decoder_of_empty hrest.1 hrest.2) (by omega) ?_)
    rw [hlast, if_pos hfull]
    split <;> rfl
  · rw [if_neg hfull]
    rcases hr.feedNext with
      ⟨r', hnext, hr', hd, hsame, hgiven'⟩ | ⟨r', b, hnext, hr', -, -, hremaining⟩
    · rw [hnext]
      refine .inl (hr'.ended hd (by rw [hsame]; omega) ?_)
      rw [hsame, hlast, if_neg hfull]
      rfl
    · rw [hnext]
      exact .inr (.inr ⟨r', hr', by omega, rfl⟩)

/-- Where nothing more was decompressed the data goes on: the header would take its own round, and
so would a trailer once all is handed out. -/
theorem Reads.part_of_idle {r : Reader} {left : Bytes} (hr : Reads stream r left)
    (h : (Decoder.feedAll .start stream).fault? = none)
    (hheader : ∀ header, r.decoder.part ≠ .header header)
    (htrailer : ∀ got, r.decoder.part = .trailer got → r.isDrained ≠ true)
    (hsize : r.decoder.out.size ≤ r.given) : r.decoder.part = .data := by
  have hfault := hr.fault? h
  have hgiven := hr.given_le
  have hready := hr.ready_le
  cases hpart : r.decoder.part with
  | header header => exact absurd hpart (hheader header)
  | data => rfl
  | trailer got =>
    have hdrained : r.isDrained = true := by
      rw [isDrained, beq_iff_eq]; omega
    exact absurd hdrained (htrailer got hpart)
  | failed defect => rw [Decoder.fault?_of_failed hpart] at hfault; cases hfault

/-- A run over the data after which all was handed out has used up the stream, or shortened the
chunk. -/
theorem Reads.Ran.progress {r after : Reader} {eaten left : Bytes}
    (hran : Ran stream r after eaten left) (hr : Reads stream r left)
    (hdata : r.decoder.part = .data) (hsize : r.decoder.out.size ≤ r.limit)
    (hend : r.chunk = [] → r.source.data = []) (hall : after.decoder.out.size ≤ after.given)
    {want : Nat} :
    (r.chunk = [] ∧ after.decoder.part = .data ∧
      Answers stream want left (.error incompleteData, after)) ∨
    (r.chunk ≠ [] ∧ after.remaining < r.remaining) := by
  by_cases hempty : r.chunk = []
  · have heaten : eaten = [] := (List.append_eq_nil_iff.mp (hran.chunk ▸ hempty)).1
    have hsame : after.decoder = r.decoder := by rw [hran.decoder, heaten, Decoder.feedAll_nil]
    have hpart : after.decoder.part = .data := by rw [hsame, hdata]
    have hwhole : after.decoder = .feedAll .start stream := by
      rw [hsame, hr.decoder_of_empty hempty (hend hempty)]
    exact .inl ⟨hempty, hpart, hran.reads.ended hwhole hall (by rw [Decoder.lastAnswer, hpart]; rfl)⟩
  · have heaten := List.length_pos_iff.mpr (hran.eats hdata hsize hempty)
    refine .inr ⟨hempty, ?_⟩
    rw [Reader.remaining, Reader.remaining, hran.source, hran.chunk, List.length_append]
    omega

/-- A round that decompresses data. -/
theorem Reads.data_round {r : Reader} {left : Bytes} (hr : Reads stream r left)
    (h : (Decoder.feedAll .start stream).fault? = none) {want fuel : Nat} (hwant : 0 < want)
    (hheader : ∀ header, r.decoder.part ≠ .header header)
    (htrailer : ∀ got, r.decoder.part = .trailer got → r.isDrained ≠ true) :
    Round stream want fuel left r := by
  have hgiven := hr.given_le
  have hready := hr.ready_le
  unfold Round
  rw [readWith]
  split
  · next header hpart => exact absurd hpart (hheader header)
  · next got hpart hdrained => exact absurd hdrained (htrailer got hpart)
  · rcases hr.refill with ⟨f, r', hrefill, hf, hr'⟩ | ⟨r₁, hrefill, h₁⟩
    · rw [hrefill]
      exact .inr (.inl ⟨hf, hr'⟩)
    · have hr₁ := h₁.reads
      have hgiven₁ := h₁.given
      have hready₁ := h₁.ready
      have hremaining₁ := h₁.remaining
      rw [hrefill]
      dsimp only
      split
      · next hlt => exact .inl (hr₁.hand hwant hlt)
      · next hnone =>
        obtain ⟨after, eaten, hrun, hran⟩ := hr₁.run h
        rw [hrun]
        dsimp only
        split
        · next hlt => exact .inl (hran.reads.hand hwant hlt)
        · next hnothing =>
          -- nothing became ready, so nothing was decompressed that had not been handed out
          have hlimit := r₁.lt_limit
          have hgrown := hran.size_le
          have hgiven₂ := hran.given
          have hready₂ := hran.ready
          have hdata : r₁.decoder.part = .data := by
            rw [h₁.decoder] at hgrown ⊢
            exact hr.part_of_idle h hheader htrailer (by omega)
          rcases hran.progress hr₁ hdata (by omega) h₁.at_end (by omega) with
            ⟨hempty, hpart, hanswer⟩ | ⟨hmore, hfewer⟩
          · rw [hpart]
            dsimp only
            rw [if_pos hempty]
            exact .inl hanswer
          · refine .inr (.inr ⟨after, hran.reads, by omega, ?_⟩)
            split
            · rw [if_neg hmore]
            · rfl

theorem Reads.round {r : Reader} {left : Bytes} (hr : Reads stream r left)
    (h : (Decoder.feedAll .start stream).fault? = none) {want : Nat} (hwant : 0 < want)
    (fuel : Nat) : Round stream want fuel left r := by
  by_cases hheader : ∃ header, r.decoder.part = .header header
  · obtain ⟨header, hpart⟩ := hheader
    exact hr.header_round h hpart
  · by_cases htrailer : ∃ got, r.decoder.part = .trailer got ∧ r.isDrained = true
    · obtain ⟨got, hpart, hdrained⟩ := htrailer
      exact hr.trailer_round h hpart hdrained
    · exact hr.data_round h hwant (fun header hpart => hheader ⟨header, hpart⟩)
        fun got hpart hdrained => htrailer ⟨got, hpart, hdrained⟩

/-- **A read is answered** or interrupted before the rounds run out: each round but the last takes a
byte. -/
theorem served_readWith (h : (Decoder.feedAll .start stream).fault? = none) {want : Nat}
    (hwant : 0 < want) (fuel : Nat) {r : Reader} {left : Bytes} (hr : Reads stream r left)
    (hfuel : r.remaining < fuel) :
    Answers stream want left (readWith want fuel r) ∨
      Interrupted (Reads stream) left (readWith want fuel r) := by
  induction fuel generalizing r with
  | zero => omega
  | succ fuel ih =>
    rcases hr.round h hwant fuel with hserved | hinterrupted | ⟨r', hr', hfewer, hround⟩
    · exact .inl hserved
    · exact .inr hinterrupted
    · rw [hround]
      exact ih hr' (by omega)

/-- **Decompression on request gives what the stream decompresses to**, however it is asked. -/
theorem serves (h : (Decoder.feedAll .start stream).fault? = none) :
    Serves ByteSource.readPatiently (Reads stream) (Decoder.feedAll .start stream).lastAnswer :=
  ByteSource.serves_patiently (Decoder.isInterrupted_lastAnswer _) fun {r _ _} hr hwant =>
    served_readWith h hwant (r.remaining + 2) hr (by omega)

end Reader

end TraceRelay.Gzip
