import TraceRelay.Proofs.Peer.Header

/-!
# What is taken for a header

Headers and nothing else are read (`accepts_grammar`), however the source cuts its answers, and no byte
behind a header is touched. `readEach`: so headers that were written one behind the other are read in turn.
A name that is too long for a header is refused, and is not read as another (`read_write_too_long`).
-/

namespace TraceRelay.Header

open ByteSource TraceRelay.Frame

variable {σ : Type} [ByteSource σ] {R : σ → Bytes → Prop} {last : LastAnswer} {s : σ} {rest : Bytes}
  {name : String}

/-- Reads so many headers, one behind the other. -/
def readEach (source : σ) : Nat → Except HostFailure (List String) × σ
  | 0 => (.ok [], source)
  | n + 1 =>
    match read source with
    | (.error e, source) => (.error e, source)
    | (.ok name, source) =>
      match readEach source n with
      | (.error e, source) => (.error e, source)
      | (.ok names, source) => (.ok (name :: names), source)

variable {names : List String}

theorem readEach_cons (source : σ) (n : Nat) {s' s'' : σ} (hread : read source = (.ok name, s'))
    (hrest : readEach s' n = (.ok names, s'')) : readEach source (n + 1) = (.ok (name :: names), s'') := by
  rw [readEach, hread]
  dsimp only
  rw [hrest]

/-- **Headers that were written one behind the other are read in turn**, and what follows them is left. -/
theorem readEach_write (h : Serves ByteSource.read R none)
    (hnames : ∀ name ∈ names, (line name).length ≤ maxLength) (hs : R s (names.flatMap write ++ rest)) :
    ∃ s', readEach s names.length = (.ok names, s') ∧ R s' rest := by
  induction names generalizing s with
  | nil => exact ⟨s, rfl, hs⟩
  | cons name names ih =>
    obtain ⟨hname, hnames⟩ := List.forall_mem_cons.mp hnames
    rw [List.flatMap_cons, List.append_assoc] at hs
    obtain ⟨s₁, hread, hs₁⟩ := read_of_begins h (begins_write hname _) hs
    obtain ⟨s', hrest, hs'⟩ := ih hnames hs₁
    exact ⟨s', readEach_cons s names.length hread hrest, hs'⟩

/-- **The header of a name that is too long is refused**: for what its length says, or for its length. -/
theorem read_write_too_long (h : Serves ByteSource.read R last) (hlong : maxLength < (line name).length)
    (hs : R s (write name ++ rest)) : ∃ why s', read s = (.error (.protocol why), s') := by
  by_cases hle : (Varint.encode (line name).length).length ≤ maxPrefix
  · obtain ⟨s', hread, -⟩ := read_out_of_bounds h (announces_write hle rest) (.inr hlong) hs
    exact ⟨_, s', hread⟩
  · obtain ⟨init, b, hsplit⟩ := (List.eq_nil_or_concat' _).resolve_left
      (Varint.encode_ne_nil (line name).length)
    have hlen : maxPrefix ≤ init.length := by
      rw [hsplit, List.length_append, List.length_singleton] at hle
      omega
    have hgo : ∀ d ∈ (write name ++ rest).take maxPrefix, 128 ≤ d.toNat := by
      rw [write_eq, hsplit, List.append_assoc, List.append_assoc, List.take_append_of_le_length hlen]
      intro d hd
      exact (closes_concat.mp (hsplit ▸ Varint.closes_encode _)).1 d (List.mem_of_mem_take hd)
    have hall : maxPrefix ≤ (write name ++ rest).length := by
      rw [write_eq, hsplit]
      simp only [List.length_append]
      omega
    obtain ⟨s', hread, -⟩ := readLength_too_long h hgo hall hs
    exact ⟨_, s', by rw [read, hread]⟩

/-- **A header is read if the bytes begin with one, and what is behind it is left alone.** Bytes that end
before the header does that they begin are found to end early, and all others are refused. So names of
less than `maxLength` bytes are read back, as many as there are, and no longer name is ever read, as itself or
as another. -/
theorem accepts_grammar (s : Source) (hsteady : s.Steady) :
    (∀ name rest, (∃ s', read s = (.ok name, s') ∧ s'.data = rest) ↔ Begins s.data name rest) ∧
    ((∃ f s', read s = (.error (.io f), s') ∧ f.kind = .unexpectedEof) ↔ CutShort s.data) ∧
    ((∃ why s', read s = (.error (.protocol why), s')) ↔
      (∀ name rest, ¬ Begins s.data name rest) ∧ ¬ CutShort s.data) ∧
    (∀ names rest, (∀ name ∈ names, (Bytes.ofText name).length < maxLength) →
      s.data = names.flatMap write ++ rest →
      ∃ s', readEach s names.length = (.ok names, s') ∧ s'.data = rest) ∧
    ∀ name rest, maxLength ≤ (Bytes.ofText name).length → s.data = write name ++ rest →
      ∃ why s', read s = (.error (.protocol why), s') := by
  have hs : s.data = s.data ∧ s.Steady := ⟨rfl, hsteady⟩
  have houtcome := read_outcome Source.serves_steady hs
  have hline : ∀ name, (line name).length = (Bytes.ofText name).length + 1 := fun name => by
    rw [line, List.length_append, List.length_singleton]
  refine ⟨fun name rest => ⟨?_, fun hb => ?_⟩, ⟨?_, fun hcut => ?_⟩, ⟨?_, fun hnone => ?_⟩,
    fun names rest hnames hdata => ?_, fun name rest hlong hdata => ?_⟩
  · rintro ⟨s', hread, rfl⟩
    rw [hread] at houtcome
    cases houtcome with
    | named hb hs' => rwa [hs'.1]
  · obtain ⟨s', hread, hs', -⟩ := read_of_begins Source.serves_steady hb hs
    exact ⟨s', hread, hs'⟩
  · rintro ⟨f, s', hread, -⟩
    rw [hread] at houtcome
    cases houtcome with
    | ended hcut => exact hcut
  · exact read_of_cutShort Source.serves_steady hcut hs
  · rintro ⟨why, s', hread⟩
    rw [hread] at houtcome
    cases houtcome with
    | refused hb hcut => exact ⟨hb, hcut⟩
  · generalize hread : read s = answer at houtcome
    cases houtcome with
    | named hb => exact absurd hb (hnone.1 _ _)
    | ended hcut => exact absurd hcut hnone.2
    | refused => exact ⟨_, _, rfl⟩
  · have hlines : ∀ name ∈ names, (line name).length ≤ maxLength := fun name hname => by
      have := hnames name hname
      rw [hline]
      omega
    obtain ⟨s', hread, hs', -⟩ := readEach_write Source.serves_steady hlines ⟨hdata, hsteady⟩
    exact ⟨s', hread, hs'⟩
  · exact read_write_too_long Source.serves_steady (by rw [hline]; omega) ⟨hdata, hsteady⟩

/-- Two headers behind each other, the first with a newline in its name, from a source whose reads are
cut; a header whose length has a byte more than it needs; one that is cut; and one that is
too long. -/
theorem accepts_grammar_samples :
    let two : Source := ⟨["/a\n/b", ""].flatMap write ++ [1, 2], [.upTo 1, .upTo 2]⟩
    let padded : Source := ⟨[0x82, 0x80, 0x00, 0x78, 0x0A, 7], [.upTo 1]⟩
    let cut : Source := ⟨[0x03, 0x78], []⟩
    let long := String.ofList (List.replicate 1024 'a')
    two.Steady ∧ padded.Steady ∧ cut.Steady ∧
    (∃ s', readEach two 2 = (.ok ["/a\n/b", ""], s') ∧ s'.data = [1, 2]) ∧
    (∃ s', read padded = (.ok "x", s') ∧ s'.data = [7]) ∧
    (∃ f s', read cut = (.error (.io f), s') ∧ f.kind = .unexpectedEof) ∧
    maxLength ≤ (Bytes.ofText long).length ∧
    ∃ why s', read (Source.ofBytes (write long)) = (.error (.protocol why), s') := by
  intro two padded cut long
  have htwo : two.Steady := by decide
  have hpadded : padded.Steady := by decide
  have hcut : cut.Steady := by decide
  have hlong : maxLength ≤ (Bytes.ofText long).length := by
    decide +kernel
  refine ⟨htwo, hpadded, hcut, ?_, ?_, ?_, hlong, ?_⟩
  · exact (accepts_grammar two htwo).2.2.2.1 ["/a\n/b", ""] [1, 2] (by decide) rfl
  · refine ((accepts_grammar padded hpadded).1 "x" [7]).mpr ⟨[0x82, 0x80, 0x00], by decide, ?_, ?_⟩
    · exact .more (by decide) (.more (by decide) (.last (by decide)))
    · decide
  · exact (accepts_grammar cut hcut).2.1.mpr (.inr ⟨3, [0x78],
      ⟨[0x03], rfl, .last (by decide), by decide, rfl⟩, by decide, by decide, by decide⟩)
  · exact (accepts_grammar _ (Source.steady_ofBytes _)).2.2.2.2 long [] hlong (List.append_nil _).symm

end TraceRelay.Header
