import TraceRelay.Proofs.Framing.TraceFile

/-!
# A file read to its end, and beyond

`Reader.answers` are the answers of a reader that is asked again and again. Over any source that
gives its bytes, however it cuts its reads, they are the bodies of the blocks and then the end, for
good (`answers_blocks`, `answers_end`). A file that is cut is cut in one block or between two
(`cut_blocks`), and what is left of a block is no frame (`front_cut`): a reader gives the blocks
before the cut and says whether one was cut.
-/

namespace TraceRelay

/-- The records of events that are encoded already are their blocks. -/
theorem Encoder.appendAll_rawDelimited (out : Bytes) (bodies : List Bytes) :
    (Encoder.rawDelimited.appendAll out bodies).1 = out ++ bodies.flatMap Wire.block := by
  induction bodies generalizing out with
  | nil => exact (List.append_nil out).symm
  | cons body bodies ih =>
    rw [Encoder.appendAll]
    dsimp only
    rw [ih, List.flatMap_cons, ← List.append_assoc]
    rfl

namespace Frame

/-! ## Cut files -/

/-- What is left of a block holds no frame. -/
theorem front_cut {limit : Nat} {body q : Bytes} (hlimit : limit < UInt64.size)
    (fits : body.length ≤ limit) (hq : q <+: Wire.block body) (hne : q ≠ Wire.block body) :
    front limit q = .ok none := by
  obtain ⟨more, hmore⟩ := hq
  have hfront := @front_block limit body [] (by omega)
  rw [List.append_nil, ← hmore, if_neg (by omega)] at hfront
  cases hcut : front limit q with
  | error e => rw [front_append_error more hcut] at hfront; cases hfront
  | ok found =>
    cases found with
    | none => rfl
    | some found =>
      obtain ⟨body', rest⟩ := found
      rw [front_append_some more hcut] at hfront
      simp only [Except.ok.injEq, Option.some.injEq, Prod.mk.injEq, List.append_eq_nil_iff] at hfront
      rw [hfront.2.2, List.append_nil] at hmore
      exact absurd hmore hne

/-- A file of blocks that is cut is cut in one of them, or right before it. -/
theorem cut_blocks {bodies : List Bytes} {p : Bytes} (hp : p <+: bodies.flatMap Wire.block)
    (hne : p ≠ bodies.flatMap Wire.block) :
    ∃ before body after q, bodies = before ++ body :: after ∧ p = before.flatMap Wire.block ++ q ∧
      q <+: Wire.block body ∧ q ≠ Wire.block body := by
  induction bodies generalizing p with
  | nil => exact absurd (List.prefix_nil.mp hp) hne
  | cons body bodies ih =>
    rw [List.flatMap_cons] at hp hne
    by_cases hle : (Wire.block body).length ≤ p.length
    · obtain ⟨p, rfl⟩ := List.prefix_of_prefix_length_le (List.prefix_append _ _) hp hle
      obtain ⟨before, cut, after, q, rfl, rfl, hq, hqne⟩ :=
        ih ((List.prefix_append_right_inj _).mp hp) (fun h => hne (by rw [h]))
      exact ⟨body :: before, cut, after, q, rfl,
        by rw [List.flatMap_cons, List.append_assoc], hq, hqne⟩
    · have hq := List.prefix_of_prefix_length_le hp (List.prefix_append _ _) (by omega)
      exact ⟨[], body, bodies, p, rfl, rfl, hq, fun h => hle (h ▸ Nat.le_refl _)⟩

/-! ## Answers in a row -/

variable {σ : Type} [ByteSource σ] {R : σ → Bytes → Prop} {r : Reader σ}

namespace Reader

open ByteSource

/-- The answers to `n` calls in a row, whatever they are. -/
def answers (r : Reader σ) : Nat → List (Except DecodeFailure (Option Bytes))
  | 0 => []
  | n + 1 => r.next.1 :: answers r.next.2 n

theorem answers_succ {v : Except DecodeFailure (Option Bytes)} {r' : Reader σ}
    (h : r.next = (v, r')) (n : Nat) : r.answers (n + 1) = v :: r'.answers n := by
  rw [answers, h]

/-- A source that has ended has ended for good. -/
theorem answers_end (h : Serves readPatiently R none) (hs : R r.source []) (n : Nat) :
    r.answers n = List.replicate n (.ok none) := by
  induction n generalizing r with
  | zero => rfl
  | succ n ih =>
    obtain ⟨v, r', hnext, hv, -, hs'⟩ := next_of_none h hs (front_nil _)
    have hv : v = .ok none := hv
    rw [answers_succ hnext, ih hs', hv, List.replicate_succ]

/-- The bodies of the blocks, and then the answers on what follows them. -/
theorem answers_blocks (h : Serves readPatiently R none) (hlimit : r.limit < UInt64.size)
    {bodies : List Bytes} (fits : ∀ body ∈ bodies, body.length ≤ r.limit) {q : Bytes}
    (hs : R r.source (bodies.flatMap Wire.block ++ q)) :
    ∃ r' : Reader σ, r'.limit = r.limit ∧ R r'.source q ∧
      ∀ n, r.answers (bodies.length + n) =
        bodies.map (fun body => .ok (some body)) ++ r'.answers n := by
  induction bodies generalizing r with
  | nil => exact ⟨r, rfl, hs, fun n => by rw [List.length_nil, Nat.zero_add]; rfl⟩
  | cons body bodies ih =>
    have hbody : body.length ≤ r.limit := fits body (List.mem_cons_self ..)
    rw [List.flatMap_cons, List.append_assoc] at hs
    obtain ⟨r₁, hnext, hsame, hs₁⟩ := next_of_some h hs
      ((front_block _ (by omega)).trans (if_neg (by omega)))
    obtain ⟨r', hlimit', hs', hrest⟩ := ih (by rw [hsame]; exact hlimit)
      (fun body hmem => by rw [hsame]; exact fits body (List.mem_cons_of_mem _ hmem)) hs₁
    refine ⟨r', hlimit'.trans hsame, hs', fun n => ?_⟩
    rw [List.length_cons, show bodies.length + 1 + n = bodies.length + n + 1 by omega,
      answers_succ hnext, hrest n, List.map_cons, List.cons_append]

/-- The answers on what is left of a block: that it was cut, unless nothing is left of it. -/
theorem answers_cut (h : Serves readPatiently R none) (hlimit : r.limit < UInt64.size) {body q : Bytes}
    (fits : body.length ≤ r.limit) (hq : q <+: Wire.block body) (hne : q ≠ Wire.block body)
    (hs : R r.source q) (n : Nat) :
    r.answers (n + 1) =
      (if q = [] then .ok none else .error .truncated) :: List.replicate n (.ok none) := by
  obtain ⟨v, r', hnext, hv, -, hs'⟩ := next_of_none h hs (front_cut hlimit fits hq hne)
  have hv : v = if q = [] then .ok none else .error .truncated := hv
  rw [answers_succ hnext, answers_end h hs', hv]

end Reader

/-! ## Files -/

/-- **A file of records reads back**, however the source cuts its answers and whichever reads it
interrupts, and wherever the file was cut. -/
structure ReadsBack (bodies : List Bytes) (limit : Nat) : Prop where
  /-- The whole file gives the bodies, and then the end however often it is asked. -/
  whole (s : Source) (calm : s.Calm) (data : s.data = (Encoder.rawDelimited.appendAll [] bodies).1)
    (n : Nat) : (Reader.mk s limit).answers (bodies.length + n) =
      bodies.map (fun body => .ok (some body)) ++ List.replicate n (.ok none)
  /-- A part of it gives the bodies that lie in it, and then the end, if the cut is between two
  records, or first that a record was cut. -/
  part (s : Source) (calm : s.Calm)
    (data : s.data <+: (Encoder.rawDelimited.appendAll [] bodies).1)
    (cut : s.data ≠ (Encoder.rawDelimited.appendAll [] bodies).1) :
    ∃ before body after q, bodies = before ++ body :: after ∧
      s.data = (Encoder.rawDelimited.appendAll [] before).1 ++ q ∧
      q <+: (Encoder.rawDelimited body).appended ∧ q ≠ (Encoder.rawDelimited body).appended ∧
      ∀ n, (Reader.mk s limit).answers (before.length + (n + 1)) =
        before.map (fun body => .ok (some body)) ++
          (if q = [] then .ok none else .error .truncated) :: List.replicate n (.ok none)
  /-- The whole file is read as its events, if each body is one and a reader's own limit admits
  it. -/
  events {α : Type} [Message α] (events : List α)
    (fits : ∀ body ∈ bodies, body.length ≤ defaultLimit)
    (valid : bodies.mapM Message.decode = .ok events) :
    readEvents (Encoder.rawDelimited.appendAll [] bodies).1 = .ok events

/-- **What was written in records is read back record by record.** -/
theorem reads_back (bodies : List Bytes) {limit : Nat} (hlimit : limit < UInt64.size)
    (fits : ∀ body ∈ bodies, body.length ≤ limit) : ReadsBack bodies limit where
  whole s calm data n := by
    have hs : s.data = bodies.flatMap Wire.block ++ [] ∧ s.Calm :=
      ⟨by rw [data, Encoder.appendAll_rawDelimited, List.nil_append, List.append_nil], calm⟩
    obtain ⟨r', -, hs', hanswers⟩ :=
      Reader.answers_blocks (r := Reader.mk s limit) Source.serves hlimit fits hs
    rw [hanswers, Reader.answers_end Source.serves hs']
  part s calm data cut := by
    rw [Encoder.appendAll_rawDelimited, List.nil_append] at data cut
    obtain ⟨before, body, after, q, rfl, hdata, hq, hne⟩ := cut_blocks data cut
    obtain ⟨r', hsame, hs', hanswers⟩ :=
      Reader.answers_blocks (r := Reader.mk s limit) Source.serves hlimit
        (fun body hmem => fits body (List.mem_append_left _ hmem)) ⟨hdata, calm⟩
    refine ⟨before, body, after, q, rfl, ?_, hq, hne, fun n => ?_⟩
    · rw [hdata, Encoder.appendAll_rawDelimited, List.nil_append]
    · have hbody : body.length ≤ r'.limit := by
        rw [hsame]
        exact fits body (List.mem_append_right _ (List.mem_cons_self ..))
      rw [hanswers, Reader.answers_cut Source.serves (by rw [hsame]; exact hlimit) hbody hq hne hs']
  events events fits valid := by
    rw [Encoder.appendAll_rawDelimited, List.nil_append]
    exact readEvents_blocks fits valid

theorem reads_back_pieces :
    let bodies : List Bytes := [[1, 2], [], [3]]
    let file := (Encoder.rawDelimited.appendAll [] bodies).1
    let s : Source := ⟨file, [.upTo 1, .interrupted, .upTo 1, .interrupted, .interrupted]⟩
    let part : Source := ⟨file.take 5, [.interrupted, .upTo 2]⟩
    (4 < UInt64.size ∧ ∀ body ∈ bodies, body.length ≤ 4) ∧ ReadsBack bodies 4 ∧
      (Reader.mk s 4).answers 5 =
        [.ok (some [1, 2]), .ok (some []), .ok (some [3]), .ok none, .ok none] ∧
      part.data <+: file ∧ part.data ≠ file := by
  intro bodies file s part
  have hfits : ∀ body ∈ bodies, body.length ≤ 4 := by decide
  have hback := reads_back bodies (by decide : 4 < UInt64.size) hfits
  have hcalm : s.Calm := by decide +kernel
  exact ⟨⟨by decide, hfits⟩, hback, hback.whole s hcalm rfl 2, List.take_prefix 5 file,
    by decide +kernel⟩

end Frame

end TraceRelay
