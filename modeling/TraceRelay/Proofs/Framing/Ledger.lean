import TraceRelay.Proofs.Framing.Incremental
import TraceRelay.Proofs.Framing.Prefix

/-!
# A decoder knows where it is

Pieces of a stream may be fed to a decoder, batches asked of it and its end be checked, in any order,
however often, and after a failure as well.

1. `Decoder.calls`: what a caller hears who does so, and the decoder after it.
2. `Decoder.Frames`: the bytes of some frames one behind the other, by the batches they carry.
3. `Ledger`: every byte that was decompressed belongs to a frame that was given, or is still held. Every
   call keeps this (`Ledger.call`).
4. `Refuses`: the bytes that are held begin with something that is refused. More bytes do not change that.
-/

namespace TraceRelay.Batch.Decoder

/-! ## Calls -/

/-- What may be asked of a decoder. -/
inductive Call where
  | feed (data : Bytes)
  | next
  | finish

/-- What is heard of it. -/
inductive Answer where
  | fed (result : Except DecodeFailure Unit)
  | given (result : Except DecodeFailure (Option Batch))
  | finished (result : Except DecodeFailure Unit)

def call (d : Decoder) : Call → Answer × Decoder
  | .feed data => (.fed (d.feed data).1, (d.feed data).2)
  | .next => (.given d.next.1, d.next.2)
  | .finish => (.finished d.finish, d)

/-- Calls in turn: their answers, and the decoder after them. -/
def calls (d : Decoder) : List Call → List Answer × Decoder
  | [] => ([], d)
  | c :: cs => ((d.call c).1 :: ((d.call c).2.calls cs).1, ((d.call c).2.calls cs).2)

/-- The bytes that were fed. -/
def fed (cs : List Call) : Bytes :=
  cs.flatMap fun
    | .feed data => data
    | _ => []

/-- The batches among some answers. -/
def batches (answers : List Answer) : List Batch :=
  answers.filterMap fun
    | .given (.ok (some b)) => some b
    | _ => none

/-! ## Where the bytes are -/

/-- The bytes of frames that carry these batches: the length of each, and its body. -/
inductive Frames (limit : Nat) : List Batch → Bytes → Prop where
  | nil : Frames limit [] []
  | concat {bs : List Batch} {b : Batch} {data p body : Bytes} (before : Frames limit bs data)
      (length : Frame.peek p = .found body.length p.length) (fits : body.length ≤ limit)
      (carries : Batch.decode body = .ok b) : Frames limit (bs ++ [b]) (data ++ (p ++ body))

/-- The state of a decoder to which `data` was fed, and which has given the batches `bs`. -/
structure Ledger (limit : Nat) (data : Bytes) (bs : List Batch) (d : Decoder) : Prop where
  bound : d.limit = limit
  gzip : d.gzip = Gzip.Decoder.start.feedAll data
  place : d.consumed ≤ d.held.size
  balance : ∃ given, Frames limit bs given ∧ d.gzip.out.toList = given ++ d.pending

variable {limit : Nat} {data : Bytes} {bs : List Batch} {d : Decoder}

theorem ledger_start (limit : Nat) : Ledger limit [] [] (start.withLimit limit) :=
  ⟨rfl, rfl, Nat.le_refl _, [], .nil, rfl⟩

theorem consumed_feed (d : Decoder) (data : Bytes) : (d.feed data).2.consumed = 0 := by
  have hcompact : d.compact.consumed = 0 := by
    unfold compact
    split
    · rfl
    · next h => exact Nat.eq_zero_of_not_pos h
  unfold feed
  generalize d.compact = c at hcompact
  exact hcompact

theorem Ledger.feed (h : Ledger limit data bs d) (more : Bytes) :
    Ledger limit (data ++ more) bs (d.feed more).2 := by
  obtain ⟨-, hgzip, hlimit, hpending⟩ := feed_eq d more
  obtain ⟨given, hframes, hout⟩ := h.balance
  refine ⟨hlimit.trans h.bound, ?_, ?_, given, hframes, ?_⟩
  · rw [hgzip, h.gzip, Gzip.Decoder.feedAll_append]
  · rw [consumed_feed]
    exact Nat.zero_le _
  · rw [hgzip, hpending, out_feedAll, hout, coming, List.append_assoc]

theorem Ledger.give (h : Ledger limit data bs d) {rest : Bytes} {b : Batch}
    (front : front d.limit d.pending = .ok (some (b, rest))) :
    Ledger limit data (bs ++ [b]) (d.give (d.pending.length - rest.length)) := by
  obtain ⟨given, hframes, hout⟩ := h.balance
  obtain ⟨body, hframe, carries⟩ := front_eq_some.mp front
  obtain ⟨q, hsplit, hlength, hfits⟩ := Frame.front_split hframe
  refine ⟨h.bound, h.gzip, ?_, given ++ (q ++ body), .concat hframes hlength (h.bound ▸ hfits) carries, ?_⟩
  · have := h.place
    have := length_pending d
    show d.consumed + (d.pending.length - rest.length) ≤ d.held.size
    omega
  · rw [pending_give_front front, gzip_give, hout, hsplit]
    simp only [List.append_assoc]

/-- **Every call keeps the books.** -/
theorem Ledger.call (h : Ledger limit data bs d) (c : Call) :
    Ledger limit (data ++ fed [c]) (bs ++ batches [(d.call c).1]) (d.call c).2 := by
  cases c with
  | feed more =>
    have hfed : fed [.feed more] = more := List.append_nil _
    rw [hfed]
    exact (List.append_nil bs).symm ▸ h.feed more
  | finish =>
    have hfed : fed [.finish] = [] := rfl
    rw [hfed, List.append_nil]
    exact (List.append_nil bs).symm ▸ h
  | next =>
    have hfed : fed [.next] = [] := rfl
    rw [hfed, List.append_nil]
    show Ledger limit data (bs ++ batches [.given d.next.1]) d.next.2
    have hcases := d.next_cases
    generalize d.next = answer at hcases
    cases hcases with
    | given hfront => exact h.give hfront
    | none | refused => exact (List.append_nil bs).symm ▸ h

theorem Ledger.calls (h : Ledger limit data bs d) (cs : List Call) :
    Ledger limit (data ++ fed cs) (bs ++ batches (d.calls cs).1) (d.calls cs).2 := by
  induction cs generalizing data bs d with
  | nil =>
    show Ledger limit (data ++ []) (bs ++ []) d
    rw [List.append_nil, List.append_nil]
    exact h
  | cons c cs ih =>
    have hrest := ih (h.call c)
    have hfed : fed (c :: cs) = fed [c] ++ fed cs := by
      show _ ++ fed cs = _ ++ [] ++ fed cs
      rw [List.append_nil]
    have hbatches : batches (d.calls (c :: cs)).1 =
        batches [(d.call c).1] ++ batches ((d.call c).2.calls cs).1 :=
      List.filterMap_append (l := [(d.call c).1])
    rw [hfed, hbatches, ← List.append_assoc, ← List.append_assoc]
    exact hrest

/-! ## What is refused stays refused -/

/-- What is held begins with something that is refused for `e`. -/
def Refuses (d : Decoder) (e : DecodeFailure) : Prop := front d.limit d.pending = .error e

variable {e : DecodeFailure}

theorem Refuses.next (h : Refuses d e) : d.next = (.error e, d) := by
  rw [next_eq, show front d.limit d.pending = .error e from h]

theorem refuses_of_next (h : d.next.1 = .error e) : Refuses d e := by
  have hcases := d.next_cases
  generalize d.next = answer at h hcases
  cases hcases with
  | given | none => cases h
  | refused hfront => cases h; exact hfront

/-- More bytes do not change what is refused, and nothing else moves the decoder away from it. -/
theorem Refuses.call (h : Refuses d e) (c : Call) : Refuses (d.call c).2 e := by
  cases c with
  | feed data =>
    obtain ⟨-, -, hlimit, hpending⟩ := feed_eq d data
    show front (d.feed data).2.limit (d.feed data).2.pending = .error e
    rw [hlimit, hpending]
    exact front_append_error _ h
  | next =>
    show Refuses d.next.2 e
    rw [h.next]
    exact h
  | finish => exact h

theorem Refuses.finish (h : Refuses d e) : d.finish ≠ .ok () := by
  refine finish_ne_ok fun hnil => ?_
  have hfront : front d.limit d.pending = .error e := h
  rw [hnil, front_nil] at hfront
  cases hfront

/-- What is heard of a decoder that refuses what it holds. -/
theorem Refuses.answer (h : Refuses d e) (c : Call) :
    (∀ result, (d.call c).1 = .given result → result = .error e) ∧
      ∀ result, (d.call c).1 = .finished result → result ≠ .ok () := by
  cases c with
  | feed data => exact ⟨nofun, nofun⟩
  | next =>
    refine ⟨?_, nofun⟩
    rintro _ ⟨⟩
    rw [h.next]
  | finish =>
    refine ⟨nofun, ?_⟩
    rintro _ ⟨⟩
    exact h.finish

/-- **It is refused for good**, whatever is asked. -/
theorem Refuses.calls (h : Refuses d e) (cs : List Call) :
    (∀ result, .given result ∈ (d.calls cs).1 → result = .error e) ∧
      ∀ result, .finished result ∈ (d.calls cs).1 → result ≠ .ok () := by
  induction cs generalizing d with
  | nil => exact ⟨nofun, nofun⟩
  | cons c cs ih =>
    obtain ⟨hgiven, hfinished⟩ := h.answer c
    obtain ⟨hgiven', hfinished'⟩ := ih (h.call c)
    refine ⟨fun result hmem => ?_, fun result hmem => ?_⟩
    · rcases List.mem_cons.mp hmem with hfirst | hlater
      · exact hgiven result hfirst.symm
      · exact hgiven' result hlater
    · rcases List.mem_cons.mp hmem with hfirst | hlater
      · exact hfinished result hfirst.symm
      · exact hfinished' result hlater

/-- Why a decoder refuses what it holds: for a length that does not end, one beyond its limit, or a body
that is no message. -/
theorem Refuses.reason (h : Refuses d e) :
    e = .invalidLength ∨ (∃ len, e = .frameTooLarge len d.limit) ∨ ∃ f, e = .message f := by
  rcases front_eq_error.mp h with hframe | ⟨body, rest, f, -, -, rfl⟩
  · rcases Frame.front_eq_error.mp hframe with ⟨-, rfl⟩ | ⟨len, size, -, -, rfl⟩
    · exact .inl rfl
    · exact .inr (.inl ⟨len, rfl⟩)
  · exact .inr (.inr ⟨f, rfl⟩)

/-! ## Any calls -/

/-- **A decoder loses no byte and repeats none.** Whatever was asked of it, in whatever order, the bytes
that it has decompressed are those of the frames that it has given, and then those that it holds. It looks
at no byte outside of these. If it has no batch to give, or refuses one, it stays where it is; it has none
only if it does not hold a whole frame; and what it refuses once, it refuses from then on for the same
reason, so that the stream does not end well any more. -/
theorem keeps_books (limit : Nat) (cs : List Call) :
    let d := ((start.withLimit limit).calls cs).2
    let answers := ((start.withLimit limit).calls cs).1
    d.gzip = Gzip.Decoder.start.feedAll (fed cs) ∧
    d.consumed ≤ d.held.size ∧
    (∃ given, Frames limit (batches answers) given ∧ d.gzip.out.toList = given ++ d.pending) ∧
    (∀ len size, Frame.peek d.pending = .found len size → len < UInt64.size ∧ 0 < size ∧
      size ≤ Frame.maxPrefix ∧ size ≤ d.pending.length ∧
      (len ≤ d.pending.length - size → d.consumed + size + len ≤ d.held.size)) ∧
    (∀ result d', d.next = (result, d') → (∃ b, result = .ok (some b)) ∨ d' = d) ∧
    (d.next.1 = .ok none → Frame.peek d.pending = .incomplete ∨
      ∃ len size, Frame.peek d.pending = .found len size ∧ len ≤ limit ∧ d.pending.length < size + len) ∧
    ∀ e, d.next.1 = .error e →
      (e = .invalidLength ∨ (∃ len, e = .frameTooLarge len limit) ∨ ∃ f, e = .message f) ∧
      ∀ more, (∀ result, .given result ∈ (d.calls more).1 → result = .error e) ∧
        ∀ result, .finished result ∈ (d.calls more).1 → result ≠ .ok () := by
  intro d answers
  have hledger : Ledger limit (fed cs) (batches answers) d := (ledger_start limit).calls cs
  refine ⟨hledger.gzip, hledger.place, hledger.balance, fun len size hpeek => ?_, fun result d' hnext => ?_,
    fun hnext => ?_, fun e he => ?_⟩
  · obtain ⟨q, -, -, -, -, hmax, hlen⟩ := Frame.peek_eq_found.mp hpeek
    have hsize := Frame.size_of_peek hpeek
    have hlength := length_pending d
    have hplace := hledger.place
    refine ⟨hlen ▸ Nat.mod_lt _ (by decide), hsize.1, hmax, hsize.2, fun hle => ?_⟩
    omega
  · have hcases := d.next_cases
    rw [hnext] at hcases
    cases hcases with
    | given => exact .inl ⟨_, rfl⟩
    | none | refused => exact .inr rfl
  · have hcases := d.next_cases
    generalize d.next = answer at hnext hcases
    cases hcases with
    | given | refused => cases hnext
    | none hfront => exact hledger.bound ▸ Frame.front_eq_none.mp (front_eq_none.mp hfront)
  · have hrefuses := refuses_of_next he
    have hreason := hrefuses.reason
    rw [hledger.bound] at hreason
    exact ⟨hreason, hrefuses.calls⟩

/-- Two batches, and the beginning of a frame that is too long, in a stored block that comes in two
pieces. -/
theorem keeps_books_oversized :
    let pieces : List Bytes := [[31, 139, 8, 0, 0, 0, 0, 0, 4, 255, 0, 7, 0, 248, 255, 4, 10],
      [2, 7, 8, 0, 9]]
    let cs : List Call := [.next, .feed pieces[0], .next, .feed pieces[1], .finish, .next, .next, .next]
    let d := ((start.withLimit 4).calls cs).2
    let answers := ((start.withLimit 4).calls cs).1
    batches answers = [⟨[[7, 8]]⟩, ⟨[]⟩] ∧ d.pending = [9] ∧
    (∃ given, Frames 4 [⟨[[7, 8]]⟩, ⟨[]⟩] given ∧ [4, 10, 2, 7, 8, 0, 9] = given ++ [9]) ∧
    ∀ more, (∀ result, .given result ∈ (d.calls more).1 → result = .error (.frameTooLarge 9 4)) ∧
      ∀ result, .finished result ∈ (d.calls more).1 → result ≠ .ok () := by
  intro pieces cs d answers
  have hbatches : batches answers = [⟨[[7, 8]]⟩, ⟨[]⟩] := by decide +kernel
  have hpending : d.pending = [9] := by decide +kernel
  have hout : d.gzip.out.toList = [4, 10, 2, 7, 8, 0, 9] := by decide +kernel
  have herror : d.next.1 = .error (.frameTooLarge 9 4) := by decide +kernel
  obtain ⟨-, -, hbalance, -, -, -, hrefused⟩ := keeps_books 4 cs
  refine ⟨hbatches, hpending, ?_, (hrefused _ herror).2⟩
  rw [← hbatches, ← hout, ← hpending]
  exact hbalance

end TraceRelay.Batch.Decoder
