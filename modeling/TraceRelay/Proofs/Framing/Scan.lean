import TraceRelay.Frame

/-!
# Reading a payload

What a payload, a run of frames of batches, comes to under a frame limit, apart from any source it
is read from and from how it arrives.

1. `Frame.peek` looks at ten bytes at most (`peek_take`), and what it has found or refused does not
   change as more bytes arrive (`peek_append`).
2. `Frame.front` is the frame at the front of a payload, `Batch.front` the batch, `Batch.scan` all
   batches up to a failure or to bytes that hold no whole frame.
3. `scan_append`: a payload may be read in two goes.
4. `Frame.Whole`: a payload ends exactly between two frames.
-/

namespace TraceRelay

namespace Frame

/-! ## Lengths -/

theorem size_of_peekAt {place value len size : Nat} {p : Bytes}
    (h : peekAt place value p = .found len size) : place < size ∧ size ≤ place + p.length := by
  induction p generalizing place value with
  | nil => simp only [peekAt] at h; split at h <;> cases h
  | cons b rest ih =>
    simp only [peekAt] at h
    split at h
    · cases h
    · split at h
      · simp only [Length.found.injEq] at h
        rw [List.length_cons]; omega
      · have := ih h
        rw [List.length_cons]; omega

theorem peekAt_append {place value : Nat} {p : Bytes} (q : Bytes)
    (h : peekAt place value p ≠ .incomplete) :
    peekAt place value (p ++ q) = peekAt place value p := by
  induction p generalizing place value with
  | nil =>
    have hp : ¬ place < maxPrefix := fun hp => h (by simp [peekAt, hp])
    cases q with
    | nil => rfl
    | cons b q => simp [peekAt, hp, Nat.le_of_not_lt hp]
  | cons b rest ih =>
    rw [List.cons_append]
    unfold peekAt at h ⊢
    split
    · rfl
    · split
      · rfl
      · rw [if_neg ‹_›, if_neg ‹_›] at h
        exact ih h

theorem peekAt_take (place value : Nat) (p : Bytes) (h : place ≤ maxPrefix) :
    peekAt place value (p.take (maxPrefix - place)) = peekAt place value p := by
  induction p generalizing place value with
  | nil => rw [List.take_nil]
  | cons b rest ih =>
    by_cases hp : place = maxPrefix
    · subst hp
      simp [peekAt]
    · have hlt : place < maxPrefix := by omega
      rw [show maxPrefix - place = maxPrefix - (place + 1) + 1 by omega, List.take_succ_cons]
      unfold peekAt
      rw [ih _ _ hlt]

/-- Ten bytes say all there is to say about a length. -/
theorem peek_take (p : Bytes) : peek (p.take maxPrefix) = peek p := peekAt_take 0 0 p (by omega)

/-- What was found or refused stays so, whatever follows. -/
theorem peek_append {p : Bytes} (q : Bytes) (h : peek p ≠ .incomplete) :
    peek (p ++ q) = peek p := peekAt_append q h

theorem size_of_peek {p : Bytes} {len size : Nat} (h : peek p = .found len size) :
    0 < size ∧ size ≤ p.length := by
  have := size_of_peekAt h
  omega

theorem peekAt_take_size {place value len size : Nat} {p : Bytes}
    (h : peekAt place value p = .found len size) :
    peekAt place value (p.take (size - place)) = .found len size := by
  induction p generalizing place value with
  | nil => rw [List.take_nil]; exact h
  | cons b rest ih =>
    have hsize := size_of_peekAt h
    rw [show size - place = size - (place + 1) + 1 by omega, List.take_succ_cons]
    unfold peekAt at h ⊢
    split
    · next hp => rw [if_pos hp] at h; cases h
    · next hp =>
      rw [if_neg hp] at h
      split
      · next hb => rw [if_pos hb] at h; exact h
      · next hb => rw [if_neg hb] at h; exact ih h

/-- A length says nothing of what follows it. -/
theorem peek_take_size {p : Bytes} {len size : Nat} (h : peek p = .found len size) :
    peek (p.take size) = .found len size := peekAt_take_size h

theorem peek_nil : peek [] = .incomplete := rfl

/-! ## One frame -/

/-- The frame at the front of a payload, and what follows it; none if the bytes end first. -/
def front (limit : Nat) (p : Bytes) : Except DecodeFailure (Option (Bytes × Bytes)) :=
  match peek p with
  | .malformed => .error .invalidLength
  | .incomplete => .ok none
  | .found len size =>
    if limit < len then .error (.frameTooLarge len limit)
    else if p.length - size < len then .ok none
    else .ok (some ((p.drop size).take len, p.drop (size + len)))

theorem front_nil (limit : Nat) : front limit [] = .ok none := rfl

/-- A frame takes a length and a body of that length. -/
theorem front_eq_some {limit : Nat} {p body rest : Bytes} :
    front limit p = .ok (some (body, rest)) ↔
      ∃ len size, peek p = .found len size ∧ len ≤ limit ∧ size + len ≤ p.length ∧
        body = (p.drop size).take len ∧ rest = p.drop (size + len) := by
  unfold front
  constructor
  · intro h
    split at h
    · cases h
    · cases h
    · next len size hpeek =>
      have hsize := size_of_peek hpeek
      split at h
      · cases h
      · split at h
        · cases h
        · simp only [Except.ok.injEq, Option.some.injEq, Prod.mk.injEq] at h
          exact ⟨len, size, hpeek, by omega, by omega, h.1.symm, h.2.symm⟩
  · rintro ⟨len, size, hpeek, hlimit, hle, rfl, rfl⟩
    rw [hpeek]
    dsimp only
    rw [if_neg (by omega), if_neg (by omega)]

/-- Bytes end before a frame does in its length or in its body. -/
theorem front_eq_none {limit : Nat} {p : Bytes} :
    front limit p = .ok none ↔ peek p = .incomplete ∨
      ∃ len size, peek p = .found len size ∧ len ≤ limit ∧ p.length < size + len := by
  unfold front
  cases hpeek : peek p with
  | malformed => simp
  | incomplete => simp
  | found len size =>
    have := size_of_peek hpeek
    dsimp only
    constructor
    · intro h
      split at h
      · cases h
      · split at h
        · exact .inr ⟨len, size, rfl, by omega, by omega⟩
        · cases h
    · rintro (h | ⟨len', size', h, hlimit, hlt⟩)
      · cases h
      · cases h
        rw [if_neg (by omega), if_pos (by omega)]

/-- A frame is refused for its length, before its body is looked at. -/
theorem front_eq_error {limit : Nat} {p : Bytes} {e : DecodeFailure} :
    front limit p = .error e ↔ peek p = .malformed ∧ e = .invalidLength ∨
      ∃ len size, peek p = .found len size ∧ limit < len ∧ e = .frameTooLarge len limit := by
  unfold front
  cases hpeek : peek p with
  | malformed => simp [eq_comm]
  | incomplete => simp
  | found len size =>
    dsimp only
    constructor
    · intro h
      split at h
      · next hlimit => cases h; exact .inr ⟨len, size, rfl, hlimit, rfl⟩
      · split at h <;> cases h
    · rintro (⟨h, -⟩ | ⟨len', size', h, hlimit, rfl⟩)
      · cases h
      · cases h
        rw [if_pos hlimit]

theorem length_front {limit : Nat} {p body rest : Bytes}
    (h : front limit p = .ok (some (body, rest))) : rest.length < p.length := by
  obtain ⟨len, size, hpeek, -, hle, -, rfl⟩ := front_eq_some.mp h
  have := size_of_peek hpeek
  rw [List.length_drop]; omega

theorem front_suffix {limit : Nat} {p body rest : Bytes}
    (h : front limit p = .ok (some (body, rest))) : rest <:+ p := by
  obtain ⟨len, size, -, -, -, -, rfl⟩ := front_eq_some.mp h
  exact List.drop_suffix _ _

/-- The frame at the front of a payload: a length, and a body that is no longer than it may be. -/
theorem front_split {limit : Nat} {p body rest : Bytes}
    (h : front limit p = .ok (some (body, rest))) :
    ∃ q, p = q ++ body ++ rest ∧ peek q = .found body.length q.length ∧ body.length ≤ limit := by
  obtain ⟨len, size, hpeek, hlimit, hle, rfl, rfl⟩ := front_eq_some.mp h
  have hlength : ((p.drop size).take len).length = len := by
    rw [List.length_take, List.length_drop]; omega
  have hsize : (p.take size).length = size := by rw [List.length_take]; omega
  refine ⟨p.take size, ?_, ?_, by omega⟩
  · rw [List.append_assoc, ← List.drop_drop, List.take_append_drop, List.take_append_drop]
  · rw [hlength, hsize]
    exact peek_take_size hpeek

theorem front_append_some {limit : Nat} {p body rest : Bytes} (q : Bytes)
    (h : front limit p = .ok (some (body, rest))) :
    front limit (p ++ q) = .ok (some (body, rest ++ q)) := by
  obtain ⟨len, size, hpeek, hlimit, hle, rfl, rfl⟩ := front_eq_some.mp h
  refine front_eq_some.mpr ⟨len, size, ?_, hlimit, ?_, ?_, ?_⟩
  · rw [peek_append q (by rw [hpeek]; nofun), hpeek]
  · rw [List.length_append]; omega
  · rw [List.drop_append_of_le_length (by omega),
      List.take_append_of_le_length (by rw [List.length_drop]; omega)]
  · rw [List.drop_append_of_le_length hle]

theorem front_append_error {limit : Nat} {p : Bytes} {e : DecodeFailure} (q : Bytes)
    (h : front limit p = .error e) : front limit (p ++ q) = .error e := by
  have hpeek : peek (p ++ q) = peek p := by
    refine peek_append q fun hp => ?_
    unfold front at h
    rw [hp] at h
    cases h
  unfold front at h ⊢
  rw [hpeek]
  split at h
  · exact h
  · cases h
  · split at h
    · next hlimit => rw [if_pos hlimit]; exact h
    · split at h <;> cases h

/-- A payload that ends exactly between two frames. -/
inductive Whole : Bytes → Prop where
  | nil : Whole []
  | frame {p body rest : Bytes} (length : peek p = .found body.length p.length) :
      Whole rest → Whole (p ++ body ++ rest)

/-- The frame that a payload begins with is at its front, unless it is too long. -/
theorem front_of_frame {limit : Nat} {p body : Bytes} (rest : Bytes)
    (h : peek p = .found body.length p.length) :
    front limit (p ++ body ++ rest) =
      if limit < body.length then .error (.frameTooLarge body.length limit)
      else .ok (some (body, rest)) := by
  have hpeek : peek (p ++ body ++ rest) = .found body.length p.length := by
    rw [List.append_assoc, peek_append _ (by rw [h]; nofun), h]
  split
  · next hlimit => exact front_eq_error.mpr (.inr ⟨_, _, hpeek, hlimit, rfl⟩)
  · next hlimit =>
    refine front_eq_some.mpr ⟨_, _, hpeek, by omega, ?_, ?_, ?_⟩
    · simp only [List.length_append]; omega
    · rw [List.append_assoc, List.drop_left, List.take_left]
    · rw [← List.length_append, List.drop_left]

end Frame

namespace Batch

/-! ## One batch -/

/-- The batch at the front of a payload, and what follows it; none if the bytes end first. -/
def front (limit : Nat) (p : Bytes) : Except DecodeFailure (Option (Batch × Bytes)) :=
  match Frame.front limit p with
  | .error e => .error e
  | .ok none => .ok none
  | .ok (some (body, rest)) =>
    match Batch.decode body with
    | .error f => .error (.message f)
    | .ok batch => .ok (some (batch, rest))

theorem front_nil (limit : Nat) : front limit [] = .ok none := rfl

theorem front_eq_some {limit : Nat} {p rest : Bytes} {b : Batch} :
    front limit p = .ok (some (b, rest)) ↔
      ∃ body, Frame.front limit p = .ok (some (body, rest)) ∧ Batch.decode body = .ok b := by
  unfold front
  constructor
  · intro h
    split at h
    · cases h
    · cases h
    · next body rest' hframe =>
      split at h
      · cases h
      · next hdecode => cases h; exact ⟨body, hframe, hdecode⟩
  · rintro ⟨body, hframe, hdecode⟩
    rw [hframe]
    dsimp only
    rw [hdecode]

theorem front_eq_none {limit : Nat} {p : Bytes} :
    front limit p = .ok none ↔ Frame.front limit p = .ok none := by
  unfold front
  cases Frame.front limit p with
  | error e => exact ⟨nofun, nofun⟩
  | ok found =>
    cases found with
    | none => exact ⟨fun _ => rfl, fun _ => rfl⟩
    | some found =>
      obtain ⟨body, rest⟩ := found
      dsimp only
      cases Batch.decode body with
      | error f => exact ⟨nofun, nofun⟩
      | ok b => exact ⟨nofun, nofun⟩

/-- A batch is refused because its frame is, or because its body is no message. -/
theorem front_eq_error {limit : Nat} {p : Bytes} {e : DecodeFailure} :
    front limit p = .error e ↔ Frame.front limit p = .error e ∨
      ∃ body rest f, Frame.front limit p = .ok (some (body, rest)) ∧ Batch.decode body = .error f ∧
        e = .message f := by
  unfold front
  cases Frame.front limit p with
  | error e' =>
    dsimp only
    constructor
    · intro h
      cases h
      exact .inl rfl
    · rintro (h | ⟨body, rest, f, h, -⟩)
      · cases h
        rfl
      · cases h
  | ok found =>
    cases found with
    | none => exact ⟨nofun, nofun⟩
    | some found =>
      obtain ⟨body, rest⟩ := found
      dsimp only
      constructor
      · intro h
        split at h
        · next f hf => cases h; exact .inr ⟨body, rest, f, rfl, hf, rfl⟩
        · cases h
      · rintro (h | ⟨body', rest', f, hsame, hf, rfl⟩)
        · cases h
        · cases hsame
          rw [hf]

theorem length_front {limit : Nat} {p rest : Bytes} {b : Batch}
    (h : front limit p = .ok (some (b, rest))) : rest.length < p.length := by
  obtain ⟨body, hframe, -⟩ := front_eq_some.mp h
  exact Frame.length_front hframe

theorem front_append_some {limit : Nat} {p rest : Bytes} {b : Batch} (q : Bytes)
    (h : front limit p = .ok (some (b, rest))) :
    front limit (p ++ q) = .ok (some (b, rest ++ q)) := by
  obtain ⟨body, hframe, hdecode⟩ := front_eq_some.mp h
  exact front_eq_some.mpr ⟨body, Frame.front_append_some q hframe, hdecode⟩

theorem front_append_error {limit : Nat} {p : Bytes} {e : DecodeFailure} (q : Bytes)
    (h : front limit p = .error e) : front limit (p ++ q) = .error e := by
  rcases front_eq_error.mp h with hframe | ⟨body, rest, f, hframe, hdecode, rfl⟩
  · exact front_eq_error.mpr (.inl (Frame.front_append_error q hframe))
  · exact front_eq_error.mpr
      (.inr ⟨body, rest ++ q, f, Frame.front_append_some q hframe, hdecode, rfl⟩)

/-! ## All batches -/

/-- What a payload comes to: its batches, the bytes behind them, and why these hold no batch, if
more bytes cannot mend it. -/
structure Scan where
  batches : List Batch
  rest : Bytes
  failure? : Option DecodeFailure
  deriving DecidableEq

def scan (limit : Nat) (p : Bytes) : Scan :=
  match _h : front limit p with
  | .error e => ⟨[], p, some e⟩
  | .ok none => ⟨[], p, none⟩
  | .ok (some (b, rest)) =>
    let s := scan limit rest
    { s with batches := b :: s.batches }
termination_by p.length
decreasing_by exact length_front _h

theorem scan_of_error {limit : Nat} {p : Bytes} {e : DecodeFailure} (h : front limit p = .error e) :
    scan limit p = ⟨[], p, some e⟩ := by
  rw [scan]
  split
  · next he => rw [h] at he; cases he; rfl
  · next he => rw [h] at he; cases he
  · next he => rw [h] at he; cases he

theorem scan_of_none {limit : Nat} {p : Bytes} (h : front limit p = .ok none) :
    scan limit p = ⟨[], p, none⟩ := by
  rw [scan]
  split
  · next he => rw [h] at he; cases he
  · rfl
  · next he => rw [h] at he; cases he

theorem scan_of_some {limit : Nat} {p rest : Bytes} {b : Batch}
    (h : front limit p = .ok (some (b, rest))) :
    scan limit p = { scan limit rest with batches := b :: (scan limit rest).batches } := by
  rw [scan]
  split
  · next he => rw [h] at he; cases he
  · next he => rw [h] at he; cases he
  · next he => rw [h] at he; cases he; rfl

/-- Induction along the batches of a payload. -/
theorem scan_induction (limit : Nat) {motive : Bytes → Prop}
    (error : ∀ p e, front limit p = .error e → motive p)
    (none : ∀ p, front limit p = .ok none → motive p)
    (some : ∀ p b rest, front limit p = .ok (some (b, rest)) → motive rest → motive p)
    (p : Bytes) : motive p := by
  induction h : p.length using Nat.strongRecOn generalizing p with
  | _ n ih =>
    cases hf : front limit p with
    | error e => exact error p e hf
    | ok found =>
      cases found with
      | none => exact none p hf
      | some found =>
        obtain ⟨b, rest⟩ := found
        exact some p b rest hf (ih rest.length (h ▸ length_front hf) rest rfl)

/-- What is left is the end of the payload. -/
theorem scan_rest_suffix (limit : Nat) (p : Bytes) : (scan limit p).rest <:+ p := by
  induction p using scan_induction limit with
  | error p e h => simp only [scan_of_error h, List.suffix_rfl]
  | none p h => simp only [scan_of_none h, List.suffix_rfl]
  | some p b rest h ih =>
    obtain ⟨body, hframe, -⟩ := front_eq_some.mp h
    rw [scan_of_some h]
    exact ih.trans (Frame.front_suffix hframe)

theorem length_scan_rest (limit : Nat) (p : Bytes) : (scan limit p).rest.length ≤ p.length :=
  (scan_rest_suffix limit p).length_le

/-- **A payload may be read in two goes.** What was refused in the first stays refused. -/
theorem scan_append (limit : Nat) (p q : Bytes) :
    scan limit (p ++ q) = match (scan limit p).failure? with
      | some e => ⟨(scan limit p).batches, (scan limit p).rest ++ q, some e⟩
      | none =>
        let s := scan limit ((scan limit p).rest ++ q)
        { s with batches := (scan limit p).batches ++ s.batches } := by
  induction p using scan_induction limit with
  | error p e h => rw [scan_of_error h, scan_of_error (front_append_error q h)]
  | none p h => rw [scan_of_none h]; rfl
  | some p b rest h ih =>
    rw [scan_of_some h, scan_of_some (front_append_some q h), ih]
    cases (scan limit rest).failure? <;> rfl

/-- Bytes that were left without a failure hold no batch. -/
theorem front_rest {limit : Nat} {p : Bytes} (h : (scan limit p).failure? = none) :
    front limit (scan limit p).rest = .ok none := by
  induction p using scan_induction limit with
  | error p e he => rw [scan_of_error he] at h; cases h
  | none p hn => rw [scan_of_none hn]; exact hn
  | some p b rest hs ih => rw [scan_of_some hs] at h ⊢; exact ih h

/-- Bytes that were refused are at the front of what is left. -/
theorem front_rest_of_failure {limit : Nat} {p : Bytes} {e : DecodeFailure}
    (h : (scan limit p).failure? = some e) : front limit (scan limit p).rest = .error e := by
  induction p using scan_induction limit with
  | error p e' he => rw [scan_of_error he] at h ⊢; cases h; exact he
  | none p hn => rw [scan_of_none hn] at h; cases h
  | some p b rest hs ih => rw [scan_of_some hs] at h ⊢; exact ih h

end Batch

end TraceRelay
