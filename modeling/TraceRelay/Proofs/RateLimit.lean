import Mathlib.Algebra.GroupWithZero.Nat
import Mathlib.Data.List.Induction
import Mathlib.Data.List.ReduceOption
import Mathlib.Data.List.TakeDrop
import TraceRelay.RateLimit

/-!
# Every error is accounted for

A limiter is told of errors one after the other, at times that do not go back. What is known of it after
any number of them (`Standing`) is that its counters and the records together cover every error once.
From the state before an error follows what comes of it, and so, for all errors, which of them are
reported and in which form (`reports_every_error`).
-/

namespace TraceRelay.RateLimit

/-- An error, and when it comes. -/
structure Complaint where
  time : Nat
  message : String
  error : String
  deriving DecidableEq

/-- What comes of errors: a record, or none if the error is kept back. -/
abbrev Outcomes := List (Option Log.Record)

/-- One more error. -/
def tell (s : RateLimit × Outcomes) (c : Complaint) : RateLimit × Outcomes :=
  let (r, record?) := s.1.error c.time c.message c.error
  (r, s.2 ++ [record?])

/-- The limiter after some errors, and what came of each. -/
def tellAll (r : RateLimit) (cs : List Complaint) : RateLimit × Outcomes := cs.foldl tell (r, [])

/-! ## Records -/

/-- The record of error number `total` on its own. -/
def plain (sink : String) (c : Complaint) (total : Nat) : Log.Record :=
  ⟨.error, .rateLimit, c.message,
    [("sink", .text sink), ("error", .text c.error), ("total_errors", .number total)]⟩

/-- The record of error number `total` that also speaks for those kept back before it. -/
def limited (sink : String) (c : Complaint) (suppressed total : Nat) : Log.Record :=
  ⟨.error, .rateLimit, c.message ++ " (rate-limited)",
    [("sink", .text sink), ("error", .text c.error), ("suppressed_count", .number suppressed),
      ("total_errors", .number total)]⟩

/-- The record of error number `total` behind `kept` that were kept back. -/
def recordOf (sink : String) (c : Complaint) (kept total : Nat) : Log.Record :=
  if kept = 0 then plain sink c total else limited sink c kept total

/-- How many errors a record says were kept back. -/
def suppressed (r : Log.Record) : Nat :=
  match r.fields.lookup "suppressed_count" with
  | some (.number n) => n
  | _ => 0

/-- How many errors some outcomes speak for: each record for its own, and for those kept back. -/
def covered (outs : Outcomes) : Nat := (outs.reduceOption.map (suppressed · + 1)).sum

theorem suppressed_recordOf (sink : String) (c : Complaint) (kept total : Nat) :
    suppressed (recordOf sink c kept total) = kept := by
  unfold recordOf
  split
  · next h => rw [h]; rfl
  · rfl

theorem report_eq (sink : String) (c : Complaint) (kept total : UInt64) :
    report sink c.message c.error kept total = recordOf sink c kept.toNat total.toNat := by
  have hzero : kept = 0 ↔ kept.toNat = 0 := by rw [← UInt64.toNat_inj]; rfl
  simp only [report, recordOf, plain, limited, hzero]

theorem covered_concat_none (outs : Outcomes) : covered (outs ++ [none]) = covered outs := by
  simp [covered, List.reduceOption_append]

theorem covered_concat_some (outs : Outcomes) (r : Log.Record) :
    covered (outs ++ [some r]) = covered outs + (suppressed r + 1) := by
  simp [covered, List.reduceOption_append]

/-! ## One error -/

/-- The last record among some outcomes is that of number `j`, and `kept` errors have been kept back
since. -/
def Since (outs : Outcomes) (j kept : Nat) : Prop :=
  ∃ before r, before.length = j ∧ outs = before ++ some r :: List.replicate kept none

variable {sink : String} {d : Nat} {cs : List Complaint} {r : RateLimit} {outs : Outcomes} {j kept : Nat}

theorem Since.keep (h : Since outs j kept) : Since (outs ++ [none]) j (kept + 1) := by
  obtain ⟨before, r, hlength, rfl⟩ := h
  refine ⟨before, r, hlength, ?_⟩
  rw [List.append_assoc, List.cons_append, ← List.replicate_succ']

theorem since_concat (outs : Outcomes) (r : Log.Record) : Since (outs ++ [some r]) outs.length 0 :=
  ⟨outs, r, rfl, rfl⟩

/-- Nothing is reported behind the last record. -/
theorem Since.le_last {i : Nat} {r : Log.Record} (h : Since outs j kept)
    (logged : outs[i]? = some (some r)) : i ≤ j := by
  obtain ⟨before, r', rfl, rfl⟩ := h
  by_contra hlt
  rw [List.getElem?_append_right (by omega), List.getElem?_cons, if_neg (by omega),
    List.getElem?_replicate] at logged
  split at logged <;> cases logged

/-- What is known after some errors. -/
structure Standing (sink : String) (d : Nat) (cs : List Complaint) (r : RateLimit) (outs : Outcomes) :
    Prop where
  sink : r.sink = sink
  interval : r.interval = d
  length : outs.length = cs.length
  total : r.total.toNat = cs.length
  covered : covered outs + r.pending.toNat = cs.length
  none_yet : r.last? = none → cs = []
  since_last : ∀ t, r.last? = some t → ∃ j b, Since outs j r.pending.toNat ∧ cs[j]? = some b ∧
    b.time = t

theorem standing_start (sink : String) (d : Nat) : Standing sink d [] (start sink d) [] where
  sink := rfl
  interval := rfl
  length := rfl
  total := rfl
  covered := rfl
  none_yet _ := rfl
  since_last t h := by cases h

/-- A counter that stays in its range counts on. -/
theorem toNat_add_one {n : UInt64} (h : n.toNat + 1 < 2 ^ 64) : (n + 1).toNat = n.toNat + 1 := by
  rw [UInt64.toNat_add]
  exact Nat.mod_eq_of_lt h

theorem Standing.pending_le (h : Standing sink d cs r outs) : r.pending.toNat ≤ cs.length := by
  have := h.covered
  omega

/-- An error that is due is reported, and speaks for all that were kept back. -/
theorem Standing.error_of_due {c : Complaint} (h : Standing sink d cs r outs)
    (small : cs.length + 1 < 2 ^ 64) (due : r.due c.time = true) :
    r.error c.time c.message c.error =
      ({ r with last? := some c.time, pending := 0, total := r.total + 1 },
        some (recordOf sink c r.pending.toNat (cs.length + 1))) := by
  have hpending := toNat_add_one (n := r.pending) (by have := h.pending_le; omega)
  have htotal := toNat_add_one (n := r.total) (by have := h.total; omega)
  have hne : r.pending + 1 ≠ 0 := by
    intro hzero
    rw [hzero] at hpending
    exact Nat.succ_ne_zero _ hpending.symm
  have hback : r.pending + 1 - 1 = r.pending := by
    apply UInt64.toNat_inj.mp
    simp
  unfold error
  rw [if_pos due, if_neg hne, hback, h.sink, report_eq, htotal, h.total]

/-- An error that is not due is kept back. -/
theorem error_of_not_due {c : Complaint} (due : r.due c.time = false) :
    r.error c.time c.message c.error =
      ({ r with pending := r.pending + 1, total := r.total + 1 }, none) := by
  unfold error
  rw [due, if_neg Bool.false_ne_true]

theorem Standing.tell (h : Standing sink d cs r outs) (c : Complaint) (small : cs.length + 1 < 2 ^ 64) :
    Standing sink d (cs ++ [c]) (RateLimit.tell (r, outs) c).1 (RateLimit.tell (r, outs) c).2 := by
  have htotal := toNat_add_one (n := r.total) (by have := h.total; omega)
  have hpending := toNat_add_one (n := r.pending) (by have := h.pending_le; omega)
  have hcovered := h.covered
  cases due : r.due c.time with
  | true =>
    unfold RateLimit.tell
    rw [h.error_of_due small due]
    refine ⟨h.sink, h.interval, by simp [h.length], ?_, ?_, nofun, ?_⟩
    · simp [htotal, h.total]
    · rw [covered_concat_some, suppressed_recordOf, List.length_append, List.length_singleton]
      simp
      omega
    · intro t ht
      cases ht
      refine ⟨outs.length, c, since_concat outs _, ?_, rfl⟩
      rw [h.length]
      exact List.getElem?_concat_length
  | false =>
    unfold RateLimit.tell
    rw [error_of_not_due due]
    refine ⟨h.sink, h.interval, by simp [h.length], ?_, ?_, ?_, ?_⟩
    · simp [htotal, h.total]
    · rw [covered_concat_none, List.length_append, List.length_singleton]
      dsimp only
      omega
    · -- without a record so far, the error would have been due
      intro hnone
      dsimp only at hnone
      rw [RateLimit.due, hnone] at due
      cases due
    · intro t ht
      obtain ⟨j, b, hsince, hb, htime⟩ := h.since_last t ht
      refine ⟨j, b, ?_, List.getElem?_append_left (List.getElem?_eq_some_iff.mp hb).1 ▸ hb, htime⟩
      dsimp only
      rw [hpending]
      exact hsince.keep

/-! ## All errors -/

theorem tellAll_concat (r : RateLimit) (cs : List Complaint) (c : Complaint) :
    tellAll r (cs ++ [c]) = RateLimit.tell (tellAll r cs) c := List.foldl_concat ..

/-- What is known of a limiter that was told of errors from its start on. -/
theorem standing_tellAll (sink : String) (d : Nat) (cs : List Complaint) (small : cs.length < 2 ^ 64) :
    Standing sink d cs (tellAll (start sink d) cs).1 (tellAll (start sink d) cs).2 := by
  induction cs using List.reverseRecOn with
  | nil => exact standing_start sink d
  | append_singleton cs c ih =>
    rw [List.length_append, List.length_singleton] at small
    rw [tellAll_concat]
    exact (ih (by omega)).tell c small

/-- What came of errors is not changed by later ones. -/
theorem outcomes_foldl (s : RateLimit × Outcomes) (cs : List Complaint) :
    ∃ more, (cs.foldl RateLimit.tell s).2 = s.2 ++ more := by
  induction cs generalizing s with
  | nil => exact ⟨[], (List.append_nil _).symm⟩
  | cons c cs ih =>
    obtain ⟨more, hmore⟩ := ih (RateLimit.tell s c)
    refine ⟨(s.1.error c.time c.message c.error).2 :: more, ?_⟩
    rw [List.foldl_cons, hmore]
    simp [RateLimit.tell]

/-- What comes of each of some errors. -/
def outcomes (sink : String) (d : Nat) (cs : List Complaint) : Outcomes :=
  (tellAll (start sink d) cs).2

/-- What comes of an error hangs on those before it alone. -/
theorem outcomes_split (sink : String) (d : Nat) (early : List Complaint) (c : Complaint)
    (late : List Complaint) : ∃ more, outcomes sink d (early ++ c :: late) = outcomes sink d early ++
      ((tellAll (start sink d) early).1.error c.time c.message c.error).2 :: more := by
  obtain ⟨more, hmore⟩ := outcomes_foldl (RateLimit.tell (tellAll (start sink d) early) c) late
  refine ⟨more, ?_⟩
  unfold outcomes
  rw [tellAll, List.foldl_append, List.foldl_cons]
  refine hmore.trans ?_
  simp [RateLimit.tell]

/-- What holds of errors that a limiter of interval `d` is told of. -/
structure Reckoned (sink : String) (d : Nat) (cs : List Complaint) : Prop where
  /-- The first is reported. -/
  first : ∀ c, cs[0]? = some c → (outcomes sink d cs)[0]? = some (some (plain sink c 1))
  /-- A later one is reported exactly if `d` has passed since the last that was. Its record gives its
  ordinal, and speaks of those kept back since then exactly if there are any. -/
  later : ∀ i c, 0 < i → cs[i]? = some c → ∃ j kept b,
    Since ((outcomes sink d cs).take i) j kept ∧ cs[j]? = some b ∧
      (outcomes sink d cs)[i]? = some (if b.time + d ≤ c.time then
        some (if kept = 0 then plain sink c (i + 1) else limited sink c kept (i + 1)) else none)
  /-- Any two records are at least `d` apart. -/
  apart : ∀ (i j : Nat) (c b : Complaint) x y, j < i → cs[i]? = some c → cs[j]? = some b →
    (outcomes sink d cs)[i]? = some (some x) → (outcomes sink d cs)[j]? = some (some y) →
    b.time + d ≤ c.time
  /-- At every point the total is the number of errors so far, and they are those that the records
  speak for and those that wait for the next record. -/
  balance : ∀ n ≤ cs.length, let r := (tellAll (start sink d) (cs.take n)).1
    r.total.toNat = n ∧ r.total.toNat = covered ((outcomes sink d cs).take n) + r.pending.toNat

/-! ## What comes of one of them -/

theorem length_outcomes (small : cs.length < 2 ^ 64) : (outcomes sink d cs).length = cs.length :=
  (standing_tellAll sink d cs small).length

/-- The outcomes of the errors before number `n` are those of these errors alone. -/
theorem take_outcomes (small : cs.length < 2 ^ 64) (n : Nat) :
    (outcomes sink d cs).take n = outcomes sink d (cs.take n) := by
  have hlength : (outcomes sink d (cs.take n)).length = (cs.take n).length :=
    length_outcomes (by rw [List.length_take]; omega)
  obtain ⟨more, hmore⟩ := outcomes_foldl (tellAll (start sink d) (cs.take n)) (cs.drop n)
  have hall : outcomes sink d cs = outcomes sink d (cs.take n) ++ more := by
    conv_lhs => rw [← List.take_append_drop n cs]
    rw [outcomes, tellAll, List.foldl_append]
    exact hmore
  by_cases h : n ≤ cs.length
  · rw [hall, List.take_left' (by rw [hlength, List.length_take]; omega)]
  · rw [List.take_of_length_le (l := cs) (by omega),
      List.take_of_length_le (by rw [length_outcomes small]; omega)]

/-- What comes of error `i` is decided by the state before it. -/
theorem outcome_at {i : Nat} {c : Complaint} (small : cs.length < 2 ^ 64) (at_ : cs[i]? = some c) :
    (outcomes sink d cs)[i]? =
      some ((tellAll (start sink d) (cs.take i)).1.error c.time c.message c.error).2 := by
  obtain ⟨hi, rfl⟩ := List.getElem?_eq_some_iff.mp at_
  have hlength : (outcomes sink d (cs.take i)).length = i := by
    rw [length_outcomes (by rw [List.length_take]; omega), List.length_take]
    omega
  obtain ⟨more, hmore⟩ := outcomes_split sink d (cs.take i) cs[i] (cs.drop (i + 1))
  rw [List.cons_getElem_drop_succ, List.take_append_drop] at hmore
  rw [hmore, List.getElem?_append_right (by omega), hlength, Nat.sub_self]
  rfl

/-- An error that comes after another, no earlier, is due once the interval has passed. -/
theorem due_iff {c : Complaint} {t : Nat} (interval : r.interval = d) (last : r.last? = some t)
    (le : t ≤ c.time) : r.due c.time = true ↔ t + d ≤ c.time := by
  unfold due
  rw [last]
  dsimp only
  rw [decide_eq_true_eq, interval]
  omega

/-- What comes of an error behind others. -/
theorem Standing.outcome {c : Complaint} (h : Standing sink d cs r outs) (ne : cs ≠ [])
    (sorted : ∀ b ∈ cs, b.time ≤ c.time) (small : cs.length + 1 < 2 ^ 64) :
    ∃ j kept b, Since outs j kept ∧ cs[j]? = some b ∧
      (r.error c.time c.message c.error).2 = if b.time + d ≤ c.time then
        some (if kept = 0 then plain sink c (cs.length + 1) else limited sink c kept (cs.length + 1))
      else none := by
  cases hlast : r.last? with
  | none => exact absurd (h.none_yet hlast) ne
  | some t =>
    obtain ⟨j, b, hsince, hb, rfl⟩ := h.since_last t hlast
    have hle : b.time ≤ c.time := sorted b (List.mem_of_getElem? hb)
    have hdue := due_iff h.interval hlast hle
    refine ⟨j, _, b, hsince, hb, ?_⟩
    by_cases hpassed : b.time + d ≤ c.time
    · rw [if_pos hpassed, h.error_of_due small (hdue.mpr hpassed)]
      rfl
    · rw [if_neg hpassed, error_of_not_due (Bool.eq_false_iff.mpr (hpassed ∘ hdue.mp))]

theorem time_le {i j : Nat} {b c : Complaint} (sorted : cs.Pairwise (·.time ≤ ·.time)) (le : j ≤ i)
    (hb : cs[j]? = some b) (hc : cs[i]? = some c) : b.time ≤ c.time := by
  obtain ⟨hj, rfl⟩ := List.getElem?_eq_some_iff.mp hb
  obtain ⟨hi, rfl⟩ := List.getElem?_eq_some_iff.mp hc
  rcases Nat.lt_or_eq_of_le le with hlt | rfl
  · exact List.pairwise_iff_getElem.mp sorted j i hj hi hlt
  · exact Nat.le_refl _

theorem outcome_later (sink : String) (d : Nat) (sorted : cs.Pairwise (·.time ≤ ·.time))
    (small : cs.length < 2 ^ 64) {i : Nat} {c : Complaint} (pos : 0 < i) (hc : cs[i]? = some c) :
    ∃ j kept b, Since ((outcomes sink d cs).take i) j kept ∧ cs[j]? = some b ∧
      (outcomes sink d cs)[i]? = some (if b.time + d ≤ c.time then
        some (if kept = 0 then plain sink c (i + 1) else limited sink c kept (i + 1)) else none) := by
  have hi := (List.getElem?_eq_some_iff.mp hc).1
  have hlength : (cs.take i).length = i := by rw [List.length_take]; omega
  have hstanding := standing_tellAll sink d (cs.take i) (by omega)
  have hbefore : ∀ b ∈ cs.take i, b.time ≤ c.time := by
    intro b hb
    obtain ⟨k, hk, rfl⟩ := List.mem_take_iff_getElem.mp hb
    exact time_le sorted (by omega) (List.getElem?_eq_getElem (by omega)) hc
  obtain ⟨j, kept, b, hsince, hb, hout⟩ :=
    hstanding.outcome (List.ne_nil_of_length_pos (by omega)) hbefore (by omega)
  have hj := (List.getElem?_eq_some_iff.mp hb).1
  refine ⟨j, kept, b, take_outcomes small i ▸ hsince, ?_, ?_⟩
  · rwa [List.getElem?_take_of_lt (by omega)] at hb
  · rw [outcome_at small hc, hout, hlength]

/-- The last record before another is behind every earlier one, and `d` has passed since it. -/
theorem outcome_apart (sorted : cs.Pairwise (·.time ≤ ·.time)) (small : cs.length < 2 ^ 64) {i j : Nat}
    {c b : Complaint} {x y : Log.Record} (lt : j < i) (hc : cs[i]? = some c) (hb : cs[j]? = some b)
    (hx : (outcomes sink d cs)[i]? = some (some x)) (hy : (outcomes sink d cs)[j]? = some (some y)) :
    b.time + d ≤ c.time := by
  obtain ⟨last, kept, b', hsince, hb', hout⟩ :=
    outcome_later sink d sorted small (Nat.zero_lt_of_lt lt) hc
  rw [hx] at hout
  have hpassed : b'.time + d ≤ c.time := by
    by_contra hnot
    rw [if_neg hnot] at hout
    cases hout
  have hle : j ≤ last := hsince.le_last (by rw [List.getElem?_take_of_lt lt]; exact hy)
  have htimes := time_le sorted hle hb hb'
  omega

/-- **Every error is reported or kept back, and none is lost or counted twice.** The first is reported,
and a later one exactly if the interval has passed since the last record. -/
theorem reports_every_error (sink : String) (d : Nat) (cs : List Complaint)
    (sorted : cs.Pairwise (·.time ≤ ·.time)) (small : cs.length < 2 ^ 64) : Reckoned sink d cs where
  first c hc := by
    have hdue : (start sink d).due c.time = true := rfl
    rw [outcome_at small hc, List.take_zero]
    rw [show tellAll (start sink d) [] = (start sink d, []) from rfl,
      (standing_start sink d).error_of_due (by decide) hdue]
    rfl
  later i c pos hc := outcome_later sink d sorted small pos hc
  apart i j c b x y lt hc hb hx hy := outcome_apart sorted small lt hc hb hx hy
  balance n hn := by
    have hlength : (cs.take n).length = n := by rw [List.length_take]; omega
    have hstanding := standing_tellAll sink d (cs.take n) (by omega)
    refine ⟨hstanding.total.trans hlength, ?_⟩
    rw [hstanding.total, take_outcomes small]
    exact hstanding.covered.symm

/-- Errors at one time, others in quick succession, and one after a pause. -/
def flurry : List Complaint :=
  [⟨3, "write failed", "disk full"⟩, ⟨3, "write failed", "disk full"⟩,
    ⟨8, "write failed", "disk full"⟩, ⟨13, "flush failed", "disk full"⟩,
    ⟨23, "write failed", "broken pipe"⟩, ⟨24, "write failed", "broken pipe"⟩]

theorem reports_every_error_flurry :
    flurry.Pairwise (·.time ≤ ·.time) ∧ flurry.length < 2 ^ 64 ∧ Reckoned "json" 10 flurry ∧
      outcomes "json" 10 flurry =
        [some (plain "json" ⟨3, "write failed", "disk full"⟩ 1), none, none,
          some (limited "json" ⟨13, "flush failed", "disk full"⟩ 2 4),
          some (plain "json" ⟨23, "write failed", "broken pipe"⟩ 5), none] := by
  have hsorted : flurry.Pairwise (·.time ≤ ·.time) := by decide
  have hsmall : flurry.length < 2 ^ 64 := by decide
  exact ⟨hsorted, hsmall, reports_every_error "json" 10 flurry hsorted hsmall, by decide⟩

end TraceRelay.RateLimit
