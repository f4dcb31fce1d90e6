import Mathlib.Data.Nat.Digits.Lemmas
import TraceRelay.Proofs.Framing.OnRequest

/-!
# What a length denotes

The bytes of a length are digits to the base 128, least first (`denoted`), and the last of them is
the first without its high bit (`Closes`). A length is taken if it closes within ten bytes, and for
what it denotes in a word (`peek_eq_found`): the tenth byte can hold more than the one bit that is
left of it, and what it holds beyond is dropped and not refused (`length_wraps`). `Varint.take?`, which
reads the numbers of a message, refuses just these (`take?_eq`).
-/

namespace TraceRelay

namespace Frame

/-- What the bytes of a length denote. -/
def denoted (p : Bytes) : Nat := Nat.ofDigits 128 (p.map fun b => b.toNat % 128)

@[simp] theorem denoted_nil : denoted [] = 0 := rfl

@[simp] theorem denoted_cons (b : UInt8) (p : Bytes) :
    denoted (b :: p) = b.toNat % 128 + 128 * denoted p := rfl

/-- The sum of the digits of a length, each at its place. -/
theorem denoted_eq_sum (p : Bytes) :
    denoted p = (p.mapIdx fun i b => b.toNat % 128 * 128 ^ i).sum := by
  rw [denoted, Nat.ofDigits_eq_sum_mapIdx]
  congr 1
  exact List.ext_getElem (by simp) (by simp)

theorem denoted_lt (p : Bytes) : denoted p < 128 ^ p.length := by
  have hdigits : ∀ d ∈ p.map fun b => b.toNat % 128, d < 128 := by
    intro d hd
    obtain ⟨b, -, rfl⟩ := List.mem_map.mp hd
    exact Nat.mod_lt _ (by decide)
  have h := Nat.ofDigits_lt_base_pow_length (b := 128) (by decide) hdigits
  rwa [List.length_map] at h

/-- Bytes that make one length: the last one, and no other, has no high bit. -/
inductive Closes : Bytes → Prop where
  | last {b : UInt8} (h : b.toNat < 128) : Closes [b]
  | more {b : UInt8} {p : Bytes} (h : 128 ≤ b.toNat) (rest : Closes p) : Closes (b :: p)

theorem Closes.length_pos {p : Bytes} (h : Closes p) : 0 < p.length := by
  cases h <;> exact Nat.succ_pos _

/-- Digits at the places below one are worth less than one at it. -/
theorem add_digit_lt {place value d : Nat} (hd : d < 128) (hv : value < 128 ^ place) :
    value + d * 128 ^ place < 128 ^ (place + 1) := by
  have hmul : d * 128 ^ place ≤ 127 * 128 ^ place := Nat.mul_le_mul_right _ (by omega)
  rw [Nat.pow_succ]
  omega

/-- Behind the first nine digits a word has room for one bit. -/
theorem pow_le_half {place : Nat} (hp : place ≤ 9) : 128 ^ place * 2 ≤ UInt64.size :=
  Nat.mul_le_mul_right 2 (Nat.pow_le_pow_right (by decide) hp : 128 ^ place ≤ 128 ^ 9)

theorem digit_eq {place : Nat} (b : UInt8) (hp : place < 9) :
    digit place b = b.toNat % 128 * 128 ^ place := by
  have hlt := add_digit_lt (Nat.mod_lt b.toNat (y := 128) (by decide))
    (Nat.pow_pos (by decide) : 0 < 128 ^ place)
  have hhalf : 128 ^ (place + 1) * 2 ≤ UInt64.size := pow_le_half (by omega)
  exact Nat.mod_eq_of_lt (by rw [Nat.pow_eq]; omega)

/-- The last digit adds to those before it in a word. -/
theorem add_digit {place value : Nat} (b : UInt8) (hp : place ≤ 9) (hv : value < 128 ^ place) :
    value + digit place b = (value + b.toNat % 128 * 128 ^ place) % UInt64.size := by
  have hb : b.toNat % 128 < 128 := Nat.mod_lt _ (by decide)
  by_cases h9 : place = 9
  · subst h9
    have hword : UInt64.size = 2 ^ 64 := rfl
    rw [digit, Nat.pow_eq, hword]
    omega
  · have hlt := add_digit_lt hb hv
    have hhalf : 128 ^ (place + 1) * 2 ≤ UInt64.size := pow_le_half (by omega)
    rw [digit_eq b (by omega)]
    exact (Nat.mod_eq_of_lt (by omega)).symm

theorem peekAt_closes {place value : Nat} {p : Bytes} (h : Closes p) (rest : Bytes)
    (hp : place + p.length ≤ maxPrefix) (hv : value < 128 ^ place) :
    peekAt place value (p ++ rest) =
      .found ((value + denoted p * 128 ^ place) % UInt64.size) (place + p.length) := by
  unfold maxPrefix at hp
  induction h generalizing place value with
  | @last b hb =>
    rw [List.length_singleton] at hp ⊢
    rw [List.cons_append, peekAt, if_neg (by unfold maxPrefix; omega), if_pos hb,
      add_digit b (by omega) hv]
    rfl
  | @more b p hb hclose ih =>
    have hpos := hclose.length_pos
    rw [List.length_cons] at hp ⊢
    have hlt := add_digit_lt (Nat.mod_lt b.toNat (y := 128) (by decide)) hv
    rw [List.cons_append, peekAt, if_neg (by unfold maxPrefix; omega), if_neg (by omega),
      digit_eq b (by omega), ih (by omega) hlt, denoted_cons]
    congr 1
    · congr 1
      rw [Nat.pow_succ]
      ring
    · omega

/-- Bytes that all go on make no length; ten of them make none whatever follows. -/
theorem peekAt_goes_on {place value : Nat} {p : Bytes} (h : ∀ b ∈ p, 128 ≤ b.toNat)
    (hp : place + p.length ≤ maxPrefix) :
    peekAt place value p = if place + p.length < maxPrefix then .incomplete else .malformed := by
  induction p generalizing place value with
  | nil => rfl
  | cons b p ih =>
    have hb := h b (List.mem_cons_self ..)
    rw [List.length_cons] at hp ⊢
    rw [peekAt, if_neg (by omega), if_neg (by omega),
      ih (fun b hmem => h b (List.mem_cons_of_mem _ hmem)) (by omega),
      show place + 1 + p.length = place + (p.length + 1) by omega]

/-- Bytes begin with a length of ten bytes at most, or the first ten of them all go on. -/
theorem closes_or_goes_on (n : Nat) (p : Bytes) :
    (∃ q rest, p = q ++ rest ∧ Closes q ∧ q.length ≤ n) ∨ ∀ b ∈ p.take n, 128 ≤ b.toNat := by
  induction n generalizing p with
  | zero => exact .inr (by rw [List.take_zero]; nofun)
  | succ n ih =>
    cases p with
    | nil => exact .inr (by rw [List.take_nil]; nofun)
    | cons b p =>
      by_cases hb : b.toNat < 128
      · exact .inl ⟨[b], p, rfl, .last hb, by rw [List.length_singleton]; omega⟩
      rcases ih p with ⟨q, rest, rfl, hclose, hle⟩ | hgo
      · exact .inl ⟨b :: q, rest, rfl, .more (by omega) hclose, Nat.succ_le_succ hle⟩
      · refine .inr ?_
        rw [List.take_succ_cons]
        intro d hd
        rcases List.mem_cons.mp hd with rfl | hd
        · omega
        · exact hgo d hd

/-! ## Looking at a length -/

theorem peek_closes {q : Bytes} (h : Closes q) (hle : q.length ≤ maxPrefix) (rest : Bytes) :
    peek (q ++ rest) = .found (denoted q % UInt64.size) q.length := by
  have := @peekAt_closes 0 0 q h rest (by omega) Nat.one_pos
  rw [Nat.pow_zero, Nat.mul_one, Nat.zero_add, Nat.zero_add] at this
  exact this

theorem peek_goes_on {p : Bytes} (h : ∀ b ∈ p.take maxPrefix, 128 ≤ b.toNat) :
    peek p = if p.length < maxPrefix then .incomplete else .malformed := by
  have hlen : (p.take maxPrefix).length = min maxPrefix p.length := List.length_take
  rw [← peek_take, peek, peekAt_goes_on h (by omega), Nat.zero_add, hlen]
  congr 1
  apply propext
  omega

/-- **A length is taken if it closes within ten bytes**, for what it denotes in a word. -/
theorem peek_eq_found {p : Bytes} {len size : Nat} :
    peek p = .found len size ↔ ∃ q rest, p = q ++ rest ∧ Closes q ∧ q.length = size ∧
      size ≤ maxPrefix ∧ len = denoted q % UInt64.size := by
  constructor
  · intro h
    rcases closes_or_goes_on maxPrefix p with ⟨q, rest, rfl, hclose, hle⟩ | hgo
    · rw [peek_closes hclose hle, Length.found.injEq] at h
      exact ⟨q, rest, rfl, hclose, h.2, h.2 ▸ hle, h.1.symm⟩
    · rw [peek_goes_on hgo] at h
      split at h <;> cases h
  · rintro ⟨q, rest, rfl, hclose, rfl, hle, rfl⟩
    exact peek_closes hclose hle rest

theorem peek_eq_malformed {p : Bytes} :
    peek p = .malformed ↔ maxPrefix ≤ p.length ∧ ∀ b ∈ p.take maxPrefix, 128 ≤ b.toNat := by
  constructor
  · intro h
    rcases closes_or_goes_on maxPrefix p with ⟨q, rest, rfl, hclose, hle⟩ | hgo
    · rw [peek_closes hclose hle] at h
      cases h
    · rw [peek_goes_on hgo] at h
      split at h
      · cases h
      · exact ⟨by omega, hgo⟩
  · rintro ⟨hle, hgo⟩
    rw [peek_goes_on hgo, if_neg (by omega)]

theorem peek_eq_incomplete {p : Bytes} :
    peek p = .incomplete ↔ p.length < maxPrefix ∧ ∀ b ∈ p, 128 ≤ b.toNat := by
  constructor
  · intro h
    rcases closes_or_goes_on maxPrefix p with ⟨q, rest, rfl, hclose, hle⟩ | hgo
    · rw [peek_closes hclose hle] at h
      cases h
    · rw [peek_goes_on hgo] at h
      split at h
      · next hlt => exact ⟨hlt, by rwa [List.take_of_length_le (by omega)] at hgo⟩
      · cases h
  · rintro ⟨hlt, hgo⟩
    rw [peek_goes_on (fun b hmem => hgo b (List.mem_of_mem_take hmem)), if_pos hlt]

/-! ## What is dropped -/

theorem closes_concat {p : Bytes} {b : UInt8} :
    Closes (p ++ [b]) ↔ (∀ d ∈ p, 128 ≤ d.toNat) ∧ b.toNat < 128 := by
  induction p with
  | nil =>
    constructor
    · intro h
      cases h with
      | last hb => exact ⟨nofun, hb⟩
      | more _ rest => cases rest
    · exact fun h => .last h.2
  | cons d p ih =>
    rw [List.cons_append, List.forall_mem_cons]
    constructor
    · intro h
      generalize hq : p ++ [b] = q at h
      cases h with
      | last _ => exact absurd hq (by simp)
      | more hd rest =>
        obtain ⟨hp, hb⟩ := ih.mp (hq ▸ rest)
        exact ⟨⟨hd, hp⟩, hb⟩
    · rintro ⟨⟨hd, hp⟩, hb⟩
      exact .more hd (ih.mpr ⟨hp, hb⟩)

/-- **A length goes beyond the word by its tenth byte only**, if that is 2 or more. -/
theorem denoted_lt_word {q : Bytes} (h : Closes q) (hle : q.length ≤ maxPrefix) :
    denoted q < UInt64.size ↔ ∀ b, q[9]? = some b → b.toNat < 2 := by
  unfold maxPrefix at hle
  have hword : UInt64.size = 2 ^ 64 := rfl
  by_cases h9 : q.length ≤ 9
  · have hlt := denoted_lt q
    have hpow := pow_le_half h9
    refine ⟨fun _ b hb => ?_, fun _ => by omega⟩
    rw [List.getElem?_eq_none h9] at hb
    cases hb
  · obtain ⟨init, b, rfl⟩ := List.eq_nil_or_concat' q |>.resolve_left
      (by rintro rfl; exact h9 (Nat.zero_le _))
    rw [List.length_append, List.length_singleton] at hle h9
    have hinit : init.length = 9 := by omega
    have hlt := denoted_lt init
    have hb := (closes_concat.mp h).2
    have hsum : denoted (init ++ [b]) = denoted init + 128 ^ 9 * b.toNat := by
      unfold denoted
      rw [List.map_append, Nat.ofDigits_append, List.length_map, hinit, List.map_singleton,
        Nat.ofDigits_singleton, Nat.mod_eq_of_lt hb]
    rw [hinit] at hlt
    have hget : (init ++ [b])[9]? = some b := by
      rw [← hinit, List.getElem?_concat_length]
    rw [hsum, hget, hword]
    constructor
    · rintro hlt d ⟨⟩
      omega
    · intro hd
      have := hd b rfl
      omega

/-! ## Reading a length -/

/-- The answer of a reader that finds the bytes `p` with this length at their front, and no more. -/
def Length.answer (p : Bytes) : Length → Except DecodeFailure (Option Nat)
  | .found len _ => .ok (some len)
  | .malformed => .error .invalidLength
  | .incomplete => if p = [] then .ok none else .error .truncated

theorem Reader.readLength_calm {s : Source} (hcalm : s.Calm) :
    (readLength s 0 0).1 = (peek s.data).answer s.data ∧
      ∀ len size, peek s.data = .found len size →
        (readLength s 0 0).2.data = s.data.drop size := by
  have h := readLength_eq Source.serves (⟨rfl, hcalm⟩ : s.data = s.data ∧ s.Calm) 0 0
  rw [show peekAt 0 0 s.data = peek s.data from rfl] at h
  cases hpeek : peek s.data with
  | found len size =>
    rw [hpeek] at h
    obtain ⟨s', hread, hdata, -⟩ := h
    rw [hread]
    refine ⟨rfl, ?_⟩
    rintro _ _ ⟨⟩
    exact hdata
  | malformed =>
    rw [hpeek] at h
    obtain ⟨s', hread⟩ := h
    rw [hread]
    exact ⟨rfl, nofun⟩
  | incomplete =>
    rw [hpeek] at h
    obtain ⟨s', hread, -⟩ := h
    rw [hread]
    refine ⟨?_, nofun⟩
    rw [Nat.zero_add]
    simp only [cutLength, Length.answer, List.length_eq_zero_iff]

/-- **The two ways to a length say the same**, and both take it for what it denotes in a word. Looked
at or read from a source, whichever reads the source interrupts, a length is found if it closes
within ten bytes, refused if ten bytes all go on, and cut short if there are fewer and all go on;
reading takes just the bytes that looking counts. -/
theorem lengths_agree (s : Source) (hcalm : s.Calm) :
    (∀ len size, peek s.data = .found len size ↔ ∃ q rest, s.data = q ++ rest ∧ Closes q ∧
      q.length = size ∧ size ≤ maxPrefix ∧ len = denoted q % UInt64.size) ∧
    (peek s.data = .malformed ↔
      maxPrefix ≤ s.data.length ∧ ∀ b ∈ s.data.take maxPrefix, 128 ≤ b.toNat) ∧
    (peek s.data = .incomplete ↔ s.data.length < maxPrefix ∧ ∀ b ∈ s.data, 128 ≤ b.toNat) ∧
    (Reader.readLength s 0 0).1 = (peek s.data).answer s.data ∧
    ∀ len size, peek s.data = .found len size →
      (Reader.readLength s 0 0).2.data = s.data.drop size := by
  obtain ⟨hanswer, hdata⟩ := Reader.readLength_calm hcalm
  exact ⟨fun len size => peek_eq_found, peek_eq_malformed, peek_eq_incomplete, hanswer, hdata⟩

theorem lengths_agree_interrupted :
    let s : Source := ⟨[0xAC, 0x02, 0x07], [.interrupted, .upTo 3]⟩
    s.Calm ∧ peek s.data = .found 300 2 ∧ (Reader.readLength s 0 0).1 = .ok (some 300) ∧
      (Reader.readLength s 0 0).2.data = [0x07] := by
  intro s
  have hcalm : s.Calm := by decide
  obtain ⟨-, -, -, hanswer, hdata⟩ := lengths_agree s hcalm
  exact ⟨hcalm, by decide, hanswer, hdata 300 2 (by decide)⟩

/-- The length of nine bytes `80` and the byte `02` denotes `2 ^ 64` and is taken for 0. -/
theorem length_wraps :
    let p : Bytes := List.replicate 9 0x80 ++ [2]
    Closes p ∧ p.length = maxPrefix ∧ denoted p = UInt64.size ∧ peek p = .found 0 10 ∧
      (Reader.readLength (Source.ofBytes p) 0 0).1 = .ok (some 0) := by
  refine ⟨closes_concat.mpr ⟨?_, by decide⟩, rfl, rfl, by decide, ?_⟩
  · intro d hd
    rw [List.eq_of_mem_replicate hd]
    decide
  · rw [(Reader.readLength_calm (Source.calm_ofBytes _)).1]
    decide

end Frame

/-! ## The numbers of a message -/

namespace Varint

open TraceRelay.Frame

theorem takeAt_closes {place value : Nat} {q : Bytes} (h : Closes q) (rest : Bytes)
    (hp : place + q.length ≤ maxPrefix) :
    takeAt place value (q ++ rest) =
      if denoted q * 128 ^ place < UInt64.size then some (value + denoted q * 128 ^ place, rest)
      else none := by
  unfold maxPrefix at hp
  induction h generalizing place value with
  | @last b hb =>
    rw [List.length_singleton] at hp
    have hfits : denoted [b] * 128 ^ place < UInt64.size ↔ ¬ (place = 9 ∧ 2 ≤ b.toNat) := by
      rw [denoted_cons, denoted_nil, Nat.mul_zero, Nat.add_zero, Nat.mod_eq_of_lt hb]
      by_cases h9 : place = 9
      · subst h9
        have hword : UInt64.size = 2 ^ 64 := rfl
        omega
      · have hlt := add_digit_lt hb (Nat.pow_pos (by decide) : 0 < 128 ^ place)
        have hhalf : 128 ^ (place + 1) * 2 ≤ UInt64.size := pow_le_half (by omega)
        omega
    rw [List.cons_append, takeAt, if_neg (by omega)]
    dsimp only
    rw [if_pos hb]
    by_cases hfit : place = 9 ∧ 2 ≤ b.toNat
    · rw [if_pos hfit, if_neg (fun hlt => hfits.mp hlt hfit)]
    · rw [if_neg hfit, if_pos (hfits.mpr hfit)]
      rfl
  | @more b q hb hclose ih =>
    have hpos := hclose.length_pos
    rw [List.length_cons] at hp
    have hsplit : denoted (b :: q) * 128 ^ place =
        b.toNat % 128 * 128 ^ place + denoted q * 128 ^ (place + 1) := by
      rw [denoted_cons, Nat.pow_succ]
      ring
    -- What the later digits are worth is a multiple of the room that this one has.
    have hfits : denoted (b :: q) * 128 ^ place < UInt64.size ↔
        denoted q * 128 ^ (place + 1) < UInt64.size := by
      have hlt := add_digit_lt (Nat.mod_lt b.toNat (y := 128) (by decide))
        (Nat.pow_pos (by decide) : 0 < 128 ^ place)
      obtain ⟨n, hn⟩ : 128 ^ (place + 1) ∣ UInt64.size :=
        (Nat.pow_dvd_pow 128 (by omega)).trans (Dvd.intro 2 rfl : 128 ^ 9 ∣ UInt64.size)
      rw [hsplit]
      refine ⟨fun h => by omega, fun h => ?_⟩
      rw [hn, Nat.mul_comm (denoted q)] at h ⊢
      have hroom : denoted q + 1 ≤ n := Nat.lt_of_mul_lt_mul_left h
      have := Nat.mul_le_mul_left (128 ^ (place + 1)) hroom
      rw [Nat.mul_add] at this
      omega
    rw [List.cons_append, takeAt, if_neg (by omega)]
    dsimp only
    rw [if_neg (by omega), ih (by omega), hsplit, Nat.pow_eq, Nat.add_assoc, ← hsplit]
    exact if_congr hfits.symm rfl rfl

theorem takeAt_goes_on {place value : Nat} {p : Bytes}
    (h : ∀ b ∈ p.take (maxPrefix - place), 128 ≤ b.toNat) : takeAt place value p = none := by
  unfold maxPrefix at h
  induction p generalizing place value with
  | nil => rfl
  | cons b p ih =>
    rw [takeAt]
    by_cases hp : 10 ≤ place
    · rw [if_pos hp]
    · rw [show 10 - place = 10 - (place + 1) + 1 by omega, List.take_succ_cons,
        List.forall_mem_cons] at h
      rw [if_neg hp]
      dsimp only
      rw [if_neg (by omega)]
      exact ih h.2

/-- **A number of a message is a length that does not go beyond the word.** -/
theorem take?_eq (p : Bytes) :
    take? p = match peek p with
      | .found len size => if denoted (p.take size) < UInt64.size then some (len, p.drop size) else none
      | .incomplete | .malformed => none := by
  rcases closes_or_goes_on maxPrefix p with ⟨q, rest, rfl, hclose, hle⟩ | hgo
  · rw [peek_closes hclose hle, take?, takeAt_closes hclose rest (by omega), Nat.pow_zero,
      Nat.mul_one, Nat.zero_add]
    dsimp only
    rw [List.take_left, List.drop_left]
    by_cases hfit : denoted q < UInt64.size
    · rw [if_pos hfit, if_pos hfit, Nat.mod_eq_of_lt hfit]
    · rw [if_neg hfit, if_neg hfit]
  · rw [take?, @takeAt_goes_on 0 0 p hgo, peek_goes_on hgo]
    by_cases hlt : p.length < maxPrefix
    · rw [if_pos hlt]
    · rw [if_neg hlt]

end Varint

end TraceRelay
