import TraceRelay.Bytes

/-!
# Base-128 numbers

A number is written seven bits a byte, least first; every byte but the last has its high bit set.

* `Varint.encode` writes the shortest form.
* `Varint.take?` reads one number from the front: at most ten bytes, and below `2 ^ 64`.
* `take?_encode`: what `encode` writes is read back, whatever follows it.
-/

namespace TraceRelay.Varint

/-- The shortest form of `n`. -/
def encode (n : Nat) : Bytes :=
  if n < 128 then [n.toUInt8] else (n % 128 + 128).toUInt8 :: encode (n / 128)
termination_by n

/-- Bytes in the shortest form of `n`. -/
def size (n : Nat) : Nat := if n < 128 then 1 else size (n / 128) + 1
termination_by n

theorem length_encode (n : Nat) : (encode n).length = size n := by
  fun_induction size n with
  | case1 n h => rw [encode]; simp [h]
  | case2 n h ih => rw [encode]; simp [h, ih]

theorem encode_ne_nil (n : Nat) : encode n ≠ [] := by
  rw [encode]; split <;> simp

/-- Goes on with a number of which `place` bytes, worth `value`, were read. -/
def takeAt (place value : Nat) : Bytes → Option (Nat × Bytes)
  | [] => none
  | b :: rest =>
    if 10 ≤ place then none
    else
      let value := value + b.toNat % 128 * Nat.pow 128 place
      if b.toNat < 128 then
        if place = 9 ∧ 2 ≤ b.toNat then none else some (value, rest)
      else takeAt (place + 1) value rest

/-- One number from the front, and what follows it. None if the bytes end inside the number, it
has more than ten bytes, or it is `2 ^ 64` or more. -/
def take? (data : Bytes) : Option (Nat × Bytes) := takeAt 0 0 data

theorem length_takeAt {place value : Nat} {data : Bytes} {n : Nat} {rest : Bytes}
    (h : takeAt place value data = some (n, rest)) : rest.length < data.length := by
  induction data generalizing place value with
  | nil => simp [takeAt] at h
  | cons b tail ih =>
    simp only [takeAt] at h
    split at h
    · simp at h
    · split at h
      · split at h
        · simp at h
        · simp at h; simp [h.2]
      · exact Nat.lt_trans (ih h) (by simp)

theorem length_take? {data : Bytes} {n : Nat} {rest : Bytes} (h : take? data = some (n, rest)) :
    rest.length < data.length := length_takeAt h

theorem takeAt_encode (place value : Nat) {n : Nat} (rest : Bytes) (hp : place ≤ 9)
    (hn : n < Nat.pow 2 (64 - 7 * place)) :
    takeAt place value (encode n ++ rest) = some (value + n * Nat.pow 128 place, rest) := by
  rw [Nat.pow_eq] at hn ⊢
  fun_induction encode n generalizing place value with
  | case1 n h =>
    have hb : n.toUInt8.toNat = n := by simp; omega
    have h9 : ¬ (place = 9 ∧ 2 ≤ n) := by rintro ⟨rfl, h2⟩; omega
    have hlt : ¬ 10 ≤ place := by omega
    simp only [List.cons_append, List.nil_append, takeAt, hb, h, h9, hlt, ↓reduceIte,
      Nat.mod_eq_of_lt h, Nat.pow_eq]
  | case2 n h ih =>
    have hb : (n % 128 + 128).toUInt8.toNat = n % 128 + 128 := by simp; omega
    have hlt : ¬ 10 ≤ place := by omega
    have hge : ¬ n % 128 + 128 < 128 := by omega
    have h8 : place ≤ 8 := by
      by_cases hp9 : place = 9
      · subst hp9; simp at hn; omega
      · omega
    have hn' : n / 128 < 2 ^ (64 - 7 * (place + 1)) := by
      have he : 64 - 7 * place = (64 - 7 * (place + 1)) + 7 := by omega
      rw [he, Nat.pow_add] at hn
      exact Nat.div_lt_of_lt_mul (by omega)
    have hm : (n % 128 + 128) % 128 = n % 128 := by omega
    simp only [List.cons_append, takeAt, hb, hlt, hge, ↓reduceIte, hm, Nat.pow_eq]
    rw [ih _ _ (by omega) hn', Nat.pow_succ, Nat.add_assoc]
    generalize 128 ^ place = p
    have : n % 128 * p + n / 128 * (p * 128) = n * p := by
      rw [Nat.mul_comm p, ← Nat.mul_assoc, ← Nat.add_mul, Nat.mul_comm (n / 128), Nat.mod_add_div]
    rw [this]

/-- A number below `2 ^ 64` is read back from its shortest form, whatever follows. -/
theorem take?_encode {n : Nat} (rest : Bytes) (hn : n < UInt64.size) :
    take? (encode n ++ rest) = some (n, rest) := by
  simpa [take?] using takeAt_encode 0 0 rest (by omega) hn

end TraceRelay.Varint
