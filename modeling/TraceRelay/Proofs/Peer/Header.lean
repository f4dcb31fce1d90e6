import TraceRelay.Peer.Header
import TraceRelay.Proofs.Framing.Prefix
import TraceRelay.Proofs.Source

/-!
# Headers

A header is a length of one to three bytes and a line of that length: a name in UTF-8, which may have
newlines in it, and a newline.

1. `readLength_closes`, `readLength_goes_on`: what comes of a length, by the bytes it is made of.
2. `Announces`: the number that bytes begin with, and what is behind it. It is read as one line, or
   refused before any byte of the line is asked for. `read_outcome`: how a header is read, by what the bytes
   begin with.
3. A header that was written is read back, and what follows it is left alone (`read_write`). One that was cut
   is found to end early, wherever the cut is (`read_cut`).
4. What was found of a header stays so, whatever follows (`read_append`).
-/

namespace TraceRelay

namespace Varint

open TraceRelay.Frame

theorem toNat_continued (n : Nat) : (n % 128 + 128).toUInt8.toNat = n % 128 + 128 := by
  simp only [Nat.toUInt8_eq, UInt8.toNat_ofNat']
  omega

theorem closes_encode (n : Nat) : Closes (encode n) := by
  fun_induction encode n with
  | case1 n hlt => exact .last (by simp; omega)
  | case2 n _ ih => exact .more (by rw [toNat_continued]; omega) ih

@[simp] theorem denoted_encode (n : Nat) : denoted (encode n) = n := by
  fun_induction encode n with
  | case1 n hlt =>
    have hb : n.toUInt8.toNat = n := by simp; omega
    rw [denoted_cons, denoted_nil, hb]
    omega
  | case2 n _ ih =>
    rw [denoted_cons, ih, toNat_continued]
    omega

end Varint

namespace Header

open ByteSource TraceRelay.Frame

variable {σ : Type} [ByteSource σ] {R : σ → Bytes → Prop} {last : LastAnswer} {s : σ}
  {data rest body : Bytes} {n : Nat} {name : String}

/-! ## Names -/

/-- The line that names a protocol. -/
def line (protocol : String) : Bytes := Bytes.ofText protocol ++ [10]

theorem write_eq (protocol : String) :
    write protocol = Varint.encode (line protocol).length ++ line protocol := by
  rw [write, line, List.length_append, List.append_assoc]
  rfl

theorem write_ne_nil (protocol : String) : write protocol ≠ [] := by
  rw [write_eq]
  exact List.append_ne_nil_of_left_ne_nil (Varint.encode_ne_nil _) _

theorem nameOf_line (protocol : String) : nameOf (line protocol) = .ok protocol := by
  rw [nameOf, line, List.getLast?_concat, if_neg (by simp), List.dropLast_concat, Bytes.text?_ofText]

theorem length_line_pos (protocol : String) : (line protocol).length ≠ 0 := by
  rw [line, List.length_append, List.length_singleton]; omega

/-! ## The length -/

theorem readLength_step (h : Serves ByteSource.read R last) {b : UInt8} (place value : Nat)
    (hp : place < maxPrefix) (hs : R s (b :: rest)) : ∃ s', R s' rest ∧ readLength s place value =
      if b.toNat < 128 then (.ok (value + b.toNat % 128 * 128 ^ place), s')
      else readLength s' (place + 1) (value + b.toNat % 128 * 128 ^ place) := by
  obtain ⟨s', hread, hs'⟩ := read_one h hs
  refine ⟨s', hs', ?_⟩
  conv => lhs; rw [readLength, if_pos hp, hread]
  rfl

/-- **A length that closes is read for what it denotes**, and no byte behind it. -/
theorem readLength_closes (h : Serves ByteSource.read R last) {v : Bytes} (hv : Closes v) (place value : Nat)
    (hp : place + v.length ≤ maxPrefix) (hs : R s (v ++ rest)) :
    ∃ s', readLength s place value = (.ok (value + denoted v * 128 ^ place), s') ∧ R s' rest := by
  induction hv generalizing s place value with
  | @last b hb =>
    rw [List.length_singleton] at hp
    obtain ⟨s', hs', hread⟩ := readLength_step h place value (by omega) hs
    rw [if_pos hb] at hread
    exact ⟨s', hread, hs'⟩
  | @more b v hb _ ih =>
    rw [List.length_cons] at hp
    obtain ⟨s₁, hs₁, hread⟩ := readLength_step h place value (by omega) hs
    rw [if_neg (by omega)] at hread
    obtain ⟨s', hmore, hs'⟩ := ih (place + 1) (value + b.toNat % 128 * 128 ^ place) (by omega) hs₁
    refine ⟨s', ?_, hs'⟩
    rw [hread, hmore, denoted_cons, Nat.pow_succ]
    congr 2
    ring

/-- Bytes that all go on are read and settle nothing. -/
theorem readLength_goes_on (h : Serves ByteSource.read R last) {v : Bytes} (hv : ∀ b ∈ v, 128 ≤ b.toNat)
    (place value : Nat) (hp : place + v.length ≤ maxPrefix) (hs : R s (v ++ rest)) :
    ∃ s' value', readLength s place value = readLength s' (place + v.length) value' ∧ R s' rest := by
  induction v generalizing s place value with
  | nil => exact ⟨s, value, rfl, hs⟩
  | cons b v ih =>
    rw [List.length_cons] at hp ⊢
    obtain ⟨hb, hv⟩ := List.forall_mem_cons.mp hv
    obtain ⟨s₁, hs₁, hread⟩ := readLength_step h place value (by omega) hs
    rw [if_neg (by omega)] at hread
    obtain ⟨s', value', hmore, hs'⟩ := ih hv (place + 1) (value + b.toNat % 128 * 128 ^ place) (by omega) hs₁
    refine ⟨s', value', ?_, hs'⟩
    rw [hread, hmore, show place + 1 + v.length = place + (v.length + 1) by omega]

/-- Bytes that end in the midst of a length. -/
theorem readLength_ends (h : Serves ByteSource.read R none) (hgo : ∀ b ∈ data, 128 ≤ b.toNat)
    (hlt : data.length < maxPrefix) (hs : R s data) :
    ∃ s', readLength s 0 0 = (.error (.io .unexpectedEof), s') := by
  rw [← List.append_nil data] at hs
  obtain ⟨s₁, value, hread, hs₁⟩ := readLength_goes_on h hgo 0 0 (by omega) hs
  obtain ⟨s', hend, -⟩ := h.ends hs₁ Nat.one_pos
  exact ⟨s', by rw [hread, readLength, if_pos (by omega), hend]; rfl⟩

/-- A length that goes on behind its last byte is refused, and no byte behind that one is read. -/
theorem readLength_too_long (h : Serves ByteSource.read R last)
    (hgo : ∀ b ∈ data.take maxPrefix, 128 ≤ b.toNat) (hle : maxPrefix ≤ data.length) (hs : R s data) : ∃ s',
      readLength s 0 0 = (.error (.protocol "header length prefix too long"), s') ∧
        R s' (data.drop maxPrefix) := by
  have hlen : (data.take maxPrefix).length = maxPrefix := List.length_take_of_le hle
  rw [← List.take_append_drop maxPrefix data] at hs
  obtain ⟨s', value, hread, hs'⟩ := readLength_goes_on h hgo 0 0 (by omega) hs
  exact ⟨s', by rw [hread, readLength, if_neg (by omega)], hs'⟩

/-! ## The line -/

theorem nameOf_eq_ok {bytes : Bytes} : nameOf bytes = .ok name ↔ bytes = line name := by
  constructor
  · intro h
    rw [nameOf] at h
    split at h
    · cases h
    · next hlast =>
      cases htext : Bytes.text? bytes.dropLast with
      | none => rw [htext] at h; cases h
      | some text =>
        rw [htext] at h
        cases h
        rw [line, ← Bytes.text?_eq_some.mp htext]
        exact (List.dropLast_append_getLast? 10 (Decidable.not_not.mp hlast)).symm
  · rintro rfl
    exact nameOf_line name

/-- A line that names nothing is refused, for what it is and not for its bytes running out. -/
theorem nameOf_eq_error {bytes : Bytes} (h : ∀ name, bytes ≠ line name) :
    ∃ why, nameOf bytes = .error (.protocol why) := by
  cases hname : nameOf bytes with
  | ok name => exact absurd (nameOf_eq_ok.mp hname) (h name)
  | error e =>
    rw [nameOf] at hname
    split at hname
    · exact ⟨_, by cases hname; rfl⟩
    · split at hname
      · cases hname
      · exact ⟨_, by cases hname; rfl⟩

/-! ## What bytes begin with -/

/-- Bytes that begin with a length, of three bytes at most, which denotes `n`, and go on with `body`. -/
def Announces (data : Bytes) (n : Nat) (body : Bytes) : Prop :=
  ∃ v, data = v ++ body ∧ Closes v ∧ v.length ≤ maxPrefix ∧ denoted v = n

/-- Bytes that begin with a header of `name`, behind which there is `rest`. -/
def Begins (data : Bytes) (name : String) (rest : Bytes) : Prop :=
  ∃ v, data = v ++ Bytes.ofText name ++ [10] ++ rest ∧ Closes v ∧ v.length ≤ maxPrefix ∧
    denoted v = (Bytes.ofText name).length + 1 ∧ denoted v ≤ maxLength

/-- Bytes that end before the header does that they begin: in its length, or in its line. -/
def CutShort (data : Bytes) : Prop :=
  (data.length < maxPrefix ∧ ∀ b ∈ data, 128 ≤ b.toNat) ∨
    ∃ n body, Announces data n body ∧ 1 ≤ n ∧ n ≤ maxLength ∧ body.length < n

theorem begins_iff : Begins data name rest ↔
    (line name).length ≤ maxLength ∧ Announces data (line name).length (line name ++ rest) := by
  have hline : (line name).length = (Bytes.ofText name).length + 1 := by
    rw [line, List.length_append, List.length_singleton]
  have hdata : ∀ v, v ++ Bytes.ofText name ++ [10] ++ rest = v ++ (line name ++ rest) := by
    intro v
    rw [line, List.append_assoc, List.append_assoc, List.append_assoc]
  constructor
  · rintro ⟨v, hsplit, hv, hle, hn, hmax⟩
    exact ⟨by omega, v, by rw [hsplit, hdata], hv, hle, by rw [hn, hline]⟩
  · rintro ⟨hmax, v, hsplit, hv, hle, hn⟩
    exact ⟨v, by rw [hsplit, hdata], hv, hle, by rw [hn, hline], by omega⟩

/-- **Bytes begin with one length at most.** -/
theorem Announces.unique {n' : Nat} {body' : Bytes} (h : Announces data n body)
    (h' : Announces data n' body') : n = n' ∧ body = body' := by
  obtain ⟨v, rfl, hv, hle, rfl⟩ := h
  obtain ⟨v', hsplit, hv', hle', rfl⟩ := h'
  have hpeek := peek_closes hv (Nat.le_trans hle (by decide)) body
  rw [hsplit, peek_closes hv' (Nat.le_trans hle' (by decide)) body', Length.found.injEq] at hpeek
  obtain ⟨rfl, rfl⟩ := List.append_inj hsplit hpeek.2.symm
  exact ⟨rfl, rfl⟩

theorem Announces.not_goes_on (h : Announces data n body) :
    ¬ ∀ b ∈ data.take maxPrefix, 128 ≤ b.toNat := by
  obtain ⟨v, rfl, hv, hle, -⟩ := h
  obtain ⟨init, b, rfl⟩ := (List.eq_nil_or_concat' v).resolve_left
    (by rintro rfl; exact absurd hv.length_pos (Nat.lt_irrefl _))
  intro hgo
  have hb := (closes_concat.mp hv).2
  have hmem : b ∈ ((init ++ [b]) ++ body).take maxPrefix := by
    rw [List.take_append, List.take_of_length_le hle]
    simp
  have := hgo b hmem
  omega

/-! ## Reading a header -/

theorem Announces.readLength (h : Serves ByteSource.read R last) (ha : Announces data n body)
    (hs : R s data) :
    ∃ s', Header.readLength s 0 0 = (.ok n, s') ∧ R s' body := by
  obtain ⟨v, rfl, hv, hle, rfl⟩ := ha
  obtain ⟨s', hread, hs'⟩ := readLength_closes h hv 0 0 (by omega) hs
  rw [Nat.pow_zero, Nat.mul_one, Nat.zero_add] at hread
  exact ⟨s', hread, hs'⟩

/-- **A length out of bounds is refused before any byte of the line is read.** -/
theorem read_out_of_bounds (h : Serves ByteSource.read R last) (ha : Announces data n body)
    (hbad : n = 0 ∨ maxLength < n) (hs : R s data) :
    ∃ s', read s = (.error (.protocol s!"invalid header length {n}"), s') ∧ R s' body := by
  obtain ⟨s', hlen, hs'⟩ := ha.readLength h hs
  exact ⟨s', by rw [read, hlen]; dsimp only; rw [if_pos hbad], hs'⟩

theorem read_line (h : Serves ByteSource.read R last) (ha : Announces data n body)
    (hgood : ¬ (n = 0 ∨ maxLength < n)) (hle : n ≤ body.length) (hs : R s data) :
    ∃ s', read s = (nameOf (body.take n), s') ∧ R s' (body.drop n) := by
  obtain ⟨s₁, hlen, hs₁⟩ := ha.readLength h hs
  obtain ⟨s', hline, hs'⟩ := readExact_of_le h [] n hs₁ hle
  refine ⟨s', ?_, hs'⟩
  rw [read, hlen]
  dsimp only
  rw [if_neg hgood, hline, List.nil_append]

theorem read_line_short (h : Serves ByteSource.read R none) (ha : Announces data n body)
    (hgood : ¬ (n = 0 ∨ maxLength < n)) (hlt : body.length < n) (hs : R s data) :
    ∃ s', read s = (.error (.io .earlyEof), s') := by
  obtain ⟨s₁, hlen, hs₁⟩ := ha.readLength h hs
  obtain ⟨s', hline, -⟩ := readExact_of_lt h [] n hs₁ hlt
  refine ⟨s', ?_⟩
  rw [read, hlen]
  dsimp only
  rw [if_neg hgood, hline]
  rfl

/-- What a source with these bytes has answered, and what is left in it. -/
inductive Outcome (R : σ → Bytes → Prop) (data : Bytes) : Except HostFailure String × σ → Prop where
  | named {name : String} {rest : Bytes} {s : σ} (h : Begins data name rest) (hs : R s rest) :
    Outcome R data (.ok name, s)
  | ended {f : Fault} {s : σ} (h : CutShort data) (hf : f.kind = .unexpectedEof) :
    Outcome R data (.error (.io f), s)
  | refused {why : String} {s : σ} (h : ∀ name rest, ¬ Begins data name rest) (hcut : ¬ CutShort data) :
    Outcome R data (.error (.protocol why), s)

/-- **How a header is read**, by what the bytes begin with. -/
theorem read_outcome (h : Serves ByteSource.read R none) (hs : R s data) : Outcome R data (read s) := by
  rcases closes_or_goes_on maxPrefix data with ⟨v, body, hsplit, hv, hle⟩ | hgo
  · have ha : Announces data (denoted v) body := ⟨v, hsplit, hv, hle, rfl⟩
    have hcut : CutShort data → 1 ≤ denoted v ∧ denoted v ≤ maxLength ∧ body.length < denoted v := by
      rintro (⟨-, hgo⟩ | ⟨n, body', ha', hbounds⟩)
      · exact absurd (fun b hb => hgo b (List.mem_of_mem_take hb)) ha.not_goes_on
      · obtain ⟨rfl, rfl⟩ := ha'.unique ha
        exact hbounds
    have hbegins : ∀ name rest, Begins data name rest →
        denoted v = (line name).length ∧ denoted v ≤ maxLength ∧ body = line name ++ rest := by
      intro name rest hb
      obtain ⟨hmax, ha'⟩ := begins_iff.mp hb
      obtain ⟨hn, rfl⟩ := ha.unique ha'
      exact ⟨hn, hn ▸ hmax, rfl⟩
    by_cases hbad : denoted v = 0 ∨ maxLength < denoted v
    · obtain ⟨s', hread, -⟩ := read_out_of_bounds h ha hbad hs
      rw [hread]
      refine .refused (fun name rest hb => ?_) fun hc => ?_
      · obtain ⟨hn, hmax, -⟩ := hbegins name rest hb
        have := length_line_pos name
        omega
      · obtain ⟨hpos, hmax, -⟩ := hcut hc
        omega
    by_cases hshort : body.length < denoted v
    · obtain ⟨s', hread⟩ := read_line_short h ha hbad hshort hs
      rw [hread]
      exact .ended (.inr ⟨_, body, ha, by omega, by omega, hshort⟩) rfl
    obtain ⟨s', hread, hs'⟩ := read_line h ha hbad (by omega) hs
    rw [hread]
    by_cases hname : ∃ name, body.take (denoted v) = line name
    · obtain ⟨name, hname⟩ := hname
      have hlen : (line name).length = denoted v := by rw [← hname, List.length_take]; omega
      rw [nameOf_eq_ok.mpr hname]
      refine .named (begins_iff.mpr ⟨by omega, ?_⟩) hs'
      rw [hlen, ← hname, List.take_append_drop]
      exact ha
    · obtain ⟨why, hwhy⟩ := nameOf_eq_error (not_exists.mp hname)
      rw [hwhy]
      refine .refused (fun name rest hb => hname ⟨name, ?_⟩) fun hc => hshort (hcut hc).2.2
      obtain ⟨hn, -, hbody⟩ := hbegins name rest hb
      rw [hbody, hn, List.take_left]
  · have hnone : ∀ {n body}, ¬ Announces data n body := fun ha => ha.not_goes_on hgo
    by_cases hlt : data.length < maxPrefix
    · rw [List.take_of_length_le (Nat.le_of_lt hlt)] at hgo
      obtain ⟨s', hlen⟩ := readLength_ends h hgo hlt hs
      rw [read, hlen]
      exact .ended (.inl ⟨hlt, hgo⟩) rfl
    · obtain ⟨s', hlen, -⟩ := readLength_too_long h hgo (by omega) hs
      rw [read, hlen]
      refine .refused (fun name rest hb => hnone (begins_iff.mp hb).2) ?_
      rintro (⟨hshort, -⟩ | ⟨n, body, ha, -⟩)
      · exact hlt hshort
      · exact hnone ha

theorem read_of_begins (h : Serves ByteSource.read R none) (hb : Begins data name rest) (hs : R s data) :
    ∃ s', read s = (.ok name, s') ∧ R s' rest := by
  obtain ⟨hmax, ha⟩ := begins_iff.mp hb
  have hpos := length_line_pos name
  obtain ⟨s', hread, hs'⟩ := read_line h ha (by omega) (by rw [List.length_append]; omega) hs
  rw [List.take_left, nameOf_line] at hread
  rw [List.drop_left] at hs'
  exact ⟨s', hread, hs'⟩

theorem Begins.not_cutShort (hb : Begins data name rest) : ¬ CutShort data := by
  obtain ⟨-, ha⟩ := begins_iff.mp hb
  rintro (⟨-, hgo⟩ | ⟨n, body, ha', -, -, hlt⟩)
  · exact ha.not_goes_on fun b hb => hgo b (List.mem_of_mem_take hb)
  · obtain ⟨rfl, rfl⟩ := ha.unique ha'
    rw [List.length_append] at hlt
    omega

theorem read_of_cutShort (h : Serves ByteSource.read R none) (hcut : CutShort data) (hs : R s data) :
    ∃ f s', read s = (.error (.io f), s') ∧ f.kind = .unexpectedEof := by
  have houtcome := read_outcome h hs
  generalize read s = answer at houtcome
  cases houtcome with
  | named hb => exact absurd hcut hb.not_cutShort
  | ended _ hf => exact ⟨_, _, rfl, hf⟩
  | refused _ hnot => exact absurd hcut hnot

/-- Of bytes in memory a header that cannot be read is malformed, or they end before it does. -/
theorem read_io {f : Fault} {s : Source} (h : read (Source.ofBytes data) = (.error (.io f), s)) :
    f.kind = .unexpectedEof := by
  have houtcome := read_outcome Source.serves_steady ⟨rfl, Source.steady_ofBytes data⟩
  rw [h] at houtcome
  cases houtcome with
  | ended _ hf => exact hf

/-! ## Headers that were written -/

theorem length_encode_le {k : Nat} (hk : 0 < k) (hn : n < 128 ^ k) : (Varint.encode n).length ≤ k := by
  fun_induction Varint.encode n generalizing k with
  | case1 n hlt => exact hk
  | case2 n hge ih =>
    obtain ⟨k, rfl⟩ := Nat.exists_eq_succ_of_ne_zero (Nat.ne_of_gt hk)
    have hpos : 0 < k := by
      by_contra h0
      rw [Nat.eq_zero_of_not_pos h0] at hn
      omega
    have := ih hpos (Nat.div_lt_of_lt_mul (by rw [Nat.mul_comm, ← Nat.pow_succ]; exact hn))
    rw [List.length_cons]
    omega

theorem announces_write (hle : (Varint.encode (line name).length).length ≤ maxPrefix) (rest : Bytes) :
    Announces (write name ++ rest) (line name).length (line name ++ rest) :=
  ⟨_, by rw [write_eq, List.append_assoc], Varint.closes_encode _, hle, Varint.denoted_encode _⟩

theorem begins_write (hmax : (line name).length ≤ maxLength) (rest : Bytes) :
    Begins (write name ++ rest) name rest :=
  begins_iff.mpr ⟨hmax, announces_write
    (length_encode_le (by decide) (Nat.lt_of_le_of_lt hmax (by decide))) rest⟩

theorem cutShort_of_write (hmax : (line name).length ≤ maxLength) {q : Bytes} (hq : q <+: write name)
    (short : q ≠ write name) : CutShort q := by
  have hclosed := Varint.closes_encode (line name).length
  have hle := length_encode_le (k := maxPrefix) (by decide) (Nat.lt_of_le_of_lt hmax (by decide))
  rw [write_eq] at hq short
  by_cases hlen : Varint.encode (line name).length <+: q
  · -- the cut is in the line
    obtain ⟨p, rfl⟩ := hlen
    have hp := (List.prefix_append_right_inj _).mp hq
    have hlt : p.length < (line name).length := Nat.lt_of_le_of_ne hp.length_le fun heq =>
      short (by rw [hp.eq_of_length heq])
    have hpos := length_line_pos name
    exact .inr ⟨_, p, ⟨_, rfl, hclosed, hle, Varint.denoted_encode _⟩, by omega, hmax, hlt⟩
  · have hcut := (List.prefix_or_prefix_of_prefix hq (List.prefix_append _ _)).resolve_right hlen
    obtain ⟨init, b, hsplit⟩ := (List.eq_nil_or_concat' _).resolve_left
      (Varint.encode_ne_nil (line name).length)
    have hinit : q <+: init := by
      rw [hsplit] at hcut hlen
      exact (List.prefix_concat_iff.mp hcut).resolve_left fun heq => hlen (heq ▸ List.prefix_rfl)
    refine .inl ⟨?_, fun d hd => (closes_concat.mp (hsplit ▸ hclosed)).1 d (hinit.subset hd)⟩
    have hshorter := hinit.length_le
    rw [hsplit, List.length_append, List.length_singleton] at hle
    omega

/-- **A header is read back**, and nothing beyond it is read. -/
theorem read_write (hlength : (line name).length ≤ maxLength) (rest : Bytes) :
    ∃ s, read (Source.ofBytes (write name ++ rest)) = (.ok name, s) ∧ s.data = rest := by
  obtain ⟨s, hread, hs, -⟩ := read_of_begins Source.serves_steady (begins_write hlength rest)
    ⟨rfl, Source.steady_ofBytes _⟩
  exact ⟨s, hread, hs⟩

/-- **A header that was cut ends early.** -/
theorem read_cut (hlength : (line name).length ≤ maxLength) {q : Bytes} (hq : q <+: write name)
    (short : q ≠ write name) :
    ∃ f s, read (Source.ofBytes q) = (.error (.io f), s) ∧ f.kind = .unexpectedEof :=
  read_of_cutShort Source.serves_steady (cutShort_of_write hlength hq short) ⟨rfl, Source.steady_ofBytes q⟩

/-! ## More bytes -/

/-- What is found of a length stays so, whatever follows. -/
theorem readLength_append {p : Bytes} {place value : Nat} {v : Except HostFailure Nat} {s : Source}
    (h : readLength (Source.ofBytes p) place value = (v, s)) (found : ∀ f, v ≠ .error (.io f))
    (q : Bytes) : s = Source.ofBytes s.data ∧
      readLength (Source.ofBytes (p ++ q)) place value = (v, Source.ofBytes (s.data ++ q)) := by
  induction p generalizing place value with
  | nil =>
    rw [readLength] at h
    by_cases hp : place < maxPrefix
    · rw [if_pos hp] at h
      cases h
      exact absurd rfl (found _)
    · rw [if_neg hp] at h
      cases h
      exact ⟨rfl, by rw [readLength, if_neg hp]; rfl⟩
  | cons b p ih =>
    rw [readLength] at h ⊢
    by_cases hp : place < maxPrefix
    · have hread : ∀ p, ByteSource.read (Source.ofBytes (b :: p)) 1 = (.ok [b], Source.ofBytes p) :=
        fun _ => rfl
      rw [if_pos hp, hread] at h
      rw [if_pos hp, List.cons_append, hread]
      dsimp only at h ⊢
      by_cases hb : b.toNat < 128
      · rw [if_pos hb] at h ⊢
        cases h
        exact ⟨rfl, rfl⟩
      · rw [if_neg hb] at h ⊢
        exact ih h
    · rw [if_neg hp] at h ⊢
      cases h
      exact ⟨rfl, rfl⟩

/-- **What is found of a header stays so**, whatever follows, which is left alone. -/
theorem read_append {p : Bytes} {v : Except HostFailure String} {s : Source}
    (h : read (Source.ofBytes p) = (v, s)) (found : ∀ f, v ≠ .error (.io f)) (q : Bytes) :
    ∃ s', read (Source.ofBytes (p ++ q)) = (v, s') ∧ s'.data = s.data ++ q := by
  rw [read] at h
  rcases hlen : readLength (Source.ofBytes p) 0 0 with ⟨_ | len, s₁⟩
  · rw [hlen] at h
    cases h
    obtain ⟨-, hmore⟩ := readLength_append hlen (fun f hf => found f (by cases hf; rfl)) q
    exact ⟨_, by rw [read, hmore], rfl⟩
  · rw [hlen] at h
    dsimp only at h
    obtain ⟨hs, hmore⟩ := readLength_append hlen nofun q
    rw [read, hmore]
    dsimp only
    by_cases hbad : len = 0 ∨ maxLength < len
    · rw [if_pos hbad] at h ⊢
      cases h
      exact ⟨_, rfl, rfl⟩
    · rw [if_neg hbad] at h ⊢
      by_cases hle : len ≤ s₁.data.length
      · have hsteady := Source.steady_ofBytes s₁.data
        rw [← hs] at hsteady
        obtain ⟨s₂, hexact, hs₂, -⟩ := readExact_of_le Source.serves_steady [] len ⟨rfl, hsteady⟩ hle
        obtain ⟨s₃, hexact', hs₃, -⟩ := readExact_of_le Source.serves_steady [] len
          (⟨rfl, Source.steady_ofBytes (s₁.data ++ q)⟩ :
            (Source.ofBytes (s₁.data ++ q)).data = s₁.data ++ q ∧ _)
          (by rw [List.length_append]; omega)
        rw [hexact] at h
        cases h
        rw [hexact', List.take_append_of_le_length hle]
        refine ⟨s₃, rfl, ?_⟩
        rw [hs₃, hs₂, List.drop_append_of_le_length hle]
      · have hsteady := Source.steady_ofBytes s₁.data
        rw [← hs] at hsteady
        obtain ⟨s₂, hexact, -⟩ := readExact_of_lt Source.serves_steady [] len ⟨rfl, hsteady⟩ (by omega)
        rw [hexact] at h
        cases h
        exact absurd rfl (found _)

end Header

end TraceRelay
