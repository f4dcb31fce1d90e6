import TraceRelay.Source

/-!
# Sources that give what they hold

`ByteSource.Serves read R last`: read in this way, a source in a state that `R` relates to some
bytes gives these bytes, in order and a few at a time, and after them always the answer `last`. It
says nothing about how many bytes a read gives, so what is proved from it holds however a source
cuts its answers.

* `serves_patiently`: for patient reads it is enough that a read is answered like this unless it is
  interrupted, and that the interrupted one has taken nothing.
* `readExact_of_le`, `readExact_of_lt`: an exact read of such a source.
* `Source.serves`: bytes in memory, read patiently, whatever reads the schedule interrupts or cuts
  short, as long as none fails otherwise. `Source.serves_steady`: read plainly, if none fails.
-/

namespace TraceRelay

/-- The answer of a source that has no more bytes. -/
abbrev LastAnswer := Option Fault

def LastAnswer.result : LastAnswer → Except Fault Bytes
  | none => .ok []
  | some f => .error f

namespace ByteSource

variable {σ : Type}

structure Serves (read : σ → Nat → Except Fault Bytes × σ) (R : σ → Bytes → Prop)
    (last : LastAnswer) : Prop where
  gives : ∀ {s : σ} {data : Bytes} {want : Nat}, R s data → data ≠ [] → 0 < want →
    ∃ n s', 0 < n ∧ n ≤ want ∧ read s want = (.ok (data.take n), s') ∧ R s' (data.drop n)
  ends : ∀ {s : σ} {want : Nat}, R s [] → 0 < want →
    ∃ s', read s want = (last.result, s') ∧ R s' []

variable {R : σ → Bytes → Prop} {last : LastAnswer}

/-- The answer to a request for `want` bytes when `left` is still to come. -/
def Served (R : σ → Bytes → Prop) (last : LastAnswer) (want : Nat) (left : Bytes)
    (answer : Except Fault Bytes × σ) : Prop :=
  (∃ n, 0 < n ∧ n ≤ want ∧ left ≠ [] ∧ answer.1 = .ok (left.take n) ∧ R answer.2 (left.drop n)) ∨
  (left = [] ∧ answer.1 = last.result ∧ R answer.2 [])

/-- The request came to nothing and can be made again. -/
def Interrupted (R : σ → Bytes → Prop) (left : Bytes) (answer : Except Fault Bytes × σ) : Prop :=
  isInterrupted answer.1 = true ∧ R answer.2 left

theorem Served.not_interrupted {want : Nat} {left : Bytes} {answer : Except Fault Bytes × σ}
    (h : Served R last want left answer) (hlast : isInterrupted last.result = false) :
    isInterrupted answer.1 = false := by
  rcases h with ⟨n, -, -, -, hanswer, -⟩ | ⟨-, hanswer, -⟩
  · rw [hanswer]; rfl
  · rw [hanswer]; exact hlast

section Patient

variable [ByteSource σ]

theorem served_patiently (hlast : isInterrupted last.result = false) {want : Nat} {left : Bytes}
    (h : ∀ s, R s left →
      Served R last want left (read s want) ∨ Interrupted R left (read s want))
    (s : σ) (hs : R s left) : Served R last want left (readPatiently s want) := by
  fun_induction readPatiently s want with
  | case1 s hinterrupted ih =>
    rcases h s hs with hserved | ⟨-, hs'⟩
    · rw [hserved.not_interrupted hlast] at hinterrupted
      cases hinterrupted
    · exact ih hs'
  | case2 s hanswer =>
    rcases h s hs with hserved | ⟨hinterrupted, -⟩
    · exact hserved
    · exact absurd hinterrupted hanswer

/-- **Patient reads get past interruptions**, of which a source has only so many. -/
theorem serves_patiently (hlast : isInterrupted last.result = false)
    (h : ∀ {s : σ} {left : Bytes} {want : Nat}, R s left → 0 < want →
      Served R last want left (read s want) ∨ Interrupted R left (read s want)) :
    Serves readPatiently R last where
  gives := by
    intro s left want hs hleft hwant
    rcases served_patiently hlast (fun _ hs => h hs hwant) s hs with
      ⟨n, hn, hnw, -, hanswer, hs'⟩ | ⟨hnil, -, -⟩
    · exact ⟨n, _, hn, hnw, Prod.ext hanswer rfl, hs'⟩
    · exact absurd hnil hleft
  ends := by
    intro s want hs hwant
    rcases served_patiently hlast (fun _ hs => h hs hwant) s hs with
      ⟨n, -, -, hnil, -, -⟩ | ⟨-, hanswer, hs'⟩
    · exact absurd rfl hnil
    · exact ⟨_, Prod.ext hanswer rfl, hs'⟩

end Patient

variable {read : σ → Nat → Except Fault Bytes × σ}

/-- A source that ends well gives some of what it holds, nothing once it holds nothing. -/
theorem Serves.chunk (h : Serves read R none) {s : σ} {data : Bytes} {want : Nat} (hs : R s data)
    (hwant : 0 < want) :
    ∃ n s', 0 < n ∧ n ≤ want ∧ read s want = (.ok (data.take n), s') ∧ R s' (data.drop n) := by
  by_cases hdata : data = []
  · subst hdata
    obtain ⟨s', hread, hs'⟩ := h.ends hs hwant
    exact ⟨want, s', hwant, Nat.le_refl _, by rw [hread, List.take_nil]; rfl,
      by rwa [List.drop_nil]⟩
  · exact h.gives hs hdata hwant

theorem Serves.of_chunk
    (h : ∀ {s : σ} {data : Bytes} {want : Nat}, R s data → 0 < want →
      ∃ n s', 0 < n ∧ n ≤ want ∧ read s want = (.ok (data.take n), s') ∧ R s' (data.drop n)) :
    Serves read R none where
  gives hs _ hwant := h hs hwant
  ends hs hwant := by
    obtain ⟨n, s', -, -, hread, hs'⟩ := h hs hwant
    rw [List.take_nil] at hread
    rw [List.drop_nil] at hs'
    exact ⟨s', hread, hs'⟩

/-- An exact read of as many bytes as there are at least. -/
theorem readExact_of_le (h : Serves read R last) {s : σ} {data : Bytes} (got : Bytes) (want : Nat)
    (hs : R s data) (hle : want ≤ data.length) :
    ∃ s', readExact read s want got = (.full (got ++ data.take want), s') ∧ R s' (data.drop want) := by
  induction want using Nat.strongRecOn generalizing s data got with
  | _ want ih =>
    rw [readExact]
    by_cases h0 : want = 0
    · subst h0
      exact ⟨s, by rw [if_pos rfl, List.take_zero, List.append_nil], hs⟩
    · have hdata : data ≠ [] := fun hd => by rw [hd] at hle; exact h0 (Nat.le_zero.mp hle)
      obtain ⟨n, s₁, hn, hnw, hread, hs₁⟩ := h.gives hs hdata (Nat.pos_of_ne_zero h0)
      have hlength : (data.take n).length = n := by rw [List.length_take]; omega
      rw [if_neg h0, hread]
      cases htake : data.take n with
      | nil => rw [htake] at hlength; rw [List.length_nil] at hlength; omega
      | cons b more =>
        rw [htake, List.length_cons] at hlength
        obtain ⟨s₂, hrest, hs₂⟩ := ih (want - n) (by omega) (got ++ b :: more) hs₁
          (by rw [List.length_drop]; omega)
        refine ⟨s₂, ?_, ?_⟩
        · dsimp only
          rw [hlength, hrest, ← htake, List.append_assoc]
          congr 3
          rw [← List.take_add]
          congr 1
          omega
        · rw [List.drop_drop] at hs₂
          rwa [show want = n + (want - n) by omega]

/-- How an exact read ends that asks for more than there is. -/
def LastAnswer.shortRead (last : LastAnswer) (got : Bytes) : ExactRead :=
  match last with
  | none => .short got
  | some f => .failed f

theorem readExact_of_lt (h : Serves read R last) {s : σ} {data : Bytes} (got : Bytes) (want : Nat)
    (hs : R s data) (hlt : data.length < want) :
    ∃ s', readExact read s want got = (LastAnswer.shortRead last (got ++ data), s') ∧ R s' [] := by
  induction want using Nat.strongRecOn generalizing s data got with
  | _ want ih =>
    have h0 : want ≠ 0 := by omega
    rw [readExact, if_neg h0]
    by_cases hdata : data = []
    · subst hdata
      obtain ⟨s₁, hread, hs₁⟩ := h.ends hs (Nat.pos_of_ne_zero h0)
      rw [hread, List.append_nil]
      cases last with
      | none => exact ⟨s₁, rfl, hs₁⟩
      | some f => exact ⟨s₁, rfl, hs₁⟩
    · obtain ⟨n, s₁, hn, hnw, hread, hs₁⟩ := h.gives hs hdata (Nat.pos_of_ne_zero h0)
      rw [hread]
      have hne : data.take n ≠ [] := by
        cases data with
        | nil => exact absurd rfl hdata
        | cons b rest =>
          cases n with
          | zero => omega
          | succ n => rw [List.take_succ_cons]; nofun
      cases htake : data.take n with
      | nil => exact absurd htake hne
      | cons b more =>
        have hlength : more.length + 1 = min n data.length := by
          rw [← List.length_take, htake, List.length_cons]
        obtain ⟨s₂, hrest, hs₂⟩ := ih (want - (more.length + 1)) (by omega)
          (got ++ b :: more) hs₁ (by rw [List.length_drop]; omega)
        refine ⟨s₂, ?_, hs₂⟩
        dsimp only
        rw [hrest, ← htake, List.append_assoc, List.take_append_drop]

/-- A read of one byte. -/
theorem read_one (h : Serves read R last) {s : σ} {b : UInt8} {rest : Bytes} (hs : R s (b :: rest)) :
    ∃ s', read s 1 = (.ok [b], s') ∧ R s' rest := by
  obtain ⟨n, s', hn, hn1, hread, hs'⟩ := h.gives hs (List.cons_ne_nil b rest) Nat.one_pos
  have : n = 1 := by omega
  subst this
  exact ⟨s', hread, hs'⟩

end ByteSource

/-! ## Bytes in memory -/

namespace Source

/-- A read fails only by being interrupted. -/
def Calm (s : Source) : Prop := ∀ turn ∈ s.turns, turn.gives || turn.interrupts

/-- No read fails. -/
def Steady (s : Source) : Prop := ∀ turn ∈ s.turns, turn.gives

instance (s : Source) : Decidable s.Calm :=
  inferInstanceAs (Decidable (∀ turn ∈ s.turns, turn.gives || turn.interrupts))

instance (s : Source) : Decidable s.Steady :=
  inferInstanceAs (Decidable (∀ turn ∈ s.turns, turn.gives))

theorem steady_ofBytes (data : Bytes) : (ofBytes data).Steady := nofun

theorem calm_ofBytes (data : Bytes) : (ofBytes data).Calm := nofun

/-- A read gives some of the data, if any is there, or fails as the schedule says. -/
theorem read_cases (s : Source) {want : Nat} (hwant : 0 < want) :
    (∃ n turns, 0 < n ∧ n ≤ want ∧ turns ⊆ s.turns ∧
      s.read want = (.ok (s.data.take n), ⟨s.data.drop n, turns⟩)) ∨
    (∃ f turns, s.turns = .fails f :: turns ∧ s.read want = (.error f, ⟨s.data, turns⟩)) := by
  obtain ⟨data, turns⟩ := s
  cases turns with
  | nil => exact .inl ⟨want, [], hwant, Nat.le_refl _, List.Subset.refl _, rfl⟩
  | cons turn turns =>
    cases turn with
    | fails f => exact .inr ⟨f, turns, rfl, rfl⟩
    | upTo n =>
      cases n with
      | zero => exact .inl ⟨want, turns, hwant, Nat.le_refl _, List.subset_cons_self .., rfl⟩
      | succ n =>
        exact .inl ⟨min want (n + 1), turns, by omega, by omega, List.subset_cons_self .., rfl⟩

/-- **A source in memory gives its bytes** to patient reads, however it cuts or interrupts them. -/
theorem serves : ByteSource.Serves ByteSource.readPatiently
    (fun (s : Source) data => s.data = data ∧ s.Calm) none := by
  refine ByteSource.serves_patiently rfl ?_
  rintro s _ want ⟨rfl, hcalm⟩ hwant
  rcases s.read_cases hwant with ⟨n, turns, hn, hnw, hturns, hread⟩ | ⟨f, turns, hturns, hread⟩
  · left
    have hrest : (⟨s.data.drop n, turns⟩ : Source).Calm := fun turn h => hcalm turn (hturns h)
    rw [show ByteSource.read s want = _ from hread]
    by_cases hdata : s.data = []
    · exact .inr ⟨hdata, by rw [hdata, List.take_nil]; rfl, by rw [hdata, List.drop_nil], hrest⟩
    · exact .inl ⟨n, hn, hnw, hdata, rfl, rfl, hrest⟩
  · right
    rw [show ByteSource.read s want = _ from hread]
    rw [Calm, hturns, List.forall_mem_cons] at hcalm
    exact ⟨hcalm.1, rfl, hcalm.2⟩

/-- A source none of whose reads fails gives its bytes to plain reads. -/
theorem serves_steady : ByteSource.Serves ByteSource.read
    (fun (s : Source) data => s.data = data ∧ s.Steady) none := by
  refine ByteSource.Serves.of_chunk ?_
  rintro s _ want ⟨rfl, hsteady⟩ hwant
  rcases s.read_cases hwant with ⟨n, turns, hn, hnw, hturns, hread⟩ | ⟨f, turns, hturns, -⟩
  · exact ⟨n, _, hn, hnw, hread, rfl, fun turn h => hsteady turn (hturns h)⟩
  · rw [Steady, hturns, List.forall_mem_cons] at hsteady
    exact absurd hsteady.1 Bool.false_ne_true

end Source

end TraceRelay
