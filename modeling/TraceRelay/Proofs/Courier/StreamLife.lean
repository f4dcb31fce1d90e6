import TraceRelay.Proofs.Courier.Streams

/-!
# The life of a stream

What a courier does with one stream is a list of `Op`s. `Life` says which lists these may be, and what
has become of the batches: a batch is handed over whole, in as many writes as it takes, and then flushed
once; so is the end of the compressed stream, before the close; what fails is followed by a reset.

From it one reads of every stream

1. that nothing has failed on it while it is in use (`Life.calm`), and what it has taken (`Life.owes`),
2. that it is flushed once for each batch, and once at its end (`Life.flushed`),
3. that it is closed only after all went well, and otherwise reset as soon as something fails
   (`Life.ended`); in any case it is ended once (`Ended.once`).
-/

namespace TraceRelay.Courier

variable {α : Type}

/-- What is done with a stream, and what comes of it. -/
inductive Op where
  /-- One turn of a write. -/
  | write (data : Bytes) (result : Option (Except Fault Nat))
  | flush (result : Except Fault Unit)
  /-- A close begins. -/
  | close
  /-- One turn of a close. -/
  | closing (result : Option (Except Fault Unit))
  | reset

namespace Op

def isFailure : Op → Bool
  | write _ (some (.error _)) | write _ (some (.ok 0)) | flush (.error _) => true
  | _ => false

def isClose : Op → Bool
  | close => true
  | _ => false

def isReset : Op → Bool
  | reset => true
  | _ => false

def isFlush : Op → Bool
  | flush _ => true
  | _ => false

/-- The bytes that the stream has taken by it. -/
def carried : Op → Bytes
  | write data result => data.take (Channel.took result)
  | _ => []

/-- A failure when `rest` was to be written, or when nothing was left but to flush. -/
inductive Fails (rest : Bytes) : Op → Prop where
  | write {result : Option (Except Fault Nat)} {f : Fault} (failure : writeFailure result f) :
      Fails rest (.write rest result)
  | flush {f : Fault} (all : rest = []) : Fails rest (.flush (.error f))

end Op

/-- The bytes that a stream has taken in all. -/
def bytesOf (ops : List Op) : Bytes := ops.flatMap Op.carried

theorem bytesOf_append (ops new : List Op) : bytesOf (ops ++ new) = bytesOf ops ++ bytesOf new :=
  List.flatMap_append

/-- What a stream is in use for. -/
inductive Use (α : Type) where
  | idle
  /-- A batch is written, or the end of the compressed stream. -/
  | writing (events? : Option (List α)) (rest : Bytes)
  | closing
  | done

/-- Whether a stream has been ended. -/
def Use.isEnded : Use α → Bool
  | closing | done => true
  | _ => false

variable [Message α]

/-- The life of a stream, by the batches sent and lost on it, its use, and what has been done with it. A
compressor works on it that started as `e`. -/
inductive Life (e : Gzip.Encoder) :
    List (List α) → List (List α) → Use α → List Op → Prop where
  | opened : Life e [] [] .idle []
  | take {sent : List (List α)} {ops : List Op} {events : List α} (life : Life e sent [] .idle ops)
      (some_ : events ≠ []) :
      Life e sent [] (.writing (some events) ((e.after (frames sent)).flush (Batch.frame events)).2) ops
  | finish {sent : List (List α)} {ops : List Op} (life : Life e sent [] .idle ops) :
      Life e sent [] (.writing none (e.after (frames sent)).finish) ops
  | waits {sent : List (List α)} {ops : List Op} {events? : Option (List α)} {rest : Bytes}
      (life : Life e sent [] (.writing events? rest) ops) :
      Life e sent [] (.writing events? rest) (ops ++ [.write rest none])
  | part {sent : List (List α)} {ops : List Op} {events? : Option (List α)} {rest : Bytes} {n : Nat}
      (life : Life e sent [] (.writing events? rest) ops) (some_ : n ≠ 0) :
      Life e sent [] (.writing events? (rest.drop n)) (ops ++ [.write rest (some (.ok n))])
  | sent {sent : List (List α)} {ops : List Op} {events : List α}
      (life : Life e sent [] (.writing (some events) []) ops) :
      Life e (sent ++ [events]) [] .idle (ops ++ [.flush (.ok ())])
  | lost {sent : List (List α)} {ops : List Op} {events : List α} {rest : Bytes} {op : Op}
      (life : Life e sent [] (.writing (some events) rest) ops) (fails : op.Fails rest) :
      Life e sent [events] .done (ops ++ [op, .reset])
  | spoiled {sent : List (List α)} {ops : List Op} {rest : Bytes} {op : Op}
      (life : Life e sent [] (.writing none rest) ops) (fails : op.Fails rest) :
      Life e sent [] .done (ops ++ [op, .reset])
  | close {sent : List (List α)} {ops : List Op} (life : Life e sent [] (.writing none []) ops) :
      Life e sent [] .closing (ops ++ [.flush (.ok ()), .close])
  | closeWaits {sent : List (List α)} {ops : List Op} (life : Life e sent [] .closing ops) :
      Life e sent [] .closing (ops ++ [.closing none])
  | closed {sent : List (List α)} {ops : List Op} {result : Except Fault Unit}
      (life : Life e sent [] .closing ops) :
      Life e sent [] .done (ops ++ [.closing (some result)])

variable {e : Gzip.Encoder} {sent lost : List (List α)} {use : Use α} {ops : List Op}

namespace Op

variable {op : Op} {rest : Bytes}

omit [Message α] in
theorem Fails.isFailure (h : op.Fails rest) : op.isFailure = true := by
  cases h with
  | write failure =>
    rcases failure with failure | ⟨failure, -⟩ <;> rw [failure] <;> rfl
  | flush => rfl

omit [Message α] in
theorem Fails.not_end (h : op.Fails rest) : op.isClose = false ∧ op.isReset = false := by
  cases h <;> exact ⟨rfl, rfl⟩

end Op

/-! ## While it is in use -/

/-- What has been done with a stream that is in use has not failed, and has not ended it. -/
structure Calm (closes : Nat) (ops : List Op) : Prop where
  calm : ∀ op ∈ ops, op.isFailure = false
  closes : ops.countP Op.isClose = closes
  resets : ops.countP Op.isReset = 0

omit [Message α] in
theorem Calm.append {n m : Nat} {new : List Op} (h : Calm n ops) (h' : Calm m new) :
    Calm (n + m) (ops ++ new) where
  calm := fun op hop => (List.mem_append.mp hop).elim (h.calm op) (h'.calm op)
  closes := by rw [List.countP_append, h.closes, h'.closes]
  resets := by rw [List.countP_append, h.resets, h'.resets]

omit [Message α] in
theorem calm_singleton {op : Op} (calm : op.isFailure = false) (no_close : op.isClose = false)
    (no_reset : op.isReset = false) : Calm 0 [op] where
  calm := fun x hx => by rw [List.mem_singleton.mp hx]; exact calm
  closes := by rw [List.countP_singleton, no_close]; rfl
  resets := by rw [List.countP_singleton, no_reset]; rfl

/-- **As long as a stream is in use nothing has failed on it**, and it is closed at most once. -/
theorem Life.calm (h : Life e sent lost use ops) (in_use : use ≠ .done) :
    lost = [] ∧ Calm use.isEnded.toNat ops := by
  induction h with
  | opened => exact ⟨rfl, nofun, rfl, rfl⟩
  | take life some_ ih => exact ih nofun
  | finish life ih => exact ih nofun
  | waits life ih => exact ⟨rfl, (ih nofun).2.append (calm_singleton rfl rfl rfl)⟩
  | @part _ _ _ _ n life some_ ih =>
    obtain ⟨m, rfl⟩ := Nat.exists_eq_succ_of_ne_zero some_
    exact ⟨rfl, (ih nofun).2.append (calm_singleton rfl rfl rfl)⟩
  | sent life ih => exact ⟨rfl, (ih nofun).2.append (calm_singleton rfl rfl rfl)⟩
  | close life ih =>
    have hend : Calm 1 [.flush (.ok ()), .close] := ⟨by simp [Op.isFailure], rfl, rfl⟩
    exact ⟨rfl, (ih nofun).2.append hend⟩
  | closeWaits life ih => exact ⟨rfl, (ih nofun).2.append (calm_singleton rfl rfl rfl)⟩
  | lost | spoiled | closed => exact absurd rfl in_use

/-- What a stream in use has taken, and what it is still to take. -/
def Use.Owes (e : Gzip.Encoder) (sent : List (List α)) (taken : Bytes) : Use α → Prop
  | .idle => taken = e.flushAll (frames sent)
  | .writing (some events) rest => taken ++ rest = e.flushAll (frames (sent ++ [events]))
  | .writing none rest => taken ++ rest = e.whole (frames sent)
  | .closing => taken = e.whole (frames sent)
  | .done => True

theorem Life.owes (h : Life e sent lost use ops) : use.Owes e sent (bytesOf ops) := by
  induction h with
  | opened => rfl
  | @take sent ops events life some_ ih =>
    show _ ++ _ = e.flushAll (frames (sent ++ [events]))
    rw [show bytesOf ops = _ from ih, frames_append]
    exact (e.flushAll_concat _ _).symm
  | @finish sent ops life ih =>
    show _ ++ _ = e.whole (frames sent)
    rw [show bytesOf ops = _ from ih, Gzip.Encoder.whole]
  | @waits sent ops events? rest life ih =>
    rw [bytesOf_append, show bytesOf [.write rest none] = [] from rfl, List.append_nil]
    exact ih
  | @part sent ops events? rest n life some_ ih =>
    have hbytes : bytesOf (ops ++ [.write rest (some (.ok n))]) ++ rest.drop n =
        bytesOf ops ++ rest := by
      rw [bytesOf_append, show bytesOf [.write rest (some (.ok n))] = rest.take n from
        List.flatMap_singleton .., List.append_assoc, List.take_append_drop]
    cases events? <;> exact hbytes.trans ih
  | @sent sent ops events life ih =>
    show bytesOf (ops ++ [.flush (.ok ())]) = e.flushAll (frames (sent ++ [events]))
    rw [bytesOf_append]
    exact ih
  | @close sent ops life ih =>
    show bytesOf (ops ++ [.flush (.ok ()), .close]) = e.whole (frames sent)
    rw [bytesOf_append]
    exact ih
  | @closeWaits sent ops life ih =>
    show bytesOf (ops ++ [.closing none]) = e.whole (frames sent)
    rw [bytesOf_append, show bytesOf ops = _ from ih]
    exact List.append_nil _
  | lost | spoiled | closed => trivial

/-- How often a stream has been flushed: once for each batch sent, and once more for what was to be written
last. -/
def Use.Flushed (batches flushes : Nat) : Use α → Prop
  | .idle | .writing _ _ => flushes = batches
  | .closing => flushes = batches + 1
  | .done => batches ≤ flushes ∧ flushes ≤ batches + 1

theorem Life.flushed (h : Life e sent lost use ops) :
    use.Flushed sent.length (ops.countP Op.isFlush) := by
  induction h with
  | opened => rfl
  | take life some_ ih => exact ih
  | finish life ih => exact ih
  | waits life ih | part life some_ ih | closeWaits life ih =>
    rw [List.countP_append]
    exact ih
  | @sent sent ops events life ih =>
    rw [List.countP_append, List.length_append, show ops.countP Op.isFlush = sent.length from ih]
    rfl
  | @close sent ops life ih =>
    rw [List.countP_append, show ops.countP Op.isFlush = sent.length from ih]
    rfl
  | @lost sent ops events rest op life fails ih | @spoiled sent ops rest op life fails ih =>
    have hcount : (ops ++ [op, .reset]).countP Op.isFlush = sent.length + op.isFlush.toNat := by
      rw [List.countP_append, show ops.countP Op.isFlush = sent.length from ih]
      cases op <;> rfl
    rw [hcount]
    exact ⟨Nat.le_add_right _ _, Nat.add_le_add_left (Bool.toNat_le _) _⟩
  | @closed sent ops result life ih =>
    rw [List.countP_append, show ops.countP Op.isFlush = sent.length + 1 from ih]
    exact ⟨Nat.le_add_right _ _, Nat.le_refl _⟩

/-! ## When it is over -/

/-- A close comes after the end of the compressed stream has been written and flushed. -/
theorem Life.closing_split (h : Life e sent lost .closing ops) : ∃ before after,
    ops = before ++ .flush (.ok ()) :: .close :: after ∧ Life e sent [] (.writing none []) before ∧
      ∀ op ∈ after, ∃ result, op = .closing result := by
  generalize huse : Use.closing = use at h
  induction h with
  | close life => exact ⟨_, [], rfl, life, nofun⟩
  | @closeWaits sent ops life ih =>
    obtain ⟨before, after, hsplit, hlife, hafter⟩ := ih rfl
    refine ⟨before, after ++ [.closing none], ?_, hlife, ?_⟩
    · rw [hsplit, List.append_assoc]
      rfl
    · intro op hop
      rcases List.mem_append.mp hop with hop | hop
      · exact hafter op hop
      · exact ⟨none, List.mem_singleton.mp hop⟩
  | _ => cases huse

/-- How a stream has ended. -/
inductive Ended (e : Gzip.Encoder) (sent lost : List (List α)) (ops : List Op) : Prop where
  /-- It was closed, once, after all batches and the end of the compressed stream had been written and
  flushed. Nothing has failed on it. -/
  | closed {before after : List Op} (split : ops = before ++ .flush (.ok ()) :: .close :: after)
      (none_lost : lost = []) (calm : Calm 0 before) (whole : bytesOf before = e.whole (frames sent))
      (closes : ∀ op ∈ after, ∃ result, op = .closing result)
  /-- It was reset, as a write or a flush failed: of a batch, or of the end. Nothing had failed on it
  before, and nothing was done with it after. -/
  | reset {before : List Op} {op : Op} {events? : Option (List α)} {rest : Bytes}
      (split : ops = before ++ [op, .reset]) (lost_ : lost = events?.toList) (calm : Calm 0 before)
      (owes : (Use.writing events? rest).Owes e sent (bytesOf before)) (fails : op.Fails rest)

theorem Life.ended (h : Life e sent lost .done ops) : Ended e sent lost ops := by
  cases h with
  | lost life fails => exact .reset rfl rfl (life.calm nofun).2 life.owes fails
  | spoiled life fails => exact .reset rfl rfl (life.calm nofun).2 life.owes fails
  | @closed _ ops result life =>
    obtain ⟨before, after, hsplit, hlife, hafter⟩ := life.closing_split
    have howes : bytesOf before ++ [] = e.whole (frames sent) := hlife.owes
    rw [List.append_nil] at howes
    have hwhole : ops ++ [.closing (some result)] =
        before ++ .flush (.ok ()) :: .close :: (after ++ [.closing (some result)]) := by
      rw [hsplit, List.append_assoc]
      rfl
    refine .closed hwhole rfl (hlife.calm nofun).2 howes fun op hop => ?_
    rcases List.mem_append.mp hop with hop | hop
    · exact hafter op hop
    · exact ⟨some result, List.mem_singleton.mp hop⟩

/-- **A stream is ended once**, by a close or by a reset. -/
theorem Ended.once (h : Ended e sent lost ops) :
    ops.countP Op.isClose + ops.countP Op.isReset = 1 := by
  cases h with
  | @closed before after split none_lost calm whole closes =>
    have hcloses : after.countP Op.isClose = 0 := List.countP_eq_zero.mpr fun op hop => by
      obtain ⟨result, rfl⟩ := closes op hop
      exact Bool.false_ne_true
    have hresets : after.countP Op.isReset = 0 := List.countP_eq_zero.mpr fun op hop => by
      obtain ⟨result, rfl⟩ := closes op hop
      exact Bool.false_ne_true
    rw [split, List.countP_append, List.countP_append, calm.closes, calm.resets]
    simp only [List.countP_cons, hcloses, hresets]
    rfl
  | @reset before op events? rest split lost_ calm owes fails =>
    rw [split, List.countP_append, List.countP_append, calm.closes, calm.resets]
    simp only [List.countP_cons, fails.not_end]
    rfl

end TraceRelay.Courier
