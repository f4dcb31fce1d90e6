import TraceRelay.Proofs.Courier.StreamLife
import TraceRelay.Proofs.Courier.WindUp
import TraceRelay.Proofs.Trail

/-!
# What a courier does with its streams

1. `history`: what a courier does with each stream, noted down along a run.
2. `Lives`: each stream has a `Life`, and only the one in use is not over. Every step keeps it.
-/

namespace TraceRelay

/-! ## Calls on a stream open none -/

namespace Net

variable {n n' : Net} {i : Nat}

theorem size_of_write {data : Bytes} {result : Option (Except Fault Nat)}
    (write : n.write i data = (n', result)) : n'.channels.size = n.channels.size := by
  cases write
  exact Array.size_setIfInBounds

theorem size_of_flush {result : Except Fault Unit} (flush : n.flush i = (n', result)) :
    n'.channels.size = n.channels.size := by
  cases flush
  exact Array.size_setIfInBounds

theorem size_of_close {result : Option (Except Fault Unit)} (close : n.close i = (n', result)) :
    n'.channels.size = n.channels.size := by
  cases close
  exact Array.size_setIfInBounds

theorem size_reset (n : Net) (i : Nat) : (n.reset i).channels.size = n.channels.size :=
  Array.size_setIfInBounds

end Net

namespace Courier

variable {α : Type}

/-! ## What is done with a stream -/

/-- A failure is followed by a reset. -/
def orReset (op : Op) : List Op := if op.isFailure then [op, .reset] else [op]

/-- What the next step does with the stream in use. -/
def ops (c : Courier α) : List Op :=
  match c.phase with
  | .writing s _ _ rest => orReset (.write rest (c.net.write s.stream rest).2)
  | .flushing s _ _ => orReset (.flush (c.net.flush s.stream).2)
  | .completing i rest => orReset (.write rest (c.net.write i rest).2)
  | .flushingEnd i =>
    match (c.net.flush i).2 with
    | .ok () => [.flush (.ok ()), .close]
    | .error f => orReset (.flush (.error f))
  | .closing i => [.closing (c.net.close i).2]
  | _ => []

/-- What a move does with stream `i`. -/
def opsOn (i : Nat) (c : Courier α) : Move α → List Op
  | .work _ => if c.stream? = some i then c.ops else []
  | _ => []

variable [Message α]

/-- All that has been done with stream `i`, along some moves. -/
def history (c₀ : Courier α) (ms : List (Move α)) (i : Nat) : List Op :=
  Trail.along move (opsOn i) c₀ ms

theorem Run.foldlM_move {c₀ c : Courier α} {ms : List (Move α)} {ds : Deeds α}
    (r : Run c₀ ms ds c) : ms.foldlM Courier.move c₀ = some c := by
  induction r with
  | start => rfl
  | move _ h ih => rw [List.foldlM_append, ih]; simpa using h

theorem Run.history_concat {c₀ c : Courier α} {ms : List (Move α)} {ds : Deeds α}
    (r : Run c₀ ms ds c) (m : Move α) (i : Nat) :
    history c₀ (ms ++ [m]) i = history c₀ ms i ++ c.opsOn i m :=
  Trail.along_concat r.foldlM_move m

/-! ## Each stream has a life -/

/-- What the stream in use is in use for. -/
def use (c : Courier α) : Use α :=
  match c.phase with
  | .writing _ _ _ rest => .writing (some c.scratch.toList) rest
  | .flushing _ _ _ => .writing (some c.scratch.toList) []
  | .completing _ rest => .writing none rest
  | .flushingEnd _ => .writing none []
  | .closing _ => .closing
  | _ => .idle

/-- What is known of each stream, by what has been done with it. -/
structure Lives (e : Gzip.Encoder) (ds : Deeds α) (hist : Nat → List Op) (c : Courier α) : Prop where
  current : ∀ i, c.stream? = some i →
    i < c.net.channels.size ∧ Life e (ds.sentOn i) (ds.lostOn i) c.use (hist i)
  past : ∀ i < c.net.channels.size, c.stream? ≠ some i →
    Life e (ds.sentOn i) (ds.lostOn i) .done (hist i)
  unopened : ∀ i, c.net.channels.size ≤ i → hist i = [] ∧ ds.sentOn i = [] ∧ ds.lostOn i = []

variable {e : Gzip.Encoder} {ds new : Deeds α} {c c' : Courier α} {hist hist' : Nat → List Op}

/-- A step on the stream in use, which may be its last. -/
theorem Lives.on (h : Lives e ds hist c) {i : Nat} (at_ : c.stream? = some i)
    (size : c'.net.channels.size = c.net.channels.size) (spares : ∀ j, j ≠ i → new.Spares j)
    (others : ∀ j, j ≠ i → hist' j = hist j)
    (next : c'.stream? = some i ∧
        Life e ((ds ++ new).sentOn i) ((ds ++ new).lostOn i) c'.use (hist' i) ∨
      c'.stream? = none ∧ Life e ((ds ++ new).sentOn i) ((ds ++ new).lostOn i) .done (hist' i)) :
    Lives e (ds ++ new) hist' c' := by
  have hi := (h.current i at_).1
  refine ⟨?_, ?_, ?_⟩
  · intro j hj
    rcases next with ⟨hstream, hlife⟩ | ⟨hstream, -⟩
    · cases hstream.symm.trans hj
      exact ⟨size ▸ hi, hlife⟩
    · rw [hstream] at hj
      cases hj
  · intro j hj hne
    by_cases hji : j = i
    · subst hji
      exact (next.resolve_left fun h => hne h.1).2
    · obtain ⟨hsent, hlost⟩ := (spares j hji).append ds
      rw [hsent, hlost, others j hji]
      refine h.past j (size ▸ hj) ?_
      rw [at_]
      exact fun hsome => hji (Option.some.inj hsome).symm
  · intro j hj
    rw [size] at hj
    have hji : j ≠ i := by omega
    obtain ⟨hsent, hlost⟩ := (spares j hji).append ds
    rw [hsent, hlost, others j hji]
    exact h.unopened j hj

/-- A step that does nothing with any stream. -/
theorem Lives.aside (h : Lives e ds hist c) (size : c'.net.channels.size = c.net.channels.size)
    (spares : ∀ j, new.Spares j) (same : ∀ j, hist' j = hist j)
    (stream : c'.stream? = c.stream?) (use : ∀ i, c.stream? = some i → c'.use = c.use) :
    Lives e (ds ++ new) hist' c' := by
  refine ⟨?_, ?_, ?_⟩
  · intro j hj
    rw [stream] at hj
    obtain ⟨hsent, hlost⟩ := (spares j).append ds
    rw [hsent, hlost, same j, use j hj, size]
    exact h.current j hj
  · intro j hj hne
    obtain ⟨hsent, hlost⟩ := (spares j).append ds
    rw [hsent, hlost, same j]
    exact h.past j (size ▸ hj) (stream ▸ hne)
  · intro j hj
    obtain ⟨hsent, hlost⟩ := (spares j).append ds
    rw [hsent, hlost, same j]
    exact h.unopened j (size ▸ hj)

/-- What has been done with each stream, with what a step adds. -/
def noted (c : Courier α) (hist : Nat → List Op) (j : Nat) : List Op :=
  hist j ++ if c.stream? = some j then c.ops else []

omit [Message α] in
theorem noted_on {i : Nat} {done : List Op} (at_ : c.stream? = some i) (ops : c.ops = done) :
    c.noted hist i = hist i ++ done := by rw [noted, if_pos at_, ops]

omit [Message α] in
theorem noted_other {i j : Nat} (at_ : c.stream? = some i) (other : j ≠ i) :
    c.noted hist j = hist j := by
  rw [noted, if_neg, List.append_nil]
  rw [at_]
  exact fun hsome => other (Option.some.inj hsome).symm

omit [Message α] in
theorem noted_nothing (ops : c.ops = []) (j : Nat) : c.noted hist j = hist j := by
  rw [noted, ops, ite_self, List.append_nil]

omit [Message α] in
theorem orReset_of_fails {op : Op} {rest : Bytes} (h : op.Fails rest) : orReset op = [op, .reset] :=
  if_pos h.isFailure

/-- The stream in use goes on. -/
theorem Lives.goes_on (h : Lives e ds hist c) {i : Nat} {done : List Op} (at_ : c.stream? = some i)
    (ops : c.ops = done) (size : c'.net.channels.size = c.net.channels.size)
    (spares : ∀ j, j ≠ i → new.Spares j) (still : c'.stream? = some i)
    (life : Life e (ds.sentOn i) (ds.lostOn i) c.use (hist i) →
      Life e ((ds ++ new).sentOn i) ((ds ++ new).lostOn i) c'.use (hist i ++ done)) :
    Lives e (ds ++ new) (c.noted hist) c' := by
  refine h.on at_ size spares (fun j hj => noted_other at_ hj) (.inl ⟨still, ?_⟩)
  rw [noted_on at_ ops]
  exact life (h.current i at_).2

/-- The stream in use is done with. -/
theorem Lives.is_over (h : Lives e ds hist c) {i : Nat} {done : List Op} (at_ : c.stream? = some i)
    (ops : c.ops = done) (size : c'.net.channels.size = c.net.channels.size)
    (spares : ∀ j, j ≠ i → new.Spares j) (gone : c'.stream? = none)
    (life : Life e (ds.sentOn i) (ds.lostOn i) c.use (hist i) →
      Life e ((ds ++ new).sentOn i) ((ds ++ new).lostOn i) .done (hist i ++ done)) :
    Lives e (ds ++ new) (c.noted hist) c' := by
  refine h.on at_ size spares (fun j hj => noted_other at_ hj) (.inr ⟨gone, ?_⟩)
  rw [noted_on at_ ops]
  exact life (h.current i at_).2

/-- The stream in use goes on, and no batch is done with. -/
theorem Lives.turn (h : Lives e ds hist c) {i : Nat} {done : List Op} (at_ : c.stream? = some i)
    (none_lost : ds.lostOn i = []) (ops : c.ops = done)
    (size : c'.net.channels.size = c.net.channels.size) (still : c'.stream? = some i)
    (life : Life e (ds.sentOn i) [] c.use (hist i) →
      Life e (ds.sentOn i) [] c'.use (hist i ++ done)) :
    Lives e (ds ++ []) (c.noted hist) c' := by
  refine h.goes_on at_ ops size (fun j _ => Deeds.spares_nil j) still fun hlife => ?_
  rw [none_lost] at hlife
  rw [List.append_nil, none_lost]
  exact life hlife

/-- The stream in use is done with, and no batch is. -/
theorem Lives.leave (h : Lives e ds hist c) {i : Nat} {done : List Op} (at_ : c.stream? = some i)
    (none_lost : ds.lostOn i = []) (ops : c.ops = done)
    (size : c'.net.channels.size = c.net.channels.size) (gone : c'.stream? = none)
    (life : Life e (ds.sentOn i) [] c.use (hist i) →
      Life e (ds.sentOn i) [] .done (hist i ++ done)) :
    Lives e (ds ++ []) (c.noted hist) c' := by
  refine h.is_over at_ ops size (fun j _ => Deeds.spares_nil j) gone fun hlife => ?_
  rw [none_lost] at hlife
  rw [List.append_nil, none_lost]
  exact life hlife

/-- Nothing is done with any stream. -/
theorem Lives.idle (h : Lives e ds hist c) (ops : c.ops = [])
    (size : c'.net.channels.size = c.net.channels.size) (spares : ∀ j, new.Spares j)
    (stream : c'.stream? = c.stream?) (use : ∀ i, c.stream? = some i → c'.use = c.use) :
    Lives e (ds ++ new) (c.noted hist) c' :=
  h.aside size spares (noted_nothing ops) stream use

omit [Message α] in
theorem stream?_heed (c : Courier α) (s : Session) (signal : Signal) :
    (c.heed s signal).stream? = some s.stream := by cases signal <;> rfl

omit [Message α] in
theorem use_heed (c : Courier α) (s : Session) (signal : Signal) :
    (c.heed s signal).use = .idle := by cases signal <;> rfl

omit [Message α] in
theorem ops_writing {s : Session} {last : Bool} {parcel : Parcel} {rest : Bytes} {net : Net}
    {result : Option (Except Fault Nat)} (at_ : c.phase = .writing s last parcel rest)
    (write : c.net.write s.stream rest = (net, result)) : c.ops = orReset (.write rest result) := by
  rw [ops, at_]
  dsimp only
  rw [write]

omit [Message α] in
theorem ops_completing {i : Nat} {rest : Bytes} {net : Net} {result : Option (Except Fault Nat)}
    (at_ : c.phase = .completing i rest) (write : c.net.write i rest = (net, result)) :
    c.ops = orReset (.write rest result) := by
  rw [ops, at_]
  dsimp only
  rw [write]

omit [Message α] in
theorem ops_flushing {s : Session} {last : Bool} {parcel : Parcel} {net : Net}
    {result : Except Fault Unit} (at_ : c.phase = .flushing s last parcel)
    (flush : c.net.flush s.stream = (net, result)) : c.ops = orReset (.flush result) := by
  rw [ops, at_]
  dsimp only
  rw [flush]

omit [Message α] in
theorem ops_flushingEnd {i : Nat} {net : Net} (at_ : c.phase = .flushingEnd i)
    (flush : c.net.flush i = (net, .ok ())) : c.ops = [.flush (.ok ()), .close] := by
  rw [ops, at_]
  dsimp only
  rw [flush]

omit [Message α] in
theorem ops_flushingEnd_of_fails {i : Nat} {net : Net} {f : Fault} (at_ : c.phase = .flushingEnd i)
    (flush : c.net.flush i = (net, .error f)) : c.ops = [.flush (.error f), .reset] := by
  rw [ops, at_]
  dsimp only
  rw [flush]
  rfl

omit [Message α] in
theorem ops_closing {i : Nat} {net : Net} {result : Option (Except Fault Unit)}
    (at_ : c.phase = .closing i) (close : c.net.close i = (net, result)) :
    c.ops = [.closing result] := by
  rw [ops, at_]
  dsimp only
  rw [close]

omit [Message α] in
theorem orReset_part {rest : Bytes} {n : Nat} (some_ : n ≠ 0) :
    orReset (.write rest (some (.ok n))) = [.write rest (some (.ok n))] := by
  obtain ⟨m, rfl⟩ := Nat.exists_eq_succ_of_ne_zero some_
  rfl

/-- A batch is done with, and the stream goes on. -/
theorem Lives.endBatch (h : Lives e ds hist c) {s : Session} {last : Bool} {done : List Op}
    {d : Courier α} (at_ : c.stream? = some s.stream) (ops : c.ops = done)
    (size : d.net.channels.size = c.net.channels.size) (spares : ∀ j, j ≠ s.stream → new.Spares j)
    (gzip : s.gzip = e.after (frames ((ds ++ new).sentOn s.stream)))
    (none_lost : (ds ++ new).lostOn s.stream = [])
    (life : Life e (ds.sentOn s.stream) (ds.lostOn s.stream) c.use (hist s.stream) →
      Life e ((ds ++ new).sentOn s.stream) [] .idle (hist s.stream ++ done)) :
    Lives e (ds ++ new) (c.noted hist) (d.endBatch s last) := by
  refine h.goes_on at_ ops (by rw [net_endBatch]; exact size) spares (stream?_endBatch ..)
    fun hlife => ?_
  rw [none_lost]
  cases last with
  | false => exact life hlife
  | true =>
    show Life e _ _ (.writing none s.gzip.finish) _
    rw [gzip]
    exact .finish (life hlife)

/-- The batch on its way is lost. -/
theorem Lives.lose (h : Lives e ds hist c) {s : Session} {last : Bool} {parcel : Parcel} {f : Fault}
    {net : Net} {rest : Bytes} {op : Op} (at_ : c.stream? = some s.stream)
    (none_lost : ds.lostOn s.stream = []) (use : c.use = .writing (some c.scratch.toList) rest)
    (ops : c.ops = [op, .reset]) (fails : op.Fails rest)
    (size : net.channels.size = c.net.channels.size) :
    Lives e (ds ++ [.settled c.scratch.toList (.lost s.stream)]) (c.noted hist)
      ({ c with net }.lost s last parcel f) := by
  refine h.is_over at_ ops ((Net.size_reset _ _).trans size) (fun j hj => Deeds.spares_lost hj _) ?_
    fun hlife => ?_
  · cases last <;> rfl
  · rw [use, none_lost] at hlife
    rw [Deeds.sentOn_append, Deeds.lostOn_append, Deeds.sentOn_lost, Deeds.lostOn_lost, none_lost,
      List.append_nil]
    exact .lost hlife fails

/-- The stream in use takes `n` of the bytes that are left for it. -/
theorem Lives.part (h : Lives e ds hist c) {i n : Nat} {rest : Bytes} {events? : Option (List α)}
    (at_ : c.stream? = some i) (none_lost : ds.lostOn i = []) (use : c.use = .writing events? rest)
    (ops : c.ops = orReset (.write rest (some (.ok n)))) (some_ : n ≠ 0)
    (size : c'.net.channels.size = c.net.channels.size) (still : c'.stream? = some i)
    (next : c'.use = .writing events? (rest.drop n)) :
    Lives e (ds ++ []) (c.noted hist) c' := by
  refine h.turn at_ none_lost (ops.trans (orReset_part some_)) size still fun hlife => ?_
  rw [use] at hlife
  rw [next]
  exact .part hlife some_

/-- The end of the stream in use does not get out. -/
theorem Lives.spoil (h : Lives e ds hist c) {i : Nat} {f : Fault} {net : Net} {rest : Bytes} {op : Op}
    (at_ : c.stream? = some i) (none_lost : ds.lostOn i = []) (use : c.use = .writing none rest)
    (ops : c.ops = [op, .reset]) (fails : op.Fails rest)
    (size : net.channels.size = c.net.channels.size) :
    Lives e (ds ++ []) (c.noted hist) ({ c with net }.spoiled i f) := by
  refine h.leave at_ none_lost ops ((Net.size_reset _ _).trans size) rfl fun hlife => ?_
  rw [use] at hlife
  exact .spoiled hlife fails

theorem Lives.connect (h : Lives e ds hist c) {o : Opening} {closing again : Bool}
    {turn : Opening.Turn} {intake : Intake α} (at_ : c.phase = .opening o closing again)
    (result : o.result? = none)
    (step : c.connector.step c.cancelled c.stopped c.net o = some turn) :
    Lives e (ds ++ []) (c.noted hist) { c with
      intake
      net := turn.net
      phase := .opening turn.opening closing again } := by
  have hops : c.ops = [] := by rw [ops, at_]
  have hstream : c.stream? = none :=
    stream?_opening at_ fun i hi => by rw [hi] at result; cases result
  rcases (Connector.step_cases step).channels with ⟨hchannels, hopening⟩ | ⟨plan, hopening, hnet⟩
  · refine h.idle hops (congrArg Array.size hchannels) Deeds.spares_nil ?_ fun i hi => ?_
    · rw [hstream]
      exact stream?_opening rfl hopening
    · rw [hstream] at hi
      cases hi
  · have hsize : turn.net.channels.size = c.net.channels.size + 1 := by
      rw [hnet, Net.addChannel, Array.size_push]
    obtain ⟨hhist, hsent, hlost⟩ := h.unopened c.net.channels.size (Nat.le_refl _)
    rw [List.append_nil]
    refine ⟨?_, ?_, ?_⟩
    · intro i hi
      rw [stream?] at hi
      dsimp only at hi
      rw [hopening] at hi
      cases hi
      refine ⟨by show _ < turn.net.channels.size; omega, ?_⟩
      rw [noted_nothing hops, hhist, hsent, hlost]
      exact .opened
    · intro i hi hne
      have hi : i < turn.net.channels.size := hi
      have hold : i ≠ c.net.channels.size := by
        rintro rfl
        exact hne (by rw [stream?]; dsimp only; rw [hopening])
      rw [noted_nothing hops]
      exact h.past i (by omega) (hstream ▸ (Option.some_ne_none i).symm)
    · intro i hi
      have hi : turn.net.channels.size ≤ i := hi
      rw [noted_nothing hops]
      exact h.unopened i (by omega)

/-- **Every step leads each stream on in its life.** -/
theorem Lives.work (h : Lives e ds hist c) (streams : Streams e ds c) (w : Work c new c') :
    Lives e (ds ++ new) (c.noted hist) c' := by
  have hcurrent := streams.current
  unfold Current at hcurrent
  cases w with
  -- a stream is being opened
  | start at_ =>
    have hops : c.ops = [] := by rw [ops, at_]
    exact h.idle hops rfl Deeds.spares_nil (by rw [stream?, stream?, at_]; rfl)
      (fun i hi => by rw [stream?, at_] at hi; cases hi)
  | @opened o closing again i at_ result =>
    have hops : c.ops = [] := by rw [ops, at_]
    rw [Connector.result?_eq_ok] at result
    subst result
    exact h.idle hops rfl Deeds.spares_nil (by rw [stream?, stream?, at_]; rfl)
      (fun j hj => by rw [use, use, at_]; rfl)
  | @gaveUp o closing again f at_ result =>
    have hops : c.ops = [] := by rw [ops, at_]
    rw [Connector.result?_eq_error] at result
    subst result
    have hstream : c.stream? = none := by rw [stream?, at_]
    refine h.idle hops (by rw [net_endOpening]) Deeds.spares_nil ?_
      (fun i hi => by rw [hstream] at hi; cases hi)
    rw [hstream]
    cases f <;> rfl
  | connect at_ result step => exact h.connect at_ result step
  | noteWake at_ =>
    have hops : c.ops = [] := by rw [ops, at_]
    exact h.idle hops rfl Deeds.spares_nil rfl (fun i hi => rfl)
  | @noteClose o again at_ =>
    have hops : c.ops = [] := by rw [ops, at_]
    refine h.idle hops rfl Deeds.spares_nil ?_ (fun j hj => by rw [use, use, at_])
    rw [stream?, stream?, at_]
    cases o <;> rfl
  -- the stream in use waits for a batch
  | heedNoted at_ | heed at_ | heedCancel at_ =>
    have hops : c.ops = [] := by rw [ops, at_]
    exact h.idle hops (by rw [net_heed]) Deeds.spares_nil (by rw [stream?_heed, stream?, at_])
      (fun j hj => by rw [use_heed, use, at_])
  | gathered at_ =>
    have hops : c.ops = [] := by rw [ops, at_]
    exact h.idle hops rfl Deeds.spares_nil (by rw [stream?, stream?, at_])
      (fun j hj => by rw [use, use, at_])
  | @takeNothing s last at_ events =>
    rw [at_] at hcurrent
    obtain ⟨hgzip, hholds⟩ := hcurrent
    have hops : c.ops = [] := by rw [ops, at_]
    refine h.endBatch (by rw [stream?, at_]) hops rfl (fun j _ => Deeds.spares_nil j) ?_ ?_ ?_
    · rw [List.append_nil]; exact hgzip
    · rw [List.append_nil]; exact hholds.2.none_lost
    · rw [use, at_, List.append_nil, hholds.2.none_lost, List.append_nil]
      exact id
  | @take s last at_ events =>
    rw [at_] at hcurrent
    obtain ⟨hgzip, hholds⟩ := hcurrent
    have hops : c.ops = [] := by rw [ops, at_]
    have hspares := Deeds.spares_took s.stream c.intake.buffer.events.toList
    refine h.goes_on (i := s.stream) (by rw [stream?, at_]) hops rfl
      (fun j _ => Deeds.spares_took j _) rfl fun hlife => ?_
    rw [(hspares.append ds).1, (hspares.append ds).2, List.append_nil]
    rw [use, at_, hholds.2.none_lost] at hlife
    rw [hholds.2.none_lost]
    show Life e _ _ (.writing (some c.intake.buffer.events.toList) (s.gzip.flush _).2) _
    rw [hgzip]
    exact .take hlife fun hnil => events (Array.toList_eq_nil_iff.mp hnil)
  -- the batch is on its way
  | @writeWaits s last parcel rest net at_ ready write =>
    rw [at_] at hcurrent
    have hstream : c.stream? = some s.stream := by rw [stream?, at_]
    refine h.turn hstream hcurrent.2.2.none_lost (ops_writing at_ write) (Net.size_of_write write)
      hstream ?_
    show Life e _ _ c.use _ → Life e _ _ c.use _
    rw [use, at_]
    exact .waits
  | @writeFails s last parcel rest net result f at_ ready write failure =>
    rw [at_] at hcurrent
    have hfails : (Op.write rest result).Fails rest := .write failure
    exact h.lose (by rw [stream?, at_]) hcurrent.2.2.none_lost (by rw [use, at_])
      ((ops_writing at_ write).trans (orReset_of_fails hfails)) hfails (Net.size_of_write write)
  | @writePart s last parcel rest net n at_ ready write some_ left =>
    rw [at_] at hcurrent
    exact h.part (i := s.stream) (by rw [stream?, at_]) hcurrent.2.2.none_lost (by rw [use, at_])
      (ops_writing at_ write) some_ (Net.size_of_write write) rfl rfl
  | @writeAll s last parcel rest net n at_ ready write some_ left =>
    rw [at_] at hcurrent
    exact h.part (i := s.stream) (by rw [stream?, at_]) hcurrent.2.2.none_lost (by rw [use, at_])
      (ops_writing at_ write) some_ (Net.size_of_write write) rfl (by rw [left]; rfl)
  | @flush s last parcel net at_ ready flush =>
    rw [at_] at hcurrent
    have hops : c.ops = [.flush (.ok ())] := ops_flushing at_ flush
    have hnone := hcurrent.2.2.none_lost
    refine h.endBatch (by rw [stream?, at_]) hops (Net.size_of_flush flush)
      (fun j hj => Deeds.spares_sent hj _) ?_ ?_ fun hlife => ?_
    · rw [Deeds.sentOn_append, Deeds.sentOn_sent]
      exact hcurrent.1
    · rw [Deeds.lostOn_append, Deeds.lostOn_sent, hnone]
      rfl
    · rw [use, at_, hnone] at hlife
      rw [Deeds.sentOn_append, Deeds.sentOn_sent]
      exact .sent hlife
  | @flushFails s last parcel net f at_ ready flush =>
    rw [at_] at hcurrent
    have hfails : (Op.flush (.error f)).Fails [] := .flush rfl
    exact h.lose (by rw [stream?, at_]) hcurrent.2.2.none_lost (by rw [use, at_])
      (ops_flushing at_ flush) hfails (Net.size_of_flush flush)
  -- the end of the stream is on its way, and no batch can be lost any more
  | @completeWaits i rest net at_ ready write =>
    rw [at_] at hcurrent
    have hstream : c.stream? = some i := by rw [stream?, at_]
    refine h.turn hstream hcurrent.2.none_lost (ops_completing at_ write) (Net.size_of_write write)
      hstream ?_
    show Life e _ _ c.use _ → Life e _ _ c.use _
    rw [use, at_]
    exact .waits
  | @completeFails i rest net result f at_ ready write failure =>
    rw [at_] at hcurrent
    have hfails : (Op.write rest result).Fails rest := .write failure
    exact h.spoil (by rw [stream?, at_]) hcurrent.2.none_lost (by rw [use, at_])
      ((ops_completing at_ write).trans (orReset_of_fails hfails)) hfails (Net.size_of_write write)
  | @completePart i rest net n at_ ready write some_ left =>
    rw [at_] at hcurrent
    exact h.part (i := i) (by rw [stream?, at_]) hcurrent.2.none_lost (by rw [use, at_])
      (ops_completing at_ write) some_ (Net.size_of_write write) rfl rfl
  | @completeAll i rest net n at_ ready write some_ left =>
    rw [at_] at hcurrent
    exact h.part (i := i) (by rw [stream?, at_]) hcurrent.2.none_lost (by rw [use, at_])
      (ops_completing at_ write) some_ (Net.size_of_write write) rfl (by rw [left]; rfl)
  | @flushEnd i net at_ ready flush =>
    rw [at_] at hcurrent
    have hsize : net.channels.size = c.net.channels.size := Net.size_of_flush flush
    refine h.turn (i := i) (by rw [stream?, at_]) hcurrent.2.none_lost (ops_flushingEnd at_ flush)
      hsize rfl fun hlife => ?_
    rw [use, at_] at hlife
    exact .close hlife
  | @flushEndFails i net f at_ ready flush =>
    rw [at_] at hcurrent
    have hfails : (Op.flush (.error f)).Fails [] := .flush rfl
    exact h.spoil (by rw [stream?, at_]) hcurrent.2.none_lost (by rw [use, at_])
      (ops_flushingEnd_of_fails at_ flush) hfails (Net.size_of_flush flush)
  | @closeWaits i net at_ ready close =>
    rw [at_] at hcurrent
    have hstream : c.stream? = some i := by rw [stream?, at_]
    refine h.turn hstream hcurrent.2.none_lost (ops_closing at_ close) (Net.size_of_close close)
      hstream ?_
    show Life e _ _ c.use _ → Life e _ _ c.use _
    rw [use, at_]
    exact .closeWaits
  | @closed i net at_ ready close | @closeFails i net _ at_ ready close =>
    rw [at_] at hcurrent
    refine h.leave (i := i) (by rw [stream?, at_]) hcurrent.2.none_lost (ops_closing at_ close)
      (Net.size_of_close close) rfl fun hlife => ?_
    rw [use, at_] at hlife
    exact .closed hlife
  -- no stream is in use any more
  | leave at_ =>
    have hops : c.ops = [] := by rw [ops, at_]
    exact h.idle hops rfl Deeds.spares_nil (by rw [stream?, stream?, at_])
      (fun i hi => by rw [stream?, at_] at hi; cases hi)
  | discardNothing at_ =>
    have hops : c.ops = [] := by rw [ops, at_]
    exact h.idle hops rfl Deeds.spares_nil (by rw [stream?, stream?, at_]; rfl)
      (fun i hi => by rw [stream?, at_] at hi; cases hi)
  | discard at_ =>
    have hops : c.ops = [] := by rw [ops, at_]
    exact h.idle hops rfl (fun i => Deeds.spares_abandoned i _) (by rw [stream?, stream?, at_]; rfl)
      (fun i hi => by rw [stream?, at_] at hi; cases hi)

theorem Lives.call (h : Lives e ds hist c) (phase : c'.phase = c.phase)
    (scratch : c'.scratch = c.scratch) (size : c'.net.channels.size = c.net.channels.size)
    (spares : ∀ j, new.Spares j) : Lives e (ds ++ new) hist c' := by
  refine h.aside size spares (fun _ => rfl) ?_ fun i hi => ?_
  · rw [stream?, stream?, phase]
  · rw [use, use, phase, scratch]

theorem Lives.step {m : Move α} (h : Lives e ds hist c) (streams : Streams e ds c)
    (hmove : c.move m = some c') :
    Lives e (ds ++ c.deeds m) (fun i => hist i ++ c.opsOn i m) c' := by
  cases m with
  | work pick => exact h.work streams (work_cases hmove)
  | trace event =>
    cases hmove
    simp only [opsOn, List.append_nil]
    refine h.call rfl rfl rfl fun i => ?_
    rw [deeds]
    split <;> exact ⟨rfl, rfl⟩
  | advance t =>
    simp only [move] at hmove
    split at hmove
    · cases hmove
      simp only [opsOn, List.append_nil]
      exact h.call rfl rfl rfl Deeds.spares_nil
    · cases hmove
  | close | abandon | cancel =>
    cases hmove
    simp only [opsOn, List.append_nil]
    exact h.call rfl rfl rfl Deeds.spares_nil

theorem Run.lives {connector : Connector} {window : Duration} {method : Gzip.Method} {level : Nat}
    {net : Net} {cancelled : Bool} {ms : List (Move α)}
    (r : Run (.start connector window method level net cancelled) ms ds c)
    (hnet : net.channels = #[]) :
    Lives (.start method level) ds
      (history (.start connector window method level net cancelled) ms) c := by
  induction r with
  | start =>
    refine ⟨nofun, fun i hi => ?_, fun i _ => ⟨rfl, rfl, rfl⟩⟩
    have hi : i < net.channels.size := hi
    rw [hnet] at hi
    exact absurd hi (Nat.not_lt_zero i)
  | @move ms ds c c' m r hmove ih =>
    rw [show history _ (ms ++ [m]) = _ from funext (r.history_concat m)]
    exact ih.step (r.streams hnet) hmove

end Courier

end TraceRelay
