import TraceRelay.Proofs.Courier.Run
import TraceRelay.Proofs.Framing.Written
import TraceRelay.Proofs.Gzip.Sound

/-!
# A courier that nothing disturbs

On a net that answers every call at once, and takes whatever it is given, the events that are traced
before a stream is there, and a close after them, come to one batch on one stream, which is then
closed (`undisturbed_backlog`). There is a run for all events, of whatever number and size.
-/

namespace TraceRelay.Courier

variable {α : Type}

/-- The courier's own work, `n` times. -/
def works (n : Nat) : List (Move α) := List.replicate n (.work .former)

/-- A write that takes all that is left. -/
theorem write_of_taken {c : Courier α} {s : Session} {last : Bool} {parcel : Parcel} {rest : Bytes}
    {net : Net} (h : c.net.write s.stream rest = (net, some (.ok rest.length))) (some_ : rest ≠ []) :
    c.write s last parcel rest = { c with net, phase := .flushing s last parcel } := by
  obtain ⟨b, t, rfl⟩ := List.exists_cons_of_ne_nil some_
  rw [write, h]
  simp

theorem complete_of_taken {c : Courier α} {i : Nat} {rest : Bytes} {net : Net}
    (h : c.net.write i rest = (net, some (.ok rest.length))) (some_ : rest ≠ []) :
    c.complete i rest = { c with net, phase := .flushingEnd i } := by
  obtain ⟨b, t, rfl⟩ := List.exists_cons_of_ne_nil some_
  rw [complete, h]
  simp

variable [Message α]

namespace Undisturbed

variable (connector : Connector) (method : Gzip.Method) (level : Nat)

/-- A net on which nothing fails or takes time. -/
def still (calls : Array Call) (channels : Array Channel) : Net :=
  ⟨0, .always ⟨0, some (.ok ())⟩, .always ⟨0, some (.ok {})⟩, calls, channels⟩

def stream (accepted : Bytes) (writes flushes : Nat) (outcome : Outcome) : Channel :=
  ⟨connector.protocol, {}, .ready, accepted, writes, flushes, outcome⟩

/-- A courier that lets events gather for no time. -/
def state (k : Intake α) (net : Net) (scratch : Array α) (phase : Phase) : Courier α :=
  ⟨connector, ⟨0⟩, method, level, k, net, false, false, scratch, false, phase⟩

variable {connector method level} {k : Intake α} {calls : Array Call} {channels : Array Channel}
  {gzip : Gzip.Encoder} {accepted rest : Bytes} {writes flushes : Nat}

/-! ## Parts of a run -/

theorem opens (connector : Connector) (method : Gzip.Method) (level : Nat) (k : Intake α) :
    ∃ k' calls,
    (state connector method level k (still #[] #[]) #[] .starting).moves (works 6) =
      some ([], state connector method level k' (still calls #[stream connector [] 0 0 .live]) #[]
        (.waiting ⟨0, .start method level⟩)) ∧ k'.buffer = k.buffer :=
  ⟨_, _, rfl, rfl⟩

theorem queues (connector : Connector) (method : Gzip.Method) (level : Nat) {events : Array α}
    {token : Bool} (h : k.buffer = ⟨events, token, false⟩) (net : Net) (phase : Phase) (e : α)
    (es : List α) : ∃ k',
    (state connector method level k net #[] phase).moves ((e :: es).map .trace) =
      some ((e :: es).map .accepted, state connector method level k' net #[] phase) ∧
      k'.buffer = ⟨events ++ (e :: es).toArray, true, false⟩ := by
  obtain ⟨name, part, buffer, tally, journal⟩ := k
  subst h
  induction es generalizing events token e tally with
  | nil => exact ⟨⟨name, part, ⟨events.push e, true, false⟩, tally.traced, journal⟩, rfl, by simp⟩
  | cons next es ih =>
    obtain ⟨k', hmoves, hbuffer⟩ := @ih (events.push e) true next tally.traced
    refine ⟨k', ?_, by simpa using hbuffer⟩
    have hmove : (state connector method level ⟨name, part, ⟨events, token, false⟩, tally, journal⟩
        net #[] phase).move (.trace e) = some (state connector method level
          ⟨name, part, ⟨events.push e, true, false⟩, tally.traced, journal⟩ net #[] phase) := rfl
    rw [List.map_cons, moves_cons hmove, hmoves]
    rfl

theorem wakes {events : Array α} (h : k.buffer = ⟨events, true, false⟩) : ∃ k',
    (state connector method level k (still calls channels) #[] (.waiting ⟨0, gzip⟩)).moves
      (works 1) =
      some ([], state connector method level k' (still calls channels) #[]
        (.gathering ⟨0, gzip⟩ 0)) ∧ k'.buffer = ⟨events, false, false⟩ := by
  have hdue : 0 + (⟨0⟩ : Duration).ticks = 0 := by decide
  obtain ⟨name, part, buffer, tally, journal⟩ := k
  subst h
  rw [← hdue]
  exact ⟨_, rfl, rfl⟩

theorem takes {e : α} {es : List α} (h : k.buffer = ⟨(e :: es).toArray, false, false⟩) :
    ∃ k' parcel,
    (state connector method level k (still calls channels) #[] (.gathering ⟨0, gzip⟩ 0)).moves
      (works 2) =
      some ([.took (e :: es)], state connector method level k' (still calls channels)
        (e :: es).toArray (.writing ⟨0, (gzip.flush (Batch.frame (e :: es))).1⟩ false parcel
          (gzip.flush (Batch.frame (e :: es))).2)) ∧ k'.buffer = ⟨#[], false, false⟩ := by
  obtain ⟨name, part, buffer, tally, journal⟩ := k
  subst h
  exact ⟨_, _, rfl, rfl⟩

theorem write_eq : (still calls #[stream connector accepted writes flushes .live]).write 0 rest =
    (still calls #[stream connector (accepted ++ rest) (writes + 1) flushes .live],
      some (.ok rest.length)) := by
  have hwrite : (still calls #[stream connector accepted writes flushes .live]).write 0 rest =
      (still calls #[stream connector (accepted ++ rest.take rest.length) (writes + 1) flushes .live],
        some (.ok rest.length)) := rfl
  rw [hwrite, List.take_length]

theorem writes_all {scratch : Array α} {parcel : Parcel} (h : rest ≠ []) :
    (state connector method level k (still calls #[stream connector accepted writes flushes .live])
      scratch (.writing ⟨0, gzip⟩ false parcel rest)).moves (works 1) =
      some ([], state connector method level k
        (still calls #[stream connector (accepted ++ rest) (writes + 1) flushes .live]) scratch
        (.flushing ⟨0, gzip⟩ false parcel)) := by
  have hmove : (state connector method level k
      (still calls #[stream connector accepted writes flushes .live]) scratch
      (.writing ⟨0, gzip⟩ false parcel rest)).move (.work .former) = _ :=
    congrArg some (write_of_taken write_eq h)
  obtain ⟨b, t, rfl⟩ := List.exists_cons_of_ne_nil h
  exact moves_cons hmove []

theorem sends {scratch : Array α} {parcel : Parcel} : ∃ k',
    (state connector method level k (still calls #[stream connector accepted writes flushes .live])
      scratch (.flushing ⟨0, gzip⟩ false parcel)).moves (works 1) =
      some ([.settled scratch.toList (.sent 0)], state connector method level k'
        (still calls #[stream connector accepted writes (flushes + 1) .live]) #[]
        (.waiting ⟨0, gzip⟩)) ∧ k'.buffer = k.buffer :=
  ⟨_, rfl, rfl⟩

theorem closes (h : k.buffer = ⟨#[], false, false⟩) : ∃ k',
    (state connector method level k (still calls channels) #[] (.waiting ⟨0, gzip⟩)).moves
      ([.close] ++ works 2) =
      some ([], state connector method level k' (still calls channels) #[]
        (.completing 0 gzip.finish)) ∧ k'.buffer = ⟨#[], false, true⟩ := by
  obtain ⟨name, part, buffer, tally, journal⟩ := k
  subst h
  exact ⟨_, rfl, rfl⟩

theorem completes {scratch : Array α} (h : rest ≠ []) :
    (state connector method level k (still calls #[stream connector accepted writes flushes .live])
      scratch (.completing 0 rest)).moves (works 1) =
      some ([], state connector method level k
        (still calls #[stream connector (accepted ++ rest) (writes + 1) flushes .live]) scratch
        (.flushingEnd 0)) := by
  have hmove : (state connector method level k
      (still calls #[stream connector accepted writes flushes .live]) scratch
      (.completing 0 rest)).move (.work .former) = _ :=
    congrArg some (complete_of_taken write_eq h)
  exact moves_cons hmove []

theorem ends {scratch : Array α} (h : k.buffer = ⟨#[], false, true⟩) : ∃ c,
    (state connector method level k (still calls #[stream connector accepted writes flushes .live])
      scratch (.flushingEnd 0)).moves (works 4) = some ([], c) ∧ c.phase = .ended ∧
      c.net.channels = #[stream connector accepted writes (flushes + 1) .closed] := by
  obtain ⟨name, part, buffer, tally, journal⟩ := k
  subst h
  exact ⟨_, rfl, rfl, rfl⟩

end Undisturbed

open Undisturbed

/-- **On a net that disturbs nothing a backlog is delivered** as one batch, on one stream, which is
then closed. -/
theorem undisturbed_backlog (connector : Connector) {method : Gzip.Method} {level : Nat}
    (sound : method.Sound level) (e : α) (es : List α) :
    ∃ ms ds c, Run (.start connector ⟨0⟩ method level (still #[] #[]) false) ms ds c ∧
      c.phase = .ended ∧
      ds = (e :: es).map .accepted ++ [.took (e :: es), .settled (e :: es) (.sent 0)] ∧
      ∃ writes flushes, c.net.channels =
        #[stream connector ((Gzip.Encoder.start method level).whole [Batch.frame (e :: es)]) writes
          flushes .closed] := by
  have hflush := sound.flush_ne_nil [] (Batch.frame_ne_nil (e :: es))
  have hfinish := sound.finish_ne_nil [Batch.frame (e :: es)]
  rw [Gzip.Encoder.after_nil] at hflush
  obtain ⟨k₀, hqueues, hbuffer₀⟩ := queues connector method level
    (k := .start connector.name .remote) rfl (still #[] #[]) .starting e es
  obtain ⟨k₁, calls₁, hopens, hbuffer₁⟩ := opens connector method level k₀
  rw [hbuffer₀, Array.empty_append] at hbuffer₁
  obtain ⟨k₂, hwakes, hbuffer₂⟩ := wakes hbuffer₁
  obtain ⟨k₃, parcel, htakes, hbuffer₃⟩ := takes hbuffer₂
  obtain ⟨k₄, hsends, hbuffer₄⟩ := sends (k := k₃)
  obtain ⟨k₅, hcloses, hbuffer₅⟩ := closes (hbuffer₄.trans hbuffer₃)
  obtain ⟨c, hends, hended, hchannels⟩ := ends hbuffer₅
  have htaken := (((Run.start.moves hqueues).moves hopens).moves hwakes).moves htakes
  have hsent := (htaken.moves (writes_all hflush)).moves hsends
  have hrun := ((hsent.moves hcloses).moves (completes hfinish)).moves hends
  have hwhole : [] ++ ((Gzip.Encoder.start method level).flush (Batch.frame (e :: es))).2 ++
      ((Gzip.Encoder.start method level).flush (Batch.frame (e :: es))).1.finish =
        (Gzip.Encoder.start method level).whole [Batch.frame (e :: es)] := by
    rw [Gzip.Encoder.whole, Gzip.Encoder.flushAll, Gzip.Encoder.flushAll, List.append_nil]
    rfl
  rw [hwhole] at hchannels
  simp only [List.nil_append, List.append_nil, List.append_assoc] at hrun
  exact ⟨_, _, c, hrun, hended, rfl, _, _, hchannels⟩

/-- **On a net that disturbs nothing an event is delivered**, on one stream, which is then closed. -/
theorem undisturbed (connector : Connector) {method : Gzip.Method} {level : Nat}
    (sound : method.Sound level) (e : α) :
    ∃ ms ds c, Run (.start connector ⟨0⟩ method level (still #[] #[]) false) ms ds c ∧
      c.phase = .ended ∧ ds = [.accepted e, .took [e], .settled [e] (.sent 0)] ∧
      ∃ writes flushes, c.net.channels =
        #[stream connector ((Gzip.Encoder.start method level).whole [Batch.frame [e]]) writes flushes
          .closed] :=
  undisturbed_backlog connector sound e []

end TraceRelay.Courier
