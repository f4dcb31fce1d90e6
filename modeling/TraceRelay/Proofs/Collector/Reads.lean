import TraceRelay.Proofs.Collector.Run
import TraceRelay.Proofs.Framing.Faulty
import TraceRelay.Proofs.Peer.Header
import TraceRelay.Proofs.Recorder.Run
import TraceRelay.Proofs.Trail

/-!
# What a collector stores of a stream that goes bad

Any number of connections are served at once. Of one of them, on which a header and then anything at
all arrives, in whatever pieces, up to the end of the stream:

1. `traced`: what its handler passes on. The output is asked to trace that, and what the others pass
   on, and nothing else (`Run.output`).
2. `At`: how far the handler has got with the pieces that have arrived. What arrives and what is passed
   on keep it (`arrive_at`, `drain_at`); what happens elsewhere leaves the handler alone (`Only`).
3. `stored_before_fault`: in the end it has passed on the batches that come out of the pieces before
   the first in which the compressed stream shows a fault. If there is none, the cutting is of no
   account; if there is one, it is (`stored_by_cut`).
-/

namespace TraceRelay.Collector

/-! ## Streams -/

/-- A header that names the protocol of traces: what comes behind it is left alone, and wherever it is
cut, more of it is asked for. -/
structure IsHeader (header : Bytes) : Prop where
  some_ : header ≠ []
  read : ∀ rest, ∃ s,
    Header.read (Source.ofBytes (header ++ rest)) = (.ok traceProtocol, s) ∧ s.data = rest
  cut : ∀ q, q <+: header → q ≠ header →
    ∃ f s, Header.read (Source.ofBytes q) = (.error (.io f), s) ∧ f.kind = .unexpectedEof

theorem isHeader_write : IsHeader (Header.write traceProtocol) :=
  have hlength : (Header.line traceProtocol).length ≤ Header.maxLength := by decide
  ⟨Header.write_ne_nil _, Header.read_write hlength, fun _ => Header.read_cut hlength⟩

/-- The pieces of a stream behind its header. -/
def body : (header : Bytes) → List Bytes → List Bytes
  | _, [] => []
  | header, p :: ps =>
    if header.length ≤ p.length then p.drop header.length :: ps
    else body (header.drop p.length) ps

variable {header : Bytes} {pieces ps : List Bytes}

/-- The piece that ends the header. -/
theorem body_concat {q z : Bytes} (part : ps.flatten <+: header) (short : ps.flatten ≠ header)
    (whole : ps.flatten ++ q = header ++ z) (more : List Bytes) :
    body header (ps ++ q :: more) = z :: more := by
  induction ps generalizing header with
  | nil =>
    have hq : q = header ++ z := whole
    rw [List.nil_append, body, hq, if_pos (by rw [List.length_append]; omega), List.drop_left]
  | cons p ps ih =>
    obtain ⟨rest, rfl⟩ := part
    rw [List.flatten_cons] at short whole ⊢
    have hrest : rest ≠ [] := fun hnil => short (by rw [hnil, List.append_nil])
    have hlong : ¬ (p ++ ps.flatten ++ rest).length ≤ p.length := by
      have := List.length_pos_iff.mpr hrest
      rw [List.length_append, List.length_append]
      omega
    rw [List.cons_append, body, if_neg hlong, List.append_assoc, List.drop_left]
    refine ih (List.prefix_append _ _) (fun h => hrest (List.append_right_eq_self.mp h.symm)) ?_
    rw [List.append_assoc, List.append_assoc, List.append_assoc] at whole
    rw [List.append_assoc]
    exact List.append_cancel_left whole

theorem flatten_body (whole : header <+: pieces.flatten) :
    (body header pieces).flatten = pieces.flatten.drop header.length := by
  induction pieces generalizing header with
  | nil => rw [List.prefix_nil.mp whole]; rfl
  | cons p ps ih =>
    rw [List.flatten_cons] at whole ⊢
    rw [body]
    split
    · next hle => rw [List.flatten_cons, List.drop_append_of_le_length hle]
    · next hlt =>
      have hp : p <+: header := List.prefix_of_prefix_length_le (List.prefix_append _ _) whole
        (by omega)
      obtain ⟨rest, rfl⟩ := hp
      rw [List.drop_left, List.length_append, List.drop_append]
      rw [ih ((List.prefix_append_right_inj _).mp whole)]
      simp

/-- What arrives on a connection, in pieces, and its end. -/
def streamed (pieces : List Bytes) : List Arrival := pieces.map .bytes ++ [.eof]

theorem next_of_streamed {a : Arrival} (among : ps <+: pieces)
    (more : ps.map .bytes ++ [a] <+: streamed pieces) :
    (∃ p, a = .bytes p ∧ ps ++ [p] <+: pieces) ∨ a = .eof ∧ ps = pieces := by
  obtain ⟨rest, rfl⟩ := among
  rw [streamed, List.map_append, List.append_assoc, List.prefix_append_right_inj] at more
  cases rest with
  | nil =>
    obtain ⟨rfl, -⟩ := List.cons_prefix_cons.mp more
    exact .inr ⟨rfl, (List.append_nil _).symm⟩
  | cons p rest =>
    obtain ⟨rfl, -⟩ := List.cons_prefix_cons.mp more
    exact .inl ⟨p, rfl, rest, by rw [List.append_assoc]; rfl⟩

/-! ## Handlers -/

/-- The events of some batches. -/
def entriesOf (batches : List Batch) : List Bytes := batches.flatMap Batch.entries

/-- How far a handler has got with a stream that arrives in `pieces`: what has arrived, and what was
passed on. -/
inductive At (limit : Nat) (header : Bytes) (pieces : List Bytes) :
    List Arrival → List Bytes → Handler → Prop where
  | greeting {ps : List Bytes} (among : ps <+: pieces) (part : ps.flatten <+: header)
      (short : ps.flatten ≠ header) :
      At limit header pieces (ps.map .bytes) [] (.greeting ps.flatten)
  | reading {ps bs : List Bytes} {given : List Batch} {d : Batch.Decoder} (among : ps <+: pieces)
      (behind : ∀ more, body header (ps ++ more) = bs ++ more)
      (scanned : d.Scanned limit bs.flatten given)
      (idle : (Batch.scan limit (Gzip.Decoder.start.feedAll bs.flatten).out.toList).batches = given) :
      At limit header pieces (ps.map .bytes) (entriesOf given) (.reading d)
  | draining {ps bs : List Bytes} {given : List Batch} {d : Batch.Decoder} (among : ps <+: pieces)
      (behind : ∀ more, body header (ps ++ more) = bs ++ more)
      (scanned : d.Scanned limit bs.flatten given) :
      At limit header pieces (ps.map .bytes) (entriesOf given) (.draining d)
  | ended (arrived : List Arrival) (ending : Ending) :
      At limit header pieces arrived
        (entriesOf (Batch.Decoder.soundBatches limit (body header pieces))) (.ended ending)

variable {limit : Nat} {arrived : List Arrival} {passed : List Bytes}

theorem At.start (hdr : IsHeader header) : At limit header pieces [] [] (.greeting []) :=
  @At.greeting limit header pieces [] List.nil_prefix List.nil_prefix hdr.some_.symm

theorem At.of_ended {ending : Ending} (h : At limit header pieces arrived passed (.ended ending)) :
    passed = entriesOf (Batch.Decoder.soundBatches limit (body header pieces)) := by
  cases h
  rfl

namespace Server

variable {s s' : Server} {i j : Nat} {peer : String} {h : Handler}

theorem get_setHandler (get : s.handlers[i]? = some (peer, h)) (h' : Handler) :
    (s.setHandler i peer h').handlers[i]? = some (peer, h') := by
  obtain ⟨hlt, -⟩ := Array.getElem?_eq_some_iff.mp get
  rw [setHandler, Array.getElem?_setIfInBounds_self_of_lt hlt]

/-- The next piece behind the header is fed to the decoder. -/
theorem feed_at {bs : List Bytes} {given : List Batch} {d : Batch.Decoder} {q : Bytes}
    (get : s.handlers[i]? = some (peer, h)) (among : ps <+: pieces)
    (behind : ∀ more, body header (ps ++ more) = bs ++ q :: more)
    (scanned : d.Scanned limit bs.flatten given)
    (idle : (Batch.scan limit (Gzip.Decoder.start.feedAll bs.flatten).out.toList).batches = given) :
    ∃ h', (s.feed i peer d q).handlers[i]? = some (peer, h') ∧
      At limit header pieces (ps.map .bytes) (entriesOf given) h' := by
  rw [Server.feed]
  split
  · next e d' hfeed =>
    obtain ⟨rest, rfl⟩ := among
    have hfault : (d.gzip.feedAll q).fault? ≠ none := by
      have hresult := (d.feed_eq q).1
      rw [hfeed] at hresult
      intro hnone
      rw [hnone] at hresult
      cases hresult
    refine ⟨.ended .failed, get_setHandler get _, ?_⟩
    rw [← scanned.soundBatches_of_fault idle hfault rest, ← behind]
    exact .ended _ _
  · next d' hfeed =>
    have hbehind : ∀ more, body header (ps ++ more) = (bs ++ [q]) ++ more := fun more => by
      rw [behind, List.append_assoc]; rfl
    refine ⟨.draining d', get_setHandler get _, .draining among hbehind ?_⟩
    rw [List.flatten_append, List.flatten_singleton]
    exact scanned.feed hfeed

/-- More of a header has arrived, and perhaps what comes behind it. -/
theorem greet_at {q : Bytes} (hdr : IsHeader header) (settings : s.settings.maxFrameSize = limit)
    (whole : header <+: pieces.flatten) (get : s.handlers[i]? = some (peer, h))
    (part : ps.flatten <+: header) (short : ps.flatten ≠ header) (among : ps ++ [q] <+: pieces) :
    ∃ h', (s.greet i peer (ps.flatten ++ q)).handlers[i]? = some (peer, h') ∧
      At limit header pieces ((ps ++ [q]).map .bytes) [] h' := by
  have hflatten : (ps ++ [q]).flatten = ps.flatten ++ q := by
    rw [List.flatten_append, List.flatten_singleton]
  by_cases hheader : header <+: ps.flatten ++ q
  · obtain ⟨z, hz⟩ := hheader
    have hbehind : ∀ more, body header ((ps ++ [q]) ++ more) = z :: more := fun more => by
      rw [List.append_assoc]; exact body_concat part short hz.symm more
    have hstart : ∀ bs : List Bytes, bs.flatten = [] →
        (Batch.Decoder.start.withLimit limit).Scanned limit bs.flatten [] := fun bs hbs =>
      hbs ▸ Batch.Decoder.scanned_start limit
    have hidle : ∀ bs : List Bytes, bs.flatten = [] →
        (Batch.scan limit (Gzip.Decoder.start.feedAll bs.flatten).out.toList).batches = [] :=
      fun bs hbs => hbs ▸ congrArg Batch.Scan.batches (Batch.scan_of_none (Batch.front_nil limit))
    obtain ⟨rest, hread, hrest⟩ := hdr.read z
    rw [greet, ← hz, hread]
    dsimp only
    have hsettings : ∀ level message fields,
        (s.report level message fields).settings.maxFrameSize = limit := fun _ _ _ => settings
    rw [if_neg (fun h => h rfl), hrest, hsettings]
    by_cases hnil : z = []
    · subst hnil
      rw [if_pos List.isEmpty_nil]
      exact ⟨_, get_setHandler get _, .reading among hbehind (hstart [[]] rfl) (hidle [[]] rfl)⟩
    · rw [if_neg fun h => hnil (List.isEmpty_iff.mp h)]
      exact feed_at (s := s.report _ _ _) get among hbehind (hstart [] rfl) (hidle [] rfl)
  · have hpart : ps.flatten ++ q <+: header := by
      obtain ⟨more, rfl⟩ := among
      rw [List.flatten_append, hflatten] at whole
      exact (List.prefix_or_prefix_of_prefix whole (List.prefix_append _ _)).resolve_left hheader
    have hshort : ps.flatten ++ q ≠ header := fun heq => hheader (heq ▸ List.prefix_rfl)
    obtain ⟨f, rest, hread, hkind⟩ := hdr.cut _ hpart hshort
    rw [greet, hread]
    dsimp only
    rw [if_pos hkind, ← hflatten]
    rw [← hflatten] at hpart hshort
    exact ⟨_, get_setHandler get _, .greeting among hpart hshort⟩

/-- **What arrives** at a handler that waits for it. -/
theorem arrive_at {a : Arrival} (hdr : IsHeader header) (settings : s.settings.maxFrameSize = limit)
    (whole : header <+: pieces.flatten) (get : s.handlers[i]? = some (peer, h))
    (at_ : At limit header pieces arrived passed h) (waits : s.isWaiting i = true)
    (more : arrived ++ [a] <+: streamed pieces) :
    ∃ h', (s.arrive i a).handlers[i]? = some (peer, h') ∧
      At limit header pieces (arrived ++ [a]) passed h' := by
  have hconcat : ∀ (ps : List Bytes) (q : Bytes),
      ps.map Arrival.bytes ++ [.bytes q] = (ps ++ [q]).map .bytes := fun ps q => by
    rw [List.map_append, List.map_singleton]
  cases at_ with
  | @greeting ps among part short =>
    rcases next_of_streamed among more with ⟨q, rfl, hq⟩ | ⟨rfl, rfl⟩
    · unfold arrive
      rw [get, hconcat]
      exact greet_at hdr settings whole get part short hq
    · exact absurd (part.eq_of_length_le whole.length_le) short
  | @reading ps bs given d among behind scanned idle =>
    rcases next_of_streamed among more with ⟨q, rfl, hq⟩ | ⟨rfl, rfl⟩
    · unfold arrive
      rw [get, hconcat]
      refine feed_at get hq (fun more => ?_) scanned idle
      rw [List.append_assoc]
      exact behind _
    · have hbody : body header ps = bs := by simpa using behind []
      have hgiven := scanned.soundBatches_of_idle idle
      rw [← hbody] at hgiven
      unfold arrive
      rw [get, ← hgiven]
      dsimp only
      rw [finish]
      split
      · exact ⟨_, get_setHandler get _, .ended _ _⟩
      · exact ⟨_, get_setHandler get _, .ended _ _⟩
  | draining => rw [isWaiting, get] at waits; cases waits
  | ended => rw [isWaiting, get] at waits; cases waits

/-- The events that handler `i` passes on in a move. -/
def passing (i : Nat) (s : Server) : Move → List Bytes
  | .drain j =>
    if j = i then
      match s.handlers[i]? with
      | some (_, .draining d) =>
        match d.next.1 with
        | .ok (some b) => b.entries
        | _ => []
      | _ => []
    else []
  | _ => []

/-- **What a handler passes on**, or goes back to reading. -/
theorem drain_at (get : s.handlers[i]? = some (peer, h))
    (at_ : At limit header pieces arrived passed h) (drains : s.isDraining i = true) :
    ∃ h', (s.drain i).handlers[i]? = some (peer, h') ∧
      At limit header pieces arrived (passed ++ passing i s (.drain i)) h' := by
  cases at_ with
  | @draining ps bs given d among behind scanned =>
    rw [drain, passing, if_pos rfl, get]
    dsimp only
    cases hnext : d.next with
    | mk result d' =>
      cases result with
      | error e =>
        obtain ⟨rest, rfl⟩ := among
        have hgiven := scanned.soundBatches_of_refused hnext rest
        rw [← behind] at hgiven
        refine ⟨_, get_setHandler get _, ?_⟩
        rw [List.append_nil, ← hgiven]
        exact .ended _ _
      | ok found =>
        cases found with
        | none =>
          obtain ⟨rfl, hidle⟩ := scanned.idle hnext
          refine ⟨_, get_setHandler get _, ?_⟩
          rw [List.append_nil]
          exact .reading among behind scanned hidle
        | some b =>
          refine ⟨.draining d', get_setHandler get _, ?_⟩
          have hentries : entriesOf given ++ b.entries = entriesOf (given ++ [b]) := by
            rw [entriesOf, entriesOf, List.flatMap_append, List.flatMap_singleton]
          dsimp only
          rw [hentries]
          exact .draining among behind (scanned.next hnext)
  | greeting | reading | ended => rw [isDraining, get] at drains; cases drains

/-- A batch that is passed on is traced by the output, event by event, and nothing else is. -/
theorem loop_drain (s : Server) (i : Nat) : (s.drain i).output.loop =
    (passing i s (.drain i)).foldl Recorder.trace s.output.loop := by
  rw [passing, if_pos rfl, drain]
  cases hget : s.handlers[i]? with
  | none => rfl
  | some x =>
    obtain ⟨peer, h⟩ := x
    cases h with
    | draining d =>
      dsimp only
      cases hnext : d.next with
      | mk result d' =>
        cases result with
        | error e => rfl
        | ok found => cases found <;> rfl
    | greeting | reading | ended => rfl

/-! ## Elsewhere -/

/-- Of the handlers only number `j` is another one. -/
structure Only (j : Nat) (s s' : Server) : Prop where
  settings : s'.settings = s.settings
  others : ∀ i, j ≠ i → s'.handlers[i]? = s.handlers[i]?

/-- Nor is anything passed on. -/
structure Keeps (j : Nat) (s s' : Server) : Prop extends Only j s s' where
  output : s'.output = s.output

theorem keeps_same (j : Nat) (s : Server) : Keeps j s s := ⟨⟨rfl, fun _ _ => rfl⟩, rfl⟩

theorem keeps_setHandler (s : Server) (j : Nat) (peer : String) (h : Handler) :
    Keeps j s (s.setHandler j peer h) :=
  ⟨⟨rfl, fun _ hne => Array.getElem?_setIfInBounds_ne hne⟩, rfl⟩

theorem keeps_fail (s : Server) (j : Nat) (peer : String) (f : Failure) :
    Keeps j s (s.fail j peer f) :=
  ⟨⟨rfl, (keeps_setHandler s j peer (.ended .failed)).others⟩, rfl⟩

theorem keeps_endClean (s : Server) (j : Nat) (peer : String) : Keeps j s (s.endClean j peer) :=
  ⟨⟨rfl, (keeps_setHandler s j peer (.ended .clean)).others⟩, rfl⟩

theorem keeps_feed (s : Server) (j : Nat) (peer : String) (d : Batch.Decoder) (data : Bytes) :
    Keeps j s (s.feed j peer d data) := by
  unfold feed
  split
  · exact keeps_fail ..
  · exact keeps_setHandler ..

theorem keeps_greet (s : Server) (j : Nat) (peer : String) (got : Bytes) :
    Keeps j s (s.greet j peer got) := by
  unfold greet
  split
  · split
    · exact keeps_setHandler ..
    · exact keeps_fail ..
  · exact keeps_fail ..
  · split
    · exact ⟨⟨rfl, (keeps_setHandler s j peer (.ended .rejected)).others⟩, rfl⟩
    · dsimp only
      split
      · exact ⟨⟨rfl, (keeps_setHandler s j peer _).others⟩, rfl⟩
      · have hfeed := keeps_feed (s.report .debug "accepted tracer stream" [("peer", .text peer)])
          j peer
        exact ⟨⟨(hfeed _ _).settings, (hfeed _ _).others⟩, (hfeed _ _).output⟩

theorem keeps_arrive (s : Server) (j : Nat) (a : Arrival) : Keeps j s (s.arrive j a) := by
  unfold arrive
  split
  · exact keeps_greet ..
  · unfold cutHeader
    split
    · exact keeps_fail ..
    · exact keeps_same ..
  · exact keeps_fail ..
  · exact keeps_feed ..
  · unfold finish
    split
    · exact keeps_endClean ..
    · exact keeps_fail ..
  · exact keeps_fail ..
  · exact keeps_endClean ..
  · exact keeps_endClean ..
  · exact keeps_same ..

theorem only_drain (s : Server) (j : Nat) : Only j s (s.drain j) := by
  unfold drain
  split
  · split
    · exact ⟨rfl, (keeps_setHandler ..).others⟩
    · exact (keeps_setHandler ..).toOnly
    · exact (keeps_fail ..).toOnly
  · exact (keeps_same ..).toOnly

/-! ## The output -/

/-- What a move asks of the output. -/
def asks (s : Server) : Move → List (Recorder.Move Bytes)
  | .accept _ | .arrive .. => []
  | .drain i => (passing i s (.drain i)).map .trace
  | .work => [.work]
  | .advance t => [.advance t]
  | .shut => [.close]

/-- What is asked of the output along some moves. -/
def asked (s₀ : Server) (ms : List Move) : List (Recorder.Move Bytes) :=
  Trail.along Server.move asks s₀ ms

/-- **What the handlers pass on is traced**, and nothing else is. -/
theorem Run.output {s₀ : Server} {ms : List Move} (r : Run s₀ ms s) :
    ∃ es, Recorder.Run s₀.output.loop (asked s₀ ms) es s.output.loop := by
  induction r with
  | start => exact ⟨[], .start⟩
  | @move ms s s' m r h ih =>
    obtain ⟨es, hes⟩ := ih
    rw [show asked s₀ (ms ++ [m]) = asked s₀ ms ++ s.asks m from
      Trail.along_concat r.foldlM_move m]
    cases move_cases h with
    | accept => exact ⟨es, by rwa [asks, List.append_nil]⟩
    | @arrive j a =>
      refine ⟨es, ?_⟩
      rwa [asks, List.append_nil, (keeps_arrive s j a).output]
    | @drain j =>
      rw [loop_drain]
      exact hes.traceAll _
    | work work => exact ⟨_, hes.move work⟩
    | advance later => exact ⟨_, hes.move (if_pos later)⟩
    | shut => exact ⟨_, hes.move (m := .close) rfl⟩

/-! ## Runs -/

/-- What arrives on connection `i`. -/
def arrivalsAt (i : Nat) (ms : List Move) : List Arrival :=
  ms.filterMap fun
    | .arrive j a => if j = i then some a else none
    | _ => none

theorem arrivalsAt_append (i : Nat) (ms ns : List Move) :
    arrivalsAt i (ms ++ ns) = arrivalsAt i ms ++ arrivalsAt i ns := List.filterMap_append

/-- The events that handler `i` passes on along some moves. -/
def traced (i : Nat) (s₀ : Server) (ms : List Move) : List Bytes :=
  Trail.along Server.move (passing i) s₀ ms

/-- How far the handler of connection `i` has got, if it has been made. -/
def Standing (limit : Nat) (header : Bytes) (pieces : List Bytes) (i : Nat) (arrived : List Arrival)
    (passed : List Bytes) (s : Server) : Prop :=
  s.settings.maxFrameSize = limit ∧
  match s.handlers[i]? with
  | none => arrived = [] ∧ passed = []
  | some (_, h) => At limit header pieces arrived passed h

/-- Something happens elsewhere. -/
theorem Standing.aside (h : Standing limit header pieces i arrived passed s)
    (settings : s'.settings = s.settings) (same : s'.handlers[i]? = s.handlers[i]?) :
    Standing limit header pieces i (arrived ++ []) (passed ++ []) s' := by
  rw [List.append_nil, List.append_nil]
  unfold Standing
  rw [settings, same]
  exact h

theorem Standing.move {m : Move} (h : Standing limit header pieces i arrived passed s)
    (hdr : IsHeader header) (whole : header <+: pieces.flatten) (step : Step s m s')
    (more : arrived ++ arrivalsAt i [m] <+: streamed pieces) :
    Standing limit header pieces i (arrived ++ arrivalsAt i [m]) (passed ++ passing i s m) s' := by
  obtain ⟨hsettings, hat⟩ := h
  cases step with
  | @accept peer joinable =>
    cases hget : s.handlers[i]? with
    | some x =>
      obtain ⟨hlt, -⟩ := Array.getElem?_eq_some_iff.mp hget
      refine Standing.aside ⟨hsettings, hat⟩ rfl ?_
      exact Array.getElem?_push_lt hlt ▸ (Array.getElem?_eq_getElem hlt).symm
    | none =>
      rw [hget] at hat
      obtain ⟨rfl, rfl⟩ := hat
      have hpush : (s.accept peer).handlers[i]? =
          if i = s.handlers.size then some (peer, .greeting []) else s.handlers[i]? :=
        Array.getElem?_push
      by_cases hi : i = s.handlers.size
      · rw [if_pos hi] at hpush
        refine ⟨hsettings, ?_⟩
        rw [hpush]
        exact .start hdr
      · rw [if_neg hi] at hpush
        refine Standing.aside ⟨hsettings, ?_⟩ rfl hpush
        rw [hget]
        exact ⟨rfl, rfl⟩
  | @arrive j a waits =>
    by_cases hj : j = i
    · subst hj
      cases hget : s.handlers[j]? with
      | none => rw [isWaiting, hget] at waits; cases waits
      | some x =>
        obtain ⟨peer, h⟩ := x
        rw [hget] at hat
        have hone : arrivalsAt j [.arrive j a] = [a] := by simp [arrivalsAt]
        rw [hone] at more ⊢
        obtain ⟨h', hget', hat'⟩ := arrive_at hdr hsettings whole hget hat waits more
        refine ⟨(congrArg _ (keeps_arrive s j a).settings).trans hsettings, ?_⟩
        rw [hget', show passing j s (.arrive j a) = [] from rfl, List.append_nil]
        exact hat'
    · have hnone : arrivalsAt i [.arrive j a] = [] := by simp [arrivalsAt, hj]
      rw [hnone]
      exact Standing.aside ⟨hsettings, hat⟩ (keeps_arrive s j a).settings
        ((keeps_arrive s j a).others i hj)
  | @drain j drains =>
    by_cases hj : j = i
    · subst hj
      cases hget : s.handlers[j]? with
      | none => rw [isDraining, hget] at drains; cases drains
      | some x =>
        obtain ⟨peer, h⟩ := x
        rw [hget] at hat
        obtain ⟨h', hget', hat'⟩ := drain_at hget hat drains
        refine ⟨(congrArg _ (only_drain s j).settings).trans hsettings, ?_⟩
        rw [hget', show arrivalsAt j [.drain j] = [] from rfl, List.append_nil]
        exact hat'
    · rw [passing, if_neg hj]
      exact Standing.aside ⟨hsettings, hat⟩ (only_drain s j).settings
        ((only_drain s j).others i hj)
  | work work => exact Standing.aside ⟨hsettings, hat⟩ rfl rfl
  | advance later => exact Standing.aside ⟨hsettings, hat⟩ rfl rfl
  | shut joinable ended => exact Standing.aside ⟨hsettings, hat⟩ rfl rfl

theorem Run.standing {s₀ : Server} {ms : List Move} (r : Run s₀ ms s)
    (fresh : s₀.handlers.size ≤ i) (hdr : IsHeader header) (whole : header <+: pieces.flatten)
    (arrived : arrivalsAt i ms <+: streamed pieces) :
    Standing s₀.settings.maxFrameSize header pieces i (arrivalsAt i ms) (traced i s₀ ms) s := by
  induction r with
  | start =>
    refine ⟨rfl, ?_⟩
    rw [Array.getElem?_eq_none fresh]
    exact ⟨rfl, rfl⟩
  | @move ms s s' m r h ih =>
    rw [arrivalsAt_append] at arrived ⊢
    have hbefore := ih ((List.prefix_append _ _).trans arrived)
    rw [show traced i s₀ (ms ++ [m]) = traced i s₀ ms ++ passing i s m from
      Trail.along_concat r.foldlM_move m]
    exact hbefore.move hdr whole (move_cases h) arrived

/-- **What is stored of a stream, good or bad**: the batches that come out of the pieces before the
first in which the compressed stream shows a fault. Without a fault they are those of the stream,
wherever it is cut. -/
theorem stored_before_fault {s₀ : Server} {ms : List Move} {ending : Ending} (r : Run s₀ ms s)
    (fresh : s₀.handlers.size ≤ i) (hdr : IsHeader header) (whole : header <+: pieces.flatten)
    (arrived : arrivalsAt i ms <+: streamed pieces)
    (ended : s.handlers[i]? = some (peer, .ended ending)) :
    traced i s₀ ms = entriesOf
      (Batch.Decoder.soundBatches s₀.settings.maxFrameSize (body header pieces)) ∧
    ∀ z, header ++ z = pieces.flatten → (Gzip.Decoder.start.feedAll z).fault? = none →
      traced i s₀ ms = entriesOf (Batch.scan s₀.settings.maxFrameSize
        (Gzip.Decoder.start.feedAll z).out.toList).batches := by
  obtain ⟨-, hat⟩ := r.standing fresh hdr whole arrived
  rw [ended] at hat
  refine ⟨hat.of_ended, fun z hz hsound => ?_⟩
  have hbody : (body header pieces).flatten = z := by
    rw [flatten_body whole, ← hz, List.drop_left]
  rw [hat.of_ended, Batch.Decoder.soundBatches,
    Batch.Decoder.soundPieces_of_sound (by rw [hbody]; exact hsound), hbody]

/-! ## A byte too many -/

/-- How handler `i` ended. -/
def ending? (s : Server) (i : Nat) : Option (String × Ending) :=
  match s.handlers[i]? with
  | some (peer, .ended e) => some (peer, e)
  | _ => none

theorem ending?_eq_some {e : Ending} :
    s.ending? i = some (peer, e) ↔ s.handlers[i]? = some (peer, .ended e) := by
  rw [ending?]
  split
  · next hget => rw [hget]; simp
  · next hne => exact ⟨nofun, fun hget => absurd hget (hne _ _)⟩

namespace Surplus

def hello : Bytes := Header.write traceProtocol

/-- A batch of one event, flushed. -/
def flushed : Bytes :=
  [31, 139, 8, 0, 0, 0, 0, 0, 4, 255] ++ [0, 4, 0, 251, 255, 3, 10, 1, 7] ++ [0, 0, 0, 255, 255]

def collector : Server :=
  .ofOutput { listen := "127.0.0.1:4001", output := "t" }
    (.ofFile "t" ⟨["t"], false, 0⟩ .rawDelimited)

/-- No block begins with this byte. -/
def apart : List Bytes := [hello, flushed, [7]]

def together : List Bytes := [hello, flushed ++ [7]]

/-- The handler is done with each piece before the next arrives. -/
def readApart : List Move :=
  List.flatten [[.accept "tracer", .arrive 0 (.bytes hello), .arrive 0 (.bytes flushed), .drain 0,
    .drain 0, .arrive 0 (.bytes [7]), .shut], List.replicate 13 .work]

def readTogether : List Move :=
  List.flatten [[.accept "tracer", .arrive 0 (.bytes hello), .arrive 0 (.bytes (flushed ++ [7])),
    .shut], List.replicate 5 .work]

/-- Cut inside the block. -/
def cut : List Bytes := [hello ++ flushed.take 12, flushed.drop 12]

def readCut : List Move :=
  [.accept "tracer", .arrive 0 (.bytes (hello ++ flushed.take 12)), .drain 0,
    .arrive 0 (.bytes (flushed.drop 12)), .drain 0, .drain 0, .arrive 0 .eof]

end Surplus

open Surplus in
/-- A byte too many arrives with the batch before it; without that byte the batch arrives in two
pieces. -/
theorem stored_before_fault_surplus :
    ∃ s s', Run collector readTogether s ∧ Run collector readCut s' ∧
      traced 0 collector readTogether = entriesOf (Batch.Decoder.soundBatches
        collector.settings.maxFrameSize (body hello together)) ∧
      traced 0 collector readCut = entriesOf (Batch.scan collector.settings.maxFrameSize
        (Gzip.Decoder.start.feedAll flushed).out.toList).batches := by
  have htogether : (collector.moves readTogether).map (·.ending? 0) =
      some (some ("tracer", .failed)) := by decide +kernel
  have hcut : (collector.moves readCut).map (·.ending? 0) = some (some ("tracer", .failed)) := by
    decide +kernel
  obtain ⟨s, hmoves, hended⟩ := Option.map_eq_some_iff.mp htogether
  obtain ⟨s', hmoves', hended'⟩ := Option.map_eq_some_iff.mp hcut
  have hrun : Run collector readTogether s := Run.start.moves hmoves
  have hrun' : Run collector readCut s' := Run.start.moves hmoves'
  have hwhole : hello ++ flushed = cut.flatten := by decide +kernel
  exact ⟨s, s', hrun, hrun',
    (stored_before_fault hrun (Nat.le_refl 0) isHeader_write (List.prefix_append _ _)
      (List.prefix_append _ _) (ending?_eq_some.mp hended)).1,
    (stored_before_fault hrun' (Nat.le_refl 0) isHeader_write ⟨flushed, hwhole⟩
      List.prefix_rfl (ending?_eq_some.mp hended')).2 flushed hwhole (by decide +kernel)⟩

open Surplus in
/-- The same bytes, and one event more or less in the file. -/
theorem stored_by_cut : apart.flatten = together.flatten ∧
    ∃ s s', Run collector readApart s ∧ Run collector readTogether s' ∧
      arrivalsAt 0 readApart <+: streamed apart ∧ arrivalsAt 0 readTogether <+: streamed together ∧
      s.ending? 0 = some ("tracer", .failed) ∧ s'.ending? 0 = some ("tracer", .failed) ∧
      traced 0 collector readApart = [[7]] ∧ traced 0 collector readTogether = [] ∧
      s.output.loop.isEnded = true ∧ s'.output.loop.isEnded = true ∧
      s.output.loop.output.accepted = [1, 7] ∧ s'.output.loop.output.accepted = [] := by
  have hapart : (collector.moves readApart).map (fun s => (s.ending? 0, s.output.loop.isEnded,
      s.output.loop.output.accepted)) = some (some ("tracer", .failed), true, [1, 7]) := by
    decide +kernel
  have htogether : (collector.moves readTogether).map (fun s => (s.ending? 0,
      s.output.loop.isEnded, s.output.loop.output.accepted)) =
        some (some ("tracer", .failed), true, []) := by decide +kernel
  obtain ⟨s, hmoves, hs⟩ := Option.map_eq_some_iff.mp hapart
  obtain ⟨s', hmoves', hs'⟩ := Option.map_eq_some_iff.mp htogether
  simp only [Prod.mk.injEq] at hs hs'
  exact ⟨rfl, s, s', Run.start.moves hmoves, Run.start.moves hmoves', List.prefix_append _ _,
    List.prefix_append _ _, hs.1, hs'.1, by decide +kernel, by decide +kernel, hs.2.1, hs'.2.1,
    hs.2.2, hs'.2.2⟩

end Server

end TraceRelay.Collector
