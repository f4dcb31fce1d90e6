import TraceRelay.Proofs.Collector.Lives
import TraceRelay.Proofs.Recorder.Accounting

/-!
# The books of a collector

Whatever arrives on whichever connections, and in whatever order the handlers, the output and the stop
take their steps, what a collector counts is what its handlers have done.

1. `Counted`: the counters of connections and streams, by the handlers.
2. `Manned`: how far each handler has got, and which of its events it has yet to trace.
3. `Kept`: every move keeps both, and no handler is left once the output is closed.
4. `Run.asked`: what is asked of the output is what the handlers trace, and the close behind it.
5. `books_balance`: what follows of the counters, at every moment and at the end.
-/

namespace TraceRelay.Collector

/-! ## Counters -/

namespace Handler

def isOpen : Handler → Bool
  | .ended _ => false
  | _ => true

def endedAs (e : Ending) : Handler → Bool
  | .ended e' => e' = e
  | _ => false

end Handler

/-- The counters of connections and streams, of a collector with these handlers. -/
structure Counted (hs : Array (String × Handler)) (c : Census) : Prop where
  opened : c.opened = .ofNat hs.size
  active : c.active = .ofNat (hs.countP (·.2.isOpen))
  rejected : c.rejected = .ofNat (hs.countP (·.2.endedAs .rejected))
  errors : c.errors = .ofNat (hs.countP (·.2.endedAs .failed))

section

variable {hs : Array (String × Handler)} {c : Census} {i : Nat} {peer : String} {h h' : Handler}

theorem counted_zero : Counted #[] .zero := ⟨rfl, rfl, rfl, rfl⟩

theorem Counted.push (counted : Counted hs c) (peer : String) :
    Counted (hs.push (peer, .greeting [])) c.connectionOpened where
  opened := by rw [Array.size_push, UInt64.ofNat_add, ← counted.opened]; rfl
  active := by rw [Array.countP_push, UInt64.ofNat_add, ← counted.active]; rfl
  rejected := by rw [Array.countP_push]; exact counted.rejected
  errors := by rw [Array.countP_push]; exact counted.errors

/-- One entry of an array is another one. -/
theorem countP_setIfInBounds {β : Type} {xs : Array β} {old : β} (get : xs[i]? = some old)
    (p : β → Bool) (new : β) :
    (xs.setIfInBounds i new).countP p + (if p old then 1 else 0) =
      xs.countP p + if p new then 1 else 0 := by
  obtain ⟨hi, rfl⟩ := Array.getElem?_eq_some_iff.mp get
  have hle : (if p xs[i] then 1 else 0) ≤ xs.countP p := Array.boole_getElem_le_countP hi
  rw [Array.setIfInBounds_def, dif_pos hi, Array.countP_set]
  omega

theorem countP_isOpen (get : hs[i]? = some (peer, h)) (open_ : h.isOpen = true) (h' : Handler) :
    (hs.setIfInBounds i (peer, h')).countP (·.2.isOpen) + 1 =
      hs.countP (·.2.isOpen) + if h'.isOpen then 1 else 0 := by
  have hcount := countP_setIfInBounds get (·.2.isOpen) (peer, h')
  dsimp only at hcount
  rwa [if_pos open_] at hcount

theorem countP_endedAs (get : hs[i]? = some (peer, h)) (open_ : h.isOpen = true) (h' : Handler)
    (e : Ending) :
    (hs.setIfInBounds i (peer, h')).countP (·.2.endedAs e) =
      hs.countP (·.2.endedAs e) + if h'.endedAs e then 1 else 0 := by
  have hcount := countP_setIfInBounds get (·.2.endedAs e) (peer, h')
  have hold : h.endedAs e = false := by
    cases h with
    | ended => cases open_
    | greeting | reading | draining => rfl
  dsimp only at hcount
  rwa [hold, if_neg Bool.false_ne_true, Nat.add_zero] at hcount

/-- **A handler that goes on or ends** is counted as what it has become. -/
theorem Counted.became (counted : Counted hs c) (get : hs[i]? = some (peer, h))
    (open_ : h.isOpen = true) (h' : Handler) :
    Counted (hs.setIfInBounds i (peer, h')) (h'.count c) := by
  have hactive := countP_isOpen get open_ h'
  have hended := countP_endedAs get open_ h'
  have hopened : c.opened = .ofNat (hs.setIfInBounds i (peer, h')).size := by
    rw [Array.size_setIfInBounds]; exact counted.opened
  have hgoing : h'.isOpen = true → c.active =
      .ofNat ((hs.setIfInBounds i (peer, h')).countP (·.2.isOpen)) := fun hgoing => by
    rw [hgoing, if_pos rfl] at hactive
    rw [counted.active, Nat.add_right_cancel hactive]
  have hgone : h'.isOpen = false → c.active - 1 =
      .ofNat ((hs.setIfInBounds i (peer, h')).countP (·.2.isOpen)) := fun hgone => by
    rw [hgone, if_neg Bool.false_ne_true] at hactive
    rw [counted.active, show hs.countP (·.2.isOpen) = _ from hactive.symm, UInt64.ofNat_add]
    exact UInt64.add_sub_cancel _ _
  have hsame : ∀ e, h'.endedAs e = false → ∀ {n : UInt64}, n = .ofNat (hs.countP (·.2.endedAs e)) →
      n = .ofNat ((hs.setIfInBounds i (peer, h')).countP (·.2.endedAs e)) := fun e hno n hn => by
    rw [hended, hno]; exact hn
  have hmore : ∀ e, h'.endedAs e = true → ∀ {n : UInt64}, n = .ofNat (hs.countP (·.2.endedAs e)) →
      n + 1 = .ofNat ((hs.setIfInBounds i (peer, h')).countP (·.2.endedAs e)) := fun e hyes n hn => by
    rw [hended, hyes, UInt64.ofNat_add, ← hn]; rfl
  cases h' with
  | greeting | reading | draining =>
    exact ⟨hopened, hgoing rfl, hsame _ rfl counted.rejected, hsame _ rfl counted.errors⟩
  | ended e =>
    cases e with
    | clean =>
      exact ⟨hopened, hgone rfl, hsame _ rfl counted.rejected, hsame _ rfl counted.errors⟩
    | rejected =>
      exact ⟨hopened, hgone rfl, hmore _ rfl counted.rejected, hsame _ rfl counted.errors⟩
    | failed =>
      exact ⟨hopened, hgone rfl, hsame _ rfl counted.rejected, hmore _ rfl counted.errors⟩

/-- Where every handler has ended, none is active. -/
theorem Counted.idle (counted : Counted hs c) (ended : ∀ x ∈ hs, x.2.isOpen = false) :
    c.active = 0 := by
  have hnone : hs.countP (·.2.isOpen) = 0 := by
    rw [Array.countP_eq_zero]
    exact fun x hx hopen => Bool.false_ne_true ((ended x hx).symm.trans hopen)
  rw [counted.active, hnone]
  rfl

end

/-! ## Handlers and their desks -/

namespace Floor

open Server (arrivalsAt arrivalsAt_append)

variable {limit i : Nat} {arrived : List Arrival} {given : List Batch} {told : List Bytes}
  {s₀ : Server} {f f' : Floor} {ms : List Move} {bs : List (Nat × Batch)} {ts : List (Nat × Bytes)}

/-- How far the handler of connection `i` has got with what has arrived, and with the events of the
batches given; if it has been made. -/
structure Manned (limit i : Nat) (arrived : List Arrival) (given : List Batch) (told : List Bytes)
    (f : Floor) : Prop where
  desk : given.flatMap Batch.entries = told ++ f.desk i
  vacant : f.server.handlers[i]? = none → arrived = [] ∧ given = []
  life : ∀ peer h, f.server.handlers[i]? = some (peer, h) → Life limit arrived given h
  busy : f.desk i ≠ [] → f.server.isDraining i = true

/-- Something happens elsewhere. -/
theorem Manned.aside (h : Manned limit i arrived given told f)
    (same : f'.server.handlers[i]? = f.server.handlers[i]?) (desk : f'.desk i = f.desk i) :
    Manned limit i (arrived ++ []) (given ++ []) (told ++ []) f' := by
  rw [List.append_nil, List.append_nil, List.append_nil]
  refine ⟨by rw [desk]; exact h.desk, by rw [same]; exact h.vacant, by rw [same]; exact h.life, ?_⟩
  rw [desk, Server.isDraining, same]
  exact h.busy

theorem of_isWaiting {s : Server} (waits : s.isWaiting i = true) :
    ∃ peer h, s.handlers[i]? = some (peer, h) ∧ h.isOpen = true ∧ s.isDraining i = false := by
  unfold Server.isWaiting at waits
  unfold Server.isDraining
  cases hget : s.handlers[i]? with
  | none => rw [hget] at waits; cases waits
  | some x =>
    obtain ⟨peer, h⟩ := x
    rw [hget] at waits
    cases h with
    | greeting | reading => exact ⟨_, _, rfl, rfl, rfl⟩
    | draining | ended => cases waits

theorem of_isDraining {s : Server} (drains : s.isDraining i = true) :
    ∃ peer h, s.handlers[i]? = some (peer, h) ∧ h.isOpen = true := by
  unfold Server.isDraining at drains
  cases hget : s.handlers[i]? with
  | none => rw [hget] at drains; cases drains
  | some x =>
    obtain ⟨peer, h⟩ := x
    rw [hget] at drains
    cases h with
    | draining => exact ⟨_, _, rfl, rfl⟩
    | greeting | reading | ended => cases drains

theorem isDraining_take {s : Server} (h : (s.take i).2 ≠ none) : (s.take i).1.isDraining i = true := by
  unfold Server.take at h ⊢
  split at h
  · next peer d hget =>
    obtain ⟨hi, -⟩ := Array.getElem?_eq_some_iff.mp hget
    split at h
    · next batch d' hnext =>
      simp [Server.isDraining, Server.count, Server.report, Server.setHandler, hi]
    · exact absurd rfl h
    · exact absurd rfl h
  · exact absurd rfl h

theorem only_take (s : Server) (j : Nat) : Server.Only j s (s.take j).1 := by
  have honly := Server.only_drain s j
  rw [Server.drain_eq, Server.foldl_tell] at honly
  exact ⟨honly.settings, honly.others⟩

theorem settings_move {m : Move} (step : Step f m f') :
    f'.server.settings = f.server.settings := by
  cases step with
  | plain step whole =>
    cases step with
    | arrive => exact (Server.keeps_arrive ..).settings
    | drain => exact absurd rfl (whole _)
    | accept | work | advance | shut => rfl
  | take => exact (only_take ..).settings
  | tell => rfl

/-- Nothing lies on the desk of a handler that has not been made. -/
theorem Manned.desk_nil (h : Manned limit i arrived given told f)
    (none_ : f.server.handlers[i]? = none) : told = [] ∧ f.desk i = [] := by
  have hdesk := h.desk
  rw [(h.vacant none_).2] at hdesk
  exact List.append_eq_nil_iff.mp hdesk.symm

/-- Nothing lies on the desk of a handler that reads. -/
theorem Manned.desk_clear (h : Manned limit i arrived given told f)
    (waits : f.server.isWaiting i = true) : f.desk i = [] := by
  obtain ⟨-, -, -, -, hdrains⟩ := of_isWaiting waits
  by_contra hbusy
  rw [h.busy hbusy] at hdrains
  cases hdrains

theorem Manned.of_there {peer : String} {h : Handler}
    (there : f.server.handlers[i]? = some (peer, h))
    (desk : given.flatMap Batch.entries = told ++ f.desk i) (life : Life limit arrived given h)
    (busy : f.desk i ≠ [] → f.server.isDraining i = true) : Manned limit i arrived given told f := by
  refine ⟨desk, fun hnone => ?_, fun peer' h' hget => ?_, busy⟩
  · rw [there] at hnone
    cases hnone
  · rw [there] at hget
    cases hget
    exact life

/-- A handler of a new connection. -/
theorem Manned.accept (h : Manned limit i arrived given told f) (peer : String) :
    Manned limit i arrived given told { f with server := f.server.accept peer } := by
  have hpush : (f.server.accept peer).handlers[i]? =
      if i = f.server.handlers.size then some (peer, .greeting []) else f.server.handlers[i]? :=
    Array.getElem?_push
  by_cases hi : i = f.server.handlers.size
  · have hnone : f.server.handlers[i]? = none := Array.getElem?_eq_none (Nat.le_of_eq hi.symm)
    obtain ⟨rfl, rfl⟩ := h.vacant hnone
    rw [if_pos hi] at hpush
    exact .of_there hpush h.desk (@Life.greeting _ [] short_nil) (absurd (h.desk_nil hnone).2)
  · rw [if_neg hi] at hpush
    have haside : Manned limit i (arrived ++ []) (given ++ []) (told ++ [])
        { f with server := f.server.accept peer } := h.aside hpush rfl
    rwa [List.append_nil, List.append_nil, List.append_nil] at haside

/-- A handler reads. -/
theorem Manned.arrive (h : Manned limit i arrived given told f)
    (settings : f.server.settings.maxFrameSize = limit) (waits : f.server.isWaiting i = true)
    (a : Arrival) :
    Manned limit i (arrived ++ [a]) given told { f with server := f.server.arrive i a } := by
  obtain ⟨peer, h₀, hget, -, -⟩ := of_isWaiting waits
  obtain ⟨hi, -⟩ := Array.getElem?_eq_some_iff.mp hget
  obtain ⟨h', hbecame, hlife⟩ := Server.arrive_life (a := a) settings hget (h.life _ _ hget) waits
  have hnow : (f.server.arrive i a).handlers[i]? = some (peer, h') := by
    rw [hbecame.handlers, Array.getElem?_setIfInBounds_self_of_lt hi]
  exact .of_there hnow h.desk hlife (absurd (h.desk_clear waits))

/-- A handler whose desk is empty takes a batch out, if a whole one is there. -/
theorem Manned.take (h : Manned limit i arrived given told f)
    (drains : f.server.isDraining i = true) (done : f.desk i = []) :
    Manned limit i arrived (given ++ (f.server.take i).2.toList) told
      ⟨(f.server.take i).1, Function.update f.desk i (Server.entriesOf? (f.server.take i).2)⟩ := by
  obtain ⟨peer, h₀, hget, -⟩ := of_isDraining drains
  obtain ⟨hi, -⟩ := Array.getElem?_eq_some_iff.mp hget
  obtain ⟨h', hhandlers, -, -, -, hlife⟩ := Server.take_life hget (h.life _ _ hget) drains
  have hnow : (f.server.take i).1.handlers[i]? = some (peer, h') := by
    rw [hhandlers, Array.getElem?_setIfInBounds_self_of_lt hi]
  refine .of_there hnow ?_ hlife fun hbusy => isDraining_take ?_
  · dsimp only
    rw [List.flatMap_append, h.desk, done, List.append_nil, Function.update_self]
    cases (f.server.take i).2 with
    | none => rfl
    | some batch => exact congrArg _ (List.flatMap_singleton ..)
  · intro hnone
    dsimp only at hbusy
    rw [Function.update_self, hnone] at hbusy
    exact hbusy rfl

/-- A handler traces the next event of its batch. -/
theorem Manned.tell (h : Manned limit i arrived given told f) {e : Bytes} {rest : List Bytes}
    (next : f.desk i = e :: rest) :
    Manned limit i arrived given (told ++ [e]) ⟨f.server.tell e, Function.update f.desk i rest⟩ := by
  have hbusy : f.desk i ≠ [] := by
    rw [next]
    exact List.cons_ne_nil e rest
  refine ⟨?_, h.vacant, h.life, fun _ => h.busy hbusy⟩
  dsimp only
  rw [Function.update_self, h.desk, next, List.append_assoc]
  rfl

/-- **A move keeps the order of every handler**, and adds what has arrived at it, the batch that it has
decoded and the event that it has traced. -/
theorem Manned.move {m : Move} (h : Manned limit i arrived given told f)
    (settings : f.server.settings.maxFrameSize = limit) (step : Step f m f') :
    Manned limit i (arrived ++ arrivalsAt i (served [m])) (given ++ of i (f.decodes m))
      (told ++ of i (f.tells m)) f' := by
  cases step with
  | plain step whole =>
    cases step with
    | @accept peer joinable =>
      have haccept := h.accept peer
      rw [← List.append_nil arrived, ← List.append_nil given, ← List.append_nil told] at haccept
      exact haccept
    | @arrive j a waits =>
      have hone : arrivalsAt i (served [.plain (.arrive j a)]) = if j = i then [a] else [] := by
        by_cases hj : j = i <;> simp [served, arrivalsAt, hj]
      rw [hone]
      by_cases hj : j = i
      · subst hj
        rw [if_pos rfl, show of j (f.decodes (.plain (.arrive j a))) = [] from rfl,
          show of j (f.tells (.plain (.arrive j a))) = [] from rfl, List.append_nil, List.append_nil]
        exact h.arrive settings waits a
      · rw [if_neg hj]
        exact h.aside ((Server.keeps_arrive ..).others i hj) rfl
    | drain => exact absurd rfl (whole _)
    | work | advance | shut => exact h.aside rfl rfl
  | @take j drains done =>
    have hdecodes : f.decodes (.take j) = (f.server.take j).2.toList.map fun batch => (j, batch) := rfl
    by_cases hj : j = i
    · subst hj
      rw [show arrivalsAt j (served [.take j]) = [] from rfl,
        show of j (f.tells (.take j)) = [] from rfl, List.append_nil, List.append_nil,
        hdecodes, of_map_self]
      exact h.take drains done
    · rw [hdecodes, of_map_of_ne hj]
      exact h.aside ((only_take ..).others i hj) (Function.update_of_ne (Ne.symm hj) ..)
  | @tell j e rest next =>
    rw [show f.tells (.tell j) = [(j, e)] by rw [tells, next]; rfl]
    by_cases hj : j = i
    · subst hj
      rw [show of j [(j, e)] = [e] from of_map_self j [e],
        show arrivalsAt j (served [.tell j]) = [] from rfl,
        show of j (f.decodes (.tell j)) = [] from rfl, List.append_nil, List.append_nil]
      exact h.tell next
    · rw [show of i [(j, e)] = [] from of_map_of_ne hj [e]]
      exact h.aside rfl (Function.update_of_ne (Ne.symm hj) ..)

end Floor

/-! ## Order -/

namespace Server

/-- A collector that has just been started, with an output that answers as a plan says. -/
structure Fresh (plan : ChannelPlan) (s : Server) : Prop where
  handlers : s.handlers = #[]
  census : s.census = .zero
  joinable : s.output.joinable = true
  output : s.output.loop.Fresh .rawDelimited plan

theorem fresh_start {network : Network} {settings : Config.Collector} {storage storage' : Storage}
    {plan : ChannelPlan} {s : Server}
    (h : start network settings storage plan = .ok (s, storage')) :
    s.Fresh plan ∧ s.settings = settings := by
  unfold start FileRecorder.start at h
  split at h
  · cases h
  · split at h
    · cases h
    · next started =>
      rw [Bool.not_true, if_neg Bool.false_ne_true] at started
      split at started
      · cases started
      · cases started
        cases h
        exact ⟨⟨rfl, rfl, rfl, rfl, rfl, rfl, rfl, rfl, rfl⟩, rfl⟩

end Server

namespace Floor

open Server (arrivalsAt arrivalsAt_append)

variable {s₀ : Server} {f f' : Floor} {ms : List Move} {bs : List (Nat × Batch)}
  {ts : List (Nat × Bytes)} {plan : ChannelPlan}

/-- The events of some batches, each with the number of its handler. -/
def entriesIn (bs : List (Nat × Batch)) : List (Nat × Bytes) :=
  bs.flatMap fun b => b.2.entries.map fun e => (b.1, e)

theorem entriesIn_append (bs cs : List (Nat × Batch)) :
    entriesIn (bs ++ cs) = entriesIn bs ++ entriesIn cs := List.flatMap_append

/-- The counters of a collector whose handlers have decoded the batches `bs`. -/
structure Tallied (bs : List (Nat × Batch)) (s : Server) : Prop where
  counted : Counted s.handlers s.census
  batches : s.census.batches = .ofNat bs.length
  events : s.census.events = .ofNat (entriesIn bs).length

/-- Neither handlers nor counters change. -/
theorem Tallied.same {s s' : Server} (h : Tallied bs s) (handlers : s'.handlers = s.handlers)
    (census : s'.census = s.census) : Tallied (bs ++ []) s' := by
  rw [List.append_nil]
  refine ⟨?_, ?_, ?_⟩
  · rw [handlers, census]; exact h.counted
  · rw [census]; exact h.batches
  · rw [census]; exact h.events

theorem batches_count (c : Census) (h : Handler) :
    (h.count c).batches = c.batches ∧ (h.count c).events = c.events := by
  cases h with
  | greeting | reading | draining => exact ⟨rfl, rfl⟩
  | ended e => cases e <;> exact ⟨rfl, rfl⟩

/-- What every move keeps. -/
structure Kept (s₀ : Server) (ms : List Move) (bs : List (Nat × Batch)) (ts : List (Nat × Bytes))
    (f : Floor) : Prop where
  settings : f.server.settings = s₀.settings
  manned : ∀ i, Manned s₀.settings.maxFrameSize i (arrivalsAt i (served ms)) (of i bs) (of i ts) f
  tallied : Tallied bs f.server
  /-- The output is closed behind the last handler. -/
  closed : f.server.output.joinable = false → ∀ x ∈ f.server.handlers, x.2.isOpen = false

theorem kept_start (fresh : s₀.Fresh plan) : Kept s₀ [] [] [] (ofServer s₀) where
  settings := rfl
  manned i := by
    have hnone : s₀.handlers[i]? = none := by rw [fresh.handlers]; rfl
    refine ⟨rfl, fun _ => ⟨rfl, rfl⟩, fun peer h hget => ?_, fun hbusy => absurd rfl hbusy⟩
    rw [show (ofServer s₀).server.handlers = s₀.handlers from rfl, hnone] at hget
    cases hget
  tallied := by
    constructor
    · show Counted s₀.handlers s₀.census
      rw [fresh.handlers, fresh.census]
      exact counted_zero
    · show s₀.census.batches = _
      rw [fresh.census]
      rfl
    · show s₀.census.events = _
      rw [fresh.census]
      rfl
  closed hclosed := by
    rw [show (ofServer s₀).server.output.joinable = s₀.output.joinable from rfl, fresh.joinable]
      at hclosed
    cases hclosed

/-- **Every move is counted.** -/
theorem Kept.tallied_move {m : Move} (h : Kept s₀ ms bs ts f) (step : Step f m f') :
    Tallied (bs ++ f.decodes m) f'.server := by
  have hsettings : f.server.settings.maxFrameSize = s₀.settings.maxFrameSize := by rw [h.settings]
  cases step with
  | plain step whole =>
    cases step with
    | @accept peer joinable =>
      rw [show f.decodes (.plain (.accept peer)) = [] from rfl, List.append_nil]
      exact ⟨h.tallied.counted.push peer, h.tallied.batches, h.tallied.events⟩
    | @arrive j a waits =>
      obtain ⟨peer, h₀, hget, hopen, -⟩ := of_isWaiting waits
      obtain ⟨h', hbecame, -⟩ :=
        Server.arrive_life (a := a) hsettings hget ((h.manned j).life _ _ hget) waits
      obtain ⟨hbatches, hevents⟩ := batches_count f.server.census h'
      rw [show f.decodes (.plain (.arrive j a)) = [] from rfl, List.append_nil]
      refine ⟨?_, ?_, ?_⟩
      · rw [hbecame.handlers, hbecame.census]
        exact h.tallied.counted.became hget hopen h'
      · rw [hbecame.census, hbatches]; exact h.tallied.batches
      · rw [hbecame.census, hevents]; exact h.tallied.events
    | drain => exact absurd rfl (whole _)
    | work | advance | shut => exact h.tallied.same rfl rfl
  | @take j drains done =>
    obtain ⟨peer, h₀, hget, hopen⟩ := of_isDraining drains
    obtain ⟨h', hhandlers, hcensus, -⟩ :=
      Server.take_life hget ((h.manned j).life _ _ hget) drains
    obtain ⟨hbatches, hevents⟩ := batches_count f.server.census h'
    have hcounted := h.tallied.counted.became hget hopen h'
    rw [← hhandlers] at hcounted
    rw [show f.decodes (.take j) = (f.server.take j).2.toList.map fun batch => (j, batch) from rfl]
    cases hbatch : (f.server.take j).2 with
    | none =>
      rw [hbatch] at hcensus
      rw [Option.toList_none, List.map_nil, List.append_nil]
      refine ⟨hcensus ▸ hcounted, ?_, ?_⟩
      · rw [hcensus]; exact hbatches.trans h.tallied.batches
      · rw [hcensus]; exact hevents.trans h.tallied.events
    | some batch =>
      rw [hbatch] at hcensus
      rw [Option.toList_some, List.map_singleton]
      refine ⟨?_, ?_, ?_⟩
      · rw [hcensus]
        exact ⟨hcounted.opened, hcounted.active, hcounted.rejected, hcounted.errors⟩
      · rw [hcensus, List.length_append, UInt64.ofNat_add, ← h.tallied.batches, ← hbatches]
        rfl
      · rw [hcensus, entriesIn_append, List.length_append, UInt64.ofNat_add, ← h.tallied.events,
          ← hevents, entriesIn, List.flatMap_singleton, List.length_map]
        rfl
  | tell => exact h.tallied.same rfl rfl

/-- Where a handler goes on, the output is not closed. -/
theorem Kept.joinable (h : Kept s₀ ms bs ts f) {i : Nat} {peer : String} {h₀ : Handler}
    (get : f.server.handlers[i]? = some (peer, h₀)) (open_ : h₀.isOpen = true) :
    f.server.output.joinable = true := by
  by_contra hclosed
  have hended := h.closed (Bool.eq_false_of_not_eq_true hclosed) _ (Array.mem_of_getElem? get)
  rw [open_] at hended
  cases hended

/-- **Behind the close nothing is left to be done by a handler.** -/
theorem Kept.closed_move {m : Move} (h : Kept s₀ ms bs ts f) (step : Step f m f')
    (closed : f'.server.output.joinable = false) : ∀ x ∈ f'.server.handlers, x.2.isOpen = false := by
  cases step with
  | plain step whole =>
    cases step with
    | accept joinable => exact absurd (joinable.symm.trans closed) nofun
    | @arrive j a waits =>
      obtain ⟨peer, h₀, hget, hopen, -⟩ := of_isWaiting waits
      have houtput := congrArg Tracer.joinable (Server.keeps_arrive f.server j a).output
      exact absurd ((houtput.trans (h.joinable hget hopen)).symm.trans closed) nofun
    | drain => exact absurd rfl (whole _)
    | work | advance => exact h.closed closed
    | shut joinable ended =>
      intro x hx
      have hend := Array.all_eq_true_iff_forall_mem.mp ended x hx
      obtain ⟨peer, h₀⟩ := x
      cases h₀ with
      | ended => rfl
      | greeting | reading | draining => cases hend
  | @take j drains done =>
    obtain ⟨peer, h₀, hget, hopen⟩ := of_isDraining drains
    obtain ⟨-, -, -, -, houtput, -⟩ := Server.take_life hget ((h.manned j).life _ _ hget) drains
    have hjoinable := (congrArg Tracer.joinable houtput).trans (h.joinable hget hopen)
    exact absurd (hjoinable.symm.trans closed) nofun
  | tell => exact h.closed closed

/-- **Every move keeps the order.** -/
theorem Run.kept (run : Run s₀ ms bs ts f) (fresh : s₀.Fresh plan) : Kept s₀ ms bs ts f := by
  induction run with
  | start => exact kept_start fresh
  | @move ms bs ts f f' m run h ih =>
    have hstep := move_cases h
    have hlimit : f.server.settings.maxFrameSize = s₀.settings.maxFrameSize := by rw [ih.settings]
    refine ⟨(settings_move hstep).trans ih.settings, fun i => ?_, ih.tallied_move hstep,
      ih.closed_move hstep⟩
    rw [served_append, arrivalsAt_append, of_append, of_append]
    exact (ih.manned i).move hlimit hstep

/-! ## The output -/

/-- What a move asks of the output. -/
def asks (f : Floor) : Move → List (Recorder.Move Bytes)
  | .plain m => f.server.asks m
  | .take _ => []
  | .tell i => (f.desk i).head?.toList.map .trace

/-- What is asked of the output along some moves. -/
def asked (s₀ : Server) (ms : List Move) : List (Recorder.Move Bytes) :=
  Trail.along move asks (ofServer s₀) ms

theorem Run.foldlM_move (run : Run s₀ ms bs ts f) :
    ms.foldlM Floor.move (ofServer s₀) = some f := by
  induction run with
  | start => rfl
  | move _ h ih => rw [List.foldlM_append, ih]; simpa using h

theorem asked_concat (run : Run s₀ ms bs ts f) (m : Move) :
    asked s₀ (ms ++ [m]) = asked s₀ ms ++ f.asks m := Trail.along_concat run.foldlM_move m

/-- **The output is asked to trace what the handlers trace**, and then to close, once. -/
structure Asked (s₀ : Server) (oms : List (Recorder.Move Bytes)) (ts : List (Nat × Bytes))
    (f : Floor) : Prop where
  run : ∃ es, Recorder.Run s₀.output.loop oms es f.server.output.loop
  traced : Recorder.traced oms = ts.map (·.2)
  late : Recorder.late oms = []
  closes : oms.any Recorder.Move.closes = !f.server.output.joinable

/-- The output is not asked for anything. -/
theorem Asked.same {oms : List (Recorder.Move Bytes)} (h : Asked s₀ oms ts f)
    (output : f'.server.output = f.server.output) : Asked s₀ (oms ++ []) (ts ++ []) f' := by
  rw [List.append_nil, List.append_nil]
  refine ⟨?_, h.traced, h.late, ?_⟩
  · rw [output]; exact h.run
  · rw [output]; exact h.closes

/-- The output makes a move. -/
theorem Asked.move {oms : List (Recorder.Move Bytes)} {om : Recorder.Move Bytes}
    {new : List (Nat × Bytes)} (h : Asked s₀ oms ts f)
    (move : f.server.output.loop.move om = some f'.server.output.loop)
    (traced : Recorder.traced [om] = new.map (·.2))
    (early : new ≠ [] → f.server.output.joinable = true)
    (closes : f'.server.output.joinable = (f.server.output.joinable && !om.closes)) :
    Asked s₀ (oms ++ [om]) (ts ++ new) f' where
  run := h.run.imp' _ fun _ run => run.move move
  traced := by rw [Recorder.traced_append, h.traced, traced, List.map_append]
  late := by
    rw [Recorder.late_concat, h.late, h.closes, traced]
    cases new with
    | nil => rw [List.map_nil, ite_self]; rfl
    | cons => rw [early nofun]; rfl
  closes := by rw [List.any_append, h.closes, closes]; simp

theorem Run.asked (run : Run s₀ ms bs ts f) (fresh : s₀.Fresh plan) :
    Asked s₀ (asked s₀ ms) ts f := by
  induction run with
  | start =>
    refine ⟨⟨[], .start⟩, rfl, rfl, ?_⟩
    rw [show (ofServer s₀).server.output.joinable = s₀.output.joinable from rfl, fresh.joinable]
    rfl
  | @move ms bs ts f f' m run h ih =>
    have hkept := run.kept fresh
    rw [asked_concat run m]
    cases move_cases h with
    | plain step whole =>
      cases step with
      | accept => exact ih.same rfl
      | arrive => exact ih.same (Server.keeps_arrive ..).output
      | drain => exact absurd rfl (whole _)
      | work work => exact ih.move work rfl (absurd rfl) (Bool.and_true _).symm
      | advance later => exact ih.move (if_pos later) rfl (absurd rfl) (Bool.and_true _).symm
      | shut => exact ih.move rfl rfl (absurd rfl) (Bool.and_false _).symm
    | @take j drains done =>
      obtain ⟨peer, h₀, hget, -⟩ := of_isDraining drains
      obtain ⟨-, -, -, -, houtput, -⟩ :=
        Server.take_life hget ((hkept.manned j).life _ _ hget) drains
      exact ih.same houtput
    | @tell j e rest next =>
      rw [show f.asks (.tell j) = [.trace e] by rw [asks, next]; rfl,
        show f.tells (.tell j) = [(j, e)] by rw [tells, next]; rfl]
      refine ih.move rfl rfl (fun _ => ?_) (Bool.and_true _).symm
      have hbusy : f.desk j ≠ [] := fun hnil => by rw [next] at hnil; cases hnil
      obtain ⟨peer, h₀, hget, hopen⟩ := of_isDraining ((hkept.manned j).busy hbusy)
      exact hkept.joinable hget hopen

/-! ## The balance -/

theorem of_entriesIn (i : Nat) (bs : List (Nat × Batch)) :
    of i (entriesIn bs) = (of i bs).flatMap Batch.entries := by
  induction bs with
  | nil => rfl
  | cons b bs ih =>
    obtain ⟨j, batch⟩ := b
    rw [show entriesIn ((j, batch) :: bs) = batch.entries.map (fun e => (j, e)) ++ entriesIn bs from rfl,
      of_append, ih]
    by_cases hj : j = i
    · subst hj
      rw [of_map_self]
      simp [of]
    · rw [of_map_of_ne hj]
      simp [of, hj]

/-- What becomes of the events that the handlers trace, in turn. -/
def fates (s₀ : Server) (ms : List Move) : List Recorder.Fate :=
  Recorder.fates s₀.output.loop (asked s₀ ms)

/-- The counters of the output. -/
def tally (f : Floor) : Tally := f.server.output.loop.intake.tally

/-- The books of a collector whose output has written to its end. -/
structure Settled (s₀ : Server) (ms : List Move) (bs : List (Nat × Batch)) (ts : List (Nat × Bytes))
    (f : Floor) : Prop where
  ended : ∀ x ∈ f.server.handlers, x.2.isOpen = false
  active : f.server.census.active = 0
  dropped : f.tally.eventsDropped = 0
  /-- Every event that came in is written, cannot be encoded, or failed to be written. -/
  events : f.server.census.events =
    f.tally.eventsWritten + f.tally.encodeErrors + .ofNat (Recorder.failures (fates s₀ ms))
  failures : f.tally.writeErrors = .ofNat (Recorder.failures (fates s₀ ms) +
    (Recorder.lapses s₀.output.loop (asked s₀ ms)).length)
  order : ∀ i, of i ts = (of i bs).flatMap Batch.entries
  /-- The file has what became of the events in the order in which they were traced. -/
  file : f.server.output.loop.output.accepted ++ f.server.output.loop.held.held =
    Recorder.shares .rawDelimited (ts.map (·.2)) (fates s₀ ms)

/-- The books of a collector whose handlers have decoded the batches `bs` and traced the events `ts`,
each with the number of its handler. -/
structure Balanced (s₀ : Server) (ms : List Move) (bs : List (Nat × Batch))
    (ts : List (Nat × Bytes)) (f : Floor) : Prop where
  /-- How a handler ends is decided by what has arrived on its connection. -/
  endings : ∀ i peer e, f.server.ending? i = some (peer, e) →
    Ended s₀.settings.maxFrameSize (arrivalsAt i (served ms)) (of i bs) e
  rejected : ∀ i peer, f.server.ending? i = some (peer, .rejected) → of i ts = []
  tallied : Tallied bs f.server
  first : ∀ i, of i bs <+:
    batchesIn s₀.settings.maxFrameSize (bytesOf (arrivalsAt i (served ms)))
  order : ∀ i, of i ts <+: (of i bs).flatMap Batch.entries
  traced : f.tally.eventsTraced = .ofNat ts.length
  between : (∀ i, f.desk i = []) → f.tally.eventsTraced = f.server.census.events
  settled : f.server.output.loop.isEnded = true → Settled s₀ ms bs ts f

/-- The output's side of the books. -/
theorem Asked.accepted {oms : List (Recorder.Move Bytes)} (h : Asked s₀ oms ts f)
    (fresh : s₀.Fresh plan) :
    Recorder.Run s₀.output.loop oms (ts.map (·.2)) f.server.output.loop ∧
      f.tally.eventsTraced = .ofNat ts.length ∧ f.tally.eventsDropped = 0 ∧
      f.server.output.loop.intake.buffer.closed = !f.server.output.joinable := by
  obtain ⟨es, hrun⟩ := h.run
  obtain ⟨hclosed, hes⟩ := hrun.accepted (by rw [fresh.output.buffer]; rfl)
  have hearly : Recorder.early oms = ts.map (·.2) := by
    rw [← h.traced, ← Recorder.early_append_late, h.late, List.append_nil]
  have hcalls := hrun.calls fresh.output
  rw [hearly, h.late, List.length_map] at hcalls
  simp only [Recorder.calls, List.cons.injEq, and_true] at hcalls
  refine ⟨?_, hcalls.1, hcalls.2, by rw [hclosed, h.closes]⟩
  rw [← hearly, ← hes]
  exact hrun

/-- At the end of the output nothing lies on any desk. -/
theorem Kept.desks (h : Kept s₀ ms bs ts f) (closed : f.server.output.joinable = false) (i : Nat) :
    f.desk i = [] := by
  by_contra hbusy
  obtain ⟨peer, h₀, hget, hopen⟩ := of_isDraining ((h.manned i).busy hbusy)
  exact absurd (closed.symm.trans (h.joinable hget hopen)) nofun

theorem Kept.order (h : Kept s₀ ms bs ts f) (clear : ∀ i, f.desk i = []) (i : Nat) :
    of i ts = (of i bs).flatMap Batch.entries := by
  rw [(h.manned i).desk, clear, List.append_nil]

/-- Where nothing lies on any desk, as many events have been traced as have come in. -/
theorem Kept.length_entriesIn (h : Kept s₀ ms bs ts f) (clear : ∀ i, f.desk i = []) :
    (entriesIn bs).length = ts.length :=
  length_eq_of_of fun i => by rw [of_entriesIn, h.order clear]

theorem Run.settled (run : Run s₀ ms bs ts f) (fresh : s₀.Fresh plan)
    (ended : f.server.output.loop.isEnded = true) : Settled s₀ ms bs ts f := by
  have hkept := run.kept fresh
  have hphase := Recorder.isEnded_iff.mp ended
  obtain ⟨hrun, -, hdropped, hclosed⟩ := (run.asked fresh).accepted fresh
  have hsealed := hrun.sealed fresh.output.sealed
  have hjoinable : f.server.output.joinable = false := by
    have hbuffer := hsealed.closed (by rw [hphase]; rfl)
    rw [hclosed] at hbuffer
    simpa using hbuffer
  have hclear := hkept.desks hjoinable
  obtain ⟨hlength, hfile, -⟩ := (hrun.booked fresh.output.booked).ended hsealed hphase
  have houtcomes := hrun.outcomes fresh.output
  simp only [Recorder.outcomes, Recorder.outcomesOf, List.cons.injEq, and_true] at houtcomes
  obtain ⟨hwritten, hencode, hwrite⟩ := houtcomes
  rw [hrun.encoder, fresh.output.encoder] at hfile
  refine ⟨hkept.closed hjoinable, hkept.tallied.counted.idle (hkept.closed hjoinable), hdropped, ?_,
    hwrite, hkept.order hclear, hfile⟩
  rw [hkept.tallied.events, hkept.length_entriesIn hclear, ← List.length_map (·.2), ← hlength,
    Recorder.length_fates, UInt64.ofNat_add, UInt64.ofNat_add, ← hwritten, ← hencode]
  rfl

/-- **The books balance**, whatever arrives on whichever connections, in every order of the steps of
handlers, output and stop. -/
theorem books_balance (fresh : s₀.Fresh plan) (run : Run s₀ ms bs ts f) :
    Balanced s₀ ms bs ts f := by
  have hkept := run.kept fresh
  obtain ⟨-, htraced, -, -⟩ := (run.asked fresh).accepted fresh
  have hended : ∀ i peer e, f.server.ending? i = some (peer, e) →
      Ended s₀.settings.maxFrameSize (arrivalsAt i (served ms)) (of i bs) e := by
    intro i peer e hending
    exact ((hkept.manned i).life _ _ (Server.ending?_eq_some.mp hending)).of_ended
  have horder : ∀ i, of i ts <+: (of i bs).flatMap Batch.entries := fun i => by
    rw [(hkept.manned i).desk]
    exact List.prefix_append _ _
  refine ⟨hended, fun i peer hending => ?_, hkept.tallied, fun i => ?_, horder, htraced,
    fun hclear => ?_, run.settled fresh⟩
  · have hend := hended i peer _ hending
    have hnone := hend.first
    rw [batchesIn_of_rejected hend.ending.symm, List.prefix_nil] at hnone
    have hfirst := horder i
    rw [hnone] at hfirst
    exact List.prefix_nil.mp hfirst
  · cases hget : f.server.handlers[i]? with
    | none =>
      rw [((hkept.manned i).vacant hget).2]
      exact List.nil_prefix
    | some x => exact ((hkept.manned i).life _ _ hget).first
  · rw [htraced, hkept.tallied.events, hkept.length_entriesIn hclear]

/-- Several moves in turn. -/
def moves (f : Floor) : List Move → Option (List (Nat × Batch) × List (Nat × Bytes) × Floor)
  | [] => some ([], [], f)
  | m :: ms =>
    match f.move m with
    | none => none
    | some f' => (f'.moves ms).map fun (bs, ts, f'') => (f.decodes m ++ bs, f.tells m ++ ts, f'')

theorem Run.moves {old : List Move} {bs' : List (Nat × Batch)} {ts' : List (Nat × Bytes)}
    (run : Run s₀ old bs ts f) (h : f.moves ms = some (bs', ts', f')) :
    Run s₀ (old ++ ms) (bs ++ bs') (ts ++ ts') f' := by
  induction ms generalizing old bs ts f bs' ts' with
  | nil =>
    cases h
    simpa using run
  | cons m ms ih =>
    rw [Floor.moves] at h
    split at h
    · cases h
    · next f₁ hmove =>
      rw [Option.map_eq_some_iff] at h
      obtain ⟨⟨bs₁, ts₁, f₂⟩, hrest, heq⟩ := h
      cases heq
      rw [List.append_cons old, ← List.append_assoc, ← List.append_assoc]
      exact ih (run.move hmove) hrest

namespace Mixed

/-- The output fails once and takes everything after that. -/
def stumbling : ChannelPlan := { writes := ⟨[.fails .writeZero], .takes⟩ }

def collector : Server :=
  .ofOutput { listen := "127.0.0.1:4001", output := "t" }
    (.ofFile "t" ⟨["t"], false, 0⟩ .rawDelimited stumbling)

/-- The header of traces, and a batch of one event behind it. -/
def stream (e : UInt8) : Bytes :=
  Header.write traceProtocol ++
    [31, 139, 8, 0, 0, 0, 0, 0, 4, 255] ++ [0, 4, 0, 251, 255, 3, 10, 1, e] ++ [0, 0, 0, 255, 255]

/-- Three connections. The first ends too early, the second is of another protocol, and the third goes
on until the stop. The events of the first and of the third are traced in the other order than their
batches are decoded. -/
def day : List Move :=
  List.flatten [[.plain (.accept "a"), .plain (.accept "b"), .plain (.arrive 0 (.bytes (stream 7))),
    .take 0, .plain (.arrive 1 (.bytes (Header.write "echo/1"))), .plain (.accept "c"), .plain .work,
    .plain (.arrive 2 (.bytes (stream 9))), .take 2, .tell 2, .take 2, .plain .work, .plain .work,
    .tell 0, .take 0, .plain (.arrive 0 .eof), .plain (.arrive 2 .stopped), .plain .shut],
    List.replicate 16 (.plain .work)]

end Mixed

open Mixed in
theorem books_balance_mixed :
    ∃ bs ts f, collector.Fresh stumbling ∧ Run collector day bs ts f ∧
      [0, 1, 2].map f.server.ending? = [some ("a", .failed), some ("b", .rejected), some ("c", .clean)] ∧
      f.server.census = ⟨3, 0, 1, 1, 2, 2⟩ ∧ ts = [(2, [9]), (0, [7])] ∧
      f.server.output.loop.output.accepted = [1, 9, 1, 7] ∧
      Balanced collector day bs ts f ∧ Settled collector day bs ts f := by
  have hfile : ((ofServer collector).moves day).map (fun (_, ts, f) =>
      (ts, f.server.output.loop.output.accepted, f.server.output.loop.isEnded)) =
      some ([(2, [9]), (0, [7])], [1, 9, 1, 7], true) := by decide +kernel
  have hcounts : ((ofServer collector).moves day).map (fun (_, _, f) =>
      ([0, 1, 2].map f.server.ending?, f.server.census)) =
      some ([some ("a", .failed), some ("b", .rejected), some ("c", .clean)],
        ⟨3, 0, 1, 1, 2, 2⟩) := by decide +kernel
  rw [Option.map_eq_some_iff] at hfile
  obtain ⟨⟨bs, ts, f⟩, hmoves, hfile⟩ := hfile
  rw [hmoves, Option.map_some, Option.some.injEq] at hcounts
  simp only [Prod.mk.injEq] at hfile hcounts
  obtain ⟨hts, haccepted, hended⟩ := hfile
  obtain ⟨hendings, hcensus⟩ := hcounts
  have hfresh : collector.Fresh stumbling := ⟨rfl, rfl, rfl, rfl, rfl, rfl, rfl, rfl, rfl⟩
  have hrun : Run collector day bs ts f := by simpa using Run.start.moves hmoves
  have hbalanced := books_balance hfresh hrun
  exact ⟨bs, ts, f, hfresh, hrun, hendings, hcensus, hts, haccepted, hbalanced,
    hbalanced.settled hended⟩

end Floor

end TraceRelay.Collector
