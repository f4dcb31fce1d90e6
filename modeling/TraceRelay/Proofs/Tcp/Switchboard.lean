import Mathlib.Data.List.Induction
import Mathlib.Data.List.Perm.Basic
import Mathlib.Data.List.TakeDrop
import TraceRelay.Tcp.Switchboard

/-!
# Where the connections of a dialer go

`Caller.Step` says what a step of a caller can be. Every connection that a caller has made is parked,
closed unused, or taken for a stream (`Kept`), and that is kept by every step of any caller. A caller
that no other comes between is answered as by `Dialer.connect` (`connect_alone`).
-/

namespace TraceRelay.Tcp

namespace Caller

variable {c : Caller} {d : Dialer} {a : Answer} {turn : Turn}

/-- What a step of a caller can be. -/
inductive Step (c : Caller) (d : Dialer) (a : Answer) : Turn → Prop where
  | finds {i : Nat} (stage : c.stage = .asking) (parked : d.parked.lookup c.target.peer = some i) :
      Step c d a ⟨{ c with stage := .connected, found := true }, d, [], []⟩
  | dials (stage : c.stage = .asking) (free : d.parked.lookup c.target.peer = none) :
      Step c d a
        ⟨{ c with stage := .dialing c.target.addresses (.noAddresses c.target.peer) }, d, [], []⟩
  | exhausted {f : HostFailure} (stage : c.stage = .dialing [] f) :
      Step c d a ⟨{ c with stage := .failed f }, d, [], []⟩
  | reaches {address : String} {left : List String} {f : HostFailure}
      (stage : c.stage = .dialing (address :: left) f) (answer : a.reach address = .ok ()) :
      Step c d a ⟨{ c with stage := .connected, made? := some d.dialed }, d.park c.target.peer,
        d.heldFor c.target.peer, [Dialer.reached c.target.peer address]⟩
  | misses {address : String} {left : List String} {f : HostFailure} {fault : Fault}
      (stage : c.stage = .dialing (address :: left) f) (answer : a.reach address = .error fault) :
      Step c d a ⟨{ c with stage := .dialing left (.dial address fault) }, d, [],
        [Dialer.missed c.target.peer address fault]⟩
  | takes {i : Nat} (stage : c.stage = .connected) (parked : d.parked.lookup c.target.peer = some i) :
      Step c d a ⟨{ c with stage := .greeting, taken? := some i },
        { d with parked := d.heldBeside c.target.peer }, [], []⟩
  | turnedAway (stage : c.stage = .connected) (free : d.parked.lookup c.target.peer = none) :
      Step c d a ⟨{ c with stage := .failed (.notConnected c.target.peer) }, d, [], []⟩
  | greets (stage : c.stage = .greeting) (answer : a.greet = .ok ()) :
      Step c d a ⟨{ c with stage := .streaming }, d, [], []⟩
  | breaks {fault : Fault} (stage : c.stage = .greeting) (answer : a.greet = .error fault) :
      Step c d a ⟨{ c with stage := .failed (.io fault) }, d, [], []⟩

theorem step_spec (h : c.step d a = some turn) : Step c d a turn := by
  unfold step at h
  dsimp only at h
  split at h
  · next hstage =>
    split at h
    · next hparked =>
      cases h
      obtain ⟨i, hi⟩ := Option.isSome_iff_exists.mp hparked
      exact .finds hstage hi
    · next hfree =>
      cases h
      exact .dials hstage (Option.not_isSome_iff_eq_none.mp hfree)
  · next hstage => cases h; exact .exhausted hstage
  · next hstage =>
    split at h
    · next hreach => cases h; exact .reaches hstage hreach
    · next hreach => cases h; exact .misses hstage hreach
  · next hstage =>
    unfold Dialer.newStream at h
    cases hlookup : d.parked.lookup c.target.peer with
    | none => rw [hlookup] at h; cases h; exact .turnedAway hstage hlookup
    | some i => rw [hlookup] at h; cases h; exact .takes hstage hlookup
  · next hstage =>
    split at h
    · next hgreet => cases h; exact .greets hstage hgreet
    · next hgreet => cases h; exact .breaks hstage hgreet
  · cases h
  · cases h

theorem step_of_spec (st : Step c d a turn) : c.step d a = some turn := by
  unfold step
  cases st with
  | finds stage parked => simp only [stage, parked, Option.isSome_some, if_true]
  | dials stage free => simp only [stage, free, Option.isSome_none, Bool.false_eq_true, if_false]
  | takes stage parked => simp only [stage, Dialer.newStream, parked]
  | turnedAway stage free => simp only [stage, Dialer.newStream, free]
  | exhausted stage => simp only [stage]
  | reaches stage answer | misses stage answer | greets stage answer | breaks stage answer =>
    simp only [stage, answer]

/-- Whether nothing is left to do for a caller. -/
def isDone (c : Caller) : Bool := c.stage matches .streaming | .failed _

theorem step_isSome (h : c.isDone = false) : ∃ turn, c.step d a = some turn := by
  obtain ⟨target, stage, found, made?, taken?⟩ := c
  cases stage with
  | asking =>
    unfold step
    dsimp only
    split <;> exact ⟨_, rfl⟩
  | dialing left f =>
    cases left with
    | nil => exact ⟨_, rfl⟩
    | cons address left =>
      unfold step
      dsimp only
      split <;> exact ⟨_, rfl⟩
  | connected | greeting =>
    unfold step
    dsimp only
    split <;> exact ⟨_, rfl⟩
  | streaming | failed f => cases h

/-- A failure of the dialing itself. -/
def IsUnreached : HostFailure → Prop
  | .noAddresses _ | .dial _ _ => True
  | _ => False

/-- It has been told that there is a connection: it has found one, or has made one. -/
def Told (c : Caller) : Prop := (c.found = true ∧ c.made? = none) ∨ (c.found = false ∧ c.made?.isSome)

def Untold (c : Caller) : Prop := c.found = false ∧ c.made? = none ∧ c.taken? = none

/-- What a caller has, by how far it has got. -/
def Sound (c : Caller) : Prop :=
  match c.stage with
  | .asking => c.Untold
  | .dialing _ f => IsUnreached f ∧ c.Untold
  | .connected => c.Told ∧ c.taken? = none
  | .greeting | .streaming => c.Told ∧ c.taken?.isSome
  | .failed (.notConnected peer) => peer = c.target.peer ∧ c.Told ∧ c.taken? = none
  | .failed (.io _) => c.Told ∧ c.taken?.isSome
  | .failed f => IsUnreached f ∧ c.Untold

theorem Step.sound (st : Step c d a turn) (h : c.Sound) : turn.caller.Sound := by
  cases st with
  | finds stage parked =>
    rw [Sound, stage] at h
    exact ⟨.inl ⟨rfl, h.2.1⟩, h.2.2⟩
  | dials stage free =>
    rw [Sound, stage] at h
    exact ⟨trivial, h⟩
  | @exhausted f stage =>
    rw [Sound, stage] at h
    cases f with
    | noAddresses _ | dial _ _ => exact h
    | notConnected _ | protocol _ | io _ => exact h.1.elim
  | reaches stage answer =>
    rw [Sound, stage] at h
    exact ⟨.inr ⟨h.2.1, rfl⟩, h.2.2.2⟩
  | misses stage answer =>
    rw [Sound, stage] at h
    exact ⟨trivial, h.2⟩
  | takes stage parked =>
    rw [Sound, stage] at h
    exact ⟨h.1, rfl⟩
  | turnedAway stage free =>
    rw [Sound, stage] at h
    exact ⟨rfl, h⟩
  | greets stage answer | breaks stage answer =>
    rw [Sound, stage] at h
    exact h

theorem Step.target (st : Step c d a turn) : turn.caller.target = c.target := by
  cases st <;> rfl

end Caller

namespace Switchboard

/-- A connection, with its peer. -/
abbrev Line := String × Nat

/-- A caller that makes a step, and what it gets to know. -/
structure Move where
  caller : Nat
  answer : Answer

/-- What may have happened at a switchboard. -/
inductive Run (s₀ : Switchboard) : List Move → Switchboard → Prop where
  | start : Run s₀ [] s₀
  | move {ms : List Move} {m : Move} {s s' : Switchboard} (run : Run s₀ ms s)
      (h : s.move m.caller m.answer = some s') : Run s₀ (ms ++ [m]) s'

/-- Where moves lead, if each of them can be made. -/
def follow (s : Switchboard) (ms : List Move) : Option Switchboard :=
  ms.foldlM (fun s m => s.move m.caller m.answer) s

/-- A connection that a caller has. -/
def lineOf (get : Caller → Option Nat) (c : Caller) : Option Line := (get c).map (c.target.peer, ·)

/-- The connections that callers have made. -/
def made (s : Switchboard) : List Line := s.callers.filterMap (lineOf (·.made?))

/-- The connections that callers have taken. -/
def taken (s : Switchboard) : List Line := s.callers.filterMap (lineOf (·.taken?))

variable {s s' s₀ : Switchboard} {m : Move} {ms : List Move}

theorem run_of_follow (h : s₀.follow ms = some s) : Run s₀ ms s := by
  unfold follow at h
  induction ms using List.reverseRecOn generalizing s with
  | nil =>
    cases h
    exact .start
  | append_singleton ms m ih =>
    rw [List.foldlM_append] at h
    obtain ⟨s₁, hms, h⟩ := Option.bind_eq_some_iff.mp h
    rw [List.foldlM_cons] at h
    obtain ⟨s₂, hm, h⟩ := Option.bind_eq_some_iff.mp h
    cases h
    exact .move (ih hms) hm

theorem Run.trans {ms' : List Move} (run : Run s₀ ms s) (run' : Run s ms' s') : Run s₀ (ms ++ ms') s' := by
  induction run' with
  | start => rwa [List.append_nil]
  | move _ h ih =>
    rw [← List.append_assoc]
    exact .move ih h

/-- One caller, between others, makes a step. -/
structure Moved (s : Switchboard) (m : Move) (before : List Caller) (c : Caller) (after : List Caller)
    (turn : Caller.Turn) (s' : Switchboard) : Prop where
  callers : s.callers = before ++ c :: after
  step : Caller.Step c s.dialer m.answer turn
  callers' : s'.callers = before ++ turn.caller :: after
  dialer' : s'.dialer = turn.dialer
  dropped' : s'.dropped = s.dropped ++ turn.dropped
  journal' : s'.journal = s.journal ++ turn.records

theorem move_of_step {k : Nat} {a : Answer} {c : Caller} {turn : Caller.Turn} (hk : s.callers[k]? = some c)
    (h : c.step s.dialer a = some turn) : s.move k a = some ⟨turn.dialer, s.callers.set k turn.caller,
      s.dropped ++ turn.dropped, s.journal ++ turn.records⟩ := by
  refine Option.bind_eq_some_iff.mpr ⟨c, hk, ?_⟩
  exact Option.bind_eq_some_iff.mpr ⟨turn, h, rfl⟩

theorem move_cases (h : s.move m.caller m.answer = some s') :
    ∃ before c after turn, Moved s m before c after turn s' := by
  obtain ⟨c, hc, h⟩ := Option.bind_eq_some_iff.mp h
  obtain ⟨turn, hturn, h⟩ := Option.bind_eq_some_iff.mp h
  cases h
  obtain ⟨hlt, rfl⟩ := List.getElem?_eq_some_iff.mp hc
  refine ⟨s.callers.take m.caller, _, s.callers.drop (m.caller + 1), turn, ?_, Caller.step_spec hturn, ?_,
    rfl, rfl, rfl⟩
  · rw [List.cons_getElem_drop_succ, List.take_append_drop]
  · exact List.set_eq_take_append_cons_drop.trans (if_pos hlt)

/-! ## Lines -/

/-- What a caller among others has is its own, and what the others have. -/
theorem filterMap_perm {β : Type} (f : Caller → Option β) (before : List Caller) (c : Caller)
    (after : List Caller) : ((before ++ c :: after).filterMap f).Perm
      ((f c).toList ++ (before ++ after).filterMap f) := by
  rw [List.filterMap_append, List.filterMap_append, List.filterMap_cons]
  cases f c with
  | none => exact .refl _
  | some b => exact List.perm_middle

/-- A line that is parked for a peer is the only one. -/
theorem perm_of_lookup {d : Dialer} {peer : String} {i : Nat} (single : (d.parked.map (·.1)).Nodup)
    (h : d.parked.lookup peer = some i) : d.parked.Perm ((peer, i) :: d.heldBeside peer) := by
  obtain ⟨early, late, hparked, hearly⟩ := List.lookup_eq_some_iff.mp h
  unfold Dialer.heldBeside
  rw [hparked, List.map_append, List.map_cons, List.nodup_append] at single
  obtain ⟨-, hlate, -⟩ := single
  have hearly' : early.filter (·.1 ≠ peer) = early := by
    refine List.filter_eq_self.mpr fun x hx => ?_
    have hne := hearly x hx
    simp only [bne_iff_ne, ne_eq] at hne
    simpa using fun heq => hne heq.symm
  have hlate' : late.filter (·.1 ≠ peer) = late := by
    refine List.filter_eq_self.mpr fun x hx => ?_
    have hmem : x.1 ∈ late.map (·.1) := List.mem_map_of_mem hx
    refine decide_eq_true fun heq => (List.nodup_cons.mp hlate).1 ?_
    rwa [heq] at hmem
  rw [hparked, List.filter_append, List.filter_cons_of_neg (by simp), hearly', hlate']
  exact List.perm_middle

/-- The lines of a peer and those of the others. -/
theorem perm_of_peer (d : Dialer) (peer : String) : (d.heldFor peer ++ d.heldBeside peer).Perm d.parked := by
  unfold Dialer.heldFor Dialer.heldBeside
  simpa only [ne_eq, decide_not] using
    List.filter_append_perm (fun x : Line => decide (x.1 = peer)) d.parked

/-- What is known of a switchboard at any moment. -/
structure Kept (s : Switchboard) : Prop where
  /-- Every connection that was made is parked, closed unused, or taken. -/
  dealt : (s.dialer.parked ++ s.dropped ++ s.taken).Perm s.made
  numbered : (s.made.map (·.2)).Perm (List.range s.dialer.dialed)
  /-- A peer has at most one parked. -/
  single : (s.dialer.parked.map (·.1)).Nodup
  /-- Somebody is about to ask for what is parked. -/
  awaited : ∀ x ∈ s.dialer.parked, ∃ c ∈ s.callers, c.stage = .connected ∧ c.target.peer = x.1
  sound : ∀ c ∈ s.callers, c.Sound

theorem kept_start (settings : Settings) (targets : List Target) : Kept (start settings targets) := by
  have hmade : (start settings targets).made = [] := by
    refine List.filterMap_eq_nil_iff.mpr fun c hc => ?_
    obtain ⟨t, -, rfl⟩ := List.mem_map.mp hc
    rfl
  have htaken : (start settings targets).taken = [] := by
    refine List.filterMap_eq_nil_iff.mpr fun c hc => ?_
    obtain ⟨t, -, rfl⟩ := List.mem_map.mp hc
    rfl
  refine ⟨?_, ?_, .nil, List.forall_mem_nil _, ?_⟩
  · rw [hmade, htaken]
    exact .refl _
  · rw [hmade]
    exact .refl _
  · intro c hc
    obtain ⟨t, -, rfl⟩ := List.mem_map.mp hc
    exact ⟨rfl, rfl, rfl⟩

variable {before after : List Caller} {c : Caller} {turn : Caller.Turn}

/-- What the caller that has made a step has, and what the others have. -/
theorem Moved.lines (h : Moved s m before c after turn s') (get : Caller → Option Nat) : ∃ others,
    (s.callers.filterMap (lineOf get)).Perm ((lineOf get c).toList ++ others) ∧
      (s'.callers.filterMap (lineOf get)).Perm ((lineOf get turn.caller).toList ++ others) := by
  rw [h.callers, h.callers']
  exact ⟨_, filterMap_perm .., filterMap_perm ..⟩

/-- A caller that has as much as before. -/
theorem Moved.lines_same (h : Moved s m before c after turn s') (get : Caller → Option Nat)
    (same : get turn.caller = get c) :
    (s'.callers.filterMap (lineOf get)).Perm (s.callers.filterMap (lineOf get)) := by
  obtain ⟨others, hbefore, hafter⟩ := h.lines get
  rw [lineOf, h.step.target, same] at hafter
  exact hafter.trans hbefore.symm

/-- A caller that has come by a line. -/
theorem Moved.lines_more (h : Moved s m before c after turn s') (get : Caller → Option Nat) {i : Nat}
    (none_yet : get c = none) (now : get turn.caller = some i) :
    (s'.callers.filterMap (lineOf get)).Perm ((c.target.peer, i) :: s.callers.filterMap (lineOf get)) := by
  obtain ⟨others, hbefore, hafter⟩ := h.lines get
  rw [lineOf, h.step.target, now] at hafter
  rw [lineOf, none_yet] at hbefore
  exact hafter.trans (hbefore.symm.cons _)

theorem Moved.mem (h : Moved s m before c after turn s') : c ∈ s.callers := by
  rw [h.callers]
  simp

theorem Moved.mem' (h : Moved s m before c after turn s') : turn.caller ∈ s'.callers := by
  rw [h.callers']
  simp

theorem Moved.mem_rest (h : Moved s m before c after turn s') {b : Caller} (mem : b ∈ s.callers)
    (ne : b ≠ c) : b ∈ before ++ after := by
  rw [h.callers, List.mem_append, List.mem_cons] at mem
  rw [List.mem_append]
  tauto

/-- The others are as they were. -/
theorem Moved.mem_other (h : Moved s m before c after turn s') {b : Caller} (mem : b ∈ s.callers)
    (ne : b ≠ c) : b ∈ s'.callers := by
  have hrest := List.mem_append.mp (h.mem_rest mem ne)
  rw [h.callers', List.mem_append, List.mem_cons]
  exact hrest.imp_right .inr

theorem Moved.mem_cases (h : Moved s m before c after turn s') {b : Caller} (mem : b ∈ s'.callers) :
    b = turn.caller ∨ b ∈ s.callers := by
  rw [h.callers', List.mem_append, List.mem_cons] at mem
  rw [h.callers, List.mem_append, List.mem_cons]
  tauto

/-! ## A step keeps it -/

theorem Moved.dealt (h : Moved s m before c after turn s') (kept : Kept s) :
    (s'.dialer.parked ++ s'.dropped ++ s'.taken).Perm s'.made := by
  have hsound := kept.sound c h.mem
  have hdealt := kept.dealt
  rw [h.dialer', h.dropped']
  unfold made taken at hdealt ⊢
  -- a line at a time: what the caller has more of, it has made, or it was parked before
  rw [List.perm_iff_count] at hdealt ⊢
  intro x
  have hcount := hdealt x
  cases h.step with
  | reaches stage answer =>
    rw [Caller.Sound, stage] at hsound
    have hmade := (h.lines_more (·.made?) hsound.2.2.1 rfl).count_eq x
    have htaken := (h.lines_same (·.taken?) rfl).count_eq x
    have hpeer := (perm_of_peer s.dialer c.target.peer).count_eq x
    simp only [Dialer.park, List.count_append, List.count_cons] at *
    omega
  | takes stage parked =>
    rw [Caller.Sound, stage] at hsound
    have hmade := (h.lines_same (·.made?) rfl).count_eq x
    have htaken := (h.lines_more (·.taken?) hsound.2 rfl).count_eq x
    have hline := (perm_of_lookup kept.single parked).count_eq x
    simp only [List.count_append, List.count_cons, List.count_nil] at *
    omega
  | _ =>
    have hmade := (h.lines_same (·.made?) rfl).count_eq x
    have htaken := (h.lines_same (·.taken?) rfl).count_eq x
    simp only [List.count_append, List.count_nil] at *
    omega

theorem Moved.numbered (h : Moved s m before c after turn s') (kept : Kept s) :
    (s'.made.map (·.2)).Perm (List.range s'.dialer.dialed) := by
  have hsound := kept.sound c h.mem
  rw [h.dialer']
  cases h.step with
  | reaches stage answer =>
    rw [Caller.Sound, stage] at hsound
    have hmade := h.lines_more (·.made?) hsound.2.2.1 rfl
    dsimp only [Dialer.park]
    rw [List.range_succ]
    exact ((hmade.map _).trans (kept.numbered.cons _)).trans (List.perm_append_singleton _ _).symm
  | _ => exact ((h.lines_same (·.made?) rfl).map _).trans kept.numbered

theorem Moved.single (h : Moved s m before c after turn s') (kept : Kept s) :
    (s'.dialer.parked.map (·.1)).Nodup := by
  have hbeside : ((s.dialer.heldBeside c.target.peer).map (·.1)).Nodup :=
    kept.single.sublist (List.filter_sublist.map _)
  rw [h.dialer']
  cases h.step with
  | reaches stage answer =>
    refine List.nodup_cons.mpr ⟨?_, hbeside⟩
    intro hmem
    obtain ⟨x, hx, heq⟩ := List.mem_map.mp hmem
    simpa [heq] using (List.mem_filter.mp hx).2
  | takes stage parked => exact hbeside
  | _ => exact kept.single

theorem Moved.awaited (h : Moved s m before c after turn s') (kept : Kept s) :
    ∀ x ∈ s'.dialer.parked, ∃ b ∈ s'.callers, b.stage = .connected ∧ b.target.peer = x.1 := by
  -- whoever waited for a line goes on waiting, unless it is the caller that has moved
  have hother : ∀ x ∈ s.dialer.parked, c.target.peer ≠ x.1 ∨ c.stage ≠ .connected →
      ∃ b ∈ s'.callers, b.stage = .connected ∧ b.target.peer = x.1 := by
    intro x hx hne
    obtain ⟨b, hb, hconnected, hpeer⟩ := kept.awaited x hx
    refine ⟨b, h.mem_other hb ?_, hconnected, hpeer⟩
    rintro rfl
    exact hne.elim (fun hne => hne hpeer) (fun hne => hne hconnected)
  have hmem' := h.mem'
  rw [h.dialer']
  cases h.step with
  | finds stage _ | dials stage _ | exhausted stage | misses stage _ | greets stage _ | breaks stage _ =>
    intro x hx
    exact hother x hx (.inr (by rw [stage]; nofun))
  | reaches stage answer =>
    intro x hx
    rcases List.mem_cons.mp hx with rfl | hx
    · exact ⟨_, hmem', rfl, rfl⟩
    · exact hother x (List.mem_filter.mp hx).1 (.inr (by rw [stage]; nofun))
  | takes stage parked =>
    intro x hx
    obtain ⟨hx, hne⟩ := List.mem_filter.mp hx
    exact hother x hx (.inl fun heq => by simp [heq] at hne)
  | turnedAway stage free =>
    intro x hx
    have hne := List.lookup_eq_none_iff.mp free x hx
    exact hother x hx (.inl fun heq => by simp [heq] at hne)

theorem Moved.kept (h : Moved s m before c after turn s') (kept : Kept s) : Kept s' where
  dealt := h.dealt kept
  numbered := h.numbered kept
  single := h.single kept
  awaited := h.awaited kept
  sound b hb := by
    rcases h.mem_cases hb with rfl | hb
    · exact h.step.sound (kept.sound c h.mem)
    · exact kept.sound b hb

theorem Run.kept {settings : Settings} {targets : List Target}
    (run : Run (.start settings targets) ms s) : Kept s := by
  induction run with
  | start => exact kept_start settings targets
  | move run h ih =>
    obtain ⟨before, c, after, turn, hmoved⟩ := move_cases h
    exact hmoved.kept ih

/-! ## A caller on its own -/

/-- Where a caller is once its question for a connection has been answered. -/
def stageAfter : Except HostFailure Unit → Stage
  | .ok () => .connected
  | .error f => .failed f

/-- Steps of caller `k` alone lead to where it has its answer. -/
def Arrives (s : Switchboard) (k : Nat) (a : Answer)
    (outcome : Except HostFailure Unit × Dialer × List Log.Record) : Prop :=
  ∃ n s' c', Run s (List.replicate n ⟨k, a⟩) s' ∧ s'.callers = s.callers.set k c' ∧
    c'.stage = stageAfter outcome.1 ∧ s'.dialer = outcome.2.1 ∧ s'.journal = s.journal ++ outcome.2.2

section Alone

variable {k : Nat} {a : Answer} {outcome : Except HostFailure Unit × Dialer × List Log.Record}

theorem Arrives.of_last (hk : s.callers[k]? = some c) (step : Caller.Step c s.dialer a turn)
    (stage : turn.caller.stage = stageAfter outcome.1) (dialer : turn.dialer = outcome.2.1)
    (records : turn.records = outcome.2.2) : Arrives s k a outcome :=
  ⟨1, _, turn.caller, .move .start (move_of_step hk (Caller.step_of_spec step)), rfl, stage, dialer,
    congrArg (s.journal ++ ·) records⟩

theorem Arrives.of_step {records : List Log.Record} (hk : s.callers[k]? = some c)
    (step : Caller.Step c s.dialer a turn) (hdialer : turn.dialer = s.dialer)
    (hrecords : outcome.2.2 = turn.records ++ records)
    (arrives : ∀ s₁ : Switchboard, s₁.callers[k]? = some turn.caller → s₁.dialer = s.dialer →
      Arrives s₁ k a (outcome.1, outcome.2.1, records)) : Arrives s k a outcome := by
  have hmove := move_of_step hk (Caller.step_of_spec step)
  obtain ⟨hlt, -⟩ := List.getElem?_eq_some_iff.mp hk
  obtain ⟨n, s', c', run, hcallers, hstage, hd, hjournal⟩ :=
    arrives ⟨turn.dialer, s.callers.set k turn.caller, s.dropped ++ turn.dropped, s.journal ++ turn.records⟩
      (List.getElem?_set_self hlt) hdialer
  refine ⟨n + 1, s', c', (Run.move .start hmove).trans run, ?_, hstage, hd, ?_⟩
  · rw [hcallers, List.set_set]
  · rw [hjournal, hrecords, List.append_assoc]

variable (network : Network) (resolve : String → Except Fault Address)

/-- What comes of dialing a peer. -/
def afterDialing (d : Dialer) (peer : String) (f : HostFailure) (addresses : List String) :
    Except HostFailure Unit × Dialer × List Log.Record :=
  match Dialer.dialAny network resolve peer f addresses with
  | (.ok (), records) => (.ok (), d.park peer, records)
  | (.error f, records) => (.error f, d, records)

variable {network resolve} {address : String} {left : List String} {f : HostFailure} {d : Dialer}
  {peer : String}

theorem afterDialing_of_ok (h : resolve address >>= network.dial = .ok ()) :
    afterDialing network resolve d peer f (address :: left)
      = (.ok (), d.park peer, [Dialer.reached peer address]) := by
  simp only [afterDialing, Dialer.dialAny, h]

theorem afterDialing_of_error {fault : Fault} (h : resolve address >>= network.dial = .error fault) :
    afterDialing network resolve d peer f (address :: left)
      = let rest := afterDialing network resolve d peer (.dial address fault) left
        (rest.1, rest.2.1, Dialer.missed peer address fault :: rest.2.2) := by
  simp only [afterDialing, Dialer.dialAny, h]
  obtain ⟨_ | _, records⟩ := Dialer.dialAny network resolve peer (.dial address fault) left <;> rfl

theorem dial_alone (hreach : ∀ address, a.reach address = resolve address >>= network.dial)
    (hk : s.callers[k]? = some c) (hstage : c.stage = .dialing left f) :
    Arrives s k a (afterDialing network resolve s.dialer c.target.peer f left) := by
  induction left generalizing s c f with
  | nil => exact .of_last hk (.exhausted hstage) rfl rfl rfl
  | cons address left ih =>
    cases hanswer : resolve address >>= network.dial with
    | ok _ =>
      rw [afterDialing_of_ok hanswer]
      exact .of_last hk (.reaches hstage ((hreach address).trans hanswer)) rfl rfl rfl
    | error fault =>
      rw [afterDialing_of_error hanswer]
      refine .of_step hk (.misses hstage ((hreach address).trans hanswer)) rfl rfl fun s₁ hk₁ hdialer => ?_
      have hrest := ih hk₁ rfl
      rwa [hdialer] at hrest

/-- A caller that nobody comes between gets the answer that the dialer gives. -/
theorem connect_alone (hreach : ∀ address, a.reach address = resolve address >>= network.dial)
    (hk : s.callers[k]? = some c) (hstage : c.stage = .asking) :
    Arrives s k a (s.dialer.connect network resolve c.target) := by
  unfold Dialer.connect
  split
  · next hparked =>
    obtain ⟨i, hi⟩ := Option.isSome_iff_exists.mp hparked
    exact .of_last hk (.finds hstage hi) rfl rfl rfl
  · next hfree =>
    have hnone := Option.not_isSome_iff_eq_none.mp hfree
    refine .of_step hk (.dials hstage hnone) rfl (List.nil_append _).symm fun s₁ hk₁ hdialer => ?_
    have hdialing := dial_alone hreach hk₁ rfl
    rwa [hdialer] at hdialing

end Alone

end Switchboard

end TraceRelay.Tcp
