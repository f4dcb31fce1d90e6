import Mathlib.Algebra.GroupWithZero.Nat
import Mathlib.Data.List.Nodup
import TraceRelay.Proofs.Tcp.Switchboard

/-!
# Streams of the callers of one dialer

Each stream has a connection of its own, and in the end none is left parked. But being told that there
is a connection does not reserve it: where one caller finds what another has parked, or two of them
dial a peer at once and the second parks over the first, there is one connection less than there are
callers told, and one of them is turned away. `streams_apart` counts them.
-/

namespace TraceRelay.Tcp

namespace Caller

variable {c : Caller} {d : Dialer} {a : Answer} {turn : Turn}

/-! ## What a caller counts for -/

/-- It has been turned away, though it had been told of a connection. -/
def isRefused (peer : String) (c : Caller) : Bool := c.stage = .failed (.notConnected peer)

/-- It has been told of a connection, and has not asked for its stream yet. -/
def isWaiting (peer : String) (c : Caller) : Bool := c.stage = .connected ∧ c.target.peer = peer

/-- It has found a connection that another has parked. -/
def hasFound (peer : String) (c : Caller) : Bool := c.found ∧ c.target.peer = peer

/-- It is between its two questions. -/
def isUnderWay (peer : String) (c : Caller) : Bool :=
  c.stage matches .dialing .. | .connected ∧ c.target.peer = peer

theorem Sound.balance (h : c.Sound) (peer : String) :
    (if c.isRefused peer then 1 else 0) + (if c.isWaiting peer then 1 else 0)
        + (if c.taken?.isSome ∧ c.target.peer = peer then 1 else 0)
      = (if c.hasFound peer then 1 else 0) + (if c.made?.isSome ∧ c.target.peer = peer then 1 else 0) := by
  obtain ⟨target, stage, found, made?, taken?⟩ := c
  unfold isRefused isWaiting hasFound
  cases stage with
  | failed f => cases f <;> grind [Sound, Told, Untold]
  | _ => grind [Sound, Told, Untold]

end Caller

/-! ## With every address reached and every header taken -/

/-- It reaches every address and takes every header. -/
def Answer.Obliging (a : Answer) : Prop := (∀ address, a.reach address = .ok ()) ∧ a.greet = .ok ()

namespace Caller

/-- Nothing has failed for it but to find an address, or the connection that it was told of. -/
def Spared (c : Caller) : Prop :=
  match c.stage with
  | .dialing left f => left = c.target.addresses ∧ f = .noAddresses c.target.peer
  | .failed f => f = .notConnected c.target.peer ∨
      (f = .noAddresses c.target.peer ∧ c.target.addresses = [])
  | _ => True

theorem Step.spared (st : Step c d a turn) (obliging : a.Obliging) (h : c.Spared) :
    turn.caller.Spared := by
  cases st with
  | dials stage free => exact ⟨rfl, rfl⟩
  | exhausted stage =>
    rw [Spared, stage] at h
    exact .inr ⟨h.2, h.1.symm⟩
  | misses stage answer => cases (obliging.1 _).symm.trans answer
  | turnedAway stage free => exact .inl rfl
  | breaks stage answer => cases obliging.2.symm.trans answer
  | finds | reaches | takes | greets => trivial

/-! ## What is left to do -/

/-- How many steps a caller can still make, at most. -/
def stepsLeft (c : Caller) : Nat :=
  match c.stage with
  | .asking => c.target.addresses.length + 3
  | .dialing left _ => left.length + 2
  | .connected => 2
  | .greeting => 1
  | .streaming | .failed _ => 0

theorem Step.stepsLeft_lt (st : Step c d a turn) : turn.caller.stepsLeft < c.stepsLeft := by
  cases st with
  | finds stage _ | dials stage _ | exhausted stage | reaches stage _ | misses stage _ | takes stage _
  | turnedAway stage _ | greets stage _ | breaks stage _ =>
    simp only [stepsLeft, stage, List.length_cons]
    omega

end Caller

namespace Switchboard

variable {s s' s₀ : Switchboard} {m : Move} {ms : List Move} {before after : List Caller} {c : Caller}
  {turn : Caller.Turn} {settings : Settings} {targets : List Target}

/-- Callers of a peer that have been turned away. -/
def refused (s : Switchboard) (peer : String) : Nat := s.callers.countP (Caller.isRefused peer)

/-- Callers that are about to ask for a stream to a peer. -/
def waiting (s : Switchboard) (peer : String) : Nat := s.callers.countP (Caller.isWaiting peer)

/-- Callers that found a connection to their peer parked by another. -/
def found (s : Switchboard) (peer : String) : Nat := s.callers.countP (Caller.hasFound peer)

/-- Callers of a peer that are between their two questions. -/
def underWay (s : Switchboard) (peer : String) : Nat := s.callers.countP (Caller.isUnderWay peer)

/-- How many lines lead to a peer. -/
def linesTo (lines : List Line) (peer : String) : Nat := lines.countP (·.1 = peer)

/-! ## Counting by peer -/

theorem linesTo_filterMap (get : Caller → Option Nat) (cs : List Caller) (peer : String) :
    linesTo (cs.filterMap (lineOf get)) peer
      = cs.countP fun c => decide ((get c).isSome ∧ c.target.peer = peer) := by
  unfold linesTo
  rw [List.countP_filterMap]
  refine List.countP_congr fun c _ => ?_
  unfold lineOf
  cases get c <;> simp

theorem balance_callers {cs : List Caller} (sound : ∀ c ∈ cs, c.Sound) (peer : String) :
    cs.countP (Caller.isRefused peer) + cs.countP (Caller.isWaiting peer)
        + linesTo (cs.filterMap (lineOf (·.taken?))) peer
      = cs.countP (Caller.hasFound peer) + linesTo (cs.filterMap (lineOf (·.made?))) peer := by
  rw [linesTo_filterMap, linesTo_filterMap]
  induction cs with
  | nil => rfl
  | cons c cs ih =>
    have hrest := ih fun b hb => sound b (List.mem_cons_of_mem c hb)
    have hfirst := (sound c List.mem_cons_self).balance peer
    simp only [List.countP_cons, decide_eq_true_eq]
    omega

/-- Whoever was told of a connection that it does not get, or not yet, is made up for by a connection
that another has found, that is parked, or that was closed unused. -/
theorem Kept.balance (kept : Kept s) (peer : String) :
    s.refused peer + s.waiting peer
      = s.found peer + linesTo s.dropped peer + linesTo s.dialer.parked peer := by
  have hcallers := balance_callers kept.sound peer
  have hlines : linesTo (s.dialer.parked ++ s.dropped ++ s.taken) peer = linesTo s.made peer :=
    kept.dealt.countP_eq _
  unfold refused waiting found
  unfold linesTo at *
  rw [List.countP_append, List.countP_append] at hlines
  unfold made taken at hlines
  omega

/-- A line that is parked has a caller that is about to take it. -/
theorem Kept.exists_waiting (kept : Kept s) {peer : String} (h : 0 < linesTo s.dialer.parked peer) :
    ∃ b ∈ s.callers, b.isWaiting peer := by
  obtain ⟨x, hx, hpeer⟩ := List.countP_pos_iff.mp h
  obtain ⟨b, hb, hconnected, htarget⟩ := kept.awaited x hx
  exact ⟨b, hb, decide_eq_true ⟨hconnected, htarget.trans (of_decide_eq_true hpeer)⟩⟩

theorem Kept.linesTo_le_one (kept : Kept s) (peer : String) : linesTo s.dialer.parked peer ≤ 1 := by
  have hcount := List.nodup_iff_count_le_one.mp kept.single peer
  rw [List.count_eq_countP, List.countP_map] at hcount
  refine Nat.le_trans (Nat.le_of_eq (List.countP_congr fun x _ => ?_)) hcount
  simp

/-- Where nobody has found the connection of another, and none was closed, nobody is turned away. -/
theorem Kept.refused_eq_zero (kept : Kept s) {peer : String} (hfound : s.found peer = 0)
    (hdropped : linesTo s.dropped peer = 0) : s.refused peer = 0 := by
  have hbalance := kept.balance peer
  have hone := kept.linesTo_le_one peer
  by_cases hparked : 0 < linesTo s.dialer.parked peer
  · have hwaiting : 0 < s.waiting peer := List.countP_pos_iff.mpr (kept.exists_waiting hparked)
    omega
  · omega

/-! ## In turn -/

/-- No two callers of a peer are between their two questions at once. -/
def InTurn (s₀ : Switchboard) (ms : List Move) (peer : String) : Prop :=
  ∀ ms' s', ms' <+: ms → Run s₀ ms' s' → s'.underWay peer ≤ 1

theorem Moved.eq_of_isWaiting (h : Moved s m before c after turn s') {peer : String}
    (inTurn : s'.underWay peer ≤ 1) (underWay : turn.caller.isUnderWay peer) {b : Caller}
    (hb : b ∈ s.callers) (hwaiting : b.isWaiting peer) : b = c := by
  by_contra hne
  have hb' : b.isUnderWay peer := by
    obtain ⟨hstage, hpeer⟩ := of_decide_eq_true hwaiting
    simp [Caller.isUnderWay, hstage, hpeer]
  have hother : 0 < (before ++ after).countP (Caller.isUnderWay peer) :=
    List.countP_pos_iff.mpr ⟨b, h.mem_rest hb hne, hb'⟩
  unfold Switchboard.underWay at inTurn
  rw [h.callers', List.countP_append, List.countP_cons_of_pos underWay] at inTurn
  rw [List.countP_append] at hother
  omega

/-- In turn, a caller that comes to be under way finds nothing parked. -/
theorem Moved.linesTo_eq_zero (h : Moved s m before c after turn s') (kept : Kept s) {peer : String}
    (inTurn : s'.underWay peer ≤ 1) (underWay : turn.caller.isUnderWay peer)
    (notYet : c.isWaiting peer = false) : linesTo s.dialer.parked peer = 0 := by
  by_contra hparked
  obtain ⟨b, hb, hwaiting⟩ := kept.exists_waiting (Nat.pos_of_ne_zero hparked)
  rw [h.eq_of_isWaiting inTurn underWay hb hwaiting, notYet] at hwaiting
  cases hwaiting

theorem Moved.found_eq (h : Moved s m before c after turn s') (peer : String)
    (same : turn.caller.hasFound peer = c.hasFound peer) : s'.found peer = s.found peer := by
  unfold found
  rw [h.callers, h.callers', List.countP_append, List.countP_append, List.countP_cons,
    List.countP_cons, same]

theorem Moved.found_in_turn (h : Moved s m before c after turn s') (kept : Kept s) {peer : String}
    (inTurn : s'.underWay peer ≤ 1) : s'.found peer = s.found peer := by
  have hnone := h.linesTo_eq_zero kept inTurn
  have hsame := h.found_eq peer
  cases h.step with
  | @finds i stage parked =>
    by_cases hpeer : c.target.peer = peer
    · have hzero := hnone (by simp [Caller.isUnderWay, hpeer]) (by simp [Caller.isWaiting, stage])
      have hmem := (perm_of_lookup kept.single parked).symm.subset List.mem_cons_self
      have hfree := List.countP_eq_zero.mp hzero (c.target.peer, i) hmem
      exact absurd (decide_eq_true hpeer) hfree
    · exact hsame (by simp [Caller.hasFound, hpeer])
  | _ => exact hsame rfl

theorem Moved.dropped_in_turn (h : Moved s m before c after turn s') (kept : Kept s) {peer : String}
    (inTurn : s'.underWay peer ≤ 1) : linesTo s'.dropped peer = linesTo s.dropped peer := by
  have hnone := h.linesTo_eq_zero kept inTurn
  rw [h.dropped']
  cases h.step with
  | reaches stage answer =>
    have hheld : linesTo (s.dialer.heldFor c.target.peer) peer = 0 := by
      by_cases hpeer : c.target.peer = peer
      · have hzero := hnone (by simp [Caller.isUnderWay, hpeer]) (by simp [Caller.isWaiting, stage])
        exact Nat.eq_zero_of_le_zero (hzero ▸ List.filter_sublist.countP_le)
      · refine List.countP_eq_zero.mpr fun x hx => ?_
        have hx' := of_decide_eq_true (List.mem_filter.mp hx).2
        simp [hx', hpeer]
    unfold linesTo at *
    rw [List.countP_append, hheld, Nat.add_zero]
  | _ => rw [List.append_nil]

/-- In turn, nobody finds the connection of another, and none is closed. -/
theorem Run.in_turn (run : Run (.start settings targets) ms s) {peer : String}
    (inTurn : InTurn (.start settings targets) ms peer) :
    s.found peer = 0 ∧ linesTo s.dropped peer = 0 := by
  -- turns are taken all along, so the last step was made in turn as well
  induction run with
  | start =>
    refine ⟨List.countP_eq_zero.mpr fun c hc => ?_, rfl⟩
    obtain ⟨t, -, rfl⟩ := List.mem_map.mp hc
    simp [Caller.hasFound, Caller.start]
  | @move ms m s s' run h ih =>
    obtain ⟨before, c, after, turn, hmoved⟩ := move_cases h
    have hbefore := ih fun ms' s' hms => inTurn ms' s' (hms.trans (List.prefix_append ms [m]))
    have hlast := inTurn _ _ List.prefix_rfl (run.move h)
    rw [hmoved.found_in_turn run.kept hlast, hmoved.dropped_in_turn run.kept hlast]
    exact hbefore

theorem Run.map_target (run : Run (.start settings targets) ms s) : s.callers.map (·.target) = targets := by
  induction run with
  | start =>
    rw [Switchboard.start, List.map_map]
    exact List.map_id targets
  | move run h ih =>
    obtain ⟨before, c, after, turn, hmoved⟩ := move_cases h
    rw [hmoved.callers'] at *
    rw [hmoved.callers] at ih
    rw [List.map_append, List.map_cons, hmoved.step.target, ← List.map_cons, ← List.map_append, ih]

/-- A caller that has its peer for itself is in turn. -/
theorem inTurn_of_single {peer : String} (single : targets.countP (·.peer = peer) ≤ 1) :
    InTurn (.start settings targets) ms peer := by
  intro ms' s' _ run
  rw [← run.map_target, List.countP_map] at single
  refine Nat.le_trans (List.countP_mono_left fun c _ hc => ?_) single
  exact decide_eq_true (of_decide_eq_true hc).2

/-! ## What becomes of the callers -/

theorem Run.spared (run : Run (.start settings targets) ms s)
    (obliging : ∀ m ∈ ms, m.answer.Obliging) : ∀ c ∈ s.callers, c.Spared := by
  induction run with
  | start =>
    intro c hc
    obtain ⟨t, -, rfl⟩ := List.mem_map.mp hc
    trivial
  | @move ms m s s' run h ih =>
    obtain ⟨before, c, after, turn, hmoved⟩ := move_cases h
    have hbefore := ih fun m' hm' => obliging m' (List.mem_append_left _ hm')
    intro b hb
    rcases hmoved.mem_cases hb with rfl | hb
    · exact hmoved.step.spared (obliging m (by simp)) (hbefore c hmoved.mem)
    · exact hbefore b hb

theorem Run.length_le (run : Run (.start settings targets) ms s) :
    ms.length + (s.callers.map (·.stepsLeft)).sum ≤ (targets.map (·.addresses.length + 3)).sum := by
  induction run with
  | start =>
    rw [Switchboard.start, List.map_map, List.length_nil, Nat.zero_add]
    exact Nat.le_refl _
  | @move ms m s s' run h ih =>
    obtain ⟨before, c, after, turn, hmoved⟩ := move_cases h
    have hless := hmoved.step.stepsLeft_lt
    rw [hmoved.callers] at ih
    rw [hmoved.callers', List.length_append, List.length_singleton]
    simp only [List.map_append, List.map_cons, List.sum_append, List.sum_cons] at *
    omega

/-- Nothing is left to do for any caller. -/
def AllDone (s : Switchboard) : Prop := ∀ c ∈ s.callers, c.isDone

theorem AllDone.waiting_eq_zero (h : s.AllDone) (peer : String) : s.waiting peer = 0 := by
  refine List.countP_eq_zero.mpr fun c hc hwaiting => ?_
  have hdone := h c hc
  rw [Caller.isDone, (of_decide_eq_true hwaiting).1] at hdone
  cases hdone

theorem Kept.parked_eq_nil (kept : Kept s) (h : s.AllDone) : s.dialer.parked = [] := by
  refine List.eq_nil_iff_forall_not_mem.mpr fun x hx => ?_
  obtain ⟨c, hc, hconnected, -⟩ := kept.awaited x hx
  have hdone := h c hc
  rw [Caller.isDone, hconnected] at hdone
  cases hdone

/-- How the connections of a dialer are dealt out to its callers. -/
structure Dealt (settings : Settings) (targets : List Target) (ms : List Move) (s : Switchboard) : Prop where
  /-- Every connection that was made to a peer is parked, closed unused, or taken for a stream to it. -/
  dealt : (s.dialer.parked ++ s.dropped ++ s.taken).Perm s.made
  /-- No two streams share a connection, and theirs are neither parked nor closed. -/
  apart : ((s.dialer.parked ++ s.dropped ++ s.taken).map (·.2)).Nodup
  /-- Whenever a step is left for a caller, it can be made; and there are only so many of them. -/
  goesOn : ∀ k c, s.callers[k]? = some c → c.isDone = false → ∀ a, ∃ s', s.move k a = some s'
  bounded : ms.length ≤ (targets.map (·.addresses.length + 3)).sum
  /-- In the end nothing is parked, and as many callers of a peer have been turned away as have found
  what another had parked, or have parked what was closed unused. -/
  ended : s.AllDone → s.dialer.parked = [] ∧
    ∀ peer, s.refused peer = s.found peer + linesTo s.dropped peer
  /-- Nothing else goes wrong, unless an address or a header does. -/
  spared : (∀ m ∈ ms, m.answer.Obliging) → ∀ c ∈ s.callers, c.isDone → c.target.addresses ≠ [] →
    c.stage = .streaming ∨ c.stage = .failed (.notConnected c.target.peer)
  /-- Nobody is turned away from a peer whose callers take turns. -/
  inTurn : ∀ peer, InTurn (.start settings targets) ms peer → s.refused peer = 0

/-- However the callers of a dialer come between one another. -/
theorem streams_apart (run : Run (.start settings targets) ms s) : Dealt settings targets ms s where
  dealt := run.kept.dealt
  apart := ((run.kept.dealt.map _).trans run.kept.numbered).nodup_iff.mpr List.nodup_range
  goesOn k c hc hdone a := by
    obtain ⟨turn, hturn⟩ := Caller.step_isSome (d := s.dialer) (a := a) hdone
    exact ⟨_, move_of_step hc hturn⟩
  bounded := Nat.le_trans (Nat.le_add_right _ _) run.length_le
  ended hdone := by
    have hparked := run.kept.parked_eq_nil hdone
    refine ⟨hparked, fun peer => ?_⟩
    have hbalance := run.kept.balance peer
    rw [hparked, hdone.waiting_eq_zero] at hbalance
    exact hbalance
  spared obliging c hc hdone haddresses := by
    have hspared := run.spared obliging c hc
    unfold Caller.Spared at hspared
    unfold Caller.isDone at hdone
    cases hstage : c.stage with
    | streaming => exact .inl rfl
    | failed f =>
      rw [hstage] at hspared
      rcases hspared with rfl | ⟨-, hnone⟩
      · exact .inr rfl
      · exact absurd hnone haddresses
    | asking | dialing _ _ | connected | greeting => rw [hstage] at hdone; cases hdone
  inTurn peer inTurn := by
    obtain ⟨hfound, hdropped⟩ := run.in_turn inTurn
    exact run.kept.refused_eq_zero hfound hdropped

/-- Steps of callers in some order, with every address reached and every header taken. -/
def steps (order : List Nat) : List Move := order.map (⟨·, ⟨fun _ => .ok (), .ok ()⟩⟩)

theorem steps_obliging (order : List Nat) : ∀ m ∈ steps order, m.answer.Obliging := by
  intro m hm
  obtain ⟨k, -, rfl⟩ := List.mem_map.mp hm
  exact ⟨fun _ => rfl, rfl⟩

/-- Where steps lead that can all be made, as far as the callers and the closed connections go. -/
theorem exists_run {order : List Nat} {stages : List Stage} {dropped : List Line}
    (h : (s₀.follow (steps order)).map (fun s => (s.callers.map (·.stage), s.dropped))
      = some (stages, dropped)) :
    ∃ s, Run s₀ (steps order) s ∧ s.callers.map (·.stage) = stages ∧ s.dropped = dropped := by
  obtain ⟨s, hs, h⟩ := Option.map_eq_some_iff.mp h
  exact ⟨s, run_of_follow hs, congrArg Prod.fst h, congrArg Prod.snd h⟩

/-- Two callers of `p`, of which the second finds what the first has parked, two of `q` that dial at
once, and one of `r`, which has its peer for itself. -/
theorem streams_apart_crowd :
    let targets : List Target := ["p", "p", "q", "q", "r"].map (⟨·, ["127.0.0.1:4001"]⟩)
    let ms := steps [0, 0, 2, 1, 3, 0, 2, 4, 1, 3, 3, 0, 4, 2, 4, 3, 4]
    ∃ s, Run (.start {} targets) ms s ∧ Dealt {} targets ms s ∧
      s.callers.map (·.stage) = [.streaming, .failed (.notConnected "p"), .failed (.notConnected "q"),
        .streaming, .streaming] ∧
      s.dropped = [("q", 1)] ∧ InTurn (.start {} targets) ms "r" := by
  intro targets ms
  obtain ⟨s, run, hstages, hdropped⟩ : ∃ s, Run (.start {} targets) ms s ∧
      s.callers.map (·.stage) = [.streaming, .failed (.notConnected "p"), .failed (.notConnected "q"),
        .streaming, .streaming] ∧ s.dropped = [("q", 1)] :=
    exists_run (by decide +kernel)
  exact ⟨s, run, streams_apart run, hstages, hdropped, inTurn_of_single (by decide +kernel)⟩

/-- Both have a connection to dial, and nothing fails, but there is a stream for one of them only: the
second finds what the first has parked, or parks over it. -/
theorem second_turned_away :
    let targets : List Target := List.replicate 2 ⟨"p", ["127.0.0.1:4001"]⟩
    (∀ order, ∀ m ∈ steps order, m.answer.Obliging) ∧
    (∃ s, Run (.start {} targets) (steps [0, 0, 1, 0, 0, 1]) s ∧
      s.callers.map (·.stage) = [.streaming, .failed (.notConnected "p")] ∧ s.dropped = []) ∧
    (∃ s, Run (.start {} targets) (steps [0, 1, 0, 1, 0, 0, 1]) s ∧
      s.callers.map (·.stage) = [.streaming, .failed (.notConnected "p")] ∧ s.dropped = [("p", 0)]) :=
  ⟨steps_obliging, exists_run (by decide +kernel), exists_run (by decide +kernel)⟩

end Switchboard

end TraceRelay.Tcp
