import TraceRelay.Proofs.Connector.Pool
import TraceRelay.Proofs.Connector.Tracked

/-!
# An opening of a pool goes on as if it were alone

To one opening of a pool the rest of the pool is someone else who uses the host. So what is known of an
opening by itself (`Tracked`) is known of each opening of a pool.

1. `Turned.mem_own`, `Turned.mem_other`: the step of one opening leaves all others as they were.
2. `Shows`: a pool shows an opening, under way or ended, as a bid has it.
3. `Mirrored.move`: with every move of the pool the bid makes one of its own, or stands still.
   `Run.mirrored`: every opening of a pool has such a bid.
-/

namespace TraceRelay.Connector

variable {c : Connector} {cancelled stopped : Bool} {net : Net} {o : Opening} {turn : Opening.Turn}

/-- No time passes in a step. -/
theorem Step.clock (h : Step c cancelled stopped net o turn) : turn.net.clock = net.clock := by
  cases h with
  | @call errand => cases errand <;> rfl
  | @answer errand deadline t answer => cases answer <;> rfl
  | fail => rw [(c.retreat_cases stopped net _ _).1]
  | cancel | timeout | stop | retry => rfl

/-- A step adds to the record of calls. -/
theorem Step.calls (h : Step c cancelled stopped net o turn) :
    ∃ new, turn.net.calls.toList = net.calls.toList ++ new := by
  cases h with
  | @call errand => cases errand <;> exact ⟨_, Array.toList_push ..⟩
  | retry => exact ⟨_, Array.toList_push ..⟩
  | @answer errand deadline t answer => cases answer <;> exact ⟨[], (List.append_nil _).symm⟩
  | fail =>
    rw [(c.retreat_cases stopped net _ _).1]
    exact ⟨[], (List.append_nil _).symm⟩
  | cancel | timeout | stop => exact ⟨[], (List.append_nil _).symm⟩

namespace Pool

variable {p p' : Pool} {k j : Nat} {ms : List Move} {calls : List (Nat × Call)}
  {tried : Nat → List Attempt}

/-! ## Numbers -/

/-- The calls of opening `k`. -/
def callsOf (k : Nat) (calls : List (Nat × Call)) : List Call :=
  (calls.filter (·.1 = k)).map Prod.snd

@[simp] theorem callsOf_append (k : Nat) (calls new : List (Nat × Call)) :
    callsOf k (calls ++ new) = callsOf k calls ++ callsOf k new := by
  simp [callsOf]

theorem callsOf_own (k : Nat) (new : List Call) : callsOf k (new.map (k, ·)) = new := by
  simp [callsOf, List.filter_map, Function.comp_def]

theorem callsOf_other (h : j ≠ k) (new : List Call) : callsOf k (new.map (j, ·)) = [] := by
  simp [callsOf, List.filter_map, Function.comp_def, h]

/-- Each opening has a number of its own. -/
structure Numbered (p : Pool) : Prop where
  nodup : (p.openings.map Prod.fst).Nodup
  below : ∀ x ∈ p.openings, x.1 < p.begun
  ended : ∀ e ∈ p.ended.toList, e.number < p.begun

section

variable (h : Turned p k o turn p') (distinct : Numbered p)
include h distinct

theorem Turned.parts : ∃ others, p.openings.Perm ((k, o) :: others) ∧ (∀ x ∈ others, x.1 ≠ k) ∧
    p'.openings.Perm
      (if turn.opening.result?.isNone then (k, turn.opening) :: others else others) := by
  obtain ⟨others, hbefore, hafter⟩ := h.openings
  refine ⟨others, hbefore, ?_, hafter⟩
  have hnodup := (hbefore.map Prod.fst).nodup_iff.mp distinct.nodup
  rw [List.map_cons, List.nodup_cons] at hnodup
  intro x hx heq
  exact hnodup.1 (List.mem_map.mpr ⟨x, hx, heq⟩)

theorem Turned.mem_own (x : Opening) :
    ((k, x) ∈ p.openings ↔ x = o) ∧
      ((k, x) ∈ p'.openings ↔ turn.opening.result? = none ∧ x = turn.opening) := by
  obtain ⟨others, hbefore, hothers, hafter⟩ := h.parts distinct
  have hnot : (k, x) ∉ others := fun hx => hothers _ hx rfl
  rw [hbefore.mem_iff, hafter.mem_iff]
  constructor
  · simp [hnot]
  · cases hresult : turn.opening.result? <;> simp [hnot]

theorem Turned.mem_other (other : j ≠ k) (x : Opening) :
    (j, x) ∈ p'.openings ↔ (j, x) ∈ p.openings := by
  obtain ⟨others, hbefore, -, hafter⟩ := h.parts distinct
  rw [hbefore.mem_iff, hafter.mem_iff]
  cases hresult : turn.opening.result? <;> simp [other]

omit distinct in
theorem Turned.mem_ended (e : Ended) : e ∈ p'.ended.toList ↔ e ∈ p.ended.toList ∨
    ∃ result, turn.opening.result? = some result ∧ e = ⟨k, turn.net.clock, result⟩ := by
  rw [h.ended]
  cases turn.opening.result? <;> simp

theorem Turned.numbered : Numbered p' := by
  obtain ⟨others, hbefore, hothers, hafter⟩ := h.parts distinct
  have hnodup := (hbefore.map Prod.fst).nodup_iff.mp distinct.nodup
  rw [List.map_cons, List.nodup_cons] at hnodup
  have hk : k < p.begun := distinct.below (k, o) (hbefore.mem_iff.mpr List.mem_cons_self)
  have hbelow : ∀ x ∈ others, x.1 < p.begun := fun x hx =>
    distinct.below x (hbefore.mem_iff.mpr (List.mem_cons_of_mem _ hx))
  refine ⟨?_, ?_, ?_⟩
  · rw [(hafter.map Prod.fst).nodup_iff]
    cases turn.opening.result? with
    | none => exact List.nodup_cons.mpr hnodup
    | some result => exact hnodup.2
  · intro x hx
    rw [h.begun]
    rw [hafter.mem_iff] at hx
    cases hresult : turn.opening.result? with
    | none =>
      rw [hresult] at hx
      rcases List.mem_cons.mp hx with rfl | hx
      · exact hk
      · exact hbelow x hx
    | some result =>
      rw [hresult] at hx
      exact hbelow x hx
  · intro e he
    rw [h.begun]
    rcases (h.mem_ended e).mp he with he | ⟨result, -, rfl⟩
    · exact distinct.ended e he
    · exact hk

end

theorem Numbered.begin (h : Numbered p) : Numbered p.begin where
  nodup := by
    have hnew : p.begun ∉ p.openings.map Prod.fst := by
      intro hmem
      obtain ⟨x, hx, heq⟩ := List.mem_map.mp hmem
      have := h.below x hx
      omega
    show ((p.openings ++ [(p.begun, Opening.start)]).map Prod.fst).Nodup
    rw [List.map_append, List.nodup_append]
    refine ⟨h.nodup, List.pairwise_singleton _ _, ?_⟩
    intro x hx y hy heq
    rw [List.map_singleton, List.mem_singleton] at hy
    rw [heq, hy] at hx
    exact hnew hx
  below := by
    intro x hx
    show x.1 < p.begun + 1
    rcases List.mem_append.mp hx with hx | hx
    · exact Nat.lt_succ_of_lt (h.below x hx)
    · rw [List.mem_singleton.mp hx]
      exact Nat.lt_succ_self _
  ended := fun e he => Nat.lt_succ_of_lt (h.ended e he)

theorem Numbered.move {m : Move} (h : Numbered p) (hmove : p.move m = some p') : Numbered p' := by
  cases m with
  | begin =>
    cases hmove
    exact h.begin
  | cancel | stop =>
    cases hmove
    exact ⟨h.nodup, h.below, h.ended⟩
  | advance t =>
    obtain ⟨-, rfl⟩ := move_advance hmove
    exact ⟨h.nodup, h.below, h.ended⟩
  | work =>
    obtain ⟨k, o, turn, hturned⟩ := move_work hmove
    exact hturned.numbered h

/-- What does not change, or only by its own moves. -/
structure Settings (c : Connector) (ms : List Move) (p : Pool) : Prop where
  connector : p.connector = c
  cancelled : p.cancelled = true → .cancel ∈ ms
  stopped : p.stopped = true → .stop ∈ ms

theorem Settings.move {m : Move} (h : Settings c ms p) (hmove : p.move m = some p') :
    Settings c (ms ++ [m]) p' := by
  have hcancelled := fun flag => List.mem_append_left [m] (h.cancelled flag)
  have hstopped := fun flag => List.mem_append_left [m] (h.stopped flag)
  cases m with
  | begin =>
    cases hmove
    exact ⟨h.connector, hcancelled, hstopped⟩
  | cancel =>
    cases hmove
    exact ⟨h.connector, fun _ => List.mem_append_right _ List.mem_cons_self, hstopped⟩
  | stop =>
    cases hmove
    exact ⟨h.connector, hcancelled, fun _ => List.mem_append_right _ List.mem_cons_self⟩
  | advance t =>
    obtain ⟨-, rfl⟩ := move_advance hmove
    exact ⟨h.connector, hcancelled, hstopped⟩
  | work =>
    obtain ⟨k, o, turn, hturned⟩ := move_work hmove
    rw [← hturned.cancelled] at hcancelled
    rw [← hturned.stopped] at hstopped
    exact ⟨hturned.connector.trans h.connector, hcancelled, hstopped⟩

/-! ## One opening -/

/-- Pool `p` has opening `k` as bid `b` has it, under way or ended. -/
inductive Shows (p : Pool) (k : Nat) (b : Bid) : Prop where
  | going (under_way : b.opening.result? = none) (opening : ∀ o, (k, o) ∈ p.openings ↔ o = b.opening)
      (net : b.net = p.net) (cancelled : b.cancelled = p.cancelled) (stopped : b.stopped = p.stopped)
      (not_ended : ∀ e ∈ p.ended.toList, e.number ≠ k)
  | ended {t : Nat} {result : Except OpenFailure Nat} (done : b.opening.result? = some result)
      (gone : ∀ o, (k, o) ∉ p.openings)
      (ended : ∀ e, e ∈ p.ended.toList ∧ e.number = k ↔ e = ⟨k, t, result⟩)

/-- Opening `k` of a pool has come about as that of a bid. -/
def Mirrored (c : Connector) (ms : List Move) (calls : List (Nat × Call))
    (tried : Nat → List Attempt) (p : Pool) (k : Nat) : Prop :=
  ∃ net own b, Connector.Run c (.start net) own (callsOf k calls) (tried k) b ∧
    (.cancel ∈ own → .cancel ∈ ms) ∧ (.stop ∈ own → .stop ∈ ms) ∧ Shows p k b

/-- Opening `k` is in `p'` what it is in `p`. -/
structure Spares (k : Nat) (p p' : Pool) : Prop where
  openings : ∀ o, (k, o) ∈ p'.openings ↔ (k, o) ∈ p.openings
  ended : ∀ e : Ended, e.number = k → (e ∈ p'.ended.toList ↔ e ∈ p.ended.toList)

/-- What bid `b` does when the pool makes a move that is not one of its opening. -/
structure Aside (c : Connector) (m : Move) (p' : Pool) (b b' : Bid) (m' : Connector.Move) : Prop where
  move : b.move c m' = some b'
  idle : m' ≠ .work
  opening : b'.opening = b.opening
  net : b'.net = p'.net
  cancelled : b'.cancelled = p'.cancelled
  stopped : b'.stopped = p'.stopped
  cancels : m' = .cancel → m = .cancel
  stops : m' = .stop → m = .stop

theorem Shows.aside {b b' : Bid} (h : Shows p k b) (spares : Spares k p p')
    (under_way : b.opening.result? = none) (opening : b'.opening = b.opening) (net : b'.net = p'.net)
    (cancelled : b'.cancelled = p'.cancelled) (stopped : b'.stopped = p'.stopped) :
    Shows p' k b' := by
  cases h with
  | going _ hopening _ _ _ not_ended =>
    refine .going (opening ▸ under_way) ?_ net cancelled stopped ?_
    · intro o
      rw [spares.openings, opening]
      exact hopening o
    · intro e he hk
      exact not_ended e ((spares.ended e hk).mp he) hk
  | ended done =>
    rw [under_way] at done
    cases done

theorem Shows.stay {b : Bid} {result : Except OpenFailure Nat} (h : Shows p k b)
    (spares : Spares k p p') (done : b.opening.result? = some result) : Shows p' k b := by
  cases h with
  | going under_way =>
    rw [done] at under_way
    cases under_way
  | @ended t _ done' gone ended =>
    refine .ended (t := t) done' (fun o ho => gone o ((spares.openings o).mp ho)) fun e => ?_
    rw [← ended]
    exact and_congr_left fun hk => spares.ended e hk

/-- A move that is not one of opening `k`. -/
theorem Mirrored.aside {m : Move} {new : List (Nat × Call)} {tried' : Nat → List Attempt}
    (h : Mirrored c ms calls tried p k) (spares : Spares k p p') (none_made : callsOf k new = [])
    (none_tried : tried' k = tried k)
    (follow : ∀ b : Bid, b.net = p.net → b.cancelled = p.cancelled → b.stopped = p.stopped →
      (k, b.opening) ∈ p.openings → ∃ b' m', Aside c m p' b b' m') :
    Mirrored c (ms ++ [m]) (calls ++ new) tried' p' k := by
  obtain ⟨net, own, b, r, hcancel, hstop, hshows⟩ := h
  rw [Mirrored, callsOf_append, none_made, List.append_nil, none_tried]
  cases hresult : b.opening.result? with
  | some result =>
    refine ⟨net, own, b, r, ?_, ?_, ?_⟩
    · exact fun hmem => List.mem_append_left _ (hcancel hmem)
    · exact fun hmem => List.mem_append_left _ (hstop hmem)
    · exact hshows.stay spares hresult
  | none =>
    obtain ⟨b', m', hb'⟩ : ∃ b' m', Aside c m p' b b' m' := by
      cases hshows with
      | going under_way hopening hnet hcancelled hstopped =>
        exact follow b hnet hcancelled hstopped ((hopening _).mpr rfl)
      | ended done =>
        rw [hresult] at done
        cases done
    have hmade : b.made c m' = [] := by
      cases m' with
      | work => exact absurd rfl hb'.idle
      | _ => rfl
    have hnote : c.note b (tried k) m' = tried k := by
      cases m' with
      | work => exact absurd rfl hb'.idle
      | _ => rfl
    have hrun := r.move hb'.move
    rw [hmade, hnote, List.append_nil] at hrun
    refine ⟨net, own ++ [m'], b', hrun, ?_, ?_, ?_⟩
    · intro hmem
      rcases List.mem_append.mp hmem with hmem | hmem
      · exact List.mem_append_left _ (hcancel hmem)
      · rw [hb'.cancels (List.mem_singleton.mp hmem).symm]
        exact List.mem_append_right _ List.mem_cons_self
    · intro hmem
      rcases List.mem_append.mp hmem with hmem | hmem
      · exact List.mem_append_left _ (hstop hmem)
      · rw [hb'.stops (List.mem_singleton.mp hmem).symm]
        exact List.mem_append_right _ List.mem_cons_self
    · exact hshows.aside spares hresult hb'.opening hb'.net hb'.cancelled hb'.stopped

theorem Turned.note_own (turned : Turned p k o turn p') (tried : Nat → List Attempt) :
    p.note tried .work k = noteTurn (p.bid o) turn (tried k) := by
  rw [note, turned.actor]
  exact if_pos rfl

theorem Turned.note_other (turned : Turned p k o turn p') (other : j ≠ k) (tried : Nat → List Attempt) :
    p.note tried .work j = tried j := by
  rw [note, turned.actor]
  exact if_neg other

theorem Turned.made_own (turned : Turned p k o turn p') :
    p.made .work = (turn.net.calls.toList.drop p.net.calls.size).map (k, ·) := by
  rw [made, turned.actor]

/-- The opening makes a step. -/
theorem Mirrored.turned (h : Mirrored c ms calls tried p k) (settings : Settings c ms p)
    (distinct : Numbered p) (turned : Turned p k o turn p') :
    Mirrored c (ms ++ [.work]) (calls ++ p.made .work) (p.note tried .work) p' k := by
  obtain ⟨net, own, b, r, hcancel, hstop, hshows⟩ := h
  have hmem := fun x => turned.mem_own distinct x
  cases hshows with
  | ended done gone => exact absurd ((hmem o).1.mpr rfl) (gone o)
  | going under_way hopening hnet hcancelled hstopped not_ended =>
    have ho : b.opening = o := ((hmem _).1.mp ((hopening _).mpr rfl))
    have hstep : b.step c = some turn := by
      rw [Bid.step, hcancelled, hstopped, hnet, ho, ← settings.connector]
      exact turned.step
    have hmove : b.move c .work = some (b.turned turn) := by
      rw [Bid.move, hstep]
      rfl
    have hmade : callsOf k (p.made .work) = b.made c .work := by
      rw [turned.made_own, Bid.made, hstep, hnet]
      exact callsOf_own _ _
    have hnote : p.note tried .work k = c.note b (tried k) .work := by
      rw [turned.note_own, Connector.note, hstep]
      show _ = noteTurn b turn (tried k)
      rw [noteTurn, noteTurn, hcancelled, hnet, ho]
      rfl
    have hrun := r.move hmove
    rw [Mirrored, callsOf_append, hmade, hnote]
    refine ⟨net, own ++ [.work], b.turned turn, hrun, ?_, ?_, ?_⟩
    · simpa using hcancel
    · simpa using hstop
    · have hended := fun e => turned.mem_ended e
      cases hresult : turn.opening.result? with
      | none =>
        refine .going hresult (fun x => ?_) turned.net.symm ?_ ?_ fun e he => ?_
        · rw [(hmem x).2]
          exact and_iff_right hresult
        · exact hcancelled.trans turned.cancelled.symm
        · exact hstopped.trans turned.stopped.symm
        · rcases (hended e).mp he with he | ⟨result, hsome, -⟩
          · exact not_ended e he
          · rw [hresult] at hsome
            cases hsome
      | some result =>
        refine .ended (t := turn.net.clock) hresult (fun x hx => ?_) fun e => ?_
        · have hnone := ((hmem x).2.mp hx).1
          rw [hresult] at hnone
          cases hnone
        · rw [hended e]
          constructor
          · rintro ⟨he | ⟨result', hsome, rfl⟩, hk⟩
            · exact absurd hk (not_ended e he)
            · rw [hresult] at hsome
              cases hsome
              rfl
          · rintro rfl
            exact ⟨.inr ⟨result, hresult, rfl⟩, rfl⟩

/-- Another opening makes a step. -/
theorem Turned.spares (turned : Turned p j o turn p') (distinct : Numbered p) (other : k ≠ j) :
    Spares k p p' where
  openings := turned.mem_other distinct other
  ended := by
    intro e hk
    rw [turned.mem_ended e]
    constructor
    · rintro (he | ⟨result, -, rfl⟩)
      · exact he
      · exact absurd hk.symm other
    · exact .inl

/-- Nothing can be done if no opening can make a step. -/
theorem stepFrom_eq_none {before rest : List (Nat × Opening)} :
    p.stepFrom before rest = none ↔ ∀ x ∈ rest, p.stepOf x.2 = none := by
  induction rest generalizing before with
  | nil => exact ⟨fun _ => List.forall_mem_nil _, fun _ => rfl⟩
  | cons x rest ih =>
    obtain ⟨k, o⟩ := x
    rw [stepFrom, List.forall_mem_cons]
    cases hstep : p.stepOf o with
    | some turn => simp
    | none => simp [ih]

/-- A time that all that is due allows is allowed by each. -/
theorem due_of_all {t d : Nat} (all : (Clocked.due p).all (t ≤ ·) = true) {x : Nat × Opening}
    (mem : x ∈ p.openings) (due : x.2.due = some d) : t ≤ d := by
  have hd : d ∈ p.openings.filterMap (·.2.due) := List.mem_filterMap.mpr ⟨x, mem, due⟩
  rw [show Clocked.due p = (p.openings.filterMap (·.2.due)).min? from rfl] at all
  cases hmin : (p.openings.filterMap (·.2.due)).min? with
  | none =>
    rw [List.min?_eq_none_iff] at hmin
    rw [hmin] at hd
    cases hd
  | some m =>
    rw [hmin] at all
    have hle : m ≤ d := (List.min?_eq_some_iff.mp hmin).2 d hd
    exact (of_decide_eq_true all).trans hle

/-- Others use the host. -/
theorem aside_others {m : Move} {b : Bid} (clock : p'.net.clock = b.net.clock)
    (cancelled : b.cancelled = p'.cancelled) (stopped : b.stopped = p'.stopped) :
    Aside c m p' b { b with net := p'.net } (.others p'.net) where
  move := if_pos clock
  idle := by simp
  opening := rfl
  net := rfl
  cancelled := cancelled
  stopped := stopped
  cancels := by simp
  stops := by simp

/-- Time goes on for one opening when it does so for all. -/
theorem aside_advance {t : Nat} {b : Bid} (settings : Settings c ms p)
    (mem : (k, b.opening) ∈ p.openings) (net : b.net = p.net) (cancelled : b.cancelled = p.cancelled)
    (stopped : b.stopped = p.stopped) (idle : (Clocked.step p).isNone) (later : p.net.clock ≤ t)
    (due : (Clocked.due p).all (t ≤ ·) = true) :
    Aside c (.advance t) (Clocked.advance p t) b { b with net := { b.net with clock := t } }
      (.advance t) where
  move := by
    have hquiet : b.step c = none := by
      rw [Bid.step, cancelled, stopped, net, ← settings.connector]
      exact stepFrom_eq_none.mp (Option.isNone_iff_eq_none.mp idle) _ mem
    refine if_pos ⟨Option.isNone_iff_eq_none.mpr hquiet, net ▸ later, ?_⟩
    rw [Option.all_eq_true]
    exact fun d hd => decide_eq_true (due_of_all due mem hd)
  idle := by simp
  opening := rfl
  net := by
    show { b.net with clock := t } = { p.net with clock := t }
    rw [net]
  cancelled := cancelled
  stopped := stopped
  cancels := by simp
  stops := by simp

/-- **With every move of the pool the bid makes one of its own**, or stands still. -/
theorem Mirrored.move {m : Move} (h : Mirrored c ms calls tried p k) (settings : Settings c ms p)
    (distinct : Numbered p) (begun : k < p.begun) (hmove : p.move m = some p') :
    Mirrored c (ms ++ [m]) (calls ++ p.made m) (p.note tried m) p' k := by
  cases m with
  | begin =>
    cases hmove
    have hspares : Spares k p p.begin := by
      refine ⟨fun o => ?_, fun _ _ => .rfl⟩
      have hk : k ≠ p.begun := by omega
      show (k, o) ∈ p.openings ++ [(p.begun, Opening.start)] ↔ _
      simp [hk]
    refine h.aside hspares rfl rfl fun b hnet hcancelled hstopped _ => ?_
    exact ⟨_, _, aside_others (hnet ▸ rfl) hcancelled hstopped⟩
  | cancel =>
    cases hmove
    refine h.aside ⟨fun _ => .rfl, fun _ _ => .rfl⟩ rfl rfl fun b hnet hcancelled hstopped _ => ?_
    exact ⟨{ b with cancelled := true }, .cancel, {
      move := rfl
      idle := by simp
      opening := rfl
      net := hnet
      cancelled := rfl
      stopped := hstopped
      cancels := fun _ => rfl
      stops := by simp }⟩
  | stop =>
    cases hmove
    refine h.aside ⟨fun _ => .rfl, fun _ _ => .rfl⟩ rfl rfl fun b hnet hcancelled hstopped _ => ?_
    exact ⟨{ b with stopped := true }, .stop, {
      move := rfl
      idle := by simp
      opening := rfl
      net := hnet
      cancelled := hcancelled
      stopped := rfl
      cancels := by simp
      stops := fun _ => rfl }⟩
  | advance t =>
    obtain ⟨⟨hidle, hlater, hdue⟩, rfl⟩ := move_advance hmove
    refine h.aside ⟨fun _ => .rfl, fun _ _ => .rfl⟩ rfl rfl fun b hnet hcancelled hstopped hmem => ?_
    exact ⟨_, _, aside_advance settings hmem hnet hcancelled hstopped hidle hlater hdue⟩
  | work =>
    obtain ⟨j, o, turn, hturned⟩ := move_work hmove
    by_cases hj : k = j
    · subst hj
      exact h.turned settings distinct hturned
    · have hmade : callsOf k (p.made .work) = [] := by
        rw [made, hturned.actor]
        exact callsOf_other (Ne.symm hj) _
      have hnote : p.note tried .work k = tried k := by
        rw [note, hturned.actor]
        exact if_neg hj
      refine h.aside (hturned.spares distinct hj) hmade hnote fun b hnet hcancelled hstopped _ => ?_
      have hclock : p'.net.clock = b.net.clock := by
        rw [hturned.net, hnet]
        exact (step_cases hturned.step).clock
      exact ⟨_, _, aside_others hclock (hcancelled.trans hturned.cancelled.symm)
        (hstopped.trans hturned.stopped.symm)⟩

/-! ## All openings -/

/-- An opening that has not begun has done nothing. -/
def Untried (calls : List (Nat × Call)) (tried : Nat → List Attempt) (p : Pool) : Prop :=
  ∀ k, p.begun ≤ k → callsOf k calls = [] ∧ tried k = []

theorem Untried.move {m : Move} (h : Untried calls tried p) (distinct : Numbered p)
    (hmove : p.move m = some p') : Untried (calls ++ p.made m) (p.note tried m) p' := by
  intro k hk
  rw [callsOf_append]
  cases m with
  | begin =>
    cases hmove
    have hbegun : p.begun + 1 ≤ k := hk
    obtain ⟨hcalls, htried⟩ := h k (by omega)
    rw [hcalls]
    exact ⟨rfl, htried⟩
  | cancel | stop =>
    cases hmove
    obtain ⟨hcalls, htried⟩ := h k hk
    rw [hcalls]
    exact ⟨rfl, htried⟩
  | advance t =>
    obtain ⟨-, rfl⟩ := move_advance hmove
    obtain ⟨hcalls, htried⟩ := h k hk
    rw [hcalls]
    exact ⟨rfl, htried⟩
  | work =>
    obtain ⟨j, o, turn, hturned⟩ := move_work hmove
    rw [hturned.begun] at hk
    have hj : j < p.begun := distinct.below (j, o) ((hturned.mem_own distinct o).1.mpr rfl)
    obtain ⟨hcalls, htried⟩ := h k hk
    rw [hcalls, hturned.made_own, hturned.note_other (by omega)]
    exact ⟨callsOf_other (by omega) _, htried⟩

/-- An opening that begins is a bid that has done nothing, but may have been given its orders. -/
theorem mirrored_begin (settings : Settings c ms p) (distinct : Numbered p)
    (untried : Untried calls tried p) : Mirrored c (ms ++ [.begin]) calls tried p.begin p.begun := by
  obtain ⟨hcalls, htried⟩ := untried p.begun (Nat.le_refl _)
  have hrun : ∃ own,
      Connector.Run c (.start p.net) own [] [] ⟨p.net, p.cancelled, p.stopped, .start, 0⟩ ∧
      (.cancel ∈ own → p.cancelled = true) ∧ (.stop ∈ own → p.stopped = true) := by
    cases p.cancelled with
    | false =>
      cases p.stopped with
      | false => exact ⟨[], .start, nofun, nofun⟩
      | true => exact ⟨[.stop], .move .start rfl, by simp, fun _ => rfl⟩
    | true =>
      cases p.stopped with
      | false => exact ⟨[.cancel], .move .start rfl, fun _ => rfl, by simp⟩
      | true => exact ⟨[.cancel, .stop], .move (.move .start rfl) rfl, fun _ => rfl, fun _ => rfl⟩
  obtain ⟨own, hrun, hcancel, hstop⟩ := hrun
  rw [Mirrored, hcalls, htried]
  refine ⟨p.net, own, _, hrun, ?_, ?_, ?_⟩
  · exact fun hmem => List.mem_append_left _ (settings.cancelled (hcancel hmem))
  · exact fun hmem => List.mem_append_left _ (settings.stopped (hstop hmem))
  · refine .going rfl (fun o => ?_) rfl rfl rfl fun e he => ?_
    · have hnew : (p.begun, o) ∉ p.openings :=
        fun hmem => absurd (distinct.below _ hmem) (Nat.lt_irrefl _)
      show (p.begun, o) ∈ p.openings ++ [(p.begun, Opening.start)] ↔ _
      simp [hnew]
    · exact Nat.ne_of_lt (distinct.ended e he)

/-- What is known of a pool after some moves. -/
structure Known (c : Connector) (ms : List Move) (calls : List (Nat × Call))
    (tried : Nat → List Attempt) (p : Pool) : Prop where
  settings : Settings c ms p
  distinct : Numbered p
  untried : Untried calls tried p
  mirrored : ∀ k < p.begun, Mirrored c ms calls tried p k

theorem Known.move {m : Move} (h : Known c ms calls tried p) (hmove : p.move m = some p') :
    Known c (ms ++ [m]) (calls ++ p.made m) (p.note tried m) p' where
  settings := h.settings.move hmove
  distinct := h.distinct.move hmove
  untried := h.untried.move h.distinct hmove
  mirrored := by
    intro k hk
    by_cases hold : k < p.begun
    · exact (h.mirrored k hold).move h.settings h.distinct hold hmove
    -- only an opening that begins is new
    · cases m with
      | begin =>
        cases hmove
        have hk' : k < p.begun + 1 := hk
        rw [show k = p.begun by omega]
        have hbegin := mirrored_begin h.settings h.distinct h.untried
        rw [show calls ++ p.made .begin = calls from List.append_nil _]
        exact hbegin
      | cancel | stop =>
        cases hmove
        exact absurd hk hold
      | advance t =>
        obtain ⟨-, rfl⟩ := move_advance hmove
        exact absurd hk hold
      | work =>
        obtain ⟨j, o, turn, hturned⟩ := move_work hmove
        rw [hturned.begun] at hk
        exact absurd hk hold

/-- **Every opening of a pool goes on as one by itself.** -/
theorem Run.known (r : Run (.start c net) ms calls tried p) : Known c ms calls tried p := by
  induction r with
  | start =>
    refine ⟨⟨rfl, nofun, nofun⟩, ⟨List.nodup_nil, List.forall_mem_nil _, List.forall_mem_nil _⟩,
      fun _ _ => ⟨rfl, rfl⟩, ?_⟩
    intro k hk
    exact absurd hk (Nat.not_lt_zero k)
  | move _ hmove ih => exact ih.move hmove

end Pool

end TraceRelay.Connector
