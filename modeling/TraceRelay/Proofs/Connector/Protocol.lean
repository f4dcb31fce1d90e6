import Mathlib.Algebra.BigOperators.Group.Finset.Basic
import TraceRelay.Proofs.Connector.CallOrder
import TraceRelay.Proofs.Connector.Openings
import TraceRelay.Proofs.Connector.Progress

/-!
# What a connector keeps to

Whatever the host does, whenever openings begin and whenever they are cancelled or stopped, each opening
of a pool calls the host in order (`KeepsOrder`). `keeps_order` says it of every run.

1. `Known.tracked`: of each opening is known what is known of one by itself.
2. `Timely`: an opening ends with a stream at the time at which the stream is granted.
3. `Counts`: the failures that are counted are those of all openings.
4. `UnderWay.goes_on`: as long as there is an opening, something will be done. `alone_opens`: an opening
   that is alone gets a stream if the host grants one sooner or later.
-/

namespace TraceRelay.Connector.Pool

variable {c : Connector} {net : Net} {p p' : Pool} {k j : Nat} {ms : List Move}
  {calls : List (Nat × Call)} {tried : Nat → List Attempt} {o : Opening} {turn : Opening.Turn}

theorem Known.tracked (h : Known c ms calls tried p) (begun : k < p.begun) : ∃ net own b,
    Tracked c net own (callsOf k calls) (tried k) b ∧ (.cancel ∈ own → .cancel ∈ ms) ∧
      (.stop ∈ own → .stop ∈ ms) ∧ Shows p k b := by
  obtain ⟨net, own, b, r, hcancel, hstop, hshows⟩ := h.mirrored k begun
  exact ⟨net, own, b, r.tracked, hcancel, hstop, hshows⟩

/-- The opening that makes a step is under way. -/
theorem Known.actor (h : Known c ms calls tried p) (turned : Turned p k o turn p') : ∃ net own b,
    Tracked c net own (callsOf k calls) (tried k) b ∧ (.cancel ∈ own → .cancel ∈ ms) ∧
      b.opening = o ∧ b.step c = some turn ∧ (∀ e ∈ p.ended.toList, e.number ≠ k) ∧
      p.note tried .work k = noteTurn b turn (tried k) := by
  have hmem := (turned.mem_own h.distinct o).1.mpr rfl
  obtain ⟨net, own, b, htracked, hcancel, -, hshows⟩ := h.tracked (h.distinct.below _ hmem)
  cases hshows with
  | ended done gone => exact absurd hmem (gone o)
  | going under_way hopening hnet hcancelled hstopped not_ended =>
    have ho : b.opening = o := ((hopening o).mp hmem).symm
    refine ⟨net, own, b, htracked, hcancel, ho, ?_, not_ended, ?_⟩
    · rw [Bid.step, hcancelled, hstopped, hnet, ho, ← h.settings.connector]
      exact turned.step
    · rw [turned.note_own, noteTurn, noteTurn, hcancelled, hnet, ho]
      rfl

/-! ## The time at which an opening ends -/

/-- The attempt that opens a stream is over as the opening is. -/
theorem noteTurn_opened {tried : List Attempt} {b : Bid} {i : Nat} (step : b.step c = some turn)
    (stage : Stage c b.net.clock tried b.opening) (opened : turn.opening = .opened i) :
    ∃ a ∈ noteTurn b turn tried, a.errand = .stream ∧ a.over? = some (turn.net.clock, true) := by
  have hcases := step_cases step
  have hclock := hcases.clock
  generalize ho : b.opening = o at hcases stage
  cases hcases with
  | @answer errand deadline t answer going =>
    cases answer with
    | connected | refused => cases opened
    | stream plan =>
      cases stage with
      | @calling done a _ open_ reply suits =>
        refine ⟨{ a with over? := some (b.net.clock, true) }, ?_, suits _ _ rfl, ?_⟩
        · simp [noteTurn, going, ho, List.modifyLast_concat, opened, Opening.isFailed]
        · rw [hclock]
  | @call errand => cases errand <;> cases opened
  | @fail errand e =>
    rcases (c.retreat_cases b.stopped b.net errand e).2 with hopening | hopening
    · cases hopening.symm.trans opened
    · cases hopening.symm.trans opened
  | cancel | timeout | stop | retry => cases opened

/-- An opening with a stream has ended as the stream was granted. -/
def Timely (tried : Nat → List Attempt) (p : Pool) : Prop :=
  ∀ e ∈ p.ended.toList, ∀ i, e.result = .ok i →
    ∃ a ∈ tried e.number, a.errand = .stream ∧ a.over? = some (e.time, true)

theorem Timely.move {m : Move} (h : Timely tried p) (known : Known c ms calls tried p)
    (hmove : p.move m = some p') : Timely (p.note tried m) p' := by
  cases m with
  | begin | cancel | stop =>
    cases hmove
    exact h
  | advance t =>
    obtain ⟨-, rfl⟩ := move_advance hmove
    exact h
  | work =>
    obtain ⟨k, o, turn, hturned⟩ := move_work hmove
    obtain ⟨_, _, b, htracked, -, -, hstep, hnot_ended, hnote⟩ := known.actor hturned
    intro e he i hi
    rcases (hturned.mem_ended e).mp he with he | ⟨result, hresult, rfl⟩
    · rw [hturned.note_other (hnot_ended e he)]
      exact h e he i hi
    · rw [hnote]
      rw [show result = .ok i from hi] at hresult
      exact noteTurn_opened hstep htracked.stage (result?_eq_ok.mp hresult)

/-! ## The failures of all openings -/

/-- The failures counted are those of the attempts, but for those that are about to be. -/
def Counts (tried : Nat → List Attempt) (p : Pool) : Prop :=
  p.failures + p.openings.countP (·.2.isFailed) =
    ∑ k ∈ Finset.range p.begun, (tried k).countP Attempt.isFailure

/-- A step moves a failure from the attempts of its opening to the counter. -/
theorem Known.balance (h : Known c ms calls tried p) (going : .cancel ∉ ms)
    (turned : Turned p k o turn p') :
    turn.counted.toNat + turn.opening.isFailed.toNat + (tried k).countP Attempt.isFailure =
      o.isFailed.toNat + (p.note tried .work k).countP Attempt.isFailure := by
  obtain ⟨_, own, b, htracked, hcancel, ho, hstep, -, hnote⟩ := h.actor turned
  have hgoing : .cancel ∉ own := fun hmem => going (hcancel hmem)
  have hbefore := htracked.counted hgoing
  have hafter := (htracked.work hstep).counted (by simpa using hgoing)
  have hfailures : (b.turned turn).failures = b.failures + turn.counted.toNat := by
    cases hcounted : turn.counted <;> simp [Bid.turned, hcounted]
  have hopening : (b.turned turn).opening = turn.opening := rfl
  rw [ho] at hbefore
  rw [hfailures, hopening, ← hnote] at hafter
  omega

theorem Counts.turned (h : Counts tried p) (known : Known c ms calls tried p) (going : .cancel ∉ ms)
    (turned : Turned p k o turn p') : Counts (p.note tried .work) p' := by
  have hbalance := known.balance going turned
  obtain ⟨others, hbefore, -, hafter⟩ := turned.parts known.distinct
  have hk : k ∈ Finset.range p.begun := by
    rw [Finset.mem_range]
    exact known.distinct.below (k, o) (hbefore.mem_iff.mpr List.mem_cons_self)
  have hopenings : p.openings.countP (·.2.isFailed) =
      o.isFailed.toNat + others.countP (·.2.isFailed) := by
    rw [hbefore.countP_eq, List.countP_cons, Nat.add_comm]
    cases o.isFailed <;> rfl
  have hopenings' : p'.openings.countP (·.2.isFailed) =
      turn.opening.isFailed.toNat + others.countP (·.2.isFailed) := by
    rw [hafter.countP_eq]
    cases hresult : turn.opening.result? with
    | none =>
      rw [Option.isNone_none, if_pos rfl, List.countP_cons, Nat.add_comm]
      cases turn.opening.isFailed <;> rfl
    | some result =>
      have hnot : turn.opening.isFailed = false := by
        cases ho : turn.opening with
        | failed =>
          rw [ho] at hresult
          cases hresult
        | _ => rfl
      simp [hnot]
  -- the sums differ in the attempts of opening `k` only
  have hsum := Finset.add_sum_erase _ (fun j => (tried j).countP Attempt.isFailure) hk
  have hsum' := Finset.add_sum_erase _ (fun j => (p.note tried .work j).countP Attempt.isFailure) hk
  have hsame : ∑ j ∈ (Finset.range p.begun).erase k, (p.note tried .work j).countP Attempt.isFailure =
      ∑ j ∈ (Finset.range p.begun).erase k, (tried j).countP Attempt.isFailure := by
    refine Finset.sum_congr rfl fun j hj => ?_
    rw [turned.note_other (Finset.ne_of_mem_erase hj)]
  have hold : p.failures + p.openings.countP (·.2.isFailed) = _ := h
  show p'.failures + p'.openings.countP (·.2.isFailed) = ∑ j ∈ Finset.range p'.begun, _
  rw [turned.failures, hopenings', turned.begun]
  rw [hopenings] at hold
  omega

theorem Counts.move {m : Move} (h : Counts tried p) (known : Known c ms calls tried p)
    (going : .cancel ∉ ms) (hmove : p.move m = some p') : Counts (p.note tried m) p' := by
  cases m with
  | begin =>
    cases hmove
    have htried : tried p.begun = [] := (known.untried p.begun (Nat.le_refl _)).2
    show p.failures + (p.openings ++ [(p.begun, Opening.start)]).countP _ =
      ∑ j ∈ Finset.range (p.begun + 1), (tried j).countP Attempt.isFailure
    rw [List.countP_append, Finset.sum_range_succ, htried, ← h]
    rfl
  | cancel | stop =>
    cases hmove
    exact h
  | advance t =>
    obtain ⟨-, rfl⟩ := move_advance hmove
    exact h
  | work =>
    obtain ⟨k, o, turn, hturned⟩ := move_work hmove
    exact h.turned known going hturned

theorem Run.counts (r : Run (.start c net) ms calls tried p) (going : .cancel ∉ ms) :
    Counts tried p := by
  induction r with
  | start => rfl
  | move r hmove ih =>
    have hgoing : Move.cancel ∉ _ := fun hmem => going (List.mem_append_left _ hmem)
    exact (ih hgoing).move r.known hgoing hmove

theorem Run.timely (r : Run (.start c net) ms calls tried p) : Timely tried p := by
  induction r with
  | start => exact List.forall_mem_nil _
  | move r hmove ih => exact ih.move r.known hmove

/-! ## The record of the host -/

/-- The host sees the calls of the pool and no others. -/
theorem Run.record (r : Run (.start c net) ms calls tried p) :
    p.net.calls.toList = net.calls.toList ++ calls.map Prod.snd := by
  induction r with
  | start => exact (List.append_nil _).symm
  | @move ms calls tried p p' m r hmove ih =>
    rw [List.map_append, ← List.append_assoc, ← ih]
    cases m with
    | begin | cancel | stop =>
      cases hmove
      exact (List.append_nil _).symm
    | advance t =>
      obtain ⟨-, rfl⟩ := move_advance hmove
      exact (List.append_nil _).symm
    | work =>
      obtain ⟨k, o, turn, hturned⟩ := move_work hmove
      obtain ⟨new, hnew⟩ := (step_cases hturned.step).calls
      have hmade : (p.made .work).map Prod.snd = new := by
        rw [hturned.made_own, hnew, ← Array.length_toList, List.drop_left]
        simp [Function.comp_def]
      rw [hmade, hturned.net, hnew]

/-! ## Going on -/

/-- **As long as there is an opening, something will be done**, if not now then when the first is
due. -/
theorem UnderWay.goes_on (h : UnderWay p) (some_ : p.openings ≠ []) : (Clocked.step p).isSome ∨
    ∃ d, Clocked.due p = some d ∧ p.net.clock < d ∧ (Clocked.step (Clocked.advance p d)).isSome := by
  by_cases hidle : ∀ x ∈ p.openings, p.stepOf x.2 = none
  · right
    have hdue : ∀ x ∈ p.openings, ∃ d, x.2.due = some d ∧ p.net.clock < d ∧
        (p.connector.step p.cancelled p.stopped { p.net with clock := d } x.2).isSome := by
      intro x hx
      rcases p.connector.step_or_due p.cancelled p.stopped p.net (h x hx) with hstep | hdue
      · rw [show p.connector.step p.cancelled p.stopped p.net x.2 = none from hidle x hx] at hstep
        cases hstep
      · exact hdue
    obtain ⟨x₀, rest, hopenings⟩ := List.exists_cons_of_ne_nil some_
    cases hmin : (p.openings.filterMap (·.2.due)).min? with
    | none =>
      obtain ⟨d, hd, -⟩ := hdue x₀ (hopenings ▸ List.mem_cons_self)
      rw [List.min?_eq_none_iff, List.filterMap_eq_nil_iff] at hmin
      have hnone := hmin x₀ (hopenings ▸ List.mem_cons_self)
      rw [hd] at hnone
      cases hnone
    | some d =>
      obtain ⟨x, hx, hxd⟩ := List.mem_filterMap.mp (List.min?_eq_some_iff.mp hmin).1
      obtain ⟨d', hd', hlater, hstep⟩ := hdue x hx
      rw [hxd] at hd'
      cases hd'
      refine ⟨d, hmin, hlater, ?_⟩
      rw [Option.isSome_iff_ne_none]
      intro hnone
      have := stepFrom_eq_none.mp hnone x hx
      rw [show (Clocked.advance p d).stepOf x.2 =
        p.connector.step p.cancelled p.stopped { p.net with clock := d } x.2 from rfl] at this
      rw [this] at hstep
      cases hstep
  · left
    rw [Option.isSome_iff_ne_none]
    exact fun hnone => hidle (stepFrom_eq_none.mp hnone)

/-- Time, or a step of an opening. -/
def Move.IsOwn : Move → Prop
  | .work | .advance _ => True
  | _ => False

def Goes (p p' : Pool) : Prop := ∃ m : Move, m.IsOwn ∧ p.move m = some p'

/-- What a pool can come to with nobody's help. -/
abbrev Reaches : Pool → Pool → Prop := Relation.ReflTransGen Goes

/-- The one opening of a pool is that of a bid, or has ended as it has. -/
inductive Lone (c : Connector) (p : Pool) (b : Bid) : Prop where
  | going (connector : p.connector = c) (net : p.net = b.net) (cancelled : p.cancelled = b.cancelled)
      (stopped : p.stopped = b.stopped) (under_way : b.opening.result? = none)
      (openings : p.openings = [(0, b.opening)]) (ended : p.ended.toList = [])
  | ended {t : Nat} {result : Except OpenFailure Nat} (done : b.opening.result? = some result)
      (openings : p.openings = []) (ended : p.ended.toList = [⟨0, t, result⟩])

variable {b b' : Bid}

theorem Lone.work (h : Lone c p b) (step : b.step c = some turn) :
    ∃ p', p.move .work = some p' ∧ Lone c p' (b.turned turn) := by
  cases h with
  | ended done =>
    rw [result?_of_step step] at done
    cases done
  | going connector net cancelled stopped under_way openings ended =>
    have hstep : p.stepOf b.opening = some turn := by
      rw [stepOf, connector, net, cancelled, stopped]
      exact step
    have hturned : Turned p 0 b.opening turn (p.accept [] 0 turn []) :=
      turned_accept openings (List.forall_mem_nil _) hstep
    refine ⟨p.accept [] 0 turn [], ?_, ?_⟩
    · show p.stepFrom [] p.openings = _
      rw [openings, stepFrom, hstep]
    · obtain ⟨others, hbefore, hafter⟩ := hturned.openings
      have hothers : others = [] := by simpa [openings] using hbefore.length_eq
      have hended := hturned.ended
      rw [ended] at hended
      subst hothers
      cases hresult : turn.opening.result? with
      | none =>
        rw [hresult] at hafter hended
        exact .going (hturned.connector.trans connector) hturned.net (hturned.cancelled.trans cancelled)
          (hturned.stopped.trans stopped) hresult (List.perm_singleton.mp hafter) hended
      | some result =>
        rw [hresult] at hafter hended
        exact .ended hresult hafter.eq_nil hended

theorem Lone.goes (h : Lone c p b) (goes : b.Goes c b') : ∃ p', p.Reaches p' ∧ Lone c p' b' := by
  obtain ⟨m, hown, hmove⟩ := goes
  cases m with
  | work =>
    obtain ⟨turn, hstep, rfl⟩ := Option.map_eq_some_iff.mp hmove
    obtain ⟨p', hp', hlone⟩ := h.work hstep
    exact ⟨p', .single ⟨.work, trivial, hp'⟩, hlone⟩
  | advance t =>
    simp only [Bid.move] at hmove
    split at hmove
    · next can =>
      cases hmove
      obtain ⟨hidle, hlater, hdue⟩ := can
      cases h with
      | ended done openings ended => exact ⟨p, .refl, .ended done openings ended⟩
      | going connector net cancelled stopped under_way openings ended =>
        have hstep : p.stepOf b.opening = none := by
          rw [stepOf, connector, net, cancelled, stopped]
          exact Option.isNone_iff_eq_none.mp hidle
        have hadvance : p.move (.advance t) = some (Clocked.advance p t) := by
          refine if_pos ⟨?_, ?_, ?_⟩
          · show (p.stepFrom [] p.openings).isNone
            rw [openings, stepFrom, hstep]
            rfl
          · show p.net.clock ≤ t
            rw [net]
            exact hlater
          · show ((p.openings.filterMap (·.2.due)).min?).all (t ≤ ·)
            rw [openings]
            cases hd : b.opening.due with
            | none => simp [hd]
            | some d =>
              rw [hd] at hdue
              simpa [hd] using hdue
        refine ⟨Clocked.advance p t, .single ⟨.advance t, trivial, hadvance⟩, ?_⟩
        refine .going connector ?_ cancelled stopped under_way openings ended
        show { p.net with clock := t } = _
        rw [net]
    · cases hmove
  | cancel | stop | others => exact hown.elim

/-- **An opening that is alone gets a stream**, if the host grants one sooner or later. -/
theorem alone_opens (grants : Grants c net.connects net.streams) :
    ∃ p t i, (begin (.start c net)).Reaches p ∧ p.ended.toList = [⟨0, t, .ok i⟩] := by
  have hlone : Lone c (begin (.start c net)) (.start net) := .going rfl rfl rfl rfl rfl rfl rfl
  obtain ⟨b, i, hreaches, hopened⟩ := grants.reaches_opened (b := .start net) ⟨rfl, rfl⟩ rfl
  have hpool : ∃ p, (begin (.start c net)).Reaches p ∧ Lone c p b := by
    clear hopened
    induction hreaches with
    | refl => exact ⟨_, .refl, hlone⟩
    | tail _ hgoes ih =>
      obtain ⟨p, hp, hlone⟩ := ih
      obtain ⟨p', hp', hlone'⟩ := hlone.goes hgoes
      exact ⟨p', hp.trans hp', hlone'⟩
  obtain ⟨p, hp, hlone⟩ := hpool
  cases hlone with
  | going _ _ _ _ under_way =>
    rw [hopened] at under_way
    cases under_way
  | @ended t result done _ ended =>
    rw [hopened] at done
    cases done
    exact ⟨p, t, i, hp, ended⟩

/-! ## All of it -/

/-- What opening `k` of a pool keeps to, after `ms`, with its calls and its attempts. -/
structure InOrder (c : Connector) (ms : List Move) (calls : List Call) (tried : List Attempt)
    (p : Pool) (k : Nat) : Prop where
  /-- It is under way, or has ended. -/
  kept : (∃ o, (k, o) ∈ p.openings) ∨ ∃ t result, ⟨k, t, result⟩ ∈ p.ended.toList
  calls : calls = tried.map (Attempt.call c)
  /-- The order, whatever becomes of an attempt that is not over. -/
  order : ∀ ok, ∃ more, tried.map (Attempt.outcome ok) ++ more ∈ callOrder
  /-- A stream is asked for at once, a connect after a rest. -/
  turns : tried.IsChain (Follows c)
  /-- An attempt is over when the host answers, or else at the limit. -/
  verdicts : ∀ a ∈ tried, ∀ e, a.over? = some e → e = a.verdict c
  /-- It ends with a stream exactly when one is granted. -/
  opened : ∀ t, (∃ i, ⟨k, t, .ok i⟩ ∈ p.ended.toList) ↔
    ∃ a ∈ tried, a.errand = .stream ∧ a.over? = some (t, true)
  errors : ∀ t e, ⟨k, t, .error e⟩ ∈ p.ended.toList →
    (e = .cancelled ∧ .cancel ∈ ms) ∨ (e = .closed ∧ .stop ∈ ms)

/-- What all openings of a pool keep to together. -/
structure KeepsOrder (c : Connector) (net : Net) (ms : List Move) (calls : List (Nat × Call))
    (tried : Nat → List Attempt) (p : Pool) : Prop where
  each : ∀ k < p.begun, InOrder c ms (callsOf k calls) (tried k) p k
  record : p.net.calls.toList = net.calls.toList ++ calls.map Prod.snd
  /-- Each failed attempt is counted once; one that has just failed is about to be. -/
  counted : .cancel ∉ ms → p.failures + p.openings.countP (·.2.isFailed) =
    ∑ k ∈ Finset.range p.begun, (tried k).countP Attempt.isFailure
  /-- It is never stuck. -/
  goes_on : p.openings ≠ [] → (Clocked.step p).isSome ∨
    ∃ d, Clocked.due p = some d ∧ p.net.clock < d ∧ (Clocked.step (Clocked.advance p d)).isSome

theorem Known.inOrder (h : Known c ms calls tried p) (timely : Timely tried p) (begun : k < p.begun) :
    InOrder c ms (callsOf k calls) (tried k) p k := by
  obtain ⟨_, own, b, htracked, hcancel, hstop, hshows⟩ := h.tracked begun
  have hended : ∀ {t result}, ⟨k, t, result⟩ ∈ p.ended.toList → b.opening.result? = some result := by
    intro t result hmem
    cases hshows with
    | going _ _ _ _ _ not_ended => exact absurd rfl (not_ended _ hmem)
    | ended done _ ended =>
      cases (ended _).mp ⟨hmem, rfl⟩
      exact done
  constructor
  case kept =>
    cases hshows with
    | going _ hopening => exact .inl ⟨b.opening, (hopening _).mpr rfl⟩
    | ended done _ ended => exact .inr ⟨_, _, ((ended _).mpr rfl).1⟩
  case calls => exact htracked.made
  case order => exact htracked.inTurn.completes
  case turns => exact htracked.inTurn.chain
  case verdicts => exact htracked.judged
  case opened =>
    intro t
    constructor
    · rintro ⟨i, hmem⟩
      exact timely _ hmem i rfl
    · rintro ⟨a, ha, hstream, hover⟩
      obtain ⟨i, hi⟩ := (htracked.stage.hasStream_iff htracked.inTurn).mp ⟨a, ha, hstream, t, hover⟩
      cases hshows with
      | going under_way =>
        rw [hi] at under_way
        cases under_way
      | @ended s result done _ ended =>
        rw [hi] at done
        cases done
        have hmem := ((ended _).mpr rfl).1
        -- no other attempt opens a stream, so that both times are the same
        obtain ⟨a', ha', hstream', hover'⟩ := timely _ hmem i rfl
        obtain ⟨done, last, hlast⟩ : ∃ done last, tried k = done ++ [last] :=
          ⟨_, _, (List.dropLast_append_getLast (List.ne_nil_of_mem ha)).symm⟩
        have hturn := htracked.inTurn
        rw [hlast] at ha hturn
        rw [show Ended.number ⟨k, s, .ok i⟩ = k from rfl, hlast] at ha'
        rw [hturn.eq_last ha hstream hover] at hover
        rw [hturn.eq_last ha' hstream' hover', hover] at hover'
        cases hover'
        exact ⟨i, hmem⟩
  case errors =>
    intro t e hmem
    rcases htracked.errors e (result?_eq_error.mp (hended hmem)) with ⟨rfl, hc⟩ | ⟨rfl, hs⟩
    · exact .inl ⟨rfl, hcancel hc⟩
    · exact .inr ⟨rfl, hstop hs⟩

/-- **Every opening calls its host in order**, whatever the host does and whenever openings begin and
are cancelled or stopped: its calls begin a word of `callOrder`, at the times that the answers, the
limit and the rests give them. It has a stream from the first that is granted, and fails only if it is
cancelled or stopped. The attempts that fail are counted. And if the host grants a stream sooner or
later, an opening that is alone gets it. -/
theorem keeps_order (r : Run (.start c net) ms calls tried p) : KeepsOrder c net ms calls tried p ∧
    (Grants c net.connects net.streams → ∃ p' t i, (begin (.start c net)).Reaches p' ∧
      p'.ended.toList = [⟨0, t, .ok i⟩]) := by
  have h := r.known
  constructor
  · exact {
      each := fun k begun => h.inOrder r.timely begun
      record := r.record
      counted := r.counts
      goes_on := UnderWay.goes_on r.underWay }
  · exact alone_opens

/-! ### A host that refuses a connect and leaves a stream unanswered -/

def stubborn : Net :=
  .start ⟨[⟨5, some (.error (.noAddresses "peer"))⟩], ⟨3, some (.ok ())⟩⟩
    ⟨[⟨0, none⟩], ⟨0, some (.ok {})⟩⟩

def patient : Connector := ⟨"remote", ⟨"peer", []⟩, traceProtocol, .ofSeconds 1, .ofSeconds 2⟩

/-- Three attempts to connect and two to open a stream. -/
def patientMoves : List Move :=
  List.flatten [[.begin, .work, .advance 5, .work, .work, .advance 2005, .work],
    [.advance 2008, .work, .work, .advance 3008, .work, .work, .advance 5008, .work],
    [.advance 5011, .work, .work, .work]]

def patientAttempts : List Attempt :=
  [⟨.connect, 0, some (5, false), some (5, false)⟩,
    ⟨.connect, 2005, some (2008, true), some (2008, true)⟩,
    ⟨.stream, 2008, none, some (3008, false)⟩,
    ⟨.connect, 5008, some (5011, true), some (5011, true)⟩,
    ⟨.stream, 5011, some (5011, true), some (5011, true)⟩]

theorem keeps_order_stubborn :
    ∃ calls tried p, Run (.start patient stubborn) patientMoves calls tried p ∧
      tried 0 = patientAttempts ∧ p.begun = 1 ∧ p.failures = 2 ∧
      Grants patient stubborn.connects stubborn.streams ∧
      (KeepsOrder patient stubborn patientMoves calls tried p ∧
      (Grants patient stubborn.connects stubborn.streams →
        ∃ p' t i, (begin (.start patient stubborn)).Reaches p' ∧
          p'.ended.toList = [⟨0, t, .ok i⟩])) := by
  have hmoves : (patientMoves.foldlM follow ([], fun _ => [], .start patient stubborn)).map
      (fun (_, tried, p) => (tried 0, p.begun, p.failures)) = some (patientAttempts, 1, 2) := by
    decide +kernel
  obtain ⟨calls, tried, p, hrun, hstate⟩ := Run.seen hmoves
  simp only [Prod.mk.injEq] at hstate
  obtain ⟨htried, hbegun, hfailures⟩ := hstate
  have hgrants : Grants patient stubborn.connects stubborn.streams := by
    refine .connectFails ?_ (.streamFails ⟨(), rfl, by decide⟩ ?_
      (.opens ⟨(), rfl, by decide⟩ ⟨{}, rfl, by decide⟩))
    · rintro ⟨x, hx, -⟩
      cases hx
    · rintro ⟨x, hx, -⟩
      cases hx
  exact ⟨calls, tried, p, hrun, htried, hbegun, hfailures, hgrants, keeps_order hrun⟩

end TraceRelay.Connector.Pool
