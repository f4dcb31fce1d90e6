import Mathlib.Logic.Relation
import TraceRelay.Proofs.Tracer.Fleet

/-!
# Orders to a group are moves of a fleet

A group follows its orders with one schedule: whichever loop comes first makes a step, and time goes on when
none can. Whatever it does is a run of moves of a fleet (`Run.rehearsed`), in which callers ask what was
ordered.

1. `Group.Drifts`: what a group does by itself while it waits.
2. `Mirrors`: a fleet whose loops are those of a group. It can follow wherever the group drifts
   (`Mirrors.drift`).
3. `Mirrors.await`: the shutdown, which waits for one tracer after the other.
-/

namespace TraceRelay

namespace Tracer

/-! ## What a group does by itself -/

namespace Group

variable {σ α : Type} [WriteLoop σ α] {g g' : Group σ} {limit : Nat}

/-- Its loops make steps, and time goes on, at most to `limit`. -/
def Drifts (limit : Nat) : Group σ → Group σ → Prop :=
  Relation.ReflTransGen fun g g' => Clocked.step g = some g' ∨
    ∃ t, g.clock ≤ t ∧ t ≤ limit ∧ g' = Clocked.advance g t

theorem clock_step (h : Clocked.step g = some g') : g'.clock = g.clock := by
  obtain ⟨members, -, rfl⟩ := Option.map_eq_some_iff.mp h
  rfl

theorem Drifts.clock_le (h : Drifts limit g g') (early : g.clock ≤ limit) : g'.clock ≤ limit := by
  induction h with
  | refl => exact early
  | tail _ last ih =>
    rcases last with hstep | ⟨t, -, hle, rfl⟩
    · rw [clock_step hstep]
      exact ih
    · exact hle

theorem drifts_settle (limit fuel : Nat) (g : Group σ) : Drifts limit g (Clocked.settle fuel g) := by
  induction fuel generalizing g with
  | zero => exact .refl
  | succ fuel ih =>
    rw [Clocked.settle]
    cases hstep : Clocked.step g with
    | none => exact .refl
    | some g₁ => exact (ih g₁).head (.inl hstep)

theorem drifts_runUntil (done : Group σ → Bool) (fuel : Nat) (early : g.clock ≤ limit) :
    Drifts limit g (Clocked.runUntil done limit fuel g).2 ∧
      (Clocked.runUntil done limit fuel g).1 = done (Clocked.runUntil done limit fuel g).2 := by
  induction fuel generalizing g with
  | zero =>
    have hsettled := drifts_settle limit Clocked.patience g
    rw [Clocked.runUntil]
    generalize Clocked.settle Clocked.patience g = g₁ at hsettled ⊢
    cases hdone : done g₁ with
    | true => exact ⟨hsettled, hdone.symm⟩
    | false => exact ⟨hsettled, hdone.symm⟩
  | succ fuel ih =>
    have hsettled := drifts_settle limit Clocked.patience g
    have hearly := hsettled.clock_le early
    rw [Clocked.runUntil]
    generalize Clocked.settle Clocked.patience g = g₁ at hsettled hearly ⊢
    dsimp only
    cases hdone : done g₁ with
    | true => exact ⟨hsettled, hdone.symm⟩
    | false =>
      rw [if_neg Bool.false_ne_true]
      split
      · next t hdue =>
        obtain ⟨-, hwithin⟩ := Option.filter_eq_some_iff.mp hdue
        obtain ⟨hlater, hle⟩ := of_decide_eq_true hwithin
        have hpassed : Drifts limit g (Clocked.advance g₁ t) :=
          hsettled.tail (.inr ⟨t, hlater, hle, rfl⟩)
        obtain ⟨hdrifts, hresult⟩ := ih (g := Clocked.advance g₁ t) hle
        exact ⟨hpassed.trans hdrifts, hresult⟩
      · have hpassed : Drifts limit g (Clocked.advance g₁ limit) :=
          hsettled.tail (.inr ⟨limit, hearly, Nat.le_refl _, rfl⟩)
        exact ⟨hpassed.trans (drifts_settle limit Clocked.patience _), rfl⟩

/-- The first loop that can make a step makes it. -/
theorem stepFirst_cases {members members' : List (Tracer σ)}
    (h : stepFirst members = some members') : ∃ (i : Nat) (x : Tracer σ) (loop : σ),
      members[i]? = some x ∧ Clocked.step x.loop = some loop ∧
      members' = members.set i { x with loop } := by
  induction members generalizing members' with
  | nil => cases h
  | cons t rest ih =>
    rw [stepFirst] at h
    cases hstep : Clocked.step t.loop with
    | some loop =>
      rw [hstep] at h
      cases h
      exact ⟨0, t, loop, rfl, hstep, rfl⟩
    | none =>
      rw [hstep] at h
      obtain ⟨rest', hrest, rfl⟩ := Option.map_eq_some_iff.mp h
      obtain ⟨i, x, loop, hat, hgoes, rfl⟩ := ih hrest
      exact ⟨i + 1, x, loop, hat, hgoes, rfl⟩

theorem step_cases (h : Clocked.step g = some g') : ∃ (i : Nat) (x : Tracer σ) (loop : σ),
    g.members[i]? = some x ∧ Clocked.step x.loop = some loop ∧
    g' = { g with members := g.members.set i { x with loop } } := by
  obtain ⟨members, hfirst, rfl⟩ := Option.map_eq_some_iff.mp h
  obtain ⟨i, x, loop, hat, hgoes, rfl⟩ := stepFirst_cases hfirst
  exact ⟨i, x, loop, hat, hgoes, rfl⟩

/-- What handles there are, and what there is to wait for. -/
def handles (g : Group σ) : Bool × List Bool := (g.held, g.members.map (·.joinable))

theorem handles_onLoops (g : Group σ) (f : σ → σ) : (g.onLoops f).handles = g.handles :=
  congrArg (Prod.mk g.held) List.map_map

theorem handles_step (h : Clocked.step g = some g') : g'.handles = g.handles := by
  obtain ⟨i, x, loop, hat, -, rfl⟩ := step_cases h
  refine congrArg (Prod.mk g.held) ?_
  have hflag : (g.members.map (·.joinable))[i]? = some x.joinable := by
    rw [List.getElem?_map, hat]
    rfl
  obtain ⟨hlt, hget⟩ := List.getElem?_eq_some_iff.mp hflag
  rw [List.map_set, ← hget]
  exact List.set_getElem_self hlt

theorem Drifts.handles (h : Drifts limit g g') : g'.handles = g.handles := by
  induction h with
  | refl => rfl
  | tail _ last ih =>
    rcases last with hstep | ⟨t, -, -, rfl⟩
    · exact (handles_step hstep).trans ih
    · exact (handles_onLoops _ (Clocked.advance · t)).trans ih

theorem length_of_handles (h : g'.handles = g.handles) : g'.members.length = g.members.length := by
  have hlength := congrArg (·.2.length) h
  rwa [handles, handles, List.length_map, List.length_map] at hlength

end Group

/-! ## A fleet that follows a group -/

namespace Fleet

/-- The loops of a fleet are those of a group, and none is ahead of its clock. -/
structure Mirrors (s : Fleet) (g : Group Member) : Prop where
  loops : s.loops = g.members.map (·.loop)
  timely : ∀ x ∈ g.members, Clocked.now x.loop ≤ g.clock

variable {s₀ s : Fleet} {ms : List Move} {g g' : Group Member} {limit : Nat}

theorem Mirrors.getElem? (h : Mirrors s g) {i : Nat} {x : Tracer Member} (at_ : g.members[i]? = some x) :
    ∃ y, s.group.members[i]? = some y ∧ y.loop = x.loop := by
  have hloop : s.loops[i]? = some x.loop := by
    rw [h.loops, List.getElem?_map, at_]
    rfl
  rw [Fleet.loops, List.getElem?_map, Option.map_eq_some_iff] at hloop
  exact hloop

theorem Mirrors.step (h : Mirrors s g) (step : Clocked.step g = some g') :
    ∃ m s', Move.IsOwn m ∧ s.move m = some s' ∧ s'.noted? = s.noted? ∧ Mirrors s' g' := by
  obtain ⟨i, x, loop, hat, hgoes, rfl⟩ := Group.step_cases step
  obtain ⟨y, hy, hsame⟩ := h.getElem? hat
  have hwork : y.loop.work .former = some loop := by
    rw [hsame, ← Member.step_eq]
    exact hgoes
  refine ⟨.work i .former, { s with group.members := s.group.members.set i { y with loop } }, trivial,
    ?_, rfl, ?_, ?_⟩
  · rw [Fleet.move, hy, Option.bind_some, hwork]
    rfl
  · show (s.group.members.set i { y with loop }).map (·.loop) = _
    rw [List.map_set, List.map_set]
    exact congrArg (·.set i loop) h.loops
  · intro z hz
    rcases List.mem_or_eq_of_mem_set hz with hz | rfl
    · exact h.timely z hz
    · have hnow := Member.now_work hwork
      rw [hsame] at hnow
      exact hnow.trans_le (h.timely x (List.mem_of_getElem? hat))

theorem Mirrors.advance (h : Mirrors s g) {t : Nat} (later : g.clock ≤ t) :
    ∃ s', s.move (.advance t) = some s' ∧ s'.noted? = s.noted? ∧ Mirrors s' (Clocked.advance g t) := by
  have hall : s.group.members.all (Clocked.now ·.loop ≤ t) = true := by
    rw [List.all_eq_true]
    intro y hy
    have hloop : y.loop ∈ s.loops := List.mem_map_of_mem hy
    rw [h.loops] at hloop
    obtain ⟨x, hx, hsame⟩ := List.mem_map.mp hloop
    rw [decide_eq_true_eq, ← hsame]
    exact Nat.le_trans (h.timely x hx) later
  refine ⟨_, if_pos hall, rfl, ?_, ?_⟩
  · have hadvanced := congrArg (List.map (Clocked.advance · t)) h.loops
    rw [Fleet.loops, List.map_map, List.map_map] at hadvanced
    show (s.group.members.map _).map _ = (g.members.map _).map _
    rw [List.map_map, List.map_map]
    exact hadvanced
  · intro z hz
    obtain ⟨x, hx, rfl⟩ := List.mem_map.mp hz
    exact Nat.le_of_eq (Member.now_advance x.loop t)

/-- **Wherever a group drifts, a fleet can follow** by moves of its own. -/
theorem Mirrors.drift (h : Mirrors s g) (run : Run s₀ ms s) (drifts : Group.Drifts limit g g') :
    ∃ own s', (∀ m ∈ own, Move.IsOwn m) ∧ Run s₀ (ms ++ own) s' ∧ s'.noted? = s.noted? ∧
      Mirrors s' g' := by
  induction drifts with
  | refl => exact ⟨[], s, List.forall_mem_nil _, by rwa [List.append_nil], rfl, h⟩
  | tail _ last ih =>
    obtain ⟨own, s₁, hown, hrun, hnoted, hmirrors⟩ := ih
    obtain ⟨m, s₂, hm, hmove, hsame, hnext⟩ : ∃ m s₂, Move.IsOwn m ∧ s₁.move m = some s₂ ∧
        s₂.noted? = s₁.noted? ∧ Mirrors s₂ _ := by
      rcases last with hstep | ⟨t, hlater, -, rfl⟩
      · exact hmirrors.step hstep
      · obtain ⟨s₂, hmove, hsame, hnext⟩ := hmirrors.advance hlater
        exact ⟨.advance t, s₂, trivial, hmove, hsame, hnext⟩
    refine ⟨own ++ [m], s₂, ?_, ?_, hsame.trans hnoted, hnext⟩
    · exact List.forall_mem_append.mpr ⟨hown, List.forall_mem_singleton.mpr hm⟩
    · rw [← List.append_assoc]
      exact hrun.move hmove

/-! ## The shutdown -/

/-- What is known of a group while a shutdown waits: what it has noted is what the first tracers report, which
have ended, and for those from number `k` on there is still something to wait for. -/
structure Awaiting (k : Nat) (noted : List (String × Tally)) (g : Group Member) : Prop where
  reported : ∀ (j : Nat) report, noted[j]? = some report → ∃ x, g.members[j]? = some x ∧
    WriteLoop.isEnded x.loop = true ∧ x.report = report
  joinable : ∀ (j : Nat) x, k ≤ j → g.members[j]? = some x → x.joinable = true
  closed : ∀ x ∈ g.members, WriteLoop.isClosed x.loop = true

variable {k : Nat} {noted : List (String × Tally)}

theorem Awaiting.step (h : Awaiting k noted g) (step : Clocked.step g = some g') :
    Awaiting k noted g' := by
  obtain ⟨i, x, loop, hat, hstep, rfl⟩ := Group.step_cases step
  have hgoes := WriteLoop.Lawful.goes_step hstep
  have hlt : i < g.members.length := (List.getElem?_eq_some_iff.mp hat).1
  refine ⟨?_, ?_, ?_⟩
  · intro j report hj
    obtain ⟨y, hy, hended, hreport⟩ := h.reported j report hj
    have hne : i ≠ j := by
      -- a tracer that has ended makes no step
      rintro rfl
      rw [hat, Option.some.injEq] at hy
      rw [← hy, WriteLoop.Lawful.running hgoes] at hended
      cases hended
    exact ⟨y, by rw [List.getElem?_set_ne hne]; exact hy, hended, hreport⟩
  · intro j y hle hy
    by_cases hij : i = j
    · subst hij
      rw [List.getElem?_set_self hlt, Option.some.injEq] at hy
      subst hy
      exact h.joinable i x hle hat
    · rw [List.getElem?_set_ne hij] at hy
      exact h.joinable j y hle hy
  · intro y hy
    rcases List.mem_or_eq_of_mem_set hy with hy | rfl
    · exact h.closed y hy
    · exact WriteLoop.Lawful.closed_goes hgoes (h.closed x (List.mem_of_getElem? hat))

theorem Awaiting.advance (h : Awaiting k noted g) (t : Nat) :
    Awaiting k noted (Clocked.advance g t) := by
  have hat : ∀ (j : Nat) x, g.members[j]? = some x → (Clocked.advance g t).members[j]? =
      some { x with loop := Clocked.advance x.loop t } := by
    intro j x hx
    show (g.members.map _)[j]? = _
    rw [List.getElem?_map, hx]
    rfl
  refine ⟨?_, ?_, ?_⟩
  · intro j r hj
    obtain ⟨x, hx, hended, rfl⟩ := h.reported j r hj
    refine ⟨_, hat j x hx, ?_, ?_⟩
    · exact (WriteLoop.Lawful.ended_touch x.loop (.advance t : WriteLoop.Touch Event)).trans hended
    · unfold report
      cases x.loop <;> rfl
  · intro j y hle hy
    obtain ⟨x, hx, rfl⟩ := member_onLoops (Clocked.advance · t) hy
    exact h.joinable j x hle hx
  · intro y hy
    obtain ⟨x, hx, rfl⟩ := List.mem_map.mp hy
    exact WriteLoop.Lawful.closed_touch (.advance t : WriteLoop.Touch Event) (h.closed x hx)

theorem Awaiting.drift (h : Awaiting k noted g) (drifts : Group.Drifts limit g g') :
    Awaiting k noted g' := by
  induction drifts with
  | refl => exact h
  | tail _ last ih =>
    rcases last with hstep | ⟨t, -, -, rfl⟩
    · exact ih.step hstep
    · exact ih.advance t

/-- When all have been waited for, what has been noted is what the group reports. -/
theorem Awaiting.all (h : Awaiting k noted g) (all : noted.length = g.members.length) :
    noted = g.reports := by
  refine List.ext_getElem? fun j => ?_
  rw [Group.reports, List.getElem?_map]
  cases hj : noted[j]? with
  | some report =>
    obtain ⟨x, hx, -, hreport⟩ := h.reported j report hj
    rw [hx, Option.map_some, hreport]
  | none =>
    have hnone : g.members[j]? = none := by
      rw [List.getElem?_eq_none_iff] at hj ⊢
      omega
    rw [hnone]
    rfl

/-- The shutdown turns to the next tracer. -/
theorem Awaiting.begin (h : Awaiting noted.length noted g) (t : Tracer Member) :
    Awaiting (noted.length + 1) noted
      { g with members := g.members.set noted.length t.beginShutdown.1 } := by
  refine ⟨?_, ?_, ?_⟩
  · intro j r hj
    obtain ⟨x, hx, hended, hreport⟩ := h.reported j r hj
    have hlt : j < noted.length := (List.getElem?_eq_some_iff.mp hj).1
    exact ⟨x, by rw [List.getElem?_set_ne (by omega)]; exact hx, hended, hreport⟩
  · intro j x hle hx
    rw [List.getElem?_set_ne (by omega)] at hx
    exact h.joinable j x (by omega) hx
  · intro x hx
    rcases List.mem_or_eq_of_mem_set hx with hx | rfl
    · exact h.closed x hx
    · exact WriteLoop.Lawful.closed_close t.loop

/-- It notes what the tracer reports that has ended. -/
theorem Awaiting.note (h : Awaiting (noted.length + 1) noted g) {x : Tracer Member}
    (at_ : g.members[noted.length]? = some x) (ended : WriteLoop.isEnded x.loop = true) :
    Awaiting (noted ++ [x.report]).length (noted ++ [x.report]) g := by
  refine ⟨?_, ?_, h.closed⟩
  · intro j r hj
    rcases getElem?_concat_cases hj with ⟨-, hold⟩ | ⟨rfl, hnew⟩
    · exact h.reported j r hold
    · exact ⟨x, at_, ended, hnew⟩
  · intro j y hle hy
    rw [List.length_append, List.length_singleton] at hle
    exact h.joinable j y hle hy

/-- To turn to a tracer that has been closed changes nothing for its loop. -/
theorem Mirrors.begin (h : Mirrors s g) {i : Nat} {t : Tracer Member} (at_ : g.members[i]? = some t)
    (closed : WriteLoop.isClosed t.loop = true) :
    Mirrors s { g with members := g.members.set i t.beginShutdown.1 } := by
  have hclose : t.beginShutdown.1 = ⟨t.loop, false⟩ :=
    congrArg (Tracer.mk · false) (Member.close_of_closed closed)
  have hloop : (g.members.map (·.loop))[i]? = some t.loop := by
    rw [List.getElem?_map, at_]
    rfl
  rw [hclose]
  refine ⟨?_, ?_⟩
  · rw [h.loops, List.map_set]
    obtain ⟨hi, hget⟩ := List.getElem?_eq_some_iff.mp hloop
    exact hget ▸ (List.set_getElem_self hi).symm
  · intro x hx
    rcases List.mem_or_eq_of_mem_set hx with hx | rfl
    · exact h.timely x hx
    · exact h.timely t (List.mem_of_getElem? at_)

theorem Mirrors.join (h : Mirrors s g) (begun : s.noted? = some noted) {x : Tracer Member}
    (at_ : g.members[noted.length]? = some x) (ended : WriteLoop.isEnded x.loop = true)
    (closed : WriteLoop.isClosed x.loop = true) :
    ∃ s', s.move .join = some s' ∧ s'.noted? = some (noted ++ [x.report]) ∧ Mirrors s' g := by
  obtain ⟨y, hy, hsame⟩ := h.getElem? at_
  have hclose : y.beginShutdown.1 = ⟨x.loop, false⟩ := by
    refine congrArg (Tracer.mk · false) ?_
    rw [hsame]
    exact Member.close_of_closed closed
  have hloop : s.loops[noted.length]? = some x.loop := by
    rw [h.loops, List.getElem?_map, at_]
    rfl
  obtain ⟨hlt, hget⟩ := List.getElem?_eq_some_iff.mp hloop
  refine ⟨⟨{ s.group with members := s.group.members.set noted.length ⟨x.loop, false⟩ },
    some (noted ++ [x.report])⟩, ?_, rfl, ?_, h.timely⟩
  · rw [Fleet.move, begun, Option.bind_some, hy, Option.bind_some]
    show (if y.joinable && !WriteLoop.isEnded y.beginShutdown.1.loop then none
      else some (Fleet.mk { s.group with members := s.group.members.set noted.length y.beginShutdown.1 }
        (some (noted ++ [y.beginShutdown.1.report])))) = _
    rw [hclose, ended, Bool.not_true, Bool.and_false, if_neg Bool.false_ne_true]
    rfl
  · show (s.group.members.set noted.length ⟨x.loop, false⟩).map (·.loop) = _
    rw [List.map_set, ← h.loops, ← hget]
    exact List.set_getElem_self hlt

/-- **The fleet shuts down as the group does**, and waits for the tracers in the same order. -/
theorem Mirrors.await {rest : List (Tracer Member)} (h : Mirrors s g) (run : Run s₀ ms s)
    (begun : s.noted? = some noted) (awaiting : Awaiting noted.length noted g)
    (left : noted.length + rest.length = g.members.length) (early : g.clock ≤ limit)
    (waited : Group.waitFrom limit rest noted.length g = (true, g')) :
    ∃ more s', (∀ m ∈ more, m.asked = []) ∧ Run s₀ (ms ++ more) s' ∧ Mirrors s' g' ∧
      s'.noted? = some g'.reports := by
  induction rest generalizing g s ms noted with
  | nil =>
    cases waited
    refine ⟨[], s, List.forall_mem_nil _, by rwa [List.append_nil], h, ?_⟩
    rw [begun, awaiting.all left]
  | cons _ rest ih =>
    rw [List.length_cons] at left
    obtain ⟨t, ht⟩ : ∃ t, g.members[noted.length]? = some t :=
      ⟨_, List.getElem?_eq_getElem (by omega)⟩
    have hclosed := awaiting.closed t (List.mem_of_getElem? ht)
    have hjoinable : t.beginShutdown.2 = true := awaiting.joinable _ t (Nat.le_refl _) ht
    rw [Group.waitFrom, ht] at waited
    dsimp only at waited
    rw [hjoinable, if_pos rfl] at waited
    have hmirrors := h.begin ht hclosed
    have hawaiting := awaiting.begin t
    generalize hg₁ : ({ g with members := g.members.set noted.length t.beginShutdown.1 } :
      Group Member) = g₁ at waited hmirrors hawaiting
    have hearly : g₁.clock ≤ limit := by rw [← hg₁]; exact early
    have hlength : g₁.members.length = g.members.length := by rw [← hg₁]; exact List.length_set
    obtain ⟨hdrifts, hdone⟩ :=
      Group.drifts_runUntil (Group.hasEnded noted.length) Clocked.patience hearly
    generalize Clocked.runUntil (Group.hasEnded noted.length) limit Clocked.patience g₁ = result
      at hdrifts hdone waited
    obtain ⟨ended, g₂⟩ := result
    dsimp only at hdrifts hdone
    cases ended with
    | false => cases waited
    | true =>
      have hsame : g₂.members.length = g.members.length :=
        (Group.length_of_handles hdrifts.handles).trans hlength
      obtain ⟨own, s₁, hown, hrun, hnoted, hmirrors⟩ := hmirrors.drift run hdrifts
      have hawaiting := hawaiting.drift hdrifts
      have hnext : ∀ r : String × Tally, (noted ++ [r]).length = noted.length + 1 := fun _ =>
        List.length_append
      obtain ⟨x, hx⟩ : ∃ x, g₂.members[noted.length]? = some x :=
        ⟨_, List.getElem?_eq_getElem (by omega)⟩
      have hended : WriteLoop.isEnded x.loop = true := by
        rw [Group.hasEnded, hx] at hdone
        exact hdone.symm
      obtain ⟨s₂, hjoin, hnow, hmirrors⟩ := hmirrors.join (hnoted.trans begun) hx hended
        (hawaiting.closed x (List.mem_of_getElem? hx))
      obtain ⟨more, s₃, hmore, hrun, hmirrors, hreports⟩ := ih hmirrors (hrun.move hjoin) hnow
        (hawaiting.note hx hended) (by rw [hnext]; omega) (hdrifts.clock_le hearly)
        (by rw [hnext]; exact waited)
      refine ⟨own ++ [.join] ++ more, s₃, ?_, ?_, hmirrors, hreports⟩
      · intro m hm
        rw [List.mem_append, List.mem_append, List.mem_singleton] at hm
        rcases hm with (hm | rfl) | hm
        · exact (hown m hm).asked
        · rfl
        · exact hmore m hm
      · rw [← List.append_assoc, ← List.append_assoc]
        exact hrun

/-! ## Orders -/

/-- What callers ask in an order, as each tracer sees it. -/
def asks : Order Event → List (Recorder.Move Event)
  | .trace events => events.map .trace
  | .close | .shutdown => [.close]
  | .pass _ | .cancel | .letGo => []

/-- Events are traced, time passes, or the tracers are closed. -/
def IsPlain : Order Event → Prop
  | .trace _ | .pass _ | .close => True
  | .cancel | .shutdown | .letGo => False

theorem Mirrors.onLoops (h : Mirrors s g) {f : Member → Member}
    (now : ∀ a, Clocked.now (f a) = Clocked.now a) (noted? : Option (List (String × Tally))) :
    Mirrors ⟨s.group.onLoops f, noted?⟩ (g.onLoops f) := by
  refine ⟨?_, ?_⟩
  · have hloops := congrArg (List.map f) h.loops
    rw [Fleet.loops, List.map_map, List.map_map] at hloops
    show (s.group.members.map _).map _ = (g.members.map _).map _
    rw [List.map_map, List.map_map]
    exact hloops
  · intro z hz
    obtain ⟨x, hx, rfl⟩ := List.mem_map.mp hz
    exact (now x.loop).trans_le (h.timely x hx)

/-- A run goes on, in which callers ask some things and no shutdown goes on, to a fleet that mirrors a
group. -/
def Follows (s₀ : Fleet) (ms : List Move) (calls : List (Recorder.Move Event))
    (noted? : Option (List (String × Tally))) (g : Group Member) : Prop :=
  ∃ more s', .join ∉ more ∧ asked more = calls ∧ Run s₀ (ms ++ more) s' ∧ s'.noted? = noted? ∧
    Mirrors s' g

theorem Mirrors.traceAll (h : Mirrors s g) (run : Run s₀ ms s) (events : List Event) :
    Follows s₀ ms (events.map .trace) s.noted? (events.foldl Group.trace g) := by
  induction events generalizing g s ms with
  | nil => exact ⟨[], s, List.not_mem_nil, rfl, by rwa [List.append_nil], rfl, h⟩
  | cons e events ih =>
    have hnext : Run s₀ (ms ++ [.trace e]) { s with group := s.group.trace e } := run.move rfl
    obtain ⟨more, s₁, hjoin, hasked, hrun, hsame, hmirrors⟩ :=
      ih (h.onLoops (Member.now_trace e) s.noted?) hnext
    refine ⟨.trace e :: more, s₁, ?_, ?_, ?_, hsame, hmirrors⟩
    · rw [List.mem_cons, not_or]
      exact ⟨nofun, hjoin⟩
    · show .trace e :: asked more = _
      rw [hasked]
      rfl
    · rw [List.append_cons]
      exact hrun

theorem handles_traceAll (g : Group Member) (events : List Event) :
    (events.foldl Group.trace g).handles = g.handles := by
  induction events generalizing g with
  | nil => rfl
  | cons e events ih => exact (ih (g.trace e)).trans (Group.handles_onLoops g _)

/-- **A fleet follows a plain order** as the group does, which has nothing to say to it. -/
theorem Mirrors.follow (h : Mirrors s g) (run : Run s₀ ms s) (held : g.held = true)
    {o : Order Event} (plain : IsPlain o) :
    Follows s₀ ms (asks o) s.noted? (g.follow o).1 ∧ (g.follow o).1.handles = g.handles ∧
      (g.follow o).2 = .nothing := by
  cases o with
  | trace events =>
    have hfollow : g.follow (.trace events) = (events.foldl Group.trace g, .nothing) := if_pos held
    rw [hfollow]
    exact ⟨h.traceAll run events, handles_traceAll g events, rfl⟩
  | close =>
    have hfollow : g.follow (.close : Order Event) = (g.close, .nothing) := if_pos held
    have hnext : Run s₀ (ms ++ [.close]) { s with group := s.group.close } := run.move rfl
    have hjoin : Move.join ∉ [Move.close] := by
      rw [List.mem_singleton]
      nofun
    rw [hfollow]
    exact ⟨⟨[.close], _, hjoin, rfl, hnext, rfl, h.onLoops Member.now_close s.noted?⟩,
      Group.handles_onLoops g _, rfl⟩
  | pass t =>
    have hdrifts := (Group.drifts_runUntil (fun _ => false) Clocked.patience (g := g)
      (Nat.le_add_right g.clock t)).1
    obtain ⟨own, s', hown, hrun, hnoted, hmirrors⟩ := h.drift run hdrifts
    refine ⟨⟨own, s', fun hjoin => hown _ hjoin, ?_, hrun, hnoted, hmirrors⟩, ?_, rfl⟩
    · exact asked_of_none fun m hm => (hown m hm).asked
    · exact hdrifts.handles
  | cancel | shutdown | letGo => exact plain.elim

theorem Mirrors.followAll (h : Mirrors s g) (run : Run s₀ ms s) (held : g.held = true)
    {orders : List (Order Event)} (plain : ∀ o ∈ orders, IsPlain o) :
    ∃ g', orders.foldl (fun (g, reply) order =>
        let (g, next) := g.follow order
        (g, Reply.latest reply next)) (g, .nothing) = (g', .nothing) ∧ g'.handles = g.handles ∧
      Follows s₀ ms (orders.flatMap asks) s.noted? g' := by
  induction orders generalizing g s ms with
  | nil => exact ⟨g, rfl, rfl, [], s, List.not_mem_nil, rfl, by rwa [List.append_nil], rfl, h⟩
  | cons o orders ih =>
    obtain ⟨⟨more, s₁, hjoin, hasked, hrun, hnoted, hmirrors⟩, hhandles, hreply⟩ :=
      h.follow run held (plain o (List.mem_cons_self ..))
    obtain ⟨g', hfold, hnext, rest, s₂, hjoins, hcalls, hrun, hsame, hmirrors⟩ :=
      ih hmirrors hrun ((congrArg Prod.fst hhandles).trans held) fun o hmem =>
        plain o (List.mem_cons_of_mem _ hmem)
    refine ⟨g', ?_, hnext.trans hhandles, more ++ rest, s₂, ?_, ?_, ?_, hsame.trans hnoted, hmirrors⟩
    · rw [List.foldl_cons]
      dsimp only
      rw [hreply]
      exact hfold
    · rw [List.mem_append, not_or]
      exact ⟨hjoin, hjoins⟩
    · rw [asked_append, hasked, hcalls, List.flatMap_cons]
    · rw [← List.append_assoc]
      exact hrun

/-- **A shutdown of the fleet** that returns when that of the group does, with the same reports. -/
theorem Mirrors.shutdown (h : Mirrors s g) (run : Run s₀ ms s) (first : s.noted? = none)
    (joinable : ∀ x ∈ g.members, x.joinable = true) (early : g.clock ≤ limit)
    {reports : List (String × Tally)} (returned : g.shutdown limit = (some reports, g')) :
    ∃ more s', (∀ m ∈ more, m.asked = []) ∧ Run s₀ (ms ++ [.shutdown] ++ more) s' ∧
      s'.noted? = some reports ∧ reports = g'.reports ∧ Mirrors s' g' := by
  have hbegun : s.move .shutdown = some ⟨s.group.close, some []⟩ := by
    rw [Fleet.move, isFree, first]
    rfl
  have hclosed : Mirrors ⟨s.group.close, some []⟩ g.close := h.onLoops Member.now_close (some [])
  have hawaiting : Awaiting 0 [] g.close := by
    refine ⟨?_, ?_, ?_⟩
    · intro j r hj
      rw [List.getElem?_nil] at hj
      cases hj
    · intro j x _ hx
      obtain ⟨y, hy, rfl⟩ := member_onLoops WriteLoop.close hx
      exact joinable y (List.mem_of_getElem? hy)
    · intro x hx
      obtain ⟨y, -, rfl⟩ := List.mem_map.mp hx
      exact WriteLoop.Lawful.closed_close y.loop
  rw [Group.shutdown] at returned
  generalize hwaited : Group.waitFrom limit g.close.members 0 g.close = result at returned
  obtain ⟨inTime, g₂⟩ := result
  cases inTime with
  | false => cases returned
  | true =>
    cases returned
    obtain ⟨more, s', hmore, hrun, hmirrors, hnoted⟩ :=
      hclosed.await (run.move hbegun) rfl hawaiting (Nat.zero_add _) early hwaited
    exact ⟨more, s', hmore, hrun, hnoted, rfl, hmirrors⟩

/-- **What a group is ordered to do is a run of a fleet.** If a shutdown at the end returns, then the shutdown
of the fleet has returned with the same reports, and nobody has traced anything while it waited. -/
theorem Run.rehearsed {members : List Member} (clocks : ∀ a ∈ members, Clocked.now a = 0)
    {orders : List (Order Event)} (plain : ∀ o ∈ orders, IsPlain o) {reports : List (String × Tally)}
    (h : (Group.ofLoops members).followAll (orders ++ [.shutdown]) = (g, .reports reports)) :
    ∃ before after s, Run (.start members) (before ++ after) s ∧
      .join ∉ before ∧ (∀ m ∈ after, m.asked = []) ∧
      asked (before ++ after) = orders.flatMap asks ++ [.close] ∧
      s.noted? = some reports ∧ reports.length = members.length ∧
      s.loops = g.members.map (·.loop) := by
  have hstart : Mirrors (.start members) (.ofLoops members) := by
    refine ⟨rfl, fun x hx => ?_⟩
    obtain ⟨a, ha, rfl⟩ := List.mem_map.mp hx
    exact Nat.le_of_eq (clocks a ha)
  obtain ⟨g₁, hfold, hhandles, before, s₁, hjoin, hasked, hrun, hnoted, hmirrors⟩ :=
    hstart.followAll .start rfl plain
  have hheld : g₁.held = true := congrArg Prod.fst hhandles
  have hfollow : g₁.follow (.shutdown : Order Event) = g₁.followHeld .shutdown := if_pos hheld
  have hjoinable : ∀ x ∈ g₁.members, x.joinable = true := by
    intro x hx
    have hflag : x.joinable ∈ g₁.handles.2 := List.mem_map_of_mem hx
    rw [hhandles, Group.handles, Group.ofLoops, List.map_map] at hflag
    obtain ⟨a, -, htrue⟩ := List.mem_map.mp hflag
    exact htrue.symm
  rw [Group.followAll, List.foldl_append, hfold, List.foldl_cons, List.foldl_nil] at h
  replace h : (Clocked.settle Clocked.patience (g₁.follow .shutdown).1,
      Reply.latest .nothing (g₁.follow .shutdown).2) = (g, .reports reports) := h
  rw [hfollow, Group.followHeld] at h
  generalize hshut : g₁.shutdown (g₁.clock + Group.shutdownLimit) = result at h
  obtain ⟨returned, g₂⟩ := result
  cases returned with
  | none => cases h
  | some rs =>
    rw [Prod.mk.injEq] at h
    obtain ⟨hsettled, hreply⟩ := h
    cases hreply
    obtain ⟨more, s₂, hmore, hwait, hnoted₂, hreports, hmirrors₂⟩ :=
      hmirrors.shutdown hrun hnoted hjoinable (Nat.le_add_right ..) hshut
    -- when the shutdown has returned, the loops still do what they can
    obtain ⟨own, s₃, hown, hend, hsame, hmirrors₃⟩ :=
      hmirrors₂.drift hwait (Group.drifts_settle 0 Clocked.patience g₂)
    have hsilent : ∀ m ∈ more ++ own, m.asked = [] :=
      List.forall_mem_append.mpr ⟨hmore, fun m hm => (hown m hm).asked⟩
    refine ⟨before ++ [.shutdown], more ++ own, s₃, ?_, ?_, hsilent, ?_, ?_, ?_, ?_⟩
    · rw [← List.append_assoc]
      exact hend
    · rw [List.mem_append, List.mem_singleton, not_or]
      exact ⟨hjoin, nofun⟩
    · rw [asked_append, asked_of_none hsilent, List.append_nil, asked_concat, hasked]
      rfl
    · exact hsame.trans hnoted₂
    · have hloops := congrArg List.length hmirrors₂.loops
      rw [Fleet.loops, List.length_map, List.length_map, hwait.length] at hloops
      rw [hreports, Group.reports, List.length_map, ← hloops]
      exact List.length_map _
    · rw [hmirrors₃.loops, hsettled]

end Fleet

end Tracer

end TraceRelay
