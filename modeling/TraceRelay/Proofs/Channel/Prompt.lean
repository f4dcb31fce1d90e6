import TraceRelay.Proofs.Channel

/-!
# Channels that answer sooner or later

A plan is prompt if no write hangs and a writer is made to wait a number of times only. A channel with such
a plan answers at some time (`Channel.Prompt.ready`), and each time that it makes its writer wait is one of
those that are left (`Channel.Prompt.write`, `Channel.Prompt.close`).
-/

namespace TraceRelay

theorem Plan.after_next {α : Type} (p : Plan α) : p.next.2.after = p.after := by
  obtain ⟨items, after⟩ := p
  cases items <;> rfl

/-- No write hangs, and in the end none waits. -/
structure ChannelPlan.Prompt (p : ChannelPlan) : Prop where
  answers : ∀ turn, p.writes.Gives turn → turn ≠ .hangs
  goes_on : ∀ ms, p.writes.after ≠ .waits ms

namespace Channel

/-- A channel that answers sooner or later, whatever it is asked. -/
structure Prompt (ch : Channel) : Prop where
  plan : ch.plan.Prompt
  awake : ch.pause ≠ .forever

theorem prompt_start (protocol : String) {plan : ChannelPlan} (h : plan.Prompt) :
    (start protocol plan).Prompt := ⟨h, nofun⟩

theorem prompt_default : (default : Channel).Prompt where
  plan :=
    { answers := fun turn h => by
        rcases h with h | rfl
        · cases h
        · nofun
      goes_on := nofun }
  awake := nofun

/-- How many more times a channel may make its writer wait: in each write that is planned, and in the next
close. -/
def hesitations (ch : Channel) : Nat :=
  ch.plan.writes.items.length + if ch.plan.closes.next.1 matches .waits _ then 1 else 0

variable {ch : Channel}

/-- When a channel that waits is due, it is ready. -/
theorem Prompt.ready (h : ch.Prompt) {now : Nat} (due : ∀ t, ch.due = some t → t ≤ now) :
    ch.isReady now = true := by
  unfold Channel.due at due
  unfold isReady
  split
  · rfl
  · next t hpause =>
    rw [hpause] at due
    exact decide_eq_true (due t rfl)
  · next hpause => exact absurd hpause h.awake

theorem Prompt.write (h : ch.Prompt) (now : Nat) (data : Bytes) :
    (ch.write now data).1.Prompt ∧
      ((ch.write now data).2 = none → (ch.write now data).1.hesitations < ch.hesitations) := by
  have hturn := h.plan.answers _ (Plan.gives_next _)
  have hrest : ({ ch.plan with writes := ch.plan.writes.next.2 } : ChannelPlan).Prompt :=
    ⟨fun turn hg => h.plan.answers turn hg.of_next,
      fun ms => (Plan.after_next _).symm ▸ h.plan.goes_on ms⟩
  have hfewer : ∀ ms, ch.plan.writes.next.1 = .waits ms →
      ch.plan.writes.next.2.items.length < ch.plan.writes.items.length := by
    intro ms hwaits
    have hafter := h.plan.goes_on ms
    unfold Plan.next at hwaits ⊢
    split at hwaits
    · exact absurd hwaits hafter
    · next turn items hitems =>
      rw [hitems]
      exact Nat.lt_succ_self _
  unfold Channel.write
  generalize ch.plan.writes.next = next at hturn hrest hfewer ⊢
  obtain ⟨turn, writes⟩ := next
  cases turn with
  | takes | upTo n | fails f => exact ⟨⟨hrest, nofun⟩, nofun⟩
  | waits ms => exact ⟨⟨hrest, nofun⟩, fun _ => Nat.add_lt_add_right (hfewer ms rfl) _⟩
  | hangs => exact absurd rfl hturn

theorem Prompt.flush (h : ch.Prompt) : ch.flush.1.Prompt := by
  unfold Channel.flush
  generalize ch.plan.flushes.next = next
  obtain ⟨fault?, flushes⟩ := next
  cases fault? <;> exact ⟨⟨h.plan.answers, h.plan.goes_on⟩, nofun⟩

/-- A close waits once at most. -/
theorem Prompt.close (h : ch.Prompt) (now : Nat) : (ch.close now).1.Prompt ∧
    ((ch.close now).2 = none → (ch.close now).1.hesitations < ch.hesitations) := by
  have hplan : ∀ closes, ({ ch.plan with closes } : ChannelPlan).Prompt :=
    fun _ => ⟨h.plan.answers, h.plan.goes_on⟩
  have hwaits : ∀ ms, ch.plan.closes.next.1 = .waits ms →
      ch.hesitations = ch.plan.writes.items.length + 1 := by
    intro ms hnext
    unfold hesitations
    rw [hnext]
    rfl
  unfold Channel.close
  generalize ch.plan.closes.next = next at hwaits ⊢
  obtain ⟨turn, closes⟩ := next
  cases turn with
  | succeeds | fails f => exact ⟨⟨hplan _, nofun⟩, nofun⟩
  | waits ms =>
    refine ⟨⟨hplan _, nofun⟩, fun _ => ?_⟩
    rw [hwaits ms rfl]
    exact Nat.lt_succ_self _

theorem Prompt.reset (h : ch.Prompt) : ch.reset.Prompt := ⟨h.plan, h.awake⟩

end Channel

end TraceRelay
