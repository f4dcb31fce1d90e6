import TraceRelay.Channel

/-!
# What calls do to one channel

1. A write adds to what a channel has accepted the bytes that it says it took (`write_spec`); a flush or
   a close adds nothing.
2. A plan by which no call fails (`ChannelPlan.Faultless`) stays one, and no call fails by it.
-/

namespace TraceRelay

namespace Plan

variable {α : Type} {p : Plan α} {a b : α}

/-- What some call does. -/
def Gives (p : Plan α) (a : α) : Prop := a ∈ p.items ∨ a = p.after

theorem gives_next (p : Plan α) : p.Gives p.next.1 := by
  obtain ⟨items, after⟩ := p
  cases items with
  | nil => exact .inr rfl
  | cons a items => exact .inl (List.mem_cons_self ..)

theorem Gives.of_next (h : p.next.2.Gives a) : p.Gives a := by
  obtain ⟨items, after⟩ := p
  cases items with
  | nil => exact h
  | cons b items => exact h.imp_left (List.mem_cons_of_mem b)

theorem Gives.of_first (h : (p.first b).Gives a) : a = b ∨ p.Gives a := by
  rcases h with h | h
  · rcases List.mem_cons.mp h with h | h
    · exact .inl h
    · exact .inr (.inl h)
  · exact .inr (.inr h)

end Plan

/-- No call fails, and every write takes something. -/
structure ChannelPlan.Faultless (p : ChannelPlan) : Prop where
  writes : ∀ turn, p.writes.Gives turn → (∀ f, turn ≠ .fails f) ∧ turn ≠ .upTo 0
  flushes : ∀ fault?, p.flushes.Gives fault? → fault? = none
  closes : ∀ turn, p.closes.Gives turn → ∀ f, turn ≠ .fails f

theorem ChannelPlan.faultless_default : ChannelPlan.Faultless {} where
  writes turn h := by
    rcases h with h | rfl
    · cases h
    · exact ⟨nofun, nofun⟩
  flushes fault? h := by
    rcases h with h | rfl
    · cases h
    · rfl
  closes turn h := by
    rcases h with h | rfl
    · cases h
    · nofun

namespace Channel

/-- The bytes of a write that were taken. -/
def took : Option (Except Fault Nat) → Nat
  | some (.ok n) => n
  | _ => 0

theorem took_ok (n : Nat) : took (some (.ok n)) = n := rfl

theorem write_spec (ch : Channel) (now : Nat) (data : Bytes) :
    (ch.write now data).1.accepted = ch.accepted ++ data.take (took (ch.write now data).2) ∧
    took (ch.write now data).2 ≤ data.length ∧ (ch.write now data).1.outcome = ch.outcome := by
  unfold write
  cases ch.plan.writes.next with
  | mk turn writes =>
    cases turn with
    | takes => exact ⟨rfl, Nat.le_refl _, rfl⟩
    | upTo n => exact ⟨rfl, Nat.min_le_right _ _, rfl⟩
    | fails f => exact ⟨rfl, Nat.zero_le _, rfl⟩
    | waits ms => exact ⟨(List.append_nil _).symm, Nat.zero_le _, rfl⟩
    | hangs => exact ⟨(List.append_nil _).symm, Nat.zero_le _, rfl⟩

theorem flush_spec (ch : Channel) :
    ch.flush.1.accepted = ch.accepted ∧ ch.flush.1.outcome = ch.outcome := by
  unfold flush
  cases ch.plan.flushes.next with
  | mk fault? flushes => cases fault? <;> exact ⟨rfl, rfl⟩

/-- How a channel stands after a turn of its close. -/
def afterClose (ch : Channel) : Option (Except Fault Unit) → Outcome
  | none => ch.outcome
  | some (.ok ()) => .closed
  | some (.error _) => .closeFailed

theorem close_spec (ch : Channel) (now : Nat) :
    (ch.close now).1.accepted = ch.accepted ∧
    (ch.close now).1.outcome = ch.afterClose (ch.close now).2 := by
  unfold close
  cases ch.plan.closes.next with
  | mk turn closes => cases turn <;> exact ⟨rfl, rfl⟩

/-! ## Calls that do not fail -/

theorem write_faultless {ch : Channel} (h : ch.plan.Faultless) (now : Nat) (data : Bytes) :
    (ch.write now data).1.plan.Faultless ∧ ((ch.write now data).2 = none ∨
      ∃ n, (ch.write now data).2 = some (.ok n) ∧ (data ≠ [] → n ≠ 0)) := by
  have hturn := h.writes _ (Plan.gives_next _)
  have hrest : ({ ch.plan with writes := ch.plan.writes.next.2 } : ChannelPlan).Faultless :=
    ⟨fun turn hg => h.writes turn hg.of_next, h.flushes, h.closes⟩
  unfold write
  generalize ch.plan.writes.next = next at hturn hrest ⊢
  obtain ⟨turn, writes⟩ := next
  cases turn with
  | takes => exact ⟨hrest, .inr ⟨_, rfl, fun hdata hn => hdata (List.eq_nil_of_length_eq_zero hn)⟩⟩
  | upTo n =>
    refine ⟨hrest, .inr ⟨_, rfl, fun hdata hn => ?_⟩⟩
    have hpos := List.length_pos_iff.mpr hdata
    exact hturn.2 (by rw [show n = 0 by omega])
  | fails f => exact absurd rfl (hturn.1 f)
  | waits ms => exact ⟨hrest, .inl rfl⟩
  | hangs => exact ⟨hrest, .inl rfl⟩

theorem flush_faultless {ch : Channel} (h : ch.plan.Faultless) :
    ch.flush.1.plan.Faultless ∧ ch.flush.2 = .ok () := by
  have hfault := h.flushes _ (Plan.gives_next _)
  have hrest : ({ ch.plan with flushes := ch.plan.flushes.next.2 } : ChannelPlan).Faultless :=
    ⟨h.writes, fun fault? hg => h.flushes fault? hg.of_next, h.closes⟩
  unfold flush
  generalize ch.plan.flushes.next = next at hfault hrest ⊢
  obtain ⟨fault?, flushes⟩ := next
  subst hfault
  exact ⟨hrest, rfl⟩

theorem close_faultless {ch : Channel} (h : ch.plan.Faultless) (now : Nat) :
    (ch.close now).1.plan.Faultless ∧
      ((ch.close now).2 = none ∨ (ch.close now).2 = some (.ok ())) := by
  have hturn := h.closes _ (Plan.gives_next _)
  have hrest : ∀ turn, ch.plan.closes.next.2.Gives turn → ∀ f, turn ≠ .fails f :=
    fun turn hg => h.closes turn hg.of_next
  unfold close
  generalize ch.plan.closes.next = next at hturn hrest ⊢
  obtain ⟨turn, closes⟩ := next
  cases turn with
  | succeeds => exact ⟨⟨h.writes, h.flushes, hrest⟩, .inr rfl⟩
  | fails f => exact absurd rfl (hturn f)
  | waits ms =>
    refine ⟨⟨h.writes, h.flushes, fun turn hg => ?_⟩, .inl rfl⟩
    rcases hg.of_first with rfl | hg
    · nofun
    · exact hrest turn hg

end Channel

end TraceRelay
