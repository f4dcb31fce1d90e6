import TraceRelay.Net
import TraceRelay.Proofs.Channel

/-!
# What calls do to channels

A call on one stream leaves all others alone (`Net.Touches`). A write adds to what the channel has
accepted the bytes that it says it took (`Net.write_spec`); a flush, a close or a reset adds nothing.
-/

namespace TraceRelay

namespace Net

/-- Nothing but stream `i` is different. -/
structure Touches (i : Nat) (n n' : Net) : Prop where
  size : n'.channels.size = n.channels.size
  others : ∀ {j}, j ≠ i → n'.channel j = n.channel j

theorem touches_setChannel (n : Net) (i : Nat) (ch : Channel) : Touches i n (n.setChannel i ch) where
  size := Array.size_setIfInBounds
  others := by
    intro j hj
    simp only [channel, setChannel, Array.getD_eq_getD_getElem?,
      Array.getElem?_setIfInBounds_ne (Ne.symm hj)]

theorem channel_setChannel {n : Net} {i : Nat} (h : i < n.channels.size) (ch : Channel) :
    (n.setChannel i ch).channel i = ch := by
  simp only [channel, setChannel, Array.getD_eq_getD_getElem?,
    Array.getElem?_setIfInBounds_self_of_lt h, Option.getD_some]

variable {n n' : Net} {i : Nat}

theorem write_spec {data : Bytes} {result : Option (Except Fault Nat)} (hi : i < n.channels.size)
    (h : n.write i data = (n', result)) :
    Touches i n n' ∧
    (n'.channel i).accepted = (n.channel i).accepted ++ data.take (Channel.took result) ∧
    Channel.took result ≤ data.length ∧ (n'.channel i).outcome = (n.channel i).outcome := by
  have hspec := (n.channel i).write_spec n.clock data
  cases h
  rw [channel_setChannel hi]
  exact ⟨touches_setChannel .., hspec⟩

theorem flush_spec {result : Except Fault Unit} (hi : i < n.channels.size)
    (h : n.flush i = (n', result)) :
    Touches i n n' ∧ (n'.channel i).accepted = (n.channel i).accepted ∧
    (n'.channel i).outcome = (n.channel i).outcome := by
  have hspec := (n.channel i).flush_spec
  cases h
  rw [channel_setChannel hi]
  exact ⟨touches_setChannel .., hspec⟩

theorem close_spec {result : Option (Except Fault Unit)} (hi : i < n.channels.size)
    (h : n.close i = (n', result)) :
    Touches i n n' ∧ (n'.channel i).accepted = (n.channel i).accepted ∧
    (n'.channel i).outcome = (n.channel i).afterClose result := by
  have hspec := (n.channel i).close_spec n.clock
  cases h
  rw [channel_setChannel hi]
  exact ⟨touches_setChannel .., hspec⟩

theorem reset_spec (hi : i < n.channels.size) :
    Touches i n (n.reset i) ∧ ((n.reset i).channel i).accepted = (n.channel i).accepted ∧
    ((n.reset i).channel i).outcome = .reset := by
  have hchannel : (n.reset i).channel i = (n.channel i).reset := channel_setChannel hi _
  rw [hchannel]
  exact ⟨⟨(touches_setChannel n i _).size, (touches_setChannel n i _).others⟩, rfl, rfl⟩

/-! ## Calls that do not fail -/

theorem write_faultless {data : Bytes} {result : Option (Except Fault Nat)}
    (hi : i < n.channels.size) (h : (n.channel i).plan.Faultless)
    (write : n.write i data = (n', result)) :
    (n'.channel i).plan.Faultless ∧ n'.streams = n.streams ∧
      (result = none ∨ ∃ m, result = some (.ok m) ∧ (data ≠ [] → m ≠ 0)) := by
  obtain ⟨hplan, hresult⟩ := Channel.write_faultless h n.clock data
  cases write
  rw [channel_setChannel hi]
  exact ⟨hplan, rfl, hresult⟩

theorem flush_faultless {result : Except Fault Unit} (hi : i < n.channels.size)
    (h : (n.channel i).plan.Faultless) (flush : n.flush i = (n', result)) :
    (n'.channel i).plan.Faultless ∧ n'.streams = n.streams ∧ result = .ok () := by
  obtain ⟨hplan, hresult⟩ := Channel.flush_faultless h
  cases flush
  rw [channel_setChannel hi]
  exact ⟨hplan, rfl, hresult⟩

theorem close_faultless {result : Option (Except Fault Unit)} (hi : i < n.channels.size)
    (h : (n.channel i).plan.Faultless) (close : n.close i = (n', result)) :
    (n'.channel i).plan.Faultless ∧ n'.streams = n.streams ∧
      (result = none ∨ result = some (.ok ())) := by
  obtain ⟨hplan, hresult⟩ := Channel.close_faultless h n.clock
  cases close
  rw [channel_setChannel hi]
  exact ⟨hplan, rfl, hresult⟩

theorem Touches.trans {m : Net} (h : Touches i n n') (h' : Touches i n' m) : Touches i n m where
  size := h'.size.trans h.size
  others := fun hj => (h'.others hj).trans (h.others hj)

theorem channel_addChannel (n : Net) (protocol : String) (plan : ChannelPlan) :
    (n.addChannel protocol plan).1.channel n.channels.size = .start protocol plan := by
  simp [addChannel, channel]

theorem channel_addChannel_of_lt {n : Net} (protocol : String) (plan : ChannelPlan)
    (h : i < n.channels.size) : (n.addChannel protocol plan).1.channel i = n.channel i := by
  simp [addChannel, channel, Array.getElem?_push_lt, h]

end Net

end TraceRelay
