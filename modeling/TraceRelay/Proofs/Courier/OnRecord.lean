import TraceRelay.Proofs.Courier.Handling

/-!
# What the host has on record of each stream

A host records the calls that close and reset streams, and a stream the bytes that it has taken. Both
agree with what the courier has done with each stream (`Agrees`), at every moment of every run.
-/

namespace TraceRelay.Courier

variable {α : Type} {e : Gzip.Encoder} {ds new : Deeds α} {c c' : Courier α}
  {hist : Nat → List Op} {n n' : Net} {i : Nat}

/-- What a host has recorded of stream `i` is what has been done with it. -/
structure Recorded (n : Net) (i : Nat) (ops : List Op) : Prop where
  closes : n.calls.toList.count (.close i) = ops.countP Op.isClose
  resets : n.calls.toList.count (.reset i) = ops.countP Op.isReset
  bytes : (n.channel i).accepted = bytesOf ops

/-- The same of all streams. -/
def Agrees (n : Net) (hist : Nat → List Op) : Prop := ∀ i, Recorded n i (hist i)

/-- More has been done with stream `i`. -/
def more (i : Nat) (done : List Op) (hist : Nat → List Op) (j : Nat) : List Op :=
  hist j ++ if i = j then done else []

theorem noted_eq_more {done : List Op} (at_ : c.stream? = some i) (ops : c.ops = done) :
    c.noted hist = more i done hist := by
  funext j
  rw [noted, more, at_, ops]
  simp only [Option.some.injEq]

theorem more_append (done new : List Op) :
    more i (done ++ new) hist = more i new (more i done hist) := by
  funext j
  unfold more
  split
  · rw [List.append_assoc]
  · rw [List.append_nil, List.append_nil]

theorem Recorded.same {ops : List Op} (h : Recorded n i ops) (calls : n'.calls = n.calls)
    (accepted : (n'.channel i).accepted = (n.channel i).accepted) : Recorded n' i ops := by
  obtain ⟨hcloses, hresets, hbytes⟩ := h
  rw [← calls] at hcloses hresets
  exact ⟨hcloses, hresets, accepted.trans hbytes⟩

/-- A call on stream `i` that is not put on record as one to end it. -/
theorem Agrees.touched {op : Op} (h : Agrees n hist) (touches : Net.Touches i n n')
    (calls : n'.calls = n.calls)
    (accepted : (n'.channel i).accepted = (n.channel i).accepted ++ op.carried)
    (not_close : op.isClose = false) (not_reset : op.isReset = false) :
    Agrees n' (more i [op] hist) := by
  intro j
  by_cases hji : i = j
  · subst hji
    obtain ⟨hcloses, hresets, hbytes⟩ := h i
    rw [more, if_pos rfl]
    refine ⟨?_, ?_, ?_⟩
    · rw [calls, hcloses, List.countP_append, List.countP_singleton, not_close]
      rfl
    · rw [calls, hresets, List.countP_append, List.countP_singleton, not_reset]
      rfl
    · rw [accepted, hbytes, bytesOf_append]
      exact congrArg _ (List.flatMap_singleton ..).symm
  · rw [more, if_neg hji, List.append_nil]
    exact (h j).same calls (congrArg _ (touches.others (Ne.symm hji)))

theorem Agrees.write {data : Bytes} {result : Option (Except Fault Nat)} (h : Agrees n hist)
    (hi : i < n.channels.size) (write : n.write i data = (n', result)) :
    Agrees n' (more i [.write data result] hist) := by
  obtain ⟨htouches, haccepted, -⟩ := Net.write_spec hi write
  exact h.touched htouches (Net.calls_write write) haccepted rfl rfl

theorem Agrees.flush {result : Except Fault Unit} (h : Agrees n hist) (hi : i < n.channels.size)
    (flush : n.flush i = (n', result)) : Agrees n' (more i [.flush result] hist) := by
  obtain ⟨htouches, haccepted, -⟩ := Net.flush_spec hi flush
  exact h.touched htouches (Net.calls_flush flush) (haccepted.trans (List.append_nil _).symm) rfl rfl

theorem Agrees.closing {result : Option (Except Fault Unit)} (h : Agrees n hist)
    (hi : i < n.channels.size) (close : n.close i = (n', result)) :
    Agrees n' (more i [.closing result] hist) := by
  obtain ⟨htouches, haccepted, -⟩ := Net.close_spec hi close
  exact h.touched htouches (Net.calls_close close) (haccepted.trans (List.append_nil _).symm) rfl rfl

/-- A call on stream `i` that is put on record. -/
theorem Agrees.called (h : Agrees n hist) (op : Op) (call : Call) (calls : n'.calls = n.calls.push call)
    (accepted : ∀ j, (n'.channel j).accepted = (n.channel j).accepted) (nothing : op.carried = [])
    (closes : ∀ j, [call].count (.close j) = if i = j then [op].countP Op.isClose else 0)
    (resets : ∀ j, [call].count (.reset j) = if i = j then [op].countP Op.isReset else 0) :
    Agrees n' (more i [op] hist) := by
  intro j
  obtain ⟨hcloses, hresets, hbytes⟩ := h j
  have hcalls : n'.calls.toList = n.calls.toList ++ [call] := by rw [calls, Array.toList_push]
  refine ⟨?_, ?_, ?_⟩
  · rw [hcalls, List.count_append, hcloses, more, List.countP_append, closes]
    split <;> rfl
  · rw [hcalls, List.count_append, hresets, more, List.countP_append, resets]
    split <;> rfl
  · rw [accepted, hbytes, more, bytesOf_append]
    split
    · rw [bytesOf, bytesOf, List.flatMap_singleton, nothing, List.append_nil]
    · exact (List.append_nil _).symm

theorem Agrees.startClose (h : Agrees n hist) (i : Nat) :
    Agrees (n.startClose i) (more i [.close] hist) := by
  refine h.called .close (.close i) rfl (fun _ => rfl) rfl (fun j => ?_) fun j => ?_
  · rw [List.count_singleton]
    simp [Op.isClose]
  · simp [Op.isReset]

theorem Agrees.reset (h : Agrees n hist) (hi : i < n.channels.size) :
    Agrees (n.reset i) (more i [.reset] hist) := by
  obtain ⟨htouches, haccepted, -⟩ := Net.reset_spec hi
  refine h.called .reset (.reset i) rfl (fun j => ?_) rfl (fun j => ?_) fun j => ?_
  · by_cases hji : j = i
    · subst hji
      exact haccepted
    · rw [htouches.others hji]
  · simp [Op.isClose]
  · rw [List.count_singleton]
    simp [Op.isReset]

/-- Nothing is on a stream that has just been opened. -/
theorem accepted_addChannel (n : Net) (protocol : String) (plan : ChannelPlan) (j : Nat) :
    ((n.addChannel protocol plan).1.channel j).accepted = (n.channel j).accepted := by
  rcases Nat.lt_trichotomy j n.channels.size with hlt | rfl | hgt
  · rw [Net.channel_addChannel_of_lt protocol plan hlt]
  · rw [Net.channel_addChannel, Net.channel, Array.getD_eq_getD_getElem?,
      Array.getElem?_eq_none (Nat.le_refl _)]
    rfl
  · have hsize : (n.addChannel protocol plan).1.channels.size ≤ j := by
      rw [Net.addChannel, Array.size_push]
      exact hgt
    rw [Net.channel, Net.channel, Array.getD_eq_getD_getElem?, Array.getD_eq_getD_getElem?,
      Array.getElem?_eq_none hsize, Array.getElem?_eq_none (Nat.le_of_lt hgt)]

/-- What is asked of the host to get a stream is no part of what is done with one. -/
theorem Agrees.dialled {o : Opening} {turn : Opening.Turn} {connector : Connector}
    {cancelled stopped : Bool} (h : Agrees n hist)
    (step : Connector.Step connector cancelled stopped n o turn) : Agrees turn.net hist := by
  have hcalls : ∀ (call : Call) {m : Net}, call.isDial = true →
      m.calls = n.calls.push call → m.channels = n.channels → Agrees m hist := by
    intro call m dials calls channels j
    have hclose : call ≠ .close j := by rintro rfl; cases dials
    have hreset : call ≠ .reset j := by rintro rfl; cases dials
    obtain ⟨hcloses, hresets, hbytes⟩ := h j
    refine ⟨?_, ?_, ?_⟩
    · rw [calls, Array.toList_push, List.count_append, hcloses]
      simp [hclose]
    · rw [calls, Array.toList_push, List.count_append, hresets]
      simp [hreset]
    · rw [Net.channel, channels]
      exact hbytes
  cases step with
  | cancel | timeout | stop => exact h
  | retry => exact hcalls (.connect _ _) rfl rfl rfl
  | @call errand =>
    cases errand with
    | connect => exact hcalls (.connect _ _) rfl rfl rfl
    | stream => exact hcalls (.newStream _ _ _) rfl rfl rfl
  | @answer errand deadline t answer =>
    cases answer with
    | connected | refused => exact h
    | stream plan => exact fun j => (h j).same rfl (accepted_addChannel n connector.protocol plan j)
  | fail =>
    rw [(connector.retreat_cases stopped n _ _).1]
    exact h

variable [Message α]

/-- **Every step is put on record.** -/
theorem Agrees.work (h : Agrees c.net hist) (lives : Lives e ds hist c) (w : Work c new c') :
    Agrees c'.net (c.noted hist) := by
  have hquiet : c.ops = [] → c.noted hist = hist := fun hops => funext (noted_nothing hops)
  cases w with
  | start at_ | noteWake at_ | noteClose at_ | gathered at_ | take at_ | leave at_ =>
    rw [hquiet (by rw [ops, at_])]
    exact h
  | discardNothing at_ | discard at_ =>
    rw [hquiet (by rw [ops, at_]), net_discard]
    exact h
  | opened at_ | gaveUp at_ =>
    rw [hquiet (by rw [ops, at_]), net_endOpening]
    exact h
  | heedNoted at_ | heed at_ | heedCancel at_ =>
    rw [hquiet (by rw [ops, at_]), net_heed]
    exact h
  | takeNothing at_ =>
    rw [hquiet (by rw [ops, at_]), net_endBatch]
    exact h
  | connect at_ result step =>
    rw [hquiet (by rw [ops, at_])]
    exact h.dialled (Connector.step_cases step)
  | @writeWaits s last parcel rest net at_ ready write =>
    have hstream : c.stream? = some s.stream := by rw [stream?, at_]
    rw [noted_eq_more hstream (ops_writing at_ write)]
    exact h.write (lives.current _ hstream).1 write
  | @writePart s last parcel rest net n at_ ready write some_ left
  | @writeAll s last parcel rest net n at_ ready write some_ left =>
    have hstream : c.stream? = some s.stream := by rw [stream?, at_]
    rw [noted_eq_more hstream ((ops_writing at_ write).trans (orReset_part some_))]
    exact h.write (lives.current _ hstream).1 write
  | @writeFails s last parcel rest net result f at_ ready write failure =>
    have hstream : c.stream? = some s.stream := by rw [stream?, at_]
    have hi := (lives.current _ hstream).1
    have hfails : (Op.write rest result).Fails rest := .write failure
    rw [noted_eq_more hstream ((ops_writing at_ write).trans (orReset_of_fails hfails)),
      show [Op.write rest result, .reset] = [.write rest result] ++ [.reset] from rfl, more_append]
    exact (h.write hi write).reset ((Net.size_of_write write).symm ▸ hi)
  | @flush s last parcel net at_ ready flush =>
    have hstream : c.stream? = some s.stream := by rw [stream?, at_]
    rw [noted_eq_more hstream (ops_flushing at_ flush), sent, net_endBatch]
    exact h.flush (lives.current _ hstream).1 flush
  | @flushFails s last parcel net f at_ ready flush =>
    have hstream : c.stream? = some s.stream := by rw [stream?, at_]
    have hi := (lives.current _ hstream).1
    rw [noted_eq_more hstream (ops_flushing at_ flush),
      show orReset (.flush (.error f)) = [.flush (.error f)] ++ [.reset] from rfl, more_append]
    exact (h.flush hi flush).reset ((Net.size_of_flush flush).symm ▸ hi)
  | @completeWaits i rest net at_ ready write =>
    have hstream : c.stream? = some i := by rw [stream?, at_]
    rw [noted_eq_more hstream (ops_completing at_ write)]
    exact h.write (lives.current _ hstream).1 write
  | @completePart i rest net n at_ ready write some_ left
  | @completeAll i rest net n at_ ready write some_ left =>
    have hstream : c.stream? = some i := by rw [stream?, at_]
    rw [noted_eq_more hstream ((ops_completing at_ write).trans (orReset_part some_))]
    exact h.write (lives.current _ hstream).1 write
  | @completeFails i rest net result f at_ ready write failure =>
    have hstream : c.stream? = some i := by rw [stream?, at_]
    have hi := (lives.current _ hstream).1
    have hfails : (Op.write rest result).Fails rest := .write failure
    rw [noted_eq_more hstream ((ops_completing at_ write).trans (orReset_of_fails hfails)),
      show [Op.write rest result, .reset] = [.write rest result] ++ [.reset] from rfl, more_append]
    exact (h.write hi write).reset ((Net.size_of_write write).symm ▸ hi)
  | @flushEnd i net at_ ready flush =>
    have hstream : c.stream? = some i := by rw [stream?, at_]
    rw [noted_eq_more hstream (ops_flushingEnd at_ flush),
      show [Op.flush (.ok ()), .close] = [.flush (.ok ())] ++ [.close] from rfl, more_append]
    exact (h.flush (lives.current _ hstream).1 flush).startClose i
  | @flushEndFails i net f at_ ready flush =>
    have hstream : c.stream? = some i := by rw [stream?, at_]
    have hi := (lives.current _ hstream).1
    rw [noted_eq_more hstream (ops_flushingEnd_of_fails at_ flush),
      show [Op.flush (.error f), .reset] = [.flush (.error f)] ++ [.reset] from rfl, more_append]
    exact (h.flush hi flush).reset ((Net.size_of_flush flush).symm ▸ hi)
  | @closeWaits i net at_ ready close | @closed i net at_ ready close
  | @closeFails i net f at_ ready close =>
    have hstream : c.stream? = some i := by rw [stream?, at_]
    rw [noted_eq_more hstream (ops_closing at_ close)]
    exact h.closing (lives.current _ hstream).1 close

theorem Agrees.step {m : Move α} (h : Agrees c.net hist) (lives : Lives e ds hist c)
    (hmove : c.move m = some c') : Agrees c'.net (fun i => hist i ++ c.opsOn i m) := by
  cases m with
  | work pick => exact h.work lives (work_cases hmove)
  | advance t =>
    simp only [move] at hmove
    split at hmove
    · cases hmove
      simp only [opsOn, List.append_nil]
      exact fun i => (h i).same rfl rfl
    · cases hmove
  | trace | close | abandon | cancel =>
    cases hmove
    simp only [opsOn, List.append_nil]
    exact h

theorem Run.agrees {connector : Connector} {window : Duration} {method : Gzip.Method} {level : Nat}
    {net : Net} {cancelled : Bool} {ms : List (Move α)}
    (r : Run (.start connector window method level net cancelled) ms ds c)
    (fresh : net.channels = #[]) (uncalled : net.calls = #[]) :
    Agrees c.net (history (.start connector window method level net cancelled) ms) := by
  induction r with
  | start =>
    intro i
    refine ⟨?_, ?_, ?_⟩
    · show net.calls.toList.count _ = 0
      rw [uncalled]
      rfl
    · show net.calls.toList.count _ = 0
      rw [uncalled]
      rfl
    · show (net.channel i).accepted = []
      rw [Net.channel, fresh]
      rfl
  | @move ms ds c c' m r hmove ih =>
    rw [show history _ (ms ++ [m]) = _ from funext (r.history_concat m)]
    exact ih.step (r.lives fresh) hmove

end TraceRelay.Courier
