import Mathlib.Data.List.Induction
import TraceRelay.Proofs.Intake

/-!
# A buffer and its callers, in any order

Any number of producers push, anyone closes, and a write loop waits and swaps. A push, a close and a
swap hold the lock of the buffer from beginning to end, and a wait looks at the token once. So each call
is made at one moment, and what may happen is any list of calls (`Act`); what is seen of it is what each
call gave (`Reply`).

1. `events_act`, `closed_act` and `wakes_act` say of one call what becomes of the events, of the close
   and of the token.
2. `taken_append_events`, `closed_after` and `wakes_le` say the same of any calls, by induction on them.
3. After a close: `signals_after_close` for the waits, `events_after_swap` for the swaps.
4. `orderly`: all of it together, for a buffer that starts out empty and open.
-/

namespace TraceRelay.Buffer

/-- A call. An event comes with the producer that pushes it, and a swap with a vector that may still
hold anything. -/
inductive Act (ι α : Type) where
  | push (p : ι) (e : α)
  | close
  | wait
  | swap (scratch : Array (ι × α))

/-- What a call gave. -/
inductive Reply (ι α : Type) where
  | pushed (p : ι) (e : α) (accepted : Bool)
  | closed (first : Bool)
  | waited (signal? : Option Signal)
  | swapped (taken : Array (ι × α))
  deriving DecidableEq, Repr

variable {ι α : Type}

def act (b : Buffer (ι × α)) : Act ι α → Buffer (ι × α) × Reply ι α
  | .push p e => ((b.push (p, e)).1, .pushed p e (b.push (p, e)).2)
  | .close => (b.close.1, .closed b.close.2)
  | .wait => (b.wait.1, .waited b.wait.2)
  | .swap scratch => ((b.swap scratch).1, .swapped (b.swap scratch).2)

/-- The buffer after some calls. -/
def after (b : Buffer (ι × α)) (as : List (Act ι α)) : Buffer (ι × α) :=
  as.foldl (fun b a => (b.act a).1) b

/-- What some calls gave, first to last. -/
def replies (b : Buffer (ι × α)) : List (Act ι α) → List (Reply ι α)
  | [] => []
  | a :: as => (b.act a).2 :: (b.act a).1.replies as

/-! ## What is read off the calls -/

def Act.isClose : Act ι α → Bool
  | .close => true
  | _ => false

def hasClose (as : List (Act ι α)) : Bool := as.any Act.isClose

/-- The calls before the first close. -/
def beforeClose (as : List (Act ι α)) : List (Act ι α) := as.takeWhile (!·.isClose)

def pushes (as : List (Act ι α)) : List (ι × α) :=
  as.filterMap fun
    | .push p e => some (p, e)
    | _ => none

/-- The events that producer `p` pushes, in its own order. -/
def pushesOf [DecidableEq ι] (p : ι) (as : List (Act ι α)) : List α :=
  as.filterMap fun
    | .push q e => if q = p then some e else none
    | _ => none

/-! ## What is read off the replies -/

def Reply.accepted : Reply ι α → List (ι × α)
  | .pushed p e true => [(p, e)]
  | _ => []

def Reply.taken : Reply ι α → List (ι × α)
  | .swapped taken => taken.toList
  | _ => []

def Reply.signals : Reply ι α → List (Option Signal)
  | .waited signal? => [signal?]
  | _ => []

def Reply.closes : Reply ι α → List Bool
  | .closed first => [first]
  | _ => []

/-- The events that were accepted, in the order of the pushes. -/
def accepted (rs : List (Reply ι α)) : List (ι × α) := rs.flatMap Reply.accepted

/-- The results of all swaps, joined. -/
def taken (rs : List (Reply ι α)) : List (ι × α) := rs.flatMap Reply.taken

/-- What the waits gave; none is for one that went on. -/
def signals (rs : List (Reply ι α)) : List (Option Signal) := rs.flatMap Reply.signals

/-- What the closes gave. -/
def closes (rs : List (Reply ι α)) : List Bool := rs.flatMap Reply.closes

/-- The number of wakes that waits gave. -/
def wakes (rs : List (Reply ι α)) : Nat := (signals rs).count (some .wake)

/-- A wait has returned, and no swap has come after it. -/
def WokenSinceSwap (rs : List (Reply ι α)) : Prop :=
  ∃ earlier signal since, rs = earlier ++ .waited (some signal) :: since ∧
    ∀ r ∈ since, ∀ taken, r ≠ .swapped taken

/-! ## One call -/

section OneCall

variable (b : Buffer (ι × α)) (a : Act ι α)

theorem events_act : (b.act a).2.taken ++ (b.act a).1.events.toList =
    b.events.toList ++ (b.act a).2.accepted := by
  cases a with
  | push p e =>
    cases hclosed : b.closed with
    | true => simp [act, push, hclosed, Reply.taken, Reply.accepted]
    | false => simp [act, push, hclosed, Reply.taken, Reply.accepted]
  | close => simp [act, close, Reply.taken, Reply.accepted]
  | wait => simp [act, Reply.taken, Reply.accepted]
  | swap scratch => simp [act, Reply.taken, Reply.accepted]

theorem closed_act : (b.act a).1.closed = (b.closed || a.isClose) := by
  cases a with
  | push p e =>
    cases hclosed : b.closed with
    | true => simp [act, push, hclosed]
    | false => simp [act, push, hclosed, Act.isClose]
  | close => simp [act, Act.isClose]
  | wait => simp [act, Act.isClose]
  | swap scratch => simp [act, swap, Act.isClose]

/-- A wake uses up the token, and only an accepted push leaves one. -/
theorem wakes_act : (b.act a).2.signals.count (some .wake) + (b.act a).1.token.toNat ≤
    b.token.toNat + (b.act a).2.accepted.length := by
  cases a with
  | push p e =>
    cases hclosed : b.closed with
    | true => simp [act, push, hclosed, Reply.signals]
    | false => simp [act, push, hclosed, Reply.signals, Reply.accepted]
  | close => simp [act, close, Reply.signals]
  | wait =>
    cases htoken : b.token with
    | true => simp [act, wait, htoken, Reply.signals]
    | false =>
      cases hclosed : b.closed with
      | true => simp [act, wait, htoken, hclosed, Reply.signals]
      | false => simp [act, wait, htoken, hclosed, Reply.signals]
  | swap scratch => simp [act, swap, Reply.signals]

theorem accepted_act : (b.act a).2.accepted = if b.closed then [] else pushes [a] := by
  cases a with
  | push p e =>
    cases hclosed : b.closed with
    | true => simp [act, push, hclosed, Reply.accepted]
    | false => simp [act, push, hclosed, Reply.accepted, pushes]
  | _ => simp [act, Reply.accepted, pushes]

theorem closes_act : (b.act a).2.closes = if a.isClose then [!b.closed] else [] := by
  cases a with
  | close => simp [act, close, Act.isClose, Reply.closes]
  | _ => simp [act, Act.isClose, Reply.closes]

end OneCall

/-! ## Any calls -/

@[simp] theorem after_nil (b : Buffer (ι × α)) : b.after [] = b := rfl

@[simp] theorem after_cons (b : Buffer (ι × α)) (a : Act ι α) (as : List (Act ι α)) :
    b.after (a :: as) = (b.act a).1.after as := rfl

theorem after_append (b : Buffer (ι × α)) (as more : List (Act ι α)) :
    b.after (as ++ more) = (b.after as).after more := List.foldl_append ..

theorem replies_append (b : Buffer (ι × α)) (as more : List (Act ι α)) :
    b.replies (as ++ more) = b.replies as ++ (b.after as).replies more := by
  induction as generalizing b with
  | nil => rfl
  | cons a as ih => simp only [List.cons_append, replies, ih, after_cons]

theorem taken_append (rs more : List (Reply ι α)) : taken (rs ++ more) = taken rs ++ taken more :=
  List.flatMap_append

/-- **Nothing is lost, doubled or moved**: what was taken and then what is queued is what was queued
and then what was accepted. -/
theorem taken_append_events (b : Buffer (ι × α)) (as : List (Act ι α)) :
    taken (b.replies as) ++ (b.after as).events.toList =
      b.events.toList ++ accepted (b.replies as) := by
  induction as generalizing b with
  | nil => simp [replies, taken, accepted]
  | cons a as ih =>
    have hact := b.events_act a
    calc taken (b.replies (a :: as)) ++ (b.after (a :: as)).events.toList
        = (b.act a).2.taken ++ (taken ((b.act a).1.replies as) ++
            ((b.act a).1.after as).events.toList) := by simp [replies, taken]
      _ = (b.act a).2.taken ++ (b.act a).1.events.toList ++ accepted ((b.act a).1.replies as) := by
          rw [ih, List.append_assoc]
      _ = b.events.toList ++ accepted (b.replies (a :: as)) := by
          rw [hact, List.append_assoc]; simp [replies, accepted]

theorem closed_after (b : Buffer (ι × α)) (as : List (Act ι α)) :
    (b.after as).closed = (b.closed || hasClose as) := by
  induction as generalizing b with
  | nil => simp [hasClose]
  | cons a as ih => rw [after_cons, ih, closed_act, Bool.or_assoc]; rfl

/-- The pushes before the first close are accepted, and no other. -/
theorem accepted_replies (b : Buffer (ι × α)) (as : List (Act ι α)) :
    accepted (b.replies as) = if b.closed then [] else pushes (beforeClose as) := by
  induction as generalizing b with
  | nil => simp [replies, accepted, beforeClose, pushes]
  | cons a as ih =>
    have hcons : accepted (b.replies (a :: as)) =
        (b.act a).2.accepted ++ accepted ((b.act a).1.replies as) := by simp [replies, accepted]
    rw [hcons, ih, closed_act, accepted_act]
    cases hclosed : b.closed with
    | true => simp
    | false =>
      cases a with
      | close => simp [Act.isClose, beforeClose, pushes]
      | push p e => simp [Act.isClose, beforeClose, pushes]
      | wait => simp [Act.isClose, beforeClose, pushes]
      | swap scratch => simp [Act.isClose, beforeClose, pushes]

theorem count_closes (b : Buffer (ι × α)) (as : List (Act ι α)) :
    (closes (b.replies as)).count true = (!b.closed && hasClose as).toNat := by
  induction as generalizing b with
  | nil => simp [replies, closes, hasClose]
  | cons a as ih =>
    have hcons : closes (b.replies (a :: as)) =
        (b.act a).2.closes ++ closes ((b.act a).1.replies as) := by simp [replies, closes]
    have hhas : hasClose (a :: as) = (a.isClose || hasClose as) := rfl
    rw [hcons, List.count_append, ih, closed_act, closes_act, hhas]
    cases b.closed <;> cases a.isClose <;> simp

/-- Every wake but one is owed to an accepted push. -/
theorem wakes_le (b : Buffer (ι × α)) (as : List (Act ι α)) :
    wakes (b.replies as) + (b.after as).token.toNat ≤
      b.token.toNat + (accepted (b.replies as)).length := by
  induction as generalizing b with
  | nil => simp [replies, wakes, signals]
  | cons a as ih =>
    have hact := b.wakes_act a
    have hrest := ih (b.act a).1
    have hwakes : wakes (b.replies (a :: as)) =
        (b.act a).2.signals.count (some .wake) + wakes ((b.act a).1.replies as) := by
      simp [replies, wakes, signals]
    have haccepted : (accepted (b.replies (a :: as))).length =
        (b.act a).2.accepted.length + (accepted ((b.act a).1.replies as)).length := by
      simp [replies, accepted]
    rw [hwakes, haccepted, after_cons]
    omega

/-! ## Events that wait to be taken -/

theorem WokenSinceSwap.concat {rs : List (Reply ι α)} (h : WokenSinceSwap rs) {r : Reply ι α}
    (other : ∀ taken, r ≠ .swapped taken) : WokenSinceSwap (rs ++ [r]) := by
  obtain ⟨earlier, signal, since, rfl, hsince⟩ := h
  refine ⟨earlier, signal, since ++ [r], by simp, ?_⟩
  intro r' hr'
  rcases List.mem_append.mp hr' with hr' | hr'
  · exact hsince r' hr'
  · rw [List.mem_singleton.mp hr']
    exact other

/-- Something tells the write loop of the events that are queued. -/
def Announced (b : Buffer (ι × α)) (rs : List (Reply ι α)) : Prop :=
  b.events ≠ #[] → b.token = true ∨ b.closed = true ∨ WokenSinceSwap rs

/-- The token goes to a wait that returns, and events go with the swap. -/
theorem Announced.act {b : Buffer (ι × α)} {rs : List (Reply ι α)} (h : Announced b rs)
    (a : Act ι α) : Announced (b.act a).1 (rs ++ [(b.act a).2]) := by
  cases a with
  | push p e =>
    cases hclosed : b.closed with
    | true =>
      intro _
      refine .inr (.inl ?_)
      rw [closed_act, hclosed]
      rfl
    | false =>
      intro _
      refine .inl ?_
      simp [Buffer.act, push, hclosed]
  | close => exact fun _ => .inr (.inl rfl)
  | swap scratch =>
    intro hevents
    exact absurd (swap_events b scratch) hevents
  | wait =>
    intro hevents
    have hqueued : b.events ≠ #[] := by simpa [Buffer.act] using hevents
    have hother : ∀ taken, Reply.waited (ι := ι) (α := α) b.wait.2 ≠ .swapped taken := by
      intro taken heq
      cases heq
    rcases h hqueued with htoken | hclosed | hwoken
    · refine .inr (.inr ⟨rs, .wake, [], ?_, List.forall_mem_nil _⟩)
      simp [Buffer.act, wait_of_token htoken]
    · refine .inr (.inl ?_)
      rw [closed_act, hclosed]
      rfl
    · exact .inr (.inr (hwoken.concat hother))

theorem announced (as : List (Act ι α)) :
    Announced ((empty : Buffer (ι × α)).after as) (replies empty as) := by
  induction as using List.reverseRecOn with
  | nil => exact fun h => absurd rfl h
  | append_singleton as a ih =>
    rw [after_append, replies_append]
    exact ih.act a

/-! ## After the close -/

/-- **After the close** a wait gives the token that is still pending, if one is, and closed from then
on. None goes on waiting. -/
theorem signals_after_close {b : Buffer (ι × α)} (closed : b.closed = true) (as : List (Act ι α)) :
    ∃ n, signals (b.replies as) = ((bif b.token then [some Signal.wake] else []) ++
      List.replicate n (some Signal.closed)).take n := by
  induction as generalizing b with
  | nil => exact ⟨0, rfl⟩
  | cons a as ih =>
    have hclosed : (b.act a).1.closed = true := by rw [closed_act, closed]; rfl
    obtain ⟨n, hn⟩ := ih hclosed
    have hcons : signals (b.replies (a :: as)) =
        (b.act a).2.signals ++ signals ((b.act a).1.replies as) := by simp [replies, signals]
    rw [hcons, hn]
    cases a with
    | wait =>
      refine ⟨n + 1, ?_⟩
      cases htoken : b.token with
      | true => simp [act, wait, htoken, Reply.signals, List.take_of_length_le]
      | false =>
        simp [act, wait, htoken, closed, Reply.signals, List.take_of_length_le, List.replicate_succ]
    | push p e => exact ⟨n, by simp [act, push, closed, Reply.signals]⟩
    | close => exact ⟨n, by simp [act, close, Reply.signals]⟩
    | swap scratch => exact ⟨n, by simp [act, swap, Reply.signals]⟩

/-- After the close and a swap nothing is ever queued again. -/
theorem events_after_swap {b : Buffer (ι × α)} (closed : b.closed = true)
    (scratch : Array (ι × α)) (as : List (Act ι α)) :
    ((b.act (.swap scratch)).1.after as).events = #[] := by
  have hkept := taken_append_events (b.act (.swap scratch)).1 as
  have hclosed : (b.act (.swap scratch)).1.closed = true := closed
  have hempty : (b.act (.swap scratch)).1.events = #[] := swap_events b scratch
  rw [accepted_replies, hclosed, if_pos rfl, hempty] at hkept
  have hnil := (List.append_eq_nil_iff.mp hkept).2
  exact Array.toList_eq_nil_iff.mp hnil

/-! ## All together -/

theorem pushesOf_eq [DecidableEq ι] (p : ι) (as : List (Act ι α)) :
    pushesOf p as = ((pushes as).filter (·.1 = p)).map Prod.snd := by
  induction as with
  | nil => rfl
  | cons a as ih =>
    cases a with
    | push q e =>
      by_cases hq : q = p
      · simpa [pushesOf, pushes, hq] using ih
      · simpa [pushesOf, pushes, hq] using ih
    | _ => simpa [pushesOf, pushes] using ih

/-- What holds after the calls `as` on a buffer that was empty and open. The next call is any. -/
structure Orderly [DecidableEq ι] (as : List (Act ι α)) (b : Buffer (ι × α))
    (rs : List (Reply ι α)) : Prop where
  /-- The results of all swaps and then the queue are the accepted pushes in their order. -/
  kept : taken rs ++ b.events.toList = accepted rs
  /-- Those are the pushes before the first close. -/
  accepted_eq : accepted rs = pushes (beforeClose as)
  /-- Of each producer they are in its own order. -/
  producer : ∀ p, ((taken rs ++ b.events.toList).filter (·.1 = p)).map Prod.snd =
    pushesOf p (beforeClose as)
  /-- A push is accepted if and only if there was no close. -/
  push_accepted : ∀ p e, (b.act (.push p e)).2 = .pushed p e (!hasClose as)
  /-- A close is the first if and only if there was none. -/
  close_first : (b.act .close).2 = .closed (!hasClose as)
  /-- If there is a close, exactly one returns true. -/
  one_close : (closes rs).count true = (hasClose as).toNat
  /-- No two wakes without a push in between: at most one token is pending. -/
  one_wake : ∀ more, accepted (b.replies more) = [] → wakes (b.replies more) ≤ b.token.toNat
  announced : b.events ≠ #[] → b.token = true ∨ hasClose as = true ∨ WokenSinceSwap rs
  /-- After a close, a wait gives the pending token, and then closed for ever. -/
  last_wake : hasClose as = true → ∀ more, ∃ n, signals (b.replies more) =
    ((bif b.token then [some Signal.wake] else []) ++ List.replicate n (some Signal.closed)).take n
  /-- After a close, a swap takes all that is left, and leaves nothing for good. -/
  last_swap : hasClose as = true → ∀ scratch,
    (b.act (.swap scratch)).2 = .swapped b.events ∧
    taken (rs ++ [(b.act (.swap scratch)).2]) = accepted rs ∧
    ∀ more, ((b.act (.swap scratch)).1.after more).events = #[]

/-- **A buffer keeps the order of its pushes, its token and its close**, whatever calls are made in
whatever order. -/
theorem orderly [DecidableEq ι] (as : List (Act ι α)) :
    Orderly as ((empty : Buffer (ι × α)).after as) (replies empty as) := by
  have hclosed : ((empty : Buffer (ι × α)).after as).closed = hasClose as := by
    rw [closed_after]
    exact Bool.false_or _
  have hkept : taken (replies empty as) ++ (after empty as).events.toList =
      accepted (replies (empty : Buffer (ι × α)) as) := by
    rw [taken_append_events]
    exact List.nil_append _
  have haccepted : accepted (replies (empty : Buffer (ι × α)) as) = pushes (beforeClose as) :=
    accepted_replies empty as
  have hannounced := announced as
  have hcount := count_closes (empty : Buffer (ι × α)) as
  generalize (empty : Buffer (ι × α)).after as = b at *
  constructor
  · exact hkept
  · exact haccepted
  · intro p
    rw [hkept, haccepted, pushesOf_eq]
  · intro p e
    rw [← hclosed, act, Buffer.push_accepted]
  · rw [← hclosed]
    rfl
  · rw [hcount]
    rfl
  · intro more hnone
    have hle := b.wakes_le more
    rw [hnone, List.length_nil] at hle
    omega
  · rw [← hclosed]
    exact hannounced
  · intro hhas more
    exact signals_after_close (hclosed.trans hhas) more
  · intro hhas scratch
    refine ⟨rfl, ?_, fun more => events_after_swap (hclosed.trans hhas) scratch more⟩
    rw [taken_append, ← hkept]
    simp [taken, act, Reply.taken]

/-- Two producers. A push comes between a wake and its swap, another between the close and the last
wake; the vectors that are given for the events are not empty. -/
example : (empty : Buffer (Bool × Nat)).replies [.push true 1, .wait, .push false 2, .swap #[(true, 9)],
    .push true 3, .close, .push false 4, .wait, .wait, .swap #[(false, 8)], .close] =
    [.pushed true 1 true, .waited (some .wake), .pushed false 2 true,
      .swapped #[(true, 1), (false, 2)], .pushed true 3 true, .closed true, .pushed false 4 false,
      .waited (some .wake), .waited (some .closed), .swapped #[(true, 3)], .closed false] := by
  decide

end TraceRelay.Buffer
