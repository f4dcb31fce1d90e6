import Mathlib.Data.List.Chain
import Mathlib.Data.List.ModifyLast
import TraceRelay.Proofs.Connector

/-!
# The attempts of an opening

A `Bid` is one opening with what it goes on in: the host, which others may use as well, the two orders
that it can be given, and the clock. The clock is one of a settled world: it goes on only while the
opening has nothing to do, and not past the time at which it has.

Along a `Run` the attempts are noted down, with what the host made of each (`Attempt`).

1. `Follows` says what comes after an attempt and when, `verdict` what becomes of one and when.
2. `Stage` ties the attempts to the state of the opening. Only where a stream has been opened is there an
   attempt that opened one (`Stage.hasStream_iff`).
3. `step_or_due`: an opening that is under way has a step to make, now or when it is due.
-/

namespace TraceRelay

/-- When the answer to a call made at `t` comes, and whether it grants what was asked for. -/
def Reaction.reply? {α : Type} (r : Reaction α) (t : Nat) : Option (Nat × Bool) :=
  r.answer?.map fun answer => (t + r.delay, answer.isOk)

def Answer.isGood : Answer → Bool
  | .refused _ => false
  | _ => true

/-- An answer to a call for the errand, and not for the other. -/
def Answer.Suits : Answer → Errand → Prop
  | .connected, errand => errand = .connect
  | .stream _, errand => errand = .stream
  | .refused _, _ => True

def Opening.isFailed : Opening → Bool
  | .failed _ _ => true
  | _ => false

namespace Connector

/-- An opening, and what it goes on in. -/
structure Bid where
  net : Net
  cancelled : Bool
  stopped : Bool
  opening : Opening
  /-- The failed attempts that were counted. -/
  failures : Nat

inductive Move where
  | work
  | advance (t : Nat)
  | cancel
  | stop
  /-- Someone else uses the host. -/
  | others (net : Net)

namespace Bid

def start (net : Net) : Bid := ⟨net, false, false, .start, 0⟩

def step (c : Connector) (b : Bid) : Option Opening.Turn :=
  c.step b.cancelled b.stopped b.net b.opening

/-- A step has been made. -/
def turned (b : Bid) (turn : Opening.Turn) : Bid :=
  { b with
    net := turn.net
    opening := turn.opening
    failures := if turn.counted then b.failures + 1 else b.failures }

/-- The bid after a move; none if it cannot be made. -/
def move (c : Connector) (b : Bid) : Move → Option Bid
  | .work => (b.step c).map b.turned
  | .advance t =>
    if (b.step c).isNone ∧ b.net.clock ≤ t ∧ b.opening.due.all (t ≤ ·) then
      some { b with net := { b.net with clock := t } }
    else none
  | .cancel => some { b with cancelled := true }
  | .stop => some { b with stopped := true }
  | .others net => if net.clock = b.net.clock then some { b with net } else none

end Bid

/-- A call to the host, and what came of it. -/
structure Attempt where
  errand : Errand
  began : Nat
  /-- When the host answers, and whether it grants what was asked for; none if it never answers. -/
  reply? : Option (Nat × Bool)
  /-- When it was over, and whether it had succeeded; none while it is not, or if it was given up. -/
  over? : Option (Nat × Bool)
  deriving DecidableEq, Repr

/-- The attempt that begins with a call. -/
def Attempt.begin (net : Net) : Errand → Attempt
  | .connect => ⟨.connect, net.clock, net.connects.next.1.reply? net.clock, none⟩
  | .stream => ⟨.stream, net.clock, net.streams.next.1.reply? net.clock, none⟩

/-- The call that is made for an attempt. -/
def Attempt.call (c : Connector) (a : Attempt) : Call :=
  match a.errand with
  | .connect => .connect a.began c.target
  | .stream => .newStream a.began c.target.peer c.protocol

/-- The attempts so far, with what a step adds. -/
def noteTurn (b : Bid) (turn : Opening.Turn) (tried : List Attempt) : List Attempt :=
  if b.cancelled then tried
  else match b.opening, turn.opening with
  | .calling _ _ _, o =>
    tried.modifyLast fun a => { a with over? := some (b.net.clock, !o.isFailed) }
  | _, .calling errand _ _ => tried ++ [.begin b.net errand]
  | _, _ => tried

def note (c : Connector) (b : Bid) (tried : List Attempt) : Move → List Attempt
  | .work =>
    match b.step c with
    | some turn => noteTurn b turn tried
    | none => tried
  | _ => tried

/-- The calls to the host that the opening makes by a move. -/
def Bid.made (c : Connector) (b : Bid) : Move → List Call
  | .work =>
    match b.step c with
    | some turn => turn.net.calls.toList.drop b.net.calls.size
    | none => []
  | _ => []

/-- What may have happened: the moves, the calls that the opening made, and the attempts. -/
inductive Run (c : Connector) (b₀ : Bid) : List Move → List Call → List Attempt → Bid → Prop where
  | start : Run c b₀ [] [] [] b₀
  | move {ms : List Move} {calls : List Call} {tried : List Attempt} {b b' : Bid} {m : Move}
      (r : Run c b₀ ms calls tried b) (h : b.move c m = some b') :
      Run c b₀ (ms ++ [m]) (calls ++ b.made c m) (c.note b tried m) b'

/-! ## What comes of an attempt, and what comes after it -/

/-- Until when an attempt may take. -/
def Attempt.limit (c : Connector) (a : Attempt) : Nat := a.began + c.attemptTimeout.ticks

/-- When an attempt is over, and whether it has succeeded: as the host answers, or else at the limit. -/
def Attempt.verdict (c : Connector) (a : Attempt) : Nat × Bool :=
  match a.reply? with
  | some (t, good) => if t ≤ a.limit c then (t, good) else (a.limit c, false)
  | none => (a.limit c, false)

/-- What may come after an attempt: once connected, a stream is asked for at once; after a failure
there is a rest and then a connect; nothing comes after a stream. -/
def Follows (c : Connector) (a next : Attempt) : Prop :=
  match a.errand, a.over? with
  | .connect, some (t, true) => next.errand = .stream ∧ next.began = t
  | .stream, some (_, true) => False
  | _, some (t, false) => next.errand = .connect ∧ next.began = t + c.retryInterval.ticks
  | _, none => False

structure InTurn (c : Connector) (tried : List Attempt) : Prop where
  first : ∀ a ∈ tried.head?, a.errand = .connect
  chain : tried.IsChain (Follows c)

/-- A stream was opened by one of the attempts. -/
def HasStream (tried : List Attempt) : Prop :=
  ∃ a ∈ tried, a.errand = .stream ∧ ∃ t, a.over? = some (t, true)

variable {c : Connector} {tried done : List Attempt} {a next : Attempt} {t : Nat}

theorem Follows.after_failure (failed : a.over? = some (t, false)) (errand : next.errand = .connect)
    (began : next.began = t + c.retryInterval.ticks) : Follows c a next := by
  unfold Follows
  rw [failed]
  cases a.errand <;> exact ⟨errand, began⟩

theorem Follows.after_connect (connect : a.errand = .connect) (granted : a.over? = some (t, true))
    (errand : next.errand = .stream) (began : next.began = t) : Follows c a next := by
  unfold Follows
  rw [connect, granted]
  exact ⟨errand, began⟩

theorem not_follows_stream (stream : a.errand = .stream) (granted : a.over? = some (t, true)) :
    ¬ Follows c a next := by
  unfold Follows
  rw [stream, granted]
  exact id

theorem InTurn.nil : InTurn c [] := ⟨nofun, .nil⟩

theorem InTurn.singleton (connect : a.errand = .connect) : InTurn c [a] where
  first := by
    intro x hx
    cases hx
    exact connect
  chain := .singleton a

theorem InTurn.concat (h : InTurn c (done ++ [a])) (follows : Follows c a next) :
    InTurn c (done ++ [a] ++ [next]) where
  first := by
    have hhead : (done ++ [a] ++ [next]).head? = (done ++ [a]).head? := by cases done <;> rfl
    rw [hhead]
    exact h.first
  chain := by
    refine List.isChain_append.mpr ⟨h.chain, .singleton _, ?_⟩
    intro x hx y hy
    rw [List.getLast?_concat, Option.mem_some_iff] at hx
    rw [List.head?_singleton, Option.mem_some_iff] at hy
    rw [← hx, ← hy]
    exact follows

/-- The last attempt may be seen to its end. -/
theorem InTurn.relast {b : Attempt} (h : InTurn c (done ++ [a])) (errand : b.errand = a.errand)
    (began : b.began = a.began) : InTurn c (done ++ [b]) where
  first := by
    have hfirst := h.first
    cases done with
    | nil => simpa [errand] using hfirst
    | cons x done => exact hfirst
  chain := by
    obtain ⟨hdone, -, hlast⟩ := List.isChain_append.mp h.chain
    refine List.isChain_append.mpr ⟨hdone, .singleton _, ?_⟩
    intro x hx y hy
    have hfollows := hlast x hx a rfl
    rw [List.head?_singleton, Option.mem_some_iff] at hy
    rw [← hy]
    unfold Follows at hfollows ⊢
    rw [errand, began]
    exact hfollows

/-- Only the last attempt can have opened a stream. -/
theorem InTurn.eq_last {x : Attempt} (h : InTurn c (done ++ [a])) (mem : x ∈ done ++ [a])
    (stream : x.errand = .stream) (granted : x.over? = some (t, true)) : x = a := by
  rcases List.mem_append.mp mem with hx | hx
  · obtain ⟨l, r, rfl⟩ := List.append_of_mem hx
    rw [List.append_assoc, List.cons_append] at h
    have hrest := (List.isChain_append.mp h.chain).2.1
    cases r with
    | nil => exact absurd (List.isChain_cons_cons.mp hrest).1 (not_follows_stream stream granted)
    | cons y r => exact absurd (List.isChain_cons_cons.mp hrest).1 (not_follows_stream stream granted)
  · exact List.mem_singleton.mp hx

theorem InTurn.hasStream_iff (h : InTurn c (done ++ [a])) :
    HasStream (done ++ [a]) ↔ a.errand = .stream ∧ ∃ t, a.over? = some (t, true) := by
  constructor
  · rintro ⟨x, hx, hstream, t, hover⟩
    have heq := h.eq_last hx hstream hover
    rw [heq] at hstream hover
    exact ⟨hstream, t, hover⟩
  · rintro ⟨hstream, t, hover⟩
    exact ⟨a, by simp, hstream, t, hover⟩

/-! ## What is known of an opening -/

/-- The attempts that an opening in some state has behind it at `clock`. -/
inductive Stage (c : Connector) (clock : Nat) : List Attempt → Opening → Prop where
  | begun : Stage c clock [] (.ready .connect)
  | connected {done : List Attempt} {a : Attempt} (connect : a.errand = .connect)
      (finished : a.over? = some (clock, true)) : Stage c clock (done ++ [a]) (.ready .stream)
  | calling {done : List Attempt} {a : Attempt} {answer? : Option (Nat × Answer)}
      (open_ : a.over? = none) (reply : a.reply? = answer?.map fun (t, answer) => (t, answer.isGood))
      (suits : ∀ t answer, answer? = some (t, answer) → answer.Suits a.errand)
      (early : ∀ d ∈ (Opening.calling a.errand (a.limit c) answer?).due, clock ≤ d) :
      Stage c clock (done ++ [a]) (.calling a.errand (a.limit c) answer?)
  | failed {done : List Attempt} {a : Attempt} {e : OpenFailure}
      (finished : a.over? = some (clock, false)) : Stage c clock (done ++ [a]) (.failed a.errand e)
  | resting {done : List Attempt} {a : Attempt} {t : Nat} (finished : a.over? = some (t, false))
      (early : clock ≤ t + c.retryInterval.ticks) :
      Stage c clock (done ++ [a]) (.resting (t + c.retryInterval.ticks))
  | opened {done : List Attempt} {a : Attempt} {t i : Nat} (stream : a.errand = .stream)
      (finished : a.over? = some (t, true)) : Stage c clock (done ++ [a]) (.opened i)
  | gaveUp {tried : List Attempt} {e : OpenFailure} (none_opened : ¬ HasStream tried) :
      Stage c clock tried (.gaveUp e)

theorem Stage.hasStream_iff {clock : Nat} {o : Opening} (h : Stage c clock tried o)
    (inTurn : InTurn c tried) : HasStream tried ↔ ∃ i, o = .opened i := by
  cases h with
  | begun => simp [HasStream]
  | connected connect finished =>
    rw [inTurn.hasStream_iff, connect]
    simp
  | @calling done a answer? open_ =>
    rw [inTurn.hasStream_iff, open_]
    simp
  | failed finished =>
    rw [inTurn.hasStream_iff, finished]
    simp
  | resting finished =>
    rw [inTurn.hasStream_iff, finished]
    simp
  | opened stream finished =>
    rw [inTurn.hasStream_iff, finished]
    simp [stream]
  | gaveUp none_opened => simp [none_opened]

/-! ## Steps -/

theorem reply_answerAt {α : Type} (t : Nat) (r : Reaction α) {given : α → Answer}
    (good : ∀ x, (given x).isGood = true) :
    (answerAt t r given).map (fun (t, answer) => (t, answer.isGood)) = r.reply? t := by
  unfold answerAt Reaction.reply?
  cases r.answer? with
  | none => rfl
  | some answer =>
    cases answer with
    | ok x => simp [good, Except.isOk, Except.toBool]
    | error f => simp [Answer.isGood, Except.isOk, Except.toBool]

/-- An answer comes no earlier than the call, and suits it. -/
theorem answerAt_spec {α : Type} {t s : Nat} {r : Reaction α} {given : α → Answer} {errand : Errand}
    {answer : Answer} (h : answerAt t r given = some (s, answer))
    (suits : ∀ x, (given x).Suits errand) : t ≤ s ∧ answer.Suits errand := by
  unfold answerAt at h
  obtain ⟨x, -, hx⟩ := Option.map_eq_some_iff.mp h
  cases hx
  refine ⟨Nat.le_add_right .., ?_⟩
  cases x with
  | ok x => exact suits x
  | error f => trivial

/-- A call begins the attempt that is noted down. -/
theorem call_spec (c : Connector) (net : Net) (errand : Errand) :
    ∃ answer?, (c.call net errand).2 =
        .calling errand ((Attempt.begin net errand).limit c) answer? ∧
      (Attempt.begin net errand).reply? = answer?.map (fun (t, answer) => (t, answer.isGood)) ∧
      (∀ t answer, answer? = some (t, answer) → net.clock ≤ t ∧ answer.Suits errand) ∧
      (c.call net errand).1.clock = net.clock ∧
      (c.call net errand).1.calls = net.calls.push ((Attempt.begin net errand).call c) := by
  cases errand with
  | connect =>
    refine ⟨_, rfl, (reply_answerAt net.clock net.connects.next.1 fun _ => rfl).symm, ?_, rfl, rfl⟩
    exact fun t answer h => answerAt_spec h fun _ => rfl
  | stream =>
    refine ⟨_, rfl, (reply_answerAt net.clock net.streams.next.1 fun _ => rfl).symm, ?_, rfl, rfl⟩
    exact fun t answer h => answerAt_spec h fun _ => rfl

theorem Attempt.errand_begin (net : Net) (errand : Errand) :
    (Attempt.begin net errand).errand = errand := by cases errand <;> rfl

theorem Attempt.began_begin (net : Net) (errand : Errand) :
    (Attempt.begin net errand).began = net.clock := by cases errand <;> rfl

theorem Attempt.over_begin (net : Net) (errand : Errand) :
    (Attempt.begin net errand).over? = none := by cases errand <;> rfl

/-- An answer that comes in time is the verdict. -/
theorem Attempt.verdict_of_reply {clock s : Nat} {answer : Answer}
    {answer? : Option (Nat × Answer)} (hanswer : answer? = some (s, answer))
    (reply : a.reply? = answer?.map fun (t, answer) => (t, answer.isGood))
    (early : ∀ d ∈ (Opening.calling a.errand (a.limit c) answer?).due, clock ≤ d)
    (due : s ≤ clock) : a.verdict c = (clock, answer.isGood) := by
  subst hanswer
  have hearly := early _ rfl
  have hclock : clock = s := by omega
  have hlimit : s ≤ a.limit c := by omega
  rw [verdict, reply]
  simp [hlimit, hclock]

/-- Without an answer the verdict is given at the limit. -/
theorem Attempt.verdict_of_limit {clock : Nat} {answer? : Option (Nat × Answer)}
    (reply : a.reply? = answer?.map fun (t, answer) => (t, answer.isGood))
    (early : ∀ d ∈ (Opening.calling a.errand (a.limit c) answer?).due, clock ≤ d)
    (unanswered : answer?.filter (·.1 ≤ clock) = none) (due : a.limit c ≤ clock) :
    a.verdict c = (clock, false) := by
  rw [verdict, reply]
  cases answer? with
  | none =>
    have hearly := early _ rfl
    have hclock : clock = a.limit c := by omega
    rw [hclock]
    rfl
  | some answered =>
    obtain ⟨s, answer⟩ := answered
    have hearly := early _ rfl
    have hlate : ¬ s ≤ clock := by simpa [Option.filter] using unanswered
    have hclock : clock = a.limit c := by omega
    have hlimit : ¬ s ≤ a.limit c := by omega
    simp [hlimit, hclock]

/-- Whatever is under way can go on, if not now then when it is due. -/
theorem step_or_due (c : Connector) (cancelled stopped : Bool) (net : Net) {o : Opening}
    (under_way : o.result? = none) :
    (c.step cancelled stopped net o).isSome ∨ ∃ d, o.due = some d ∧ net.clock < d ∧
      (c.step cancelled stopped { net with clock := d } o).isSome := by
  cases cancelled with
  | true => cases o with
    | opened | gaveUp => cases under_way
    | _ => exact .inl rfl
  | false => cases o with
    | opened | gaveUp => cases under_way
    | ready | failed => exact .inl rfl
    | resting deadline =>
      cases stopped with
      | true => exact .inl rfl
      | false =>
        by_cases hdue : deadline ≤ net.clock
        · exact .inl (by simp [step, hdue])
        · exact .inr ⟨deadline, rfl, by omega, by simp [step]⟩
    | calling errand deadline answer? =>
      cases answer? with
      | none =>
        by_cases hdue : deadline ≤ net.clock
        · exact .inl (by simp [step, hdue])
        · exact .inr ⟨deadline, rfl, by omega, by simp [step]⟩
      | some answered =>
        obtain ⟨t, answer⟩ := answered
        by_cases hanswer : t ≤ net.clock
        · exact .inl (by simp [step, Option.filter, hanswer])
        · by_cases hdue : deadline ≤ net.clock
          · exact .inl (by simp [step, Option.filter, hanswer, hdue])
          · refine .inr ⟨min deadline t, rfl, by omega, ?_⟩
            by_cases hle : t ≤ deadline
            · simp [step, Option.filter, hle]
            · simp [step, Option.filter, Nat.min_eq_left (by omega : deadline ≤ t), hle]

/-- While the clock may go on, an opening is called for, rests, or is over. -/
theorem Stage.advance {clock : Nat} {b : Bid} (h : Stage c b.net.clock tried b.opening)
    (idle : b.step c = none) (early : b.opening.due.all (clock ≤ ·) = true) :
    Stage c clock tried b.opening := by
  have hsome : ∀ {o : Opening}, b.opening = o → b.step c = c.step b.cancelled b.stopped b.net o := by
    intro o ho
    rw [Bid.step, ho]
  generalize hclock : b.net.clock = now at h
  generalize ho : b.opening = o at h early
  cases h with
  | begun | connected | failed =>
    rw [hsome ho] at idle
    cases hcancelled : b.cancelled <;> simp [hcancelled, step] at idle
  | calling open_ reply suits _ =>
    refine .calling open_ reply suits fun d hd => ?_
    rw [Option.mem_def.mp hd] at early
    exact of_decide_eq_true early
  | resting finished _ =>
    exact .resting finished (of_decide_eq_true early)
  | opened stream finished => exact .opened stream finished
  | gaveUp none_opened => exact .gaveUp none_opened

end Connector

end TraceRelay
