import Mathlib.Computability.Language
import TraceRelay.Proofs.Connector.Attempts

/-!
# The order of calls

The attempts of an opening, each with whether it succeeds, make up a word. `callOrder` is the language of
the openings that come to a stream: rounds that end with a refused stream, and then refused connects, a
connect and a stream. Whatever the host does, and whenever the opening is cancelled or stopped, the
attempts so far can be completed to a word of it (`InTurn.completes`).
-/

namespace TraceRelay.Connector

open scoped Computability

/-! ## The language -/

/-- An attempt, and whether it succeeds. -/
abbrev Try := Errand × Bool

def refusals : Language Try := {[(.connect, false)]}∗

/-- A round in which a connect succeeds and no stream is granted. -/
def round : Language Try := refusals * {[(.connect, true)]} * {[(.stream, false)]}

/-- What an opening does until it has a stream. -/
def callOrder : Language Try := round∗ * refusals * {[(.connect, true)]} * {[(.stream, true)]}

/-- What may come after a try. -/
def Leads : Try → Try → Prop
  | (_, false), next => next.1 = .connect
  | (.connect, true), next => next.1 = .stream
  | (.stream, true), _ => False

/-- The words of openings that have come to a try; at the beginning to none. -/
def upTo : Option Try → Language Try
  | some (.connect, true) => round∗ * refusals * {[(.connect, true)]}
  | some (.stream, true) => callOrder
  | _ => round∗ * refusals

variable {w : List Try} {x y : Try}

theorem upTo_refused (errand : Errand) : upTo (some (errand, false)) = round∗ * refusals := by
  cases errand <;> rfl

theorem concat_refused (h : w ∈ round∗ * refusals) :
    w ++ [(.connect, false)] ∈ round∗ * refusals := by
  have hle : round∗ * refusals * {[(.connect, false)]} ≤ round∗ * refusals := by
    rw [mul_assoc]
    exact mul_le_mul_right kstar_mul_le_kstar _
  exact hle (Language.append_mem_mul h rfl)

theorem concat_round (h : w ∈ round∗ * refusals * {[(.connect, true)]}) :
    w ++ [(.stream, false)] ∈ round∗ * refusals := by
  have hround : w ++ [(.stream, false)] ∈ round∗ * round := by
    rw [round, ← mul_assoc, ← mul_assoc]
    exact Language.append_mem_mul h rfl
  have hle : round∗ * round ≤ round∗ := kstar_mul_le_kstar
  have hrounds : w ++ [(.stream, false)] ∈ round∗ := hle hround
  rw [← List.append_nil (w ++ _)]
  exact Language.append_mem_mul hrounds (Language.nil_mem_kstar _)

/-- A connect comes where none is under way. -/
theorem concat_connect (ok : Bool) (h : w ∈ round∗ * refusals) :
    w ++ [(.connect, ok)] ∈ upTo (some (.connect, ok)) := by
  cases ok with
  | true => exact Language.append_mem_mul h rfl
  | false => exact concat_refused h

theorem concat_stream (ok : Bool) (h : w ∈ upTo (some (.connect, true))) :
    w ++ [(.stream, ok)] ∈ upTo (some (.stream, ok)) := by
  cases ok with
  | true => exact Language.append_mem_mul h rfl
  | false => exact concat_round h

theorem mem_upTo (first : ∀ x ∈ w.head?, x.1 = .connect) (chain : w.IsChain Leads) :
    w ∈ upTo w.getLast? := by
  induction w using List.reverseRecOn with
  | nil => exact Language.append_mem_mul (Language.nil_mem_kstar _) (Language.nil_mem_kstar _)
  | append_singleton w x ih =>
    obtain ⟨hbefore, -, hlast⟩ := List.isChain_append.mp chain
    rw [List.getLast?_concat]
    obtain ⟨errand, ok⟩ := x
    cases hw : w.getLast? with
    | none =>
      rw [List.getLast?_eq_none_iff] at hw
      subst hw
      rw [show errand = .connect from first _ rfl]
      exact concat_connect ok (ih (by nofun) .nil)
    | some y =>
      have hmem : w ∈ upTo (some y) := by
        rw [← hw]
        refine ih (fun x hx => first x ?_) hbefore
        cases w with
        | nil => cases hx
        | cons z w => exact hx
      have hleads : Leads y (errand, ok) := hlast y hw _ rfl
      obtain ⟨before, good⟩ := y
      cases good with
      | false =>
        rw [upTo_refused] at hmem
        have herrand : errand = .connect := by cases before <;> exact hleads
        rw [herrand]
        exact concat_connect ok hmem
      | true => cases before with
        | connect =>
          rw [show errand = .stream from hleads]
          exact concat_stream ok hmem
        | stream => exact hleads.elim

theorem completes_connected (h : w ∈ upTo (some (.connect, true))) :
    w ++ [(.stream, true)] ∈ callOrder := Language.append_mem_mul h rfl

theorem completes_refused (h : w ∈ round∗ * refusals) :
    w ++ [(.connect, true), (.stream, true)] ∈ callOrder := by
  have hconnected : w ++ [(.connect, true)] ∈ upTo (some (.connect, true)) := concat_connect true h
  rw [List.append_cons]
  exact completes_connected hconnected

/-- **Tries that come in turn begin a word of `callOrder`.** -/
theorem completes (first : ∀ x ∈ w.head?, x.1 = .connect) (chain : w.IsChain Leads) :
    ∃ more, w ++ more ∈ callOrder := by
  have hmem := mem_upTo first chain
  cases hw : w.getLast? with
  | none =>
    rw [hw] at hmem
    exact ⟨_, completes_refused hmem⟩
  | some y =>
    rw [hw] at hmem
    obtain ⟨before, good⟩ := y
    cases good with
    | false =>
      rw [upTo_refused] at hmem
      exact ⟨_, completes_refused hmem⟩
    | true => cases before with
      | connect => exact ⟨_, completes_connected hmem⟩
      | stream => exact ⟨[], by rw [List.append_nil]; exact hmem⟩

/-! ## The attempts of an opening -/

/-- An attempt as a try; `ok` is what becomes of one that is not over. -/
def Attempt.outcome (ok : Bool) (a : Attempt) : Try := (a.errand, (a.over?.map Prod.snd).getD ok)

variable {c : Connector} {tried : List Attempt}

theorem Follows.leads {a next : Attempt} (h : Follows c a next) (ok : Bool) :
    Leads (a.outcome ok) (next.outcome ok) := by
  unfold Follows at h
  unfold Attempt.outcome
  split at h
  · next herrand hover =>
    rw [herrand, hover]
    exact h.1
  · exact h.elim
  · next hover =>
    rw [hover]
    cases a.errand <;> exact h.1
  · exact h.elim

theorem InTurn.completes (h : InTurn c tried) (ok : Bool) :
    ∃ more, tried.map (Attempt.outcome ok) ++ more ∈ callOrder := by
  refine Connector.completes ?_ ?_
  · intro x hx
    rw [List.head?_map, Option.mem_def, Option.map_eq_some_iff] at hx
    obtain ⟨a, ha, rfl⟩ := hx
    exact h.first a ha
  · rw [List.isChain_map]
    exact h.chain.imp fun _ _ hfollows => hfollows.leads ok

end TraceRelay.Connector
