/-!
# Trails

What an observer notes of a machine, who looks at each state and at the move made from it. The machine
is a partial function: a move that cannot be made ends the trail.
-/

namespace TraceRelay.Trail

variable {σ μ β : Type}

/-- What is noted of some moves, first to last. -/
def along (move : σ → μ → Option σ) (note : σ → μ → List β) (s : σ) : List μ → List β
  | [] => []
  | m :: ms =>
    note s m ++ match move s m with
      | none => []
      | some s' => along move note s' ms

variable {move : σ → μ → Option σ} {note : σ → μ → List β}

theorem along_concat {s s' : σ} {ms : List μ} (h : ms.foldlM move s = some s') (m : μ) :
    along move note s (ms ++ [m]) = along move note s ms ++ note s' m := by
  induction ms generalizing s with
  | nil =>
    cases h
    rw [List.nil_append, along, along, List.nil_append]
    split <;> exact List.append_nil _
  | cons m₀ ms ih =>
    rw [List.foldlM_cons] at h
    obtain ⟨s₁, hmove, h⟩ := Option.bind_eq_some_iff.mp h
    rw [List.cons_append, along, along, hmove]
    dsimp only
    rw [ih h, List.append_assoc]

end TraceRelay.Trail
