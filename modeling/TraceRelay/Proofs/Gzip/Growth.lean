import TraceRelay.Gzip.Decoder

/-!
# A decompressor only goes forward

What a decompressor has written is never taken back (`Decoder.out_prefix_feedAll`), a fault that it
has shown stays (`Decoder.fault?_feedAll`), nothing is written before the header is over
(`Decoder.inflate_of_header`) nor once the data is (`Decoder.feedAll_of_trailer`).
-/

namespace TraceRelay

/-! ## Writing -/

namespace Deflate.Inflate

theorem out_prefix_copy (out : Array UInt8) (distance length : Nat) :
    out.toList <+: (copy out distance length).toList := by
  induction length generalizing out with
  | zero => exact List.prefix_rfl
  | succ length ih =>
    rw [copy]
    refine List.IsPrefix.trans ?_ (ih _)
    rw [Array.toList_push]
    exact List.prefix_append _ _

theorem out_prefix_write (out : Array UInt8) (t : Token) :
    out.toList <+: (write out t).toList := by
  cases t with
  | none => exact List.prefix_rfl
  | byte b => rw [write, Array.toList_push]; exact List.prefix_append _ _
  | copy length distance => exact out_prefix_copy out distance length

theorem out_prefix_settle (fuel : Nat) (cursor : Cursor) (out : Array UInt8) :
    out.toList <+: (settle fuel cursor out).out.toList := by
  induction fuel generalizing cursor out with
  | zero => exact List.prefix_rfl
  | succ fuel ih =>
    rw [settle]
    split
    · exact List.prefix_rfl
    · exact (out_prefix_write _ _).trans (ih _ _)

theorem out_prefix_feed (s : Inflate) (b : UInt8) : s.out.toList <+: (s.feed b).out.toList := by
  unfold feed
  split
  · exact List.prefix_rfl
  · exact List.prefix_rfl
  · exact out_prefix_settle _ _ _

end Deflate.Inflate

namespace Gzip.Decoder

@[simp] theorem feedAll_nil (d : Decoder) : d.feedAll [] = d := rfl

theorem feedAll_cons (d : Decoder) (b : UInt8) (data : Bytes) :
    d.feedAll (b :: data) = (d.feed b).feedAll data := rfl

theorem out_prefix_feed (d : Decoder) (b : UInt8) : d.out.toList <+: (d.feed b).out.toList := by
  obtain ⟨part, inflate⟩ := d
  cases part with
  | header h =>
    simp only [feed]
    split
    · exact List.prefix_rfl
    · split <;> exact List.prefix_rfl
  | data =>
    simp only [feed]
    split
    · exact Deflate.Inflate.out_prefix_feed _ _
    · split <;> exact Deflate.Inflate.out_prefix_feed _ _
  | trailer got => simp only [feed]; split <;> exact List.prefix_rfl
  | failed f => exact List.prefix_rfl

/-- **What was written stays.** -/
theorem out_prefix_feedAll (d : Decoder) (data : Bytes) :
    d.out.toList <+: (d.feedAll data).out.toList := by
  induction data generalizing d with
  | nil => exact List.prefix_rfl
  | cons b data ih => exact (d.out_prefix_feed b).trans (ih _)

theorem size_le_feedAll (d : Decoder) (data : Bytes) : d.out.size ≤ (d.feedAll data).out.size := by
  simpa using (d.out_prefix_feedAll data).length_le

/-! ## Faults -/

theorem feedAll_of_failed {d : Decoder} {e : Defect} (h : d.part = .failed e) (data : Bytes) :
    d.feedAll data = d := by
  induction data with
  | nil => rfl
  | cons b data ih =>
    obtain ⟨part, inflate⟩ := d
    subst h
    exact ih

theorem fault?_of_failed {d : Decoder} {e : Defect} (h : d.part = .failed e) :
    d.fault? = some e.fault := by
  rw [fault?, h]

/-- **A fault stays.** -/
theorem fault?_feedAll {d : Decoder} {f : Fault} (h : d.fault? = some f) (data : Bytes) :
    (d.feedAll data).fault? = some f := by
  have hd := h
  unfold fault? at h
  split at h
  · next e he => rw [feedAll_of_failed he]; exact hd
  · cases h

/-- Bytes that show no fault have shown none on the way. -/
theorem fault?_of_append {d : Decoder} {a b : Bytes} (h : (d.feedAll (a ++ b)).fault? = none) :
    (d.feedAll a).fault? = none := by
  cases hf : (d.feedAll a).fault? with
  | none => rfl
  | some f =>
    rw [feedAll_append, fault?_feedAll hf] at h
    cases h

theorem fault?_of_prefix {d : Decoder} {a c : Bytes} (hp : a <+: c)
    (h : (d.feedAll c).fault? = none) : (d.feedAll a).fault? = none := by
  obtain ⟨b, rfl⟩ := hp
  exact fault?_of_append h

theorem out_prefix_of_prefix (d : Decoder) {a c : Bytes} (hp : a <+: c) :
    (d.feedAll a).out.toList <+: (d.feedAll c).out.toList := by
  obtain ⟨b, rfl⟩ := hp
  rw [feedAll_append]
  exact out_prefix_feedAll _ _

theorem fault?_of_agrees {d : Decoder} (h : d.agrees = true) : d.fault? = none := by
  unfold agrees at h
  unfold fault?
  split
  · next hf => rw [hf] at h; cases h
  · rfl

/-! ## Header and trailer -/

/-- Nothing has been decompressed before the header is over. -/
def Unopened (d : Decoder) : Prop := ∀ h, d.part = .header h → d.inflate = .start

theorem Unopened.feed {d : Decoder} (hd : d.Unopened) (b : UInt8) : (d.feed b).Unopened := by
  obtain ⟨part, inflate⟩ := d
  intro h hh
  cases part with
  | header h' =>
    have : inflate = .start := hd h' rfl
    subst this
    simp only [Decoder.feed]
    split
    · rfl
    · split <;> rfl
  | data =>
    simp only [Decoder.feed] at hh
    split at hh
    · cases hh
    · split at hh <;> cases hh
  | trailer got =>
    simp only [Decoder.feed] at hh
    split at hh <;> cases hh
  | failed f => cases hh

theorem Unopened.feedAll {d : Decoder} (hd : d.Unopened) (data : Bytes) :
    (d.feedAll data).Unopened := by
  induction data generalizing d with
  | nil => exact hd
  | cons b data ih => exact ih (hd.feed b)

theorem inflate_of_header {data : Bytes} {h : Header} (hp : (start.feedAll data).part = .header h) :
    (start.feedAll data).inflate = .start := by
  have : start.Unopened := fun _ _ => rfl
  exact this.feedAll data h hp

/-- A trailer takes bytes up to its size and writes nothing. -/
theorem feedAll_of_trailer {d : Decoder} {got : Bytes} (hd : d.part = .trailer got) {data : Bytes}
    (h : (d.feedAll data).fault? = none) (hgot : got.length ≤ trailerSize) :
    d.feedAll data = ⟨.trailer (got ++ data), d.inflate⟩ ∧
      got.length + data.length ≤ trailerSize := by
  obtain ⟨part, inflate⟩ := d
  subst hd
  induction data generalizing got with
  | nil => exact ⟨by rw [List.append_nil]; rfl, hgot⟩
  | cons b data ih =>
    rw [feedAll_cons] at h ⊢
    simp only [feed] at h ⊢
    split at h
    · next hlt =>
      rw [if_pos hlt]
      have := ih (by rw [List.length_append, List.length_singleton]; omega) h
      rw [List.length_append, List.length_singleton] at this
      rw [List.length_cons]
      exact ⟨by rw [this.1, List.append_assoc]; rfl, by omega⟩
    · rw [feedAll_of_failed rfl] at h
      cases h

/-- A trailer is never longer than it may be. -/
def Bounded (d : Decoder) : Prop := ∀ got, d.part = .trailer got → got.length ≤ trailerSize

theorem Bounded.feed {d : Decoder} (hd : d.Bounded) (b : UInt8) : (d.feed b).Bounded := by
  obtain ⟨part, inflate⟩ := d
  intro got hg
  cases part with
  | header h' =>
    simp only [Decoder.feed] at hg
    split at hg
    · cases hg
    · split at hg <;> cases hg
  | data =>
    simp only [Decoder.feed] at hg
    split at hg
    · cases hg; exact Nat.zero_le _
    · split at hg <;> cases hg
  | trailer got' =>
    simp only [Decoder.feed] at hg
    split at hg
    · cases hg
      rw [List.length_append, List.length_singleton]
      omega
    · cases hg
  | failed f => cases hg

theorem Bounded.feedAll {d : Decoder} (hd : d.Bounded) (data : Bytes) :
    (d.feedAll data).Bounded := by
  induction data generalizing d with
  | nil => exact hd
  | cons b data ih => exact ih (hd.feed b)

theorem bounded_start : start.Bounded := nofun

end Gzip.Decoder

end TraceRelay
