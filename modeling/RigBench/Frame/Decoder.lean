import RigBench.Frame

/-!
Reading frames from a stream that arrives in pieces of any size. An identifier out of range means
the stream has lost its place; there is no way back from that.
-/
namespace RigBench

/-- Bytes received and not yet part of a frame. -/
structure FrameDecoder where
  buffer : Bytes := []
  poisoned : Bool := false
  deriving DecidableEq, Inhabited

namespace FrameDecoder

def feed (d : FrameDecoder) (bytes : Bytes) : FrameDecoder :=
  { d with buffer := d.buffer ++ bytes }

def next (d : FrameDecoder) : Except BenchError (Option Frame) × FrameDecoder :=
  if d.poisoned then (.error (.frame .desynchronised), d)
  else match d.buffer with
    | id :: length :: rest =>
      if h : id ≤ 63 then
        let payload := rest.take length.toNat
        if payload.length < length.toNat then (.ok none, d)
        else
          (.ok (some ⟨id, payload, h, by
              have := length.toNat_lt
              simp only [payload, List.length_take]
              omega⟩),
            { d with buffer := rest.drop length.toNat })
      else (.error (.frame (.idOnStream id)), { d with poisoned := true })
    | _ => (.ok none, d)

theorem length_buffer_next {d d' : FrameDecoder} {f : Frame} (h : d.next = (.ok (some f), d')) :
    d'.buffer.length < d.buffer.length := by
  unfold next at h
  split at h
  · simp at h
  · split at h
    · next id length rest hb =>
      split at h
      · dsimp only at h
        split at h
        · simp at h
        · simp only [Prod.mk.injEq] at h
          rw [← h.2, hb]
          simp only [List.length_drop, List.length_cons]
          omega
      · simp at h
    · simp at h

/-- Take frames until the buffer holds no complete one or the stream fails. -/
def drain (d : FrameDecoder) : List Frame × Option BenchError × FrameDecoder :=
  match _h : d.next with
  | (.ok (some f), d') =>
    let (fs, e, d'') := drain d'
    (f :: fs, e, d'')
  | (.ok none, d') => ([], none, d')
  | (.error e, d') => ([], some e, d')
termination_by d.buffer.length
decreasing_by exact length_buffer_next _h

end FrameDecoder
end RigBench
