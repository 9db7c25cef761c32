import RigBench.Frame

/-!
What a whole stream of bytes says: the frames at its front, one after the other, and where they
end.
-/
namespace RigBench

inductive StreamEnd
  /-- All that is left is a part of one frame. -/
  | incomplete (rest : Bytes)
  /-- At least two bytes are left and the first is no identifier. -/
  | invalid (id : UInt8) (rest : Bytes)
  deriving DecidableEq

/-- The frames of a stream and its end. -/
def parseStream (bytes : Bytes) : List Frame × StreamEnd :=
  match bytes with
  | id :: length :: rest =>
    if h : id ≤ 63 then
      if rest.length < length.toNat then ([], .incomplete bytes)
      else
        let (fs, e) := parseStream (rest.drop length.toNat)
        (⟨id, rest.take length.toNat, h, by
          have := length.toNat_lt
          rw [List.length_take]
          omega⟩ :: fs, e)
    else ([], .invalid id bytes)
  | _ => ([], .incomplete bytes)
termination_by bytes.length
decreasing_by simp only [List.length_drop, List.length_cons]; omega

end RigBench
