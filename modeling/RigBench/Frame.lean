import RigBench.Bytes
import RigBench.Error

/-!
Frames on the wire: a byte for the identifier, a byte for the length, the payload. Identifiers
have six bits and a payload has at most 255 bytes.
-/
namespace RigBench

structure Frame where
  id : UInt8
  payload : Bytes
  id_le : id ≤ 63 := by decide
  length_le : payload.length ≤ 255 := by decide
  deriving DecidableEq

namespace Frame

def headerSize : Nat := 2

/-- A frame of any identifier and payload; the identifier is checked first. -/
def make (id : UInt8) (payload : Bytes) : Except BenchError Frame :=
  if h : id ≤ 63 then
    if h' : payload.length ≤ 255 then .ok ⟨id, payload, h, h'⟩
    else .error (.frame (.payloadTooLong payload.length))
  else .error (.frame (.idOutOfRange id))

def encode (f : Frame) : Bytes := f.id :: .ofNat f.payload.length :: f.payload

def encodedLength (f : Frame) : Nat := headerSize + f.payload.length

def encodeAll (fs : List Frame) : Bytes := fs.flatMap encode

@[simp] theorem length_encode (f : Frame) : f.encode.length = f.encodedLength := by
  simp [encode, encodedLength, headerSize]; omega

theorem toNat_lengthByte (f : Frame) :
    (UInt8.ofNat f.payload.length).toNat = f.payload.length := by
  have := f.length_le
  simp only [UInt8.toNat_ofNat']
  omega

end Frame
end RigBench
