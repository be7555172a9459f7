/-
# Messages with their length in front

A message goes over a byte stream behind four bytes of its length.  The length is
truncated to 32 bits, so a longer message announces a shorter one; a decoder that reads
back what was encoded, and no part of it, takes a message from such a stream only when it
has come whole (`Coding.whole`).
-/

import Ceasefire.Lib.Bytes
import Mathlib.Data.List.GetD
import Mathlib.Data.List.OfFn

namespace Lib

abbrev ByteString := List (BitVec 8)

/-- The low 32 bits of a length, least significant byte first. -/
def lengthBytes (n : ℕ) : ByteString := List.ofFn fun i : Fin 4 => byteLE (BitVec.ofNat 32 n) i

/-- The length that four bytes announce. -/
def lengthOf (buf : ByteString) : ℕ := (loadLE (fun i => buf.getD i 0) 4).toNat

/-- The bytes of a message on the stream. -/
def frame (data : ByteString) : ByteString := lengthBytes data.length ++ data

@[simp] theorem length_lengthBytes (n : ℕ) : (lengthBytes n).length = 4 := List.length_ofFn

theorem frame_ne_nil (data : ByteString) : frame data ≠ [] := by
  intro h
  have hlen := congrArg List.length h
  rw [frame, List.length_append, length_lengthBytes, List.length_nil] at hlen
  omega

/-- A way to write values and to read them back: what was written is read, and no part of it
that is shorter. -/
structure Coding (α : Type*) where
  encode : α → ByteString
  decode : ByteString → Option α
  decode_encode : ∀ a, decode (encode a) = some a
  decode_part : ∀ a part, part <+: encode a → part ≠ encode a → decode part = none

namespace Coding

variable {α : Type*} (c : Coding α)

/-- **What is read off a stream is what was written,** and all of it: if the stream so far is
a part of a frame, and as many bytes as its first four announce can be read, then the frame
is complete. -/
theorem whole {a b : α} {buf data rest : ByteString} (hbuf : buf.length = 4)
    (hdata : data.length = lengthOf buf) (hread : c.decode data = some b)
    (h : buf ++ data ++ rest = frame (c.encode a)) : b = a ∧ rest = [] := by
  rw [frame, List.append_assoc] at h
  obtain ⟨rfl, hpart⟩ := List.append_inj h (by rw [hbuf, length_lengthBytes])
  by_cases hsame : data = c.encode a
  · subst hsame
    rw [c.decode_encode] at hread
    refine ⟨(Option.some.inj hread).symm, ?_⟩
    simpa using hpart
  · rw [c.decode_part a data ⟨rest, hpart⟩ hsame] at hread
    nomatch hread

end Coding
end Lib
