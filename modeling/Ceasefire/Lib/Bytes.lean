/-
# Words in memory

`RtlCopyMemory` between a word and a byte buffer, `to_le_bytes` and the octets
of a network-order address are all the same thing: byte `i` of a word.  A word
is put together from its bytes by `loadLE` (least significant byte first), and
taken apart by `byteLE` or, in network order, `byteBE`.  Bitwise `and` acts byte
by byte, so a masked comparison of words is a masked comparison of their bytes
(`loadLE_and_inj`, `byteBE_and_inj`): the two ways of writing a prefix match
that a program mixes are one.
-/

import Mathlib.Data.Nat.Basic
import Mathlib.Tactic.Linarith

namespace Lib

/-- The little-endian word made of the bytes `b 0, …, b (k - 1)`. -/
def loadLE (b : ℕ → BitVec 8) : (k : ℕ) → BitVec (8 * k)
  | 0 => 0#0
  | k + 1 => (b k ++ loadLE b k).cast (by omega)

/-- Byte `i` of a word, least significant first. -/
def byteLE {w : ℕ} (x : BitVec w) (i : ℕ) : BitVec 8 := x.extractLsb' (8 * i) 8

/-- Byte `i` of an `8 * k`-bit word in network order, most significant first. -/
def byteBE {k : ℕ} (x : BitVec (8 * k)) (i : ℕ) : BitVec 8 := byteLE x (k - 1 - i)

theorem getLsbD_loadLE (b : ℕ → BitVec 8) :
    ∀ k i, i < 8 * k → (loadLE b k).getLsbD i = (b (i / 8)).getLsbD (i % 8)
  | 0, i, hi => absurd hi (by omega)
  | k + 1, i, hi => by
      rw [loadLE, BitVec.getLsbD_cast, BitVec.getLsbD_append]
      split_ifs with h
      · exact getLsbD_loadLE b k i h
      · rw [show i / 8 = k by omega, show i - 8 * k = i % 8 by omega]

theorem getLsbD_byteLE {w : ℕ} (x : BitVec w) (i j : ℕ) (hj : j < 8) :
    (byteLE x i).getLsbD j = x.getLsbD (8 * i + j) := by
  simp [byteLE, hj]

/-- Loading what was stored gives the word back. -/
theorem loadLE_byteLE {k : ℕ} (x : BitVec (8 * k)) : loadLE (byteLE x) k = x := by
  refine BitVec.eq_of_getLsbD_eq fun i hi => ?_
  rw [getLsbD_loadLE _ _ _ hi, getLsbD_byteLE _ _ _ (by omega), show 8 * (i / 8) + i % 8 = i by omega]

/-- The bytes of a loaded word are those it was loaded from. -/
theorem byteLE_loadLE {b : ℕ → BitVec 8} {k i : ℕ} (hi : i < k) : byteLE (loadLE b k) i = b i := by
  refine BitVec.eq_of_getLsbD_eq fun j hj => ?_
  rw [getLsbD_byteLE _ _ _ hj, getLsbD_loadLE _ _ _ (by omega), show (8 * i + j) / 8 = i by omega,
    show (8 * i + j) % 8 = j by omega]

/-- Words are equal when their bytes are. -/
theorem loadLE_inj {a b : ℕ → BitVec 8} {k : ℕ} :
    loadLE a k = loadLE b k ↔ ∀ i < k, a i = b i := by
  constructor
  · intro h i hi
    refine BitVec.eq_of_getLsbD_eq fun j hj => ?_
    have := congrArg (fun x => x.getLsbD (8 * i + j)) h
    simp only [getLsbD_loadLE _ _ _ (show 8 * i + j < 8 * k by omega)] at this
    rwa [show (8 * i + j) / 8 = i by omega, show (8 * i + j) % 8 = j by omega] at this
  · intro h
    refine BitVec.eq_of_getLsbD_eq fun i hi => ?_
    rw [getLsbD_loadLE _ _ _ hi, getLsbD_loadLE _ _ _ hi, h _ (by omega)]

theorem loadLE_and (a m : ℕ → BitVec 8) (k : ℕ) :
    loadLE a k &&& loadLE m k = loadLE (fun i => a i &&& m i) k := by
  refine BitVec.eq_of_getLsbD_eq fun i hi => ?_
  rw [BitVec.getLsbD_and, getLsbD_loadLE _ _ _ hi, getLsbD_loadLE _ _ _ hi,
    getLsbD_loadLE _ _ _ hi, BitVec.getLsbD_and]

/-- **A masked comparison of loaded words is one of their bytes.** -/
theorem loadLE_and_inj {a b m : ℕ → BitVec 8} {k : ℕ} :
    loadLE a k &&& loadLE m k = loadLE b k &&& loadLE m k ↔
      ∀ i < k, a i &&& m i = b i &&& m i := by
  rw [loadLE_and, loadLE_and, loadLE_inj]

/-- The network-order word made of the bytes `b 0, …, b (k - 1)`. -/
def loadBE (b : ℕ → BitVec 8) (k : ℕ) : BitVec (8 * k) := loadLE (fun i => b (k - 1 - i)) k

/-- The network-order word at an offset of a buffer. -/
def wordAt (data : List (BitVec 8)) (k offset : ℕ) : BitVec (8 * k) :=
  loadBE (fun i => data.getD (offset + i) 0) k

/-- The network-order bytes of a loaded word are those it was loaded from. -/
theorem byteBE_loadBE {b : ℕ → BitVec 8} {k i : ℕ} (hi : i < k) : byteBE (loadBE b k) i = b i := by
  rw [byteBE, loadBE, byteLE_loadLE (by omega), show k - 1 - (k - 1 - i) = i by omega]

/-- Words are equal when their network-order bytes are. -/
theorem byteBE_inj {k : ℕ} {x y : BitVec (8 * k)} :
    (∀ i < k, byteBE x i = byteBE y i) ↔ x = y := by
  constructor
  · intro h
    rw [← loadLE_byteLE x, ← loadLE_byteLE y, loadLE_inj]
    intro i hi
    have := h (k - 1 - i) (by omega)
    rwa [byteBE, byteBE, show k - 1 - (k - 1 - i) = i by omega] at this
  · rintro rfl i _
    rfl

theorem byteBE_and {k : ℕ} (x m : BitVec (8 * k)) (i : ℕ) :
    byteBE (x &&& m) i = byteBE x i &&& byteBE m i :=
  BitVec.extractLsb'_and

/-- **A masked comparison of words is one of their network-order bytes.** -/
theorem byteBE_and_inj {k : ℕ} {x y m : BitVec (8 * k)} :
    (∀ i < k, byteBE x i &&& byteBE m i = byteBE y i &&& byteBE m i) ↔ x &&& m = y &&& m := by
  simp only [← byteBE_and]
  exact byteBE_inj

theorem byteBE_zero {k : ℕ} (i : ℕ) : byteBE (0#(8 * k)) i = 0#8 := by
  refine BitVec.eq_of_getLsbD_eq fun j hj => ?_
  rw [byteBE, getLsbD_byteLE _ _ _ hj]
  simp

end Lib
