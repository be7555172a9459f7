/-
# Structures in memory

A `Codec` is a type whose values take a fixed number of bytes: what is written reads back as it
was, and reading looks at no byte behind the size.  Words are written least significant byte
first, arrays cell by cell.

`Members` are the members of a structure from an offset on, each at the next offset that its
alignment allows; what no member covers is written as zeros.  A member that is reserved where
there was a hole changes nothing else (`Members.write_reserve`), so a layout with its padding
spelled out is the layout of a compiler that pads by itself.
-/

import Ceasefire.Lib.Bytes

namespace Lib

/-- The next multiple of an alignment. -/
def roundUp (offset align : ℕ) : ℕ := (offset + align - 1) / align * align

theorem le_roundUp (offset : ℕ) {align : ℕ} (h : 0 < align) : offset ≤ roundUp offset align := by
  have hmod := Nat.mod_lt (offset + align - 1) h
  have hdiv := Nat.div_add_mod (offset + align - 1) align
  rw [Nat.mul_comm] at hdiv
  unfold roundUp
  omega

/-- A type whose values take `size` bytes. -/
structure Codec (α : Type*) where
  size : ℕ
  align : ℕ
  align_pos : 0 < align
  write : α → ℕ → BitVec 8
  read : (ℕ → BitVec 8) → α
  read_write : ∀ a, read (write a) = a
  read_congr : ∀ {m m' : ℕ → BitVec 8}, (∀ i < size, m i = m' i) → read m = read m'

namespace Codec

variable {α β : Type*}

/-- **What stands in memory as it was written reads back.** -/
theorem read_eq (c : Codec α) {a : α} {m : ℕ → BitVec 8} (h : ∀ i < c.size, m i = c.write a i) :
    c.read m = a :=
  (c.read_congr h).trans (c.read_write a)

/-- The bytes of a value. -/
def bytes (c : Codec α) (a : α) : List (BitVec 8) := (List.range c.size).map (c.write a)

@[simp] theorem length_bytes (c : Codec α) (a : α) : (c.bytes a).length = c.size := by
  rw [bytes, List.length_map, List.length_range]

theorem getD_bytes (c : Codec α) (a : α) {i : ℕ} (h : i < c.size) :
    (c.bytes a).getD i 0 = c.write a i := by
  rw [List.getD_eq_getElem?_getD, bytes, List.getElem?_map, List.getElem?_range h]
  rfl

/-- A value reads back from its bytes. -/
theorem read_bytes (c : Codec α) (a : α) : c.read (fun i => (c.bytes a).getD i 0) = a :=
  c.read_eq fun _ h => c.getD_bytes a h

/-- A word of `k + 1` bytes, aligned to its size. -/
def word (k : ℕ) : Codec (BitVec (8 * (k + 1))) where
  size := k + 1
  align := k + 1
  align_pos := Nat.succ_pos k
  write := byteLE
  read m := loadLE m (k + 1)
  read_write := loadLE_byteLE
  read_congr := loadLE_inj.2

theorem read_cells (c : Codec α) {n : ℕ} (a : Fin n → α) (j : Fin n) :
    (c.read fun i =>
      if h : (j.val * c.size + i) / c.size < n then
        c.write (a ⟨(j.val * c.size + i) / c.size, h⟩) ((j.val * c.size + i) % c.size)
      else 0) = a j := by
  refine c.read_eq fun i hi => ?_
  have hdiv : (j.val * c.size + i) / c.size = j.val := by
    rw [Nat.add_comm, Nat.add_mul_div_right _ _ (by omega), Nat.div_eq_of_lt hi, Nat.zero_add]
  have hmod : (j.val * c.size + i) % c.size = i := by
    rw [Nat.add_comm, Nat.add_mul_mod_self_right, Nat.mod_eq_of_lt hi]
  simp only [hdiv, hmod, j.isLt, dif_pos]

theorem cell_lt {n size i : ℕ} (j : Fin n) (hi : i < size) : j.val * size + i < n * size :=
  calc j.val * size + i < j.val * size + size := Nat.add_lt_add_left hi _
    _ = (j.val + 1) * size := (Nat.succ_mul _ _).symm
    _ ≤ n * size := Nat.mul_le_mul_right size j.isLt

/-- `n` values one behind the other. -/
def array (c : Codec α) (n : ℕ) : Codec (Fin n → α) where
  size := n * c.size
  align := c.align
  align_pos := c.align_pos
  write a i := if h : i / c.size < n then c.write (a ⟨i / c.size, h⟩) (i % c.size) else 0
  read m j := c.read fun i => m (j.val * c.size + i)
  read_write a := funext (c.read_cells a)
  read_congr h := funext fun j => c.read_congr fun _ hi => h _ (cell_lt j hi)

/-- `#pragma pack(1)`: the same bytes at any offset. -/
def packed (c : Codec α) : Codec α where
  size := c.size
  align := 1
  align_pos := Nat.one_pos
  write := c.write
  read := c.read
  read_write := c.read_write
  read_congr := c.read_congr

/-- The bytes of a tuple of members are those of the structure. -/
def mapped (c : Codec β) (toMembers : α → β) (ofMembers : β → α)
    (h : ∀ a, ofMembers (toMembers a) = a) : Codec α where
  size := c.size
  align := c.align
  align_pos := c.align_pos
  write a := c.write (toMembers a)
  read m := ofMembers (c.read m)
  read_write a := (congrArg ofMembers (c.read_write _)).trans (h a)
  read_congr hm := congrArg ofMembers (c.read_congr hm)

end Codec

/-- The members of a structure from the offset `start` on. -/
structure Members (start : ℕ) (α : Type*) where
  stop : ℕ
  align : ℕ
  align_pos : 0 < align
  offsets : List ℕ
  write : α → ℕ → BitVec 8
  read : (ℕ → BitVec 8) → α
  write_below : ∀ a, ∀ i < start, write a i = 0
  read_write : ∀ a, read (write a) = a
  read_congr : ∀ {m m' : ℕ → BitVec 8}, (∀ i, start ≤ i → i < stop → m i = m' i) →
    read m = read m'
  start_le : start ≤ stop

namespace Members

variable {α β : Type*} {start : ℕ}

/-- The bytes of a value at an offset, and other bytes elsewhere. -/
def place (c : Codec α) (offset : ℕ) (a : α) (rest : ℕ → BitVec 8) (i : ℕ) : BitVec 8 :=
  if offset ≤ i ∧ i < offset + c.size then c.write a (i - offset) else rest i

theorem place_below {c : Codec α} {offset : ℕ} {a : α} {rest : ℕ → BitVec 8} {i : ℕ}
    (h : i < offset) : place c offset a rest i = rest i :=
  if_neg fun hi => absurd hi.1 (Nat.not_le.2 h)

theorem place_above {c : Codec α} {offset : ℕ} {a : α} {rest : ℕ → BitVec 8} {i : ℕ}
    (h : offset + c.size ≤ i) : place c offset a rest i = rest i :=
  if_neg fun hi => absurd hi.2 (Nat.not_lt.2 h)

theorem read_place (c : Codec α) (offset : ℕ) (a : α) (rest : ℕ → BitVec 8) :
    (c.read fun i => place c offset a rest (offset + i)) = a := by
  refine c.read_eq fun i hi => ?_
  rw [place, if_pos ⟨Nat.le_add_right _ _, Nat.add_lt_add_left hi _⟩, Nat.add_sub_cancel_left]

/-- The last member. -/
def last (c : Codec α) : Members start α where
  stop := roundUp start c.align + c.size
  align := c.align
  align_pos := c.align_pos
  offsets := [roundUp start c.align]
  write a := place c (roundUp start c.align) a fun _ => 0
  read m := c.read fun i => m (roundUp start c.align + i)
  write_below _ _ hi := place_below (Nat.lt_of_lt_of_le hi (le_roundUp start c.align_pos))
  read_write a := read_place c _ a _
  read_congr h := c.read_congr fun _ hi =>
    h _ (Nat.le_add_right_of_le (le_roundUp start c.align_pos)) (Nat.add_lt_add_left hi _)
  start_le := Nat.le_add_right_of_le (le_roundUp start c.align_pos)

/-- Where the members behind one begin. -/
abbrev next (start : ℕ) (c : Codec α) : ℕ := roundUp start c.align + c.size

theorem start_le_next (start : ℕ) (c : Codec α) : start ≤ next start c :=
  Nat.le_add_right_of_le (le_roundUp start c.align_pos)

theorem rest_read_place (c : Codec α) (rest : Members (next start c) β) (a : α) (b : β) :
    rest.read (place c (roundUp start c.align) a (rest.write b)) = b :=
  (rest.read_congr fun _ hi _ => place_above hi).trans (rest.read_write b)

/-- A member before others. -/
def cons (c : Codec α) (rest : Members (next start c) β) : Members start (α × β) where
  stop := rest.stop
  align := max c.align rest.align
  align_pos := Nat.lt_of_lt_of_le c.align_pos (Nat.le_max_left _ _)
  offsets := roundUp start c.align :: rest.offsets
  write ab := place c (roundUp start c.align) ab.1 (rest.write ab.2)
  read m := (c.read fun i => m (roundUp start c.align + i), rest.read m)
  write_below ab i hi :=
    (place_below (Nat.lt_of_lt_of_le hi (le_roundUp start c.align_pos))).trans
      (rest.write_below ab.2 i (Nat.lt_of_lt_of_le hi (start_le_next start c)))
  read_write ab := Prod.ext (read_place c _ ab.1 _) (rest_read_place c rest ab.1 ab.2)
  read_congr h := Prod.ext
    (c.read_congr fun _ hi => h _ (Nat.le_add_right_of_le (le_roundUp start c.align_pos))
      (Nat.lt_of_lt_of_le (Nat.add_lt_add_left hi _) rest.start_le))
    (rest.read_congr fun i hi hstop => h i (Nat.le_trans (start_le_next start c) hi) hstop)
  start_le := Nat.le_trans (start_le_next start c) rest.start_le

/-- **A member of zeros takes the place of padding.** -/
theorem write_reserve {c : Codec α} {rest : Members (next start c) β} {zero : α}
    (hzero : ∀ i, c.write zero i = 0) (b : β) :
    (cons c rest).write (zero, b) = rest.write b := by
  funext i
  change place c _ zero (rest.write b) i = _
  unfold place
  split_ifs with h
  · rw [hzero]
    exact (rest.write_below b i h.2).symm
  · rfl

end Members

/-- A structure: its members from 0 on, and as many bytes behind them as its alignment asks
for. -/
def Codec.ofMembers {α : Type*} (ms : Members 0 α) : Codec α where
  size := roundUp ms.stop ms.align
  align := ms.align
  align_pos := ms.align_pos
  write := ms.write
  read := ms.read
  read_write := ms.read_write
  read_congr h := ms.read_congr fun i _ hi =>
    h i (Nat.lt_of_lt_of_le hi (le_roundUp ms.stop ms.align_pos))

end Lib
