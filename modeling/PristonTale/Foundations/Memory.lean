import Mathlib.Data.List.GetD
import PristonTale.Foundations.LittleEndian

set_option relaxedAutoImplicit false
set_option autoImplicit false

/-!
# Object memory

The memory a C++ object occupies, byte by byte, from the first byte of the object upward. It does
not end where the object does: a store past the end changes the memory above, and a load past the
end sees it. What the memory holds before anything is stored is whatever was there before.

## Main definitions

* `Foundations.Memory` — memory; `write`, `read`, `store` and `load` on it.
* `Foundations.Layout` — where the members of a structure are.
* `Foundations.cString` — the text a pointer to characters stands for.

## Main results

* `Foundations.Memory.read_write`, `Foundations.Memory.read_write_of_disjoint` — what a read sees
  of a write.
* `Foundations.Memory.load_store`, `Foundations.Memory.load_write_of_disjoint` — the same for
  numbers.
-/

namespace Foundations

/-- Memory from some address upward: the byte at each offset. -/
abbrev Memory := ℕ → UInt8

namespace Memory

/-- Store the bytes of a list from `offset` on. -/
def write (mem : Memory) (offset : ℕ) (bs : List UInt8) : Memory := fun i =>
  if offset ≤ i then bs.getD (i - offset) (mem i) else mem i

/-- The `n` bytes from `offset` on. -/
def read (mem : Memory) (offset n : ℕ) : List UInt8 :=
  (List.range n).map fun i => mem (offset + i)

/-- Store a number of `w` bytes. -/
def store (w : ℕ) (mem : Memory) (offset n : ℕ) : Memory := mem.write offset (leBytes w n)

/-- Load a number of `w` bytes. -/
def load (w : ℕ) (mem : Memory) (offset : ℕ) : ℕ := leNat (mem.read offset w)

variable (mem : Memory) {offset offset' n w i : ℕ} {bs : List UInt8}

/-- As many bytes are read as asked for. -/
@[simp] lemma length_read (offset n : ℕ) : (mem.read offset n).length = n := by simp [read]

/-- The bytes that were read. -/
lemma getElem?_read (h : i < n) : (mem.read offset n)[i]? = some (mem (offset + i)) := by
  simp [read, h]

/-- A write changes nothing below it. -/
lemma write_of_lt (bs : List UInt8) (h : i < offset) : mem.write offset bs i = mem i := by
  rw [write, if_neg (by omega)]

/-- A write changes nothing above it. -/
lemma write_of_le (h : offset + bs.length ≤ i) : mem.write offset bs i = mem i := by
  rw [write, if_pos (by omega), List.getD_eq_default _ _ (by omega)]

/-- The bytes written are found where they were written. -/
lemma write_add (h : i < bs.length) : mem.write offset bs (offset + i) = bs[i] := by
  rw [write, if_pos (by omega), Nat.add_sub_cancel_left, List.getD_eq_getElem _ _ h]

/-- Reading where a list was written gives the list. -/
lemma read_write (offset : ℕ) (bs : List UInt8) :
    (mem.write offset bs).read offset bs.length = bs := by
  apply List.ext_getElem
  · simp
  · intro i _ hi
    simp only [read, List.getElem_map, List.getElem_range]
    exact mem.write_add hi

/-- Reading elsewhere sees the memory as it was. -/
lemma read_write_of_disjoint (h : offset' + n ≤ offset ∨ offset + bs.length ≤ offset') :
    (mem.write offset bs).read offset' n = mem.read offset' n := by
  apply List.map_congr_left
  intro i hi
  have hi' := List.mem_range.mp hi
  rcases h with h | h
  · exact mem.write_of_lt bs (by omega)
  · exact mem.write_of_le (by omega)

/-- A part of what was read is what is read there. -/
lemma take_drop_read (offset : ℕ) {k m : ℕ} (h : k + m ≤ n) :
    ((mem.read offset n).drop k).take m = mem.read (offset + k) m := by
  apply List.ext_getElem
  · simp only [List.length_take, List.length_drop, length_read]
    omega
  · intro i _ _
    simp [read, Nat.add_assoc]

/-- Reading on is reading the rest. -/
lemma read_add (m n : ℕ) :
    mem.read offset (m + n) = mem.read offset m ++ mem.read (offset + m) n := by
  simp [read, List.range_add, Nat.add_assoc]

/-- What was read without its first bytes is what is read after them. -/
lemma drop_read (k : ℕ) : (mem.read offset n).drop k = mem.read (offset + k) (n - k) := by
  apply List.ext_getElem
  · simp
  · intro i _ _
    simp [read, Nat.add_assoc]

/-- Reading elsewhere than where a number was stored. -/
lemma read_store_of_disjoint {v : ℕ} (h : offset' + n ≤ offset ∨ offset + w ≤ offset') :
    (store w mem offset v).read offset' n = mem.read offset' n :=
  mem.read_write_of_disjoint (by rwa [length_leBytes])

/-- A number that is loaded depends on its bytes only. -/
lemma load_congr {mem mem' : Memory} (h : ∀ i < w, mem (offset + i) = mem' (offset + i)) :
    load w mem offset = load w mem' offset := by
  rw [load, load, read, read, List.map_congr_left fun i hi => h i (List.mem_range.mp hi)]

/-- A number that was stored is loaded, as far as it fits. -/
lemma load_store (w offset n : ℕ) : load w (store w mem offset n) offset = n % 256 ^ w := by
  have h := mem.read_write offset (leBytes w n)
  rw [length_leBytes] at h
  rw [load, store, h, leNat_leBytes]

/-- Loading the lowest bytes of a number that was stored. -/
lemma load_store_of_le {w' : ℕ} (h : w' ≤ w) (offset n : ℕ) :
    load w' (store w mem offset n) offset = n % 256 ^ w' := by
  have hread := (store w mem offset n).take_drop_read offset (k := 0) (m := w') (n := w) (by omega)
  have hstore := mem.read_write offset (leBytes w n)
  rw [length_leBytes] at hstore
  rw [List.drop_zero, Nat.add_zero, store, hstore, take_leBytes n h] at hread
  rw [load, store, ← hread, leNat_leBytes]

/-- Loading a number elsewhere than where a list was written. -/
lemma load_write_of_disjoint (h : offset' + w ≤ offset ∨ offset + bs.length ≤ offset') :
    load w (mem.write offset bs) offset' = load w mem offset' := by
  rw [load, load, read_write_of_disjoint mem h]

/-- Loading a number elsewhere than where one was stored. -/
lemma load_store_of_disjoint {w' : ℕ} (h : offset' + w ≤ offset ∨ offset + w' ≤ offset') :
    load w (store w' mem offset n) offset' = load w mem offset' :=
  mem.load_write_of_disjoint (by rwa [length_leBytes])

/-- A byte outside the number stored. -/
lemma store_apply_of_disjoint (h : i < offset ∨ offset + w ≤ i) :
    store w mem offset n i = mem i := by
  rcases h with h | h
  · exact mem.write_of_lt _ h
  · exact mem.write_of_le (by rwa [length_leBytes])

end Memory

/-! ## Layouts -/

/-- A member of a structure: the size of its elements, their alignment, and how many there are. -/
structure Member where
  /-- The size of one element. -/
  size : ℕ
  /-- The alignment of the elements. -/
  align : ℕ
  /-- The number of elements, 1 for a member that is no array. -/
  count : ℕ
  deriving DecidableEq

/-- The members of a structure, in order. -/
abbrev Layout := List Member

namespace Layout

/-- The first multiple of `align` from `n` on. -/
def alignUp (n align : ℕ) : ℕ := (n + align - 1) / align * align

/-- Where the next member may start after the members of a layout, the first at `start`. -/
def endFrom (start : ℕ) (l : Layout) : ℕ :=
  l.foldl (fun n m => alignUp n m.align + m.size * m.count) start

/-- The offset of member `k`. -/
def offset (l : Layout) (k : ℕ) : ℕ :=
  alignUp (endFrom 0 (l.take k)) ((l[k]?.map Member.align).getD 1)

/-- The offsets of the members, in order. -/
def offsets (l : Layout) : List ℕ := (List.range l.length).map l.offset

/-- The largest alignment of the members. -/
def align (l : Layout) : ℕ := l.foldl (fun a m => max a m.align) 1

/-- `sizeof`: the members and the padding after the last one. -/
def sizeof (l : Layout) : ℕ := alignUp (endFrom 0 l) l.align

end Layout

/-! ## Text -/

/-- The text that starts with the bytes of a list and ends before the first NUL, if there is one
among them. -/
def cString (bs : List UInt8) : Option (List UInt8) :=
  if 0 ∈ bs then some (bs.takeWhile (· ≠ 0)) else none

/-- The text before the first NUL. -/
lemma cString_append_zero {text : List UInt8} (h : 0 ∉ text) (rest : List UInt8) :
    cString (text ++ 0 :: rest) = some text := by
  have hall : ∀ b ∈ text, decide (b ≠ 0) = true := fun b hb => by
    simpa using fun h0 : b = 0 => h (h0 ▸ hb)
  rw [cString, if_pos (by simp), List.takeWhile_append_of_pos hall]
  simp

/-- A text that goes on is another. -/
lemma cString_append_ne {text : List UInt8} (h : 0 ∉ text) {b : UInt8} (hb : b ≠ 0)
    (rest : List UInt8) : cString (text ++ b :: rest) ≠ some text := by
  have hall : ∀ b ∈ text, decide (b ≠ 0) = true := fun b hb => by
    simpa using fun h0 : b = 0 => h (h0 ▸ hb)
  rw [cString, List.takeWhile_append_of_pos hall]
  split_ifs <;> simp [hb]

/-- Only the bytes up to the first NUL matter. -/
lemma cString_append_of_mem {bs : List UInt8} (h : 0 ∈ bs) (rest : List UInt8) :
    cString (bs ++ rest) = cString bs := by
  have hpre : ∀ bs : List UInt8, 0 ∈ bs →
      (bs ++ rest).takeWhile (· ≠ 0) = bs.takeWhile (· ≠ 0) := by
    intro bs
    induction bs with
    | nil => simp
    | cons b bs ih =>
      intro hmem
      by_cases hb : b = 0
      · simp [hb]
      · have hrest : 0 ∈ bs := by simpa [Ne.symm hb] using hmem
        simp only [List.cons_append, List.takeWhile_cons, ih hrest]
  rw [cString, cString, if_pos (List.mem_append_left _ h), if_pos h, hpre bs h]

/-- A text that does not end in a list ends where it does in the rest. -/
lemma cString_append_of_notMem {bs : List UInt8} (h : 0 ∉ bs) (rest : List UInt8) :
    cString (bs ++ rest) = (cString rest).map (bs ++ ·) := by
  have hall : ∀ b ∈ bs, decide (b ≠ 0) = true := fun b hb => by
    simpa using fun h0 : b = 0 => h (h0 ▸ hb)
  rw [cString, cString, List.takeWhile_append_of_pos hall]
  by_cases hrest : 0 ∈ rest
  · rw [if_pos (List.mem_append_right _ hrest), if_pos hrest]
    rfl
  · have hnul : 0 ∉ bs ++ rest := fun hmem => (List.mem_append.mp hmem).elim h hrest
    rw [if_neg hnul, if_neg hrest]
    rfl

/-- A text is shorter than the list it ends in. -/
lemma length_lt_of_cString {bs text : List UInt8} (h : cString bs = some text) :
    text.length < bs.length := by
  induction bs generalizing text with
  | nil => simp [cString] at h
  | cons b bs ih =>
    by_cases hb : b = 0
    · obtain rfl : [] = text := by simpa [cString, hb] using h
      simp
    · rw [← List.singleton_append, cString_append_of_notMem (by simpa using Ne.symm hb),
        Option.map_eq_some_iff] at h
      obtain ⟨tail, htail, rfl⟩ := h
      have hlt := ih htail
      simpa using hlt

end Foundations
