import Strongbox.Bytes
import Mathlib.Data.List.Range

/-!
# Byte strings: sizes and block-by-block maps

The sizes of the byte strings the ciphers and hashes build, and the one argument behind both
stream ciphers: a data string cut into blocks of `w` bytes, each block mapped on its own and
the results joined, is undone by mapping each block back.
-/

namespace Strongbox.Bytes

/-! ## Sizes -/

@[simp] theorem size_slice (b : ByteArray) (start len : Nat) :
    (slice b start len).size = min (start + len) b.size - start := by
  simp [slice]

@[simp] theorem size_xor (a b : ByteArray) : (xor a b).size = min a.size b.size := by
  simp only [xor, ← ByteArray.size_data, Array.size_zipWith]

@[simp] theorem size_ofNatLE (width n : Nat) : (ofNatLE width n).size = width := by
  simp [ofNatLE, ← ByteArray.size_data]

@[simp] theorem size_ofNatBE_eq (width n : Nat) : (ofNatBE width n).size = width :=
  size_ofNatBE width n

@[simp] theorem size_replicate_eq (n : Nat) (x : UInt8) : (replicate n x).size = n :=
  size_replicate n x

/-- Appending a piece of `width` bytes per element adds `width` bytes per element. -/
theorem size_foldl_append {α : Type} (f : α → ByteArray) {width : Nat}
    (hf : ∀ x, (f x).size = width) (l : List α) (acc : ByteArray) :
    (l.foldl (fun acc x => acc ++ f x) acc).size = acc.size + width * l.length := by
  induction l generalizing acc with
  | nil => simp
  | cons x l ih =>
    rw [List.foldl_cons, ih, ByteArray.size_append, hf, List.length_cons, Nat.mul_succ]
    omega

theorem size_array_foldl_append {α : Type} (f : α → ByteArray) {width : Nat}
    (hf : ∀ x, (f x).size = width) (xs : Array α) (acc : ByteArray) :
    (xs.foldl (fun acc x => acc ++ f x) acc).size = acc.size + width * xs.size := by
  rw [← Array.foldl_toList, size_foldl_append f hf, Array.length_toList]

/-! ## Slices of joined strings -/

theorem slice_append (a b : ByteArray) (start len : Nat) :
    slice (a ++ b) start len =
      slice a start len ++ b.extract (start - a.size) (start + len - a.size) :=
  ByteArray.extract_append

theorem slice_eq_empty {b : ByteArray} {start len : Nat} (h : b.size ≤ start) :
    slice b start len = ByteArray.empty :=
  ByteArray.extract_eq_empty_iff.mpr (by omega)

theorem extract_zero_of_size_le {b : ByteArray} {n : Nat} (h : b.size ≤ n) :
    b.extract 0 n = b := by
  ext1
  simp [Array.extract_eq_self_iff]
  omega

/-- A string followed by a tag of `n` bytes splits back into the two. -/
theorem split_suffix {c t : ByteArray} {n : Nat} (ht : t.size = n) :
    (c ++ t).extract 0 ((c ++ t).size - n) = c ∧ dropBytes (c ++ t) ((c ++ t).size - n) = t := by
  rw [ByteArray.size_append, ht, Nat.add_sub_cancel]
  exact ⟨ByteArray.extract_append_eq_left rfl,
    ByteArray.extract_append_eq_right rfl (by rw [ByteArray.size_append, ht])⟩

/-! ## Exclusive or -/

theorem xor_xor_of_le {a b : ByteArray} (h : a.size ≤ b.size) : xor (xor a b) b = a := by
  obtain ⟨⟨la⟩⟩ := a
  obtain ⟨⟨lb⟩⟩ := b
  simp only [xor, ByteArray.size, List.size_toArray] at h ⊢
  congr 1
  apply Array.ext'
  simp only [Array.toList_zipWith]
  -- byte by byte along the shorter operand
  induction la generalizing lb with
  | nil => simp
  | cons x xs ih =>
    cases lb with
    | nil => simp at h
    | cons y ys =>
      simp only [List.zipWith_cons_cons, List.cons.injEq]
      exact ⟨by rw [UInt8.xor_assoc, UInt8.xor_self, UInt8.xor_zero],
        ih ys (by simp at h; omega)⟩

theorem foldl_or_replicate_zero (n : Nat) (z : UInt8) :
    (List.replicate n (0 : UInt8)).foldl (· ||| ·) z = z := by
  induction n with
  | zero => rfl
  | succ n ih => simp [List.replicate_succ, ih]

/-- A byte string compares equal to itself. -/
theorem equalInTime_self (a : ByteArray) : equalInTime a a = true := by
  obtain ⟨⟨l⟩⟩ := a
  have hzero : Array.zipWith (· ^^^ ·) (⟨l⟩ : Array UInt8) ⟨l⟩ = ⟨List.replicate l.length 0⟩ := by
    apply Array.ext'
    simp
  simp only [equalInTime, beq_self_eq_true, Bool.true_and, hzero, List.foldl_toArray',
    foldl_or_replicate_zero]

/-! ## Block-by-block maps -/

/-- Each `w`-byte block `i < m` of `data` replaced by `f i` of it, all joined: the shape of a
stream cipher applied block by block. -/
def blockwise (w m : Nat) (f : Nat → ByteArray → ByteArray) (data : ByteArray) : ByteArray :=
  (List.range m).foldl (fun acc i => acc ++ f i (slice data (w * i) w)) ByteArray.empty

section Blockwise

variable {w m : Nat} {f g : Nat → ByteArray → ByteArray} {data : ByteArray}

theorem blockwise_succ :
    blockwise w (m + 1) f data = blockwise w m f data ++ f m (slice data (w * m) w) := by
  simp only [blockwise, List.range_succ, List.foldl_append, List.foldl_cons, List.foldl_nil]

theorem size_blockwise (hf : ∀ i b, b.size ≤ w → (f i b).size = b.size) :
    (blockwise w m f data).size = min (w * m) data.size := by
  induction m with
  | zero => simp [blockwise]
  | succ m ih =>
    rw [blockwise_succ, ByteArray.size_append, ih, hf _ _ (by simp; omega), size_slice,
      Nat.mul_succ]
    omega

/-- Block `i` of the output is `f i` of block `i` of the input. -/
theorem slice_blockwise (hf : ∀ i b, b.size ≤ w → (f i b).size = b.size) {i : Nat}
    (hi : i < m) : slice (blockwise w m f data) (w * i) w = f i (slice data (w * i) w) := by
  induction m with
  | zero => omega
  | succ m ih =>
    have hA : (blockwise w m f data).size = min (w * m) data.size := size_blockwise hf
    have hB := hf m (slice data (w * m) w) (by simp; omega)
    rw [size_slice] at hB
    rw [blockwise_succ, slice_append]
    rcases Nat.lt_succ_iff_lt_or_eq.mp hi with hi | rfl
    · -- an earlier block: the last block adds nothing to it
      have hle : w * i + w ≤ w * m := by
        rw [← Nat.mul_succ]
        exact Nat.mul_le_mul_left w hi
      rw [ih hi, ByteArray.extract_eq_empty_iff.mpr (by omega), ByteArray.append_empty]
    · -- the last block, which is empty past the end of the data
      rw [slice_eq_empty (by omega), ByteArray.empty_append]
      rcases Nat.lt_or_ge (w * i) data.size with hlt | hge
      · rw [show w * i - (blockwise w i f data).size = 0 by omega]
        exact extract_zero_of_size_le (by omega)
      · have hempty : f i (slice data (w * i) w) = ByteArray.empty :=
          ByteArray.size_eq_zero_iff.mp (by omega)
        rw [hempty]
        exact ByteArray.extract_eq_empty_iff.mpr (by simp)

theorem blockwise_id : blockwise w m (fun _ b => b) data = data.extract 0 (w * m) := by
  induction m with
  | zero => simp [blockwise]
  | succ m ih =>
    rw [blockwise_succ, ih, slice, ByteArray.extract_append_extract, Nat.mul_succ]
    simp

/-- Mapping each block back undoes a size-preserving block map. -/
theorem blockwise_blockwise (hf : ∀ i b, b.size ≤ w → (f i b).size = b.size)
    (hg : ∀ i b, b.size ≤ w → g i (f i b) = b) :
    blockwise w m g (blockwise w m f data) = data.extract 0 (w * m) := by
  rw [← blockwise_id]
  unfold blockwise
  apply List.foldl_ext
  intro acc i hi
  rw [List.mem_range] at hi
  rw [← blockwise, slice_blockwise hf hi, hg _ _ (by simp; omega)]

end Blockwise

/-! ## Key streams -/

section KeyStream

variable {w m : Nat} {ks : Nat → ByteArray}

theorem size_blockwise_xor (hks : ∀ i, w ≤ (ks i).size) (data : ByteArray) :
    (blockwise w m (fun i b => xor b (ks i)) data).size = min (w * m) data.size :=
  size_blockwise fun i b hb => by simp; have := hks i; omega

/-- Xoring with a key stream of blocks at least `w` long twice, over enough blocks to cover the
data, gives the data back. -/
theorem blockwise_xor_xor (hks : ∀ i, w ≤ (ks i).size) {data : ByteArray}
    (hm : data.size ≤ w * m) :
    blockwise w m (fun i b => xor b (ks i)) (blockwise w m (fun i b => xor b (ks i)) data) =
      data := by
  rw [blockwise_blockwise (fun i b hb => by simp; have := hks i; omega)
    (fun i b hb => xor_xor_of_le (by have := hks i; omega))]
  exact extract_zero_of_size_le hm

end KeyStream

end Strongbox.Bytes
