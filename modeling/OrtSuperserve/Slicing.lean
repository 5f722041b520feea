import OrtSuperserve.Worker
import OrtSuperserve.Helpers

/-!
# Batching and slicing

`batch_array` puts the items under a new axis `0`, and the loop of the worker takes the rows off it
again.  On tensors that are no larger than an array may be the one undoes the other
(`slicing_batching`): the slices of a batch are its items, and the batch of the slices is the tensor.
Arrays are their shape and their elements in logical order, so the layout of an item plays no part; and
as a view may repeat an element, items can be larger than the memory they take, and their batch too
large (`not_slicing_batching`).
-/

namespace OrtSuperserve

open Lib

variable {F : Type} {bits n : ℕ} {tail : List ℕ}

/-! ### The slicing loop -/

lemma nonzeroSize_tail_le (n : ℕ) (tail : List ℕ) : nonzeroSize tail ≤ nonzeroSize (n :: tail) := by
  unfold nonzeroSize
  by_cases hn : n = 0
  · simp [hn]
  · rw [List.filter_cons_of_pos (by simpa using hn), List.prod_cons]
    exact Nat.le_mul_of_pos_left _ (Nat.pos_of_ne_zero hn)

/-- The elements of an array, given its shape again. -/
lemma fromShapeVec_self {single : ArrayD F} (hfit : nonzeroSize single.shape ≤ isizeMax bits) :
    fromShapeVec bits single.shape single.data = .ok single := by
  have hlen := single.length_data
  simp only [fromShapeVec, sizeOfShapeChecked, if_pos hfit]
  rw [if_neg (by omega), dif_pos hlen]

/-- A view of exactly the elements a shape asks for. -/
lemma fromShape_of_length {shape : List ℕ} {data : List F} (hlen : data.length = shape.prod)
    (hfit : nonzeroSize shape ≤ isizeMax bits) :
    fromShape bits shape data = .ok ⟨shape, data, hlen⟩ := by
  have htake : data.take shape.prod = data := by rw [← hlen, List.take_length]
  simp only [fromShape, sizeOfShapeChecked, if_pos hfit, htake]
  rw [dif_neg (by omega)]

lemma fromShape_overflow {shape : List ℕ} {data : List F}
    (hfit : ¬ nonzeroSize shape ≤ isizeMax bits) : fromShape bits shape data = .error .overflow := by
  simp only [fromShape, sizeOfShapeChecked, if_neg hfit]

/-- **The loop runs through** on indices of the leading axis: neither `index_axis` nor the `unwrap`
panics. -/
theorem sliceOutputs_of_lt {batchView : ArrayD F} (hs : batchView.shape = n :: tail)
    (hfit : nonzeroSize (n :: tail) ≤ isizeMax bits) {is : List ℕ} (his : ∀ idx ∈ is, idx < n) :
    sliceOutputs bits tail batchView is = some (is.filterMap batchView.indexAxis) := by
  induction is with
  | nil => rfl
  | cons idx rest ih =>
    obtain ⟨single, hsingle, rfl, -⟩ := ArrayD.indexAxis_of_lt hs (his idx List.mem_cons_self)
    have hslice : fromShapeVec bits single.shape single.data = .ok single :=
      fromShapeVec_self ((nonzeroSize_tail_le n _).trans hfit)
    have hrest := ih fun i hi => his i (List.mem_cons_of_mem _ hi)
    simp only [sliceOutputs, hsingle, hslice, hrest, Option.map_some, List.filterMap_cons]

/-- The slices are the rows. -/
lemma sliceOutputs_rows {batchView : ArrayD F} (hs : batchView.shape = n :: tail)
    (hfit : nonzeroSize (n :: tail) ≤ isizeMax bits) :
    sliceOutputs bits tail batchView (List.range n) = some batchView.rows := by
  rw [sliceOutputs_of_lt hs hfit fun idx h => List.mem_range.1 h, ArrayD.rows, hs, List.headD_cons]

/-- The axes of an array that fits an `isize` fit a `usize`. -/
lemma lt_of_nonzeroSize {shape : List ℕ} (hfit : nonzeroSize shape ≤ isizeMax bits) :
    ∀ d ∈ shape, d < 2 ^ bits := by
  intro d hd
  have hpow : 2 ^ (bits - 1) ≤ 2 ^ bits := Nat.pow_le_pow_right Nat.two_pos (Nat.sub_le _ _)
  have hhalf : 0 < 2 ^ (bits - 1) := Nat.two_pow_pos _
  rcases Nat.eq_zero_or_pos d with rfl | hpos
  · exact Nat.two_pow_pos _
  · have hmem : d ∈ shape.filter (· ≠ 0) := by
      rw [List.mem_filter]
      exact ⟨hd, by simpa using hpos.ne'⟩
    have hprod : 0 < (shape.filter (· ≠ 0)).prod := by
      apply List.prod_pos
      intro x hx
      have hx := (List.mem_filter.1 hx).2
      exact Nat.pos_of_ne_zero (by simpa using hx)
    have hle : d ≤ nonzeroSize shape := Nat.le_of_dvd hprod (List.dvd_prod hmem)
    unfold isizeMax at hfit
    omega

/-- **The worker sends the rows** of the array that the session returns, if it has a first axis, and not
one longer than a vector of arrays can be. -/
theorem processMessage_of_array {target : Target} {session : Session F} {msg : WorkerMessage F}
    {outputs : List (String × OrtValue F)} {out : ArrayD F}
    (hview : session.fromArrayView msg.resultTx msg.batchedTensor = .ok ())
    (hrun : session.run msg.resultTx msg.inputName msg.batchedTensor = .ok outputs)
    (hlook : outputs.lookup msg.outputName = some (.tensor (out.shape.map Int.ofNat) out.data))
    (hs : out.shape = n :: tail) (hfit : nonzeroSize out.shape ≤ isizeMax target.bits)
    (hroom : ¬ target.capacityOverflow target.arraySize n) :
    processMessage target session msg = .ok out.rows := by
  have hcast : (out.shape.map Int.ofNat).map (asUsize target.bits) = n :: tail := by
    rw [map_asUsize (lt_of_nonzeroSize hfit), hs]
  have harray : fromShape target.bits (n :: tail) out.data = .ok out := by
    rw [← hs]
    exact fromShape_of_length out.length_data hfit
  have hslices := sliceOutputs_rows hs (hs ▸ hfit)
  simp only [processMessage, hview, hrun, hlook, hcast, harray, if_neg hroom, hslices]

/-! ### There and back -/

/-- The items of one shape can be batched, and the slices of the batch are the items. -/
lemma slices_of_batch {items : List (ArrayD F)} (hne : items ≠ [])
    (hs : ∀ a ∈ items, a.shape = tail) (hfit : Allocatable bits f32Size (items.length :: tail)) :
    ∃ t, batchArray bits items = .ok t ∧ t.shape = items.length :: tail ∧
      ∃ batchView, fromShape bits t.shape t.data = .ok batchView ∧
        sliceOutputs bits tail batchView (List.range items.length) = some items := by
  obtain ⟨t, ht⟩ := (ArrayD.stack_of_shapes bits f32Size hne hs).1 hfit
  obtain ⟨s, hshape, hs', -⟩ := ArrayD.stack_eq_ok ht
  obtain ⟨a, ha⟩ := List.exists_mem_of_ne_nil _ hne
  obtain rfl : s = tail := (hs' a ha).symm.trans (hs a ha)
  have hview : fromShape bits t.shape t.data = .ok t :=
    fromShape_of_length t.length_data (by rw [hshape]; exact hfit.size)
  refine ⟨t, ?_, hshape, t, hview, ?_⟩
  · simp only [batchArray, if_neg hne, ht]
  · rw [sliceOutputs_rows hshape hfit.size, ArrayD.rows_stack ht]

/-- What is too large is refused if there are too many elements, and is a panic if there are too many
bytes. -/
lemma batchArray_of_size {items : List (ArrayD F)} (hne : items ≠ [])
    (hs : ∀ a ∈ items, a.shape = tail) :
    (¬ nonzeroSize (items.length :: tail) ≤ isizeMax bits →
      batchArray bits items = .err ShapeError.overflow.text) ∧
    (nonzeroSize (items.length :: tail) ≤ isizeMax bits →
      ¬ (items.length :: tail).prod * f32Size ≤ isizeMax bits → batchArray bits items = .panic) := by
  obtain ⟨-, hover, hcap⟩ := ArrayD.stack_of_shapes bits f32Size hne hs
  refine ⟨?_, ?_⟩
  · intro hsize
    simp only [batchArray, if_neg hne, hover hsize]
  · intro hsize hbytes
    simp only [batchArray, if_neg hne, hcap hsize hbytes]

/-- A tensor can be sliced, and the batch of its slices is the tensor. -/
lemma batch_of_slices {data : List F} (hn : 1 ≤ n) (hlen : data.length = (n :: tail).prod)
    (hfit : Allocatable bits f32Size (n :: tail)) :
    ∃ batchView slices, fromShape bits (n :: tail) data = .ok batchView ∧
      batchView.shape = n :: tail ∧ batchView.data = data ∧
      sliceOutputs bits tail batchView (List.range n) = some slices ∧ slices.length = n ∧
      batchArray bits slices = .ok batchView := by
  set batchView : ArrayD F := ⟨n :: tail, data, hlen⟩ with hview
  have hs : batchView.shape = n :: tail := rfl
  have hrows : batchView.rows.length = n := by rw [ArrayD.length_rows, hs, List.headD_cons]
  have hne : batchView.rows ≠ [] := List.ne_nil_of_length_pos (by omega)
  refine ⟨batchView, batchView.rows, fromShape_of_length hlen hfit.size, hs, rfl,
    sliceOutputs_rows hs hfit.size, hrows, ?_⟩
  simp only [batchArray, if_neg hne, ArrayD.stack_rows hs hn hfit]

/-- No items, or items of two shapes, cannot be batched. -/
lemma batchArray_err {items : List (ArrayD F)}
    (h : items = [] ∨ ∃ a ∈ items, ∃ a' ∈ items, a.shape ≠ a'.shape) :
    ∃ e, batchArray bits items = .err e := by
  unfold batchArray
  by_cases hne : items = []
  · rw [if_pos hne]
    exact ⟨_, rfl⟩
  · obtain ⟨a, ha, a', ha', hshape⟩ := h.resolve_left hne
    have hmixed : ¬ ∃ s, ∀ a ∈ items, a.shape = s := by
      rintro ⟨s, hs⟩
      exact hshape ((hs a ha).trans (hs a' ha').symm)
    rw [if_neg hne, ArrayD.stack_of_mixed hne hmixed]
    exact ⟨_, rfl⟩

/-- **Slicing undoes batching and batching undoes slicing.**  For every shape, zero-length axes and
the empty shape included: items of the shape are batched if their number and non-zero axes, and the
bytes of all their elements, fit an `isize`, and the worker's loop on the shape and elements of the
batch gives back the items; if the axes do not fit there is an error, and if only the bytes do not, a
panic; a tensor of `n ≥ 1` rows within these limits, given as a shape and just as many elements, is
accepted by `from_shape`, the loop runs through, and `batch_array` makes the tensor of its slices; and
no items, or items of two shapes, are an error. -/
theorem slicing_batching (F : Type) (bits : ℕ) :
    (∀ (tail : List ℕ) (items : List (ArrayD F)), items ≠ [] → (∀ a ∈ items, a.shape = tail) →
      (Allocatable bits f32Size (items.length :: tail) →
        ∃ t, batchArray bits items = .ok t ∧ t.shape = items.length :: tail ∧
          ∃ batchView, fromShape bits t.shape t.data = .ok batchView ∧
            sliceOutputs bits tail batchView (List.range items.length) = some items) ∧
      (¬ nonzeroSize (items.length :: tail) ≤ isizeMax bits →
        batchArray bits items = .err ShapeError.overflow.text) ∧
      (nonzeroSize (items.length :: tail) ≤ isizeMax bits →
        ¬ (items.length :: tail).prod * f32Size ≤ isizeMax bits →
        batchArray bits items = .panic)) ∧
    (∀ (n : ℕ) (tail : List ℕ) (data : List F), 1 ≤ n → data.length = (n :: tail).prod →
      Allocatable bits f32Size (n :: tail) →
      ∃ batchView slices, fromShape bits (n :: tail) data = .ok batchView ∧
        batchView.shape = n :: tail ∧ batchView.data = data ∧
        sliceOutputs bits tail batchView (List.range n) = some slices ∧ slices.length = n ∧
        batchArray bits slices = .ok batchView) ∧
    ∀ items : List (ArrayD F), (items = [] ∨ ∃ a ∈ items, ∃ a' ∈ items, a.shape ≠ a'.shape) →
      ∃ e, batchArray bits items = .err e := by
  refine ⟨?_, ?_, ?_⟩
  · intro tail items hne hs
    exact ⟨slices_of_batch hne hs, batchArray_of_size hne hs⟩
  · intro n tail data hn hlen hfit
    exact batch_of_slices hn hlen hfit
  · intro items h
    exact batchArray_err h

/-- Three scalars, and a tensor of two rows. -/
theorem slicing_batching_sample :
    (∃ t : ArrayD ℕ, batchArray 64 [⟨[], [4], rfl⟩, ⟨[], [5], rfl⟩, ⟨[], [6], rfl⟩] = .ok t ∧
      t.shape = [3] ∧ ∃ batchView, fromShape 64 t.shape t.data = .ok batchView ∧
        sliceOutputs 64 [] batchView (List.range 3) =
          some [⟨[], [4], rfl⟩, ⟨[], [5], rfl⟩, ⟨[], [6], rfl⟩]) ∧
    ∃ (batchView : ArrayD ℕ) (slices : List (ArrayD ℕ)),
      fromShape 64 [2, 3] [1, 2, 3, 4, 5, 6] = .ok batchView ∧
      sliceOutputs 64 [3] batchView (List.range 2) = some slices ∧
      batchArray 64 slices = .ok batchView := by
  obtain ⟨hbatch, hslice, -⟩ := slicing_batching ℕ 64
  refine ⟨?_, ?_⟩
  · exact (hbatch [] [⟨[], [4], rfl⟩, ⟨[], [5], rfl⟩, ⟨[], [6], rfl⟩] (by simp) (by simp)).1
      ⟨by decide, by decide⟩
  · obtain ⟨batchView, slices, hview, -, -, hslices, -, hback⟩ :=
      hslice 2 [3] [1, 2, 3, 4, 5, 6] (by decide) rfl ⟨by decide, by decide⟩
    exact ⟨batchView, slices, hview, hslices, hback⟩

/-- A view that shows one number `d` times. -/
def broadcast (d : ℕ) : ArrayD ℕ := ⟨[d], List.replicate d 0, by simp⟩

/-- One item of `2 ^ 61` numbers has no more elements than an `isize` counts, and its batch panics; a
shape may have more than that and yet no elements, and is refused before the loop. -/
theorem not_slicing_batching :
    (¬ ∀ (tail : List ℕ) (items : List (ArrayD ℕ)), items ≠ [] → (∀ a ∈ items, a.shape = tail) →
      nonzeroSize (items.length :: tail) ≤ isizeMax 64 → ∃ t, batchArray 64 items = .ok t) ∧
    ¬ ∀ (n : ℕ) (tail : List ℕ) (data : List ℕ), 1 ≤ n → data.length = (n :: tail).prod →
      ∃ batchView, fromShape 64 (n :: tail) data = .ok batchView := by
  refine ⟨?_, ?_⟩
  · intro h
    have hsize : nonzeroSize [1, 2 ^ 61] ≤ isizeMax 64 := by norm_num [nonzeroSize, isizeMax]
    have hbytes : ¬ [1, 2 ^ 61].prod * f32Size ≤ isizeMax 64 := by norm_num [f32Size, isizeMax]
    have hshape : ∀ a ∈ [broadcast (2 ^ 61)], a.shape = [2 ^ 61] := by
      intro a ha
      rw [List.mem_singleton.1 ha]
      rfl
    obtain ⟨t, ht⟩ := h [2 ^ 61] [broadcast (2 ^ 61)] (List.cons_ne_nil _ _) hshape hsize
    rw [(batchArray_of_size (List.cons_ne_nil _ _) hshape).2 hsize hbytes] at ht
    cases ht
  · intro h
    obtain ⟨batchView, hview⟩ := h (2 ^ 40) [2 ^ 40, 0] [] (by norm_num) (by simp)
    rw [fromShape_overflow (by norm_num [nonzeroSize, isizeMax])] at hview
    cases hview

end OrtSuperserve
