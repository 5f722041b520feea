import OrtSuperserve.Lib.Indexed

/-!
# Arrays of dynamic rank

An array is a shape with its elements in logical (row-major) order, as many as the shape asks for.
The operations are those of `ndarray` along axis `0`: `indexAxis` takes one index of the leading
axis, `rows` all of them, `stack` puts arrays of one shape under a new leading axis, and
`fromShapeVec`, `fromShape` give a shape to a list of elements.  Sizes are checked against the
largest `isize` of a machine with `bits`-bit words, as `ndarray` does; that bounds the product of the
non-zero axes, and, where elements of `elemSize` bytes are allocated, the bytes (`Allocatable`).

`rows_stack`: the rows of a stack are the arrays that were stacked; `stack_rows`: the stack of the rows
of an array is the array.
-/

namespace OrtSuperserve.Lib

universe u

variable {α : Type u}

structure ArrayD (α : Type u) where
  shape : List ℕ
  data : List α
  length_data : data.length = shape.prod
deriving DecidableEq

/-- The errors of shape arguments. -/
inductive ShapeError
  | incompatibleShape
  | outOfBounds
  | unsupported
  | overflow
deriving DecidableEq, Repr

def ShapeError.text : ShapeError → String
  | .incompatibleShape => "ShapeError/IncompatibleShape: incompatible shapes"
  | .outOfBounds => "ShapeError/OutOfBounds: out of bounds indexing"
  | .unsupported => "ShapeError/Unsupported: unsupported operation"
  | .overflow => "ShapeError/Overflow: arithmetic overflow"

/-- The errors can be told apart by their texts. -/
lemma ShapeError.text_injective {e e' : ShapeError} (h : e.text = e'.text) : e = e' := by
  cases e <;> cases e' <;> simp_all [ShapeError.text]

/-- `isize::MAX`. -/
def isizeMax (bits : ℕ) : ℕ := 2 ^ (bits - 1) - 1

/-- The product of the non-zero axis lengths, the size that must fit an `isize`. -/
def nonzeroSize (shape : List ℕ) : ℕ := (shape.filter (· ≠ 0)).prod

/-- The number of elements of a shape, if its non-zero axes do not overflow. -/
def sizeOfShapeChecked (bits : ℕ) (shape : List ℕ) : Except ShapeError ℕ :=
  if nonzeroSize shape ≤ isizeMax bits then .ok shape.prod else .error .overflow

/-- An array of the shape, with elements of `elemSize` bytes, is no larger than allowed. -/
structure Allocatable (bits elemSize : ℕ) (shape : List ℕ) : Prop where
  size : nonzeroSize shape ≤ isizeMax bits
  bytes : shape.prod * elemSize ≤ isizeMax bits

/-- An owned array from a shape and exactly as many elements. -/
def fromShapeVec (bits : ℕ) (shape : List ℕ) (v : List α) : Except ShapeError (ArrayD α) :=
  match sizeOfShapeChecked bits shape with
  | .error e => .error e
  | .ok len =>
    if v.length < len then .error .outOfBounds
    else if h : v.length = shape.prod then .ok ⟨shape, v, h⟩ else .error .incompatibleShape

/-- A view of the first elements of a slice. -/
def fromShape (bits : ℕ) (shape : List ℕ) (v : List α) : Except ShapeError (ArrayD α) :=
  match sizeOfShapeChecked bits shape with
  | .error e => .error e
  | .ok _ =>
    if h : v.length < shape.prod then .error .outOfBounds
    else .ok ⟨shape, v.take shape.prod, by rw [List.length_take]; omega⟩

namespace ArrayD

/-! ### The leading axis -/

/-- The subarray at one index of axis `0`; there is none at rank `0` or past the end. -/
def indexAxis (a : ArrayD α) (idx : ℕ) : Option (ArrayD α) :=
  match a with
  | ⟨[], _, _⟩ => none
  | ⟨n :: tail, data, h⟩ =>
    if hi : idx < n then
      some ⟨tail, (data.drop (idx * tail.prod)).take tail.prod, by
        have hle : (idx + 1) * tail.prod ≤ n * tail.prod := Nat.mul_le_mul_right _ hi
        rw [List.prod_cons] at h
        rw [List.length_take, List.length_drop, h]
        rw [Nat.add_mul, Nat.one_mul] at hle
        omega⟩
    else none

/-- The subarrays along axis `0`, in order. -/
def rows (a : ArrayD α) : List (ArrayD α) :=
  (List.range (a.shape.headD 0)).filterMap a.indexAxis

/-- The arrays under a new axis `0`; they must be of one shape, and there must be one.  `none` is the
panic of `Vec::with_capacity` on more bytes than an `isize` counts. -/
def stack (bits elemSize : ℕ) (items : List (ArrayD α)) :
    Option (Except ShapeError (ArrayD α)) :=
  match items with
  | [] => some (.error .unsupported)
  | first :: rest =>
    if h : ∀ a ∈ rest, a.shape = first.shape then
      match sizeOfShapeChecked bits ((rest.length + 1) :: first.shape) with
      | .error e => some (.error e)
      | .ok newLen =>
        if isizeMax bits < newLen * elemSize then none
        else some (.ok ⟨(rest.length + 1) :: first.shape, (first :: rest).flatMap data, by
          have hl : ∀ a ∈ rest, a.data.length = first.shape.prod := fun a ha => by
            rw [a.length_data, h a ha]
          rw [List.length_flatMap, List.map_cons, List.sum_cons, first.length_data,
            List.map_congr_left hl, List.prod_cons]
          simp [Nat.add_mul, Nat.add_comm]⟩)
    else some (.error .incompatibleShape)

@[ext] lemma ext {a b : ArrayD α} (hs : a.shape = b.shape) (hd : a.data = b.data) : a = b := by
  cases a; cases b; simp_all

/-! ### The rows of a stack -/

/-- The `k`-th block of a concatenation of blocks of one length. -/
lemma take_drop_flatMap {β : Type*} (f : β → List α) (m : ℕ) :
    ∀ (l : List β) (k : ℕ) (b : β), (∀ x ∈ l, (f x).length = m) → l[k]? = some b →
      ((l.flatMap f).drop (k * m)).take m = f b
  | [], k, b, _, hk => by simp at hk
  | x :: l, 0, b, hl, hk => by
    obtain rfl : x = b := by simpa using hk
    have hx : (f x).length = m := hl x (by simp)
    rw [Nat.zero_mul, List.drop_zero, List.flatMap_cons, List.take_append_of_le_length (by omega),
      ← hx, List.take_length]
  | x :: l, k + 1, b, hl, hk => by
    have hx : (f x).length = m := hl x (by simp)
    have hdrop : (f x ++ l.flatMap f).drop ((k + 1) * m) = (l.flatMap f).drop (k * m) := by
      rw [List.drop_append, List.drop_eq_nil_of_le (by rw [hx, Nat.add_mul]; omega), List.nil_append]
      congr 1
      rw [hx, Nat.add_mul]
      omega
    rw [List.flatMap_cons, hdrop]
    have hl' : ∀ y ∈ l, (f y).length = m := fun y hy => hl y (List.mem_cons_of_mem _ hy)
    exact take_drop_flatMap f m l k b hl' (by simpa using hk)

/-- What a successful stack is. -/
lemma stack_eq_ok {bits elemSize : ℕ} {items : List (ArrayD α)} {t : ArrayD α}
    (h : stack bits elemSize items = some (.ok t)) :
    ∃ s, t.shape = items.length :: s ∧ (∀ a ∈ items, a.shape = s) ∧ t.data = items.flatMap data := by
  cases items with
  | nil => simp [stack] at h
  | cons first rest =>
    by_cases hs : ∀ a ∈ rest, a.shape = first.shape
    · simp only [stack, dif_pos hs] at h
      split at h
      · cases h
      · split at h
        · cases h
        obtain rfl := Except.ok.inj (Option.some.inj h)
        refine ⟨first.shape, rfl, ?_, rfl⟩
        intro a ha
        rcases List.mem_cons.1 ha with rfl | ha
        · rfl
        · exact hs a ha
    · simp only [stack, dif_neg hs] at h
      cases h

lemma indexAxis_stack {bits elemSize : ℕ} {items : List (ArrayD α)} {t : ArrayD α}
    (h : stack bits elemSize items = some (.ok t)) (k : ℕ) : t.indexAxis k = items[k]? := by
  obtain ⟨s, hshape, hs, hdata⟩ := stack_eq_ok h
  obtain ⟨shape, data, hl⟩ := t
  simp only at hshape hdata
  subst hshape hdata
  by_cases hk : k < items.length
  · rw [List.getElem?_eq_getElem hk]
    simp only [indexAxis, hk, dif_pos]
    congr 1
    have hmem : items[k] ∈ items := List.getElem_mem hk
    refine ArrayD.ext (hs _ hmem).symm ?_
    exact take_drop_flatMap ArrayD.data s.prod items k _
      (fun a ha => by rw [a.length_data, hs a ha]) (List.getElem?_eq_getElem hk)
  · rw [List.getElem?_eq_none (by omega)]
    simp [indexAxis, hk]

/-- **The rows of a stack are the stacked arrays.** -/
theorem rows_stack {bits elemSize : ℕ} {items : List (ArrayD α)} {t : ArrayD α}
    (h : stack bits elemSize items = some (.ok t)) : t.rows = items := by
  obtain ⟨s, hshape, -, -⟩ := stack_eq_ok h
  have hidx : t.indexAxis = fun i => items[i]?.bind some :=
    funext fun i => by rw [indexAxis_stack h]; cases items[i]? <;> rfl
  unfold rows
  rw [hshape, hidx, List.headD_cons, filterMap_range, List.filterMap_some]

/-! ### When a list can be stacked -/

section Stacking

variable {bits elemSize : ℕ} {items : List (ArrayD α)}

variable (bits elemSize) in
/-- Arrays of one shape are stacked, unless there is too much of them. -/
lemma stack_of_shapes {s : List ℕ} (hne : items ≠ []) (hs : ∀ a ∈ items, a.shape = s) :
    (Allocatable bits elemSize (items.length :: s) →
      ∃ t, stack bits elemSize items = some (.ok t)) ∧
    (¬ nonzeroSize (items.length :: s) ≤ isizeMax bits →
      stack bits elemSize items = some (.error .overflow)) ∧
    (nonzeroSize (items.length :: s) ≤ isizeMax bits →
      ¬ (items.length :: s).prod * elemSize ≤ isizeMax bits → stack bits elemSize items = none) := by
  cases items with
  | nil => exact absurd rfl hne
  | cons first rest =>
    have hfirst : first.shape = s := hs first List.mem_cons_self
    have hrest : ∀ a ∈ rest, a.shape = first.shape := by
      intro a ha
      rw [hfirst, hs a (List.mem_cons_of_mem _ ha)]
    rw [List.length_cons, ← hfirst]
    simp only [stack, dif_pos hrest, sizeOfShapeChecked]
    refine ⟨?_, ?_, ?_⟩
    · rintro ⟨hsize, hbytes⟩
      simp only [if_pos hsize, if_neg (not_lt.2 hbytes)]
      exact ⟨_, rfl⟩
    · intro hsize
      simp only [if_neg hsize]
    · intro hsize hbytes
      simp only [if_pos hsize, if_pos (not_le.1 hbytes)]

lemma stack_of_mixed (hne : items ≠ []) (hs : ¬ ∃ s, ∀ a ∈ items, a.shape = s) :
    stack bits elemSize items = some (.error .incompatibleShape) := by
  cases items with
  | nil => exact absurd rfl hne
  | cons first rest =>
    have hrest : ¬ ∀ a ∈ rest, a.shape = first.shape := fun h => by
      refine hs ⟨first.shape, fun a ha => ?_⟩
      rcases List.mem_cons.1 ha with rfl | ha
      · rfl
      · exact h a ha
    simp only [stack, dif_neg hrest]

/-- An array that does no harm to the stacking of others: it has their shape, if they have one, and
one more of that shape is not too much, if they are not. -/
def Harmless (bits elemSize : ℕ) (others : List (ArrayD α)) (p : ArrayD α) : Prop :=
  ∀ s, (∀ a ∈ others, a.shape = s) → p.shape = s ∧
    (nonzeroSize (others.length :: s) ≤ isizeMax bits →
      nonzeroSize ((others.length + 1) :: s) ≤ isizeMax bits) ∧
    ((others.length :: s).prod * elemSize ≤ isizeMax bits →
      ((others.length + 1) :: s).prod * elemSize ≤ isizeMax bits)

/-- How the stacking of a list of arrays ends. -/
def stackOutcome (bits elemSize : ℕ) (items : List (ArrayD α)) : Option (Except ShapeError Unit) :=
  (stack bits elemSize items).map fun x => x.map fun _ => ()

lemma nonzeroSize_mono {n m : ℕ} (s : List ℕ) (hn : n ≠ 0) (h : n ≤ m) :
    nonzeroSize (n :: s) ≤ nonzeroSize (m :: s) := by
  have hm : m ≠ 0 := by omega
  simp only [nonzeroSize, ne_eq, hn, hm, not_false_eq_true, decide_true, List.filter_cons_of_pos,
    List.prod_cons]
  exact Nat.mul_le_mul_right _ h

/-- **An array that does no harm** leaves the outcome of stacking as it is. -/
theorem stackOutcome_harmless {l r : List (ArrayD α)} {p : ArrayD α} (hne : l ++ r ≠ [])
    (hp : Harmless bits elemSize (l ++ r) p) :
    stackOutcome bits elemSize (l ++ p :: r) = stackOutcome bits elemSize (l ++ r) := by
  have hne' : l ++ p :: r ≠ [] := by simp
  have hlen : (l ++ p :: r).length = (l ++ r).length + 1 := by simp [Nat.add_assoc]
  by_cases hs : ∃ s, ∀ a ∈ l ++ r, a.shape = s
  · obtain ⟨s, hs⟩ := hs
    obtain ⟨hshape, hsize, hbytes⟩ := hp s hs
    have hs' : ∀ a ∈ l ++ p :: r, a.shape = s := by
      intro a ha
      rcases List.mem_cons.1 (List.perm_middle.subset ha) with rfl | ha
      · exact hshape
      · exact hs a ha
    -- more of them is too much if fewer are
    have hsize' : nonzeroSize ((l ++ p :: r).length :: s) ≤ isizeMax bits ↔
        nonzeroSize ((l ++ r).length :: s) ≤ isizeMax bits := by
      rw [hlen]
      refine ⟨fun h => (nonzeroSize_mono s (by simpa using hne) (Nat.le_succ _)).trans h, hsize⟩
    have hbytes' : ((l ++ p :: r).length :: s).prod * elemSize ≤ isizeMax bits ↔
        ((l ++ r).length :: s).prod * elemSize ≤ isizeMax bits := by
      rw [hlen]
      refine ⟨fun h => le_trans ?_ h, hbytes⟩
      rw [List.prod_cons, List.prod_cons]
      gcongr
      exact Nat.le_succ _
    obtain ⟨hok, hover, hcap⟩ := stack_of_shapes bits elemSize hne hs
    obtain ⟨hok', hover', hcap'⟩ := stack_of_shapes bits elemSize hne' hs'
    by_cases hfit : nonzeroSize ((l ++ r).length :: s) ≤ isizeMax bits
    · by_cases hroom : ((l ++ r).length :: s).prod * elemSize ≤ isizeMax bits
      · obtain ⟨t, ht⟩ := hok ⟨hfit, hroom⟩
        obtain ⟨t', ht'⟩ := hok' ⟨hsize'.2 hfit, hbytes'.2 hroom⟩
        simp [stackOutcome, ht, ht', Except.map]
      · rw [stackOutcome, stackOutcome, hcap hfit hroom, hcap' (hsize'.2 hfit) (mt hbytes'.1 hroom)]
    · rw [stackOutcome, stackOutcome, hover hfit, hover' (mt hsize'.1 hfit)]
  · have hs' : ¬ ∃ s, ∀ a ∈ l ++ p :: r, a.shape = s := by
      rintro ⟨s, h⟩
      exact hs ⟨s, fun a ha => h a (List.perm_middle.symm.subset (List.mem_cons_of_mem p ha))⟩
    rw [stackOutcome, stackOutcome, stack_of_mixed hne hs, stack_of_mixed hne' hs']

end Stacking

/-! ### The stack of the rows -/

section Rows

variable {a single : ArrayD α} {n idx : ℕ} {tail : List ℕ}

/-- What is at an index of the leading axis. -/
lemma indexAxis_of_lt (hs : a.shape = n :: tail) (hi : idx < n) :
    ∃ single, a.indexAxis idx = some single ∧ single.shape = tail ∧
      single.data = (a.data.drop (idx * tail.prod)).take tail.prod := by
  obtain ⟨shape, data, hl⟩ := a
  obtain rfl : shape = n :: tail := hs
  simp only [indexAxis, dif_pos hi]
  exact ⟨_, rfl, rfl, rfl⟩

lemma length_rows (a : ArrayD α) : a.rows.length = a.shape.headD 0 := by
  unfold rows
  rw [List.filterMap_length_eq_length.2, List.length_range]
  intro idx hidx
  cases hs : a.shape with
  | nil => simp [hs] at hidx
  | cons n tail =>
    rw [hs, List.headD_cons, List.mem_range] at hidx
    obtain ⟨single, h, -⟩ := indexAxis_of_lt hs hidx
    rw [h]
    rfl

lemma shape_of_mem_rows (hs : a.shape = n :: tail) (h : single ∈ a.rows) : single.shape = tail := by
  unfold rows at h
  rw [hs, List.headD_cons] at h
  obtain ⟨idx, hidx, h⟩ := List.mem_filterMap.1 h
  obtain ⟨single', h', hshape, -⟩ := indexAxis_of_lt hs (List.mem_range.1 hidx)
  obtain rfl := Option.some.inj (h'.symm.trans h)
  exact hshape

/-- The first rows hold the first elements. -/
lemma flatMap_rows_take (hs : a.shape = n :: tail) {m : ℕ} (hm : m ≤ n) :
    ((List.range m).filterMap a.indexAxis).flatMap data = a.data.take (m * tail.prod) := by
  induction m with
  | zero => simp
  | succ m ih =>
    obtain ⟨single, h, -, hdata⟩ := indexAxis_of_lt hs (show m < n by omega)
    rw [List.range_succ, List.filterMap_append, List.flatMap_append, ih (by omega), Nat.add_mul,
      Nat.one_mul, List.take_add]
    simp [h, hdata]

/-- **The stack of the rows is the array**, if there is a row. -/
theorem stack_rows {bits elemSize : ℕ} (hs : a.shape = n :: tail) (hn : 1 ≤ n)
    (hfit : Allocatable bits elemSize (n :: tail)) :
    stack bits elemSize a.rows = some (.ok a) := by
  have hlen : a.rows.length = n := by rw [length_rows, hs, List.headD_cons]
  have hne : a.rows ≠ [] := List.ne_nil_of_length_pos (by omega)
  have hshapes : ∀ single ∈ a.rows, single.shape = tail := fun _ h => shape_of_mem_rows hs h
  obtain ⟨t, ht⟩ := (stack_of_shapes bits elemSize hne hshapes).1 (by rw [hlen]; exact hfit)
  obtain ⟨s, hshape, hs', hdata⟩ := stack_eq_ok ht
  obtain ⟨single, hsingle⟩ := List.exists_mem_of_ne_nil _ hne
  obtain rfl : s = tail := (hs' single hsingle).symm.trans (hshapes single hsingle)
  have hall : a.rows.flatMap data = a.data := by
    unfold rows
    rw [hs, List.headD_cons, flatMap_rows_take hs le_rfl, List.take_of_length_le]
    rw [a.length_data, hs, List.prod_cons]
  have hta : t = a := by
    refine ArrayD.ext ?_ ?_
    · rw [hshape, hlen, hs]
    · rw [hdata, hall]
  rw [ht, hta]

end Rows

end ArrayD

end OrtSuperserve.Lib
