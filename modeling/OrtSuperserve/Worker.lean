import OrtSuperserve.Command
import OrtSuperserve.Config

/-!
# `actor/worker.rs`: what a worker does with a message

`processMessage` runs the session on the batched tensor, finds the output tensor by name, gives it
its shape and slices it along axis `0`.  It ends in one of three ways: the slices or an error are
sent on `result_tx`, or the thread unwinds and `result_tx` is dropped.

The ONNX session is outside the crate.  Its two calls are parameters, numbered by the round the
message belongs to, as the session need not be a function of the tensor.
-/

namespace OrtSuperserve

open Lib

variable {F : Type}

/-- An output of a session run; `other` is a value that is no `f32` tensor, with the error of
`try_extract_tensor`. -/
inductive OrtValue (F : Type) where
  | tensor (shape : List ℤ) (data : List F)
  | other (e : String)

/-- The session: `TensorRef::from_array_view` and `session.run` on one named input. -/
structure Session (F : Type) where
  fromArrayView : ℕ → ArrayD F → Except String Unit
  run : ℕ → String → ArrayD F → Outcome (List (String × OrtValue F))

/-- The message of the batcher; `resultTx` is the round that waits for the reply. -/
structure WorkerMessage (F : Type) where
  batchedTensor : ArrayD F
  inputName : String
  outputName : String
  resultTx : ℕ

/-- `x as usize` of an `i64`. -/
def asUsize (bits : ℕ) (x : ℤ) : ℕ := (x % 2 ^ bits).toNat

/-- The loop over the batch indices; `none` is the panic of `index_axis` or of the `unwrap`. -/
def sliceOutputs (bits : ℕ) (tail : List ℕ) (batchView : ArrayD F) :
    List ℕ → Option (List (ArrayD F))
  | [] => some []
  | idx :: rest =>
    match batchView.indexAxis idx with
    | none => none
    | some single =>
      match fromShapeVec bits tail single.data with
      | .error _ => none
      | .ok a => (sliceOutputs bits tail batchView rest).map (a :: ·)

/-- `process_message`: the value sent on `result_tx`, or a panic. -/
def processMessage (target : Target) (session : Session F) (msg : WorkerMessage F) :
    Outcome (List (ArrayD F)) :=
  match session.fromArrayView msg.resultTx msg.batchedTensor with
  | .error e => .err e
  | .ok () =>
    match session.run msg.resultTx msg.inputName msg.batchedTensor with
    | .panic => .panic
    | .err e => .err e
    | .ok outputs =>
      match outputs.lookup msg.outputName with
      | none => .err ("Output tensor '" ++ msg.outputName ++ "' not found")
      | some (.other e) => .err e
      | some (.tensor shape data) =>
        match shape.map (asUsize target.bits) with
        | [] => .panic                       -- `shape_usize[0]`
        | batchSize :: tail =>
          match fromShape target.bits (batchSize :: tail) data with
          | .error e => .err e.text
          | .ok batchView =>
            if target.capacityOverflow target.arraySize batchSize then .panic
            else
              match sliceOutputs target.bits tail batchView (List.range batchSize) with
              | none => .panic
              | some slicedOutputs => .ok slicedOutputs

/-- What fits a `usize` survives the cast to `i64` and back. -/
lemma map_asUsize {bits : ℕ} {shape : List ℕ} (h : ∀ d ∈ shape, d < 2 ^ bits) :
    (shape.map Int.ofNat).map (asUsize bits) = shape := by
  rw [List.map_map]
  refine (List.map_congr_left fun d hd => ?_).trans (List.map_id _)
  have hmod : ((d : ℤ) % 2 ^ bits) = d := by exact_mod_cast Nat.mod_eq_of_lt (h d hd)
  simp [asUsize, hmod]

/-! ### The slices are the rows of the output -/

lemma fromShapeVec_data {bits : ℕ} {single a : ArrayD F}
    (h : fromShapeVec bits single.shape single.data = .ok a) : a = single := by
  unfold fromShapeVec at h
  split at h
  · cases h
  · split at h
    · cases h
    · split at h
      · obtain rfl := Except.ok.inj h
        rfl
      · cases h

lemma shape_indexAxis {a single : ArrayD F} {idx : ℕ} (h : a.indexAxis idx = some single) :
    single.shape = a.shape.tail := by
  obtain ⟨_ | ⟨n, tail⟩, data, hl⟩ := a
  · cases h
  · simp only [ArrayD.indexAxis] at h
    split at h
    · obtain rfl := Option.some.inj h
      rfl
    · cases h

lemma sliceOutputs_eq {bits : ℕ} {batchView : ArrayD F} {is : List ℕ} {l : List (ArrayD F)}
    (h : sliceOutputs bits batchView.shape.tail batchView is = some l) :
    l = is.filterMap batchView.indexAxis := by
  induction is generalizing l with
  | nil =>
    obtain rfl : [] = l := Option.some.inj h
    rfl
  | cons idx rest ih =>
    unfold sliceOutputs at h
    split at h
    · cases h
    · rename_i single hs
      split at h
      · cases h
      · rename_i a ha
        obtain ⟨l', hl', rfl⟩ := Option.map_eq_some_iff.1 h
        rw [← shape_indexAxis hs] at ha
        rw [List.filterMap_cons, hs, fromShapeVec_data ha, ih hl']

/-- The output tensor of a message: the session's output under the message's output name, as an
array. -/
def OutputTensor (target : Target) (session : Session F) (msg : WorkerMessage F) (out : ArrayD F) :
    Prop :=
  ∃ outputs shape data,
    session.run msg.resultTx msg.inputName msg.batchedTensor = .ok outputs ∧
    outputs.lookup msg.outputName = some (.tensor shape data) ∧
    fromShape target.bits (shape.map (asUsize target.bits)) data = .ok out

lemma shape_fromShape {bits : ℕ} {shape : List ℕ} {data : List F} {a : ArrayD F}
    (h : fromShape bits shape data = .ok a) : a.shape = shape := by
  unfold fromShape at h
  split at h
  · cases h
  · split at h
    · cases h
    · obtain rfl := Except.ok.inj h
      rfl

/-- **A successful reply holds the rows of the output tensor.** -/
theorem processMessage_ok {target : Target} {session : Session F} {msg : WorkerMessage F}
    {l : List (ArrayD F)} (h : processMessage target session msg = .ok l) :
    ∃ out, OutputTensor target session msg out ∧ l = out.rows := by
  unfold processMessage at h
  split at h
  · cases h
  split at h
  · cases h
  · cases h
  rename_i outputs hrun
  split at h
  · cases h
  · cases h
  rename_i shape data hlook
  split at h
  · cases h
  rename_i batchSize tail hshape
  split at h
  · cases h
  rename_i batchView hview
  split at h
  · cases h
  split at h
  · cases h
  rename_i slicedOutputs hslice
  obtain rfl := Outcome.ok.inj h
  have hs := shape_fromShape hview
  have hrows : slicedOutputs = (List.range batchSize).filterMap batchView.indexAxis := by
    have htail : tail = batchView.shape.tail := by rw [hs, List.tail_cons]
    rw [htail] at hslice
    exact sliceOutputs_eq hslice
  refine ⟨batchView, ⟨outputs, shape, data, hrun, hlook, hshape ▸ hview⟩, ?_⟩
  rw [hrows, ArrayD.rows, hs]
  rfl

/-! ### The identity model -/

/-- The identity model, with one output, on dimensions an `i64` can hold. -/
def identitySession {F : Type} : Session F where
  fromArrayView _ _ := .ok ()
  run _ _ t :=
    if t.shape.all fun d => d < 2 ^ 63 then
      .ok [("output", .tensor (t.shape.map Int.ofNat) t.data)]
    else .err "dimension out of range"

/-- The output tensor of the identity model is its input. -/
theorem outputTensor_identity {F : Type} {target : Target} (h : 63 ≤ target.bits)
    {msg : WorkerMessage F} {out : ArrayD F} (ho : OutputTensor target identitySession msg out) :
    out = msg.batchedTensor := by
  obtain ⟨outputs, shape, data, hrun, hlook, hout⟩ := ho
  simp only [identitySession] at hrun
  split at hrun
  · rename_i hdims
    obtain rfl := Outcome.ok.inj hrun
    obtain ⟨rfl, rfl⟩ : _ = shape ∧ _ = data := by
      simp only [List.lookup_cons] at hlook
      split at hlook
      · simpa using hlook
      · simp at hlook
    have hcast : ((msg.batchedTensor.shape.map Int.ofNat).map (asUsize target.bits)) =
        msg.batchedTensor.shape := by
      refine map_asUsize fun d hd => ?_
      have hlt : d < 2 ^ 63 := by simpa using List.all_eq_true.1 hdims d hd
      exact hlt.trans_le (Nat.pow_le_pow_right (by norm_num) h)
    rw [hcast] at hout
    unfold fromShape at hout
    split at hout
    · cases hout
    · split at hout
      · cases hout
      · obtain rfl := Except.ok.inj hout
        refine ArrayD.ext rfl ?_
        simp [← msg.batchedTensor.length_data]
  · cases hrun

end OrtSuperserve
