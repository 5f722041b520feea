import OrtSuperserve.Command
import OrtSuperserve.Config

/-!
# `helpers.rs`: `batch_array`
-/

namespace OrtSuperserve

open Lib

variable {F : Type}

/-- `batch_array`: stack the items along a new axis `0`. -/
def batchArray (bits : ℕ) (items : List (ArrayD F)) : Outcome (ArrayD F) :=
  if items = [] then .err "cannot batch empty array list"
  else
    match ArrayD.stack bits f32Size items with
    | none => .panic
    | some (.error e) => .err e.text
    | some (.ok batched) => .ok batched

/-- The rows of a batch are its items. -/
theorem rows_batchArray {bits : ℕ} {items : List (ArrayD F)} {t : ArrayD F}
    (h : batchArray bits items = .ok t) : t.rows = items := by
  unfold batchArray at h
  split at h
  · cases h
  · split at h
    · cases h
    · cases h
    · rename_i hs
      obtain rfl := Outcome.ok.inj h
      exact ArrayD.rows_stack hs

end OrtSuperserve
