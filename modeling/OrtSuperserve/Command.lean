import OrtSuperserve.Lib.NdArray

/-!
# `traits.rs`, `actor/command.rs`: user code, commands, answers

`I`, `P`, `O` are the user's input type, its `Preprocessed` and the output type, `F` stands for
`f32`, whose values the server only moves.

User code need not be a function of its arguments, so every call of it carries a number that names
the call: `preprocess` and `postprocess` are numbered by the `infer` call they serve, `batch` by the
round of the batcher.  All assignments of outcomes to the calls of a run are then functions.  The
number of a raw input travels with the input; the server never reads it.
-/

namespace OrtSuperserve

open Lib

/-- What a call of user code comes to: `Ok`, `Err` with its text, or a panic. -/
inductive Outcome (α : Type) where
  | ok (a : α)
  | err (e : String)
  | panic
  deriving DecidableEq

namespace Outcome

variable {α : Type}

/-- The value of a call that returned `Ok`. -/
def toOption : Outcome α → Option α
  | .ok a => some a
  | .err _ => none
  | .panic => none

@[simp] lemma toOption_eq_some {x : Outcome α} {a : α} : x.toOption = some a ↔ x = .ok a := by
  cases x <;> simp [toOption]

end Outcome

/-- The three functions of the traits `Input` and `Output`. -/
structure UserCode (I P O F : Type) where
  preprocess : ℕ → I → Outcome P
  batch : ℕ → List P → Outcome (ArrayD F)
  postprocess : ℕ → ArrayD F → Outcome O

inductive CommandInput (I P : Type) where
  | raw (call : ℕ) (input : I)
  | preprocessed (item : P)
  deriving DecidableEq

/-- A command: its input, and the oneshot sender for the result, named by the `infer` call that
waits at the other end. -/
structure Command (I P : Type) where
  input : CommandInput I P
  responder : ℕ
  deriving DecidableEq

namespace Command

variable {I P O F : Type}

def newRaw (call : ℕ) (input : I) (responder : ℕ) : Command I P := ⟨.raw call input, responder⟩

def newPreprocessed (preprocessed : P) (responder : ℕ) : Command I P :=
  ⟨.preprocessed preprocessed, responder⟩

/-- The item a command contributes to a batch, if its preprocessing succeeds. -/
def item (user : UserCode I P O F) (cmd : Command I P) : Option P :=
  match cmd.input with
  | .raw call input => (user.preprocess call input).toOption
  | .preprocessed p => some p

end Command

/-- The errors the server answers with, by the branch that sends them. -/
inductive Error where
  | insufficientBatchSize
  | preprocessingFailed
  | batchingFailed (e : String)
  | workerUnavailable
  | inferenceFailed (e : String)
  | workerChannelClosed
  | outputCountMismatch
  | userError (e : String)
  | serverChannelClosed
  | responseChannelClosed
  deriving DecidableEq

/-- The message the caller reads. -/
def Error.text : Error → String
  | .insufficientBatchSize => "Insufficient batch size"
  | .preprocessingFailed => "Preprocessing failed"
  | .batchingFailed e => "Batching failed: " ++ e
  | .workerUnavailable => "Worker unavailable"
  | .inferenceFailed e => e
  | .workerChannelClosed => "Worker channel closed"
  | .outputCountMismatch => "Output count mismatch"
  | .userError e => e
  | .serverChannelClosed => "Server channel closed"
  | .responseChannelClosed => "Response channel closed"

/-- What `infer` returns, and what is sent on a responder. -/
abbrev Response (O : Type) := Except Error O

end OrtSuperserve
