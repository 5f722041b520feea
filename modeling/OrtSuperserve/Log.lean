import OrtSuperserve.Accounting

/-!
# Reading a log of events

The projections of a log that statements are made of: the commands accepted and received, the batches
collected, what became of each responder (`fates`), and the calls of user code and dispatches.  Each
is a `List.filterMap`, so it distributes over the log.
-/

namespace OrtSuperserve

open Lib

variable {I P O F : Type}

/-- What becomes of a responder: a value is sent on it, or it is dropped unused. -/
inductive Fate (O : Type) where
  | answered (response : Response O)
  | dropped

namespace Event

@[simp] def accepted? : Event I P O F → Option (Command I P)
  | .accepted cmd => some cmd
  | _ => none

@[simp] def received? : Event I P O F → Option (Command I P)
  | .received cmd => some cmd
  | _ => none

@[simp] def collected? : Event I P O F → Option (List (Command I P))
  | .collected cmds => some cmds
  | _ => none

@[simp] def preprocess? : Event I P O F → Option ℕ
  | .preprocess call => some call
  | _ => none

@[simp] def batch? : Event I P O F → Option (ℕ × List P)
  | .batch round items => some (round, items)
  | _ => none

@[simp] def dispatch? : Event I P O F → Option (ℕ × ArrayD F)
  | .dispatch worker tensor => some (worker, tensor)
  | _ => none

@[simp] def postprocess? : Event I P O F → Option (ℕ × ArrayD F)
  | .postprocess call rawOutput => some (call, rawOutput)
  | _ => none

@[simp] def fate? : Event I P O F → Option (ℕ × Fate O)
  | .answer call response => some (call, .answered response)
  | .drop call => some (call, .dropped)
  | _ => none

end Event

/-- The commands the command channel took, in order. -/
abbrev accepted (log : List (Event I P O F)) : List (Command I P) := log.filterMap Event.accepted?

/-- The commands the batcher took out of the channel, in order. -/
abbrev received (log : List (Event I P O F)) : List (Command I P) := log.filterMap Event.received?

/-- The batches collected, in round order. -/
abbrev collected (log : List (Event I P O F)) : List (List (Command I P)) :=
  log.filterMap Event.collected?

/-- The calls of `I::preprocess`, by the `infer` call they serve. -/
abbrev preprocessCalls (log : List (Event I P O F)) : List ℕ := log.filterMap Event.preprocess?

/-- The calls of `I::batch`, by round. -/
abbrev batchCalls (log : List (Event I P O F)) : List (ℕ × List P) := log.filterMap Event.batch?

/-- The dispatches, with the worker chosen. -/
abbrev dispatches (log : List (Event I P O F)) : List (ℕ × ArrayD F) :=
  log.filterMap Event.dispatch?

/-- The calls of `O::postprocess`. -/
abbrev postprocessCalls (log : List (Event I P O F)) : List (ℕ × ArrayD F) :=
  log.filterMap Event.postprocess?

/-- What became of the responders, in order. -/
abbrev fates (log : List (Event I P O F)) : List (ℕ × Fate O) := log.filterMap Event.fate?

/-! ### Logs that grow -/

section Append

variable (l₁ l₂ : List (Event I P O F))

lemma accepted_append : accepted (l₁ ++ l₂) = accepted l₁ ++ accepted l₂ := List.filterMap_append

lemma received_append : received (l₁ ++ l₂) = received l₁ ++ received l₂ := List.filterMap_append

lemma collected_append : collected (l₁ ++ l₂) = collected l₁ ++ collected l₂ :=
  List.filterMap_append

lemma preprocessCalls_append :
    preprocessCalls (l₁ ++ l₂) = preprocessCalls l₁ ++ preprocessCalls l₂ := List.filterMap_append

lemma batchCalls_append : batchCalls (l₁ ++ l₂) = batchCalls l₁ ++ batchCalls l₂ :=
  List.filterMap_append

lemma dispatches_append : dispatches (l₁ ++ l₂) = dispatches l₁ ++ dispatches l₂ :=
  List.filterMap_append

lemma postprocessCalls_append :
    postprocessCalls (l₁ ++ l₂) = postprocessCalls l₁ ++ postprocessCalls l₂ := List.filterMap_append

lemma fates_append : fates (l₁ ++ l₂) = fates l₁ ++ fates l₂ := List.filterMap_append

end Append

section Perm

variable {l₁ l₂ : List (Event I P O F)} (h : l₁.Perm l₂)

include h

lemma fates_perm : (fates l₁).Perm (fates l₂) := h.filterMap Event.fate?

lemma dispatches_perm : (dispatches l₁).Perm (dispatches l₂) := h.filterMap Event.dispatch?

lemma preprocessCalls_perm : (preprocessCalls l₁).Perm (preprocessCalls l₂) :=
  h.filterMap Event.preprocess?

lemma batchCalls_perm : (batchCalls l₁).Perm (batchCalls l₂) := h.filterMap Event.batch?

lemma postprocessCalls_perm : (postprocessCalls l₁).Perm (postprocessCalls l₂) :=
  h.filterMap Event.postprocess?

end Perm

/-! ### Events of one kind -/

@[simp] lemma filterMap_event_cons {γ : Type} (g : Event I P O F → Option γ) (e : Event I P O F)
    (l : List (Event I P O F)) : (e :: l).filterMap g = (g e).toList ++ l.filterMap g := by
  cases h : g e <;> simp [h]

lemma filterMap_sendErr {γ : Type} {g : Event I P O F → Option γ}
    (h : ∀ c r, g (.answer c r) = none) (e : Error) (cs : List ℕ) :
    (sendErr e cs).filterMap g = [] := by
  simp [sendErr, h]

lemma filterMap_dropAll {γ : Type} {g : Event I P O F → Option γ}
    (h : ∀ c, g (.drop c) = none) (cs : List ℕ) : (dropAll cs).filterMap g = [] := by
  simp [dropAll, h]

@[simp] lemma fates_sendErr (e : Error) (cs : List ℕ) :
    fates (sendErr e cs : List (Event I P O F)) = cs.map fun c => (c, .answered (.error e)) := by
  simp [sendErr, List.filterMap_map, Function.comp_def]

@[simp] lemma fates_dropAll (cs : List ℕ) :
    fates (dropAll cs : List (Event I P O F)) = cs.map fun c => (c, .dropped) := by
  simp [dropAll, List.filterMap_map, Function.comp_def]

/-- Spawning the preprocessing tasks calls `I::preprocess` and does nothing else. -/
lemma filterMap_spawnPreprocess {γ : Type} {g : Event I P O F → Option γ}
    (h : ∀ c, g (.preprocess c) = none) (b : Batcher I P F) :
    b.spawnPreprocess.2.filterMap g = [] := by
  simp [Batcher.spawnPreprocess, h]

/-- A projection that sees nothing of how a round ends. -/
structure Ignores {γ : Type} (g : Event I P O F → Option γ) : Prop where
  answer : ∀ c r, g (.answer c r) = none
  drop : ∀ c, g (.drop c) = none
  panic : ∀ t, g (.panic t) = none
  postprocess : ∀ c row, g (.postprocess c row) = none

namespace Ignores

variable {γ : Type} {g : Event I P O F → Option γ}

@[simp] lemma sendErr (hg : Ignores g) (e : Error) (cs : List ℕ) :
    (sendErr e cs).filterMap g = [] := filterMap_sendErr hg.answer e cs

@[simp] lemma dropAll (hg : Ignores g) (cs : List ℕ) : (dropAll cs).filterMap g = [] :=
  filterMap_dropAll hg.drop cs

@[simp] lemma postprocessed (hg : Ignores g) (S : Setup I P O F) (rawOutput : ArrayD F) (c : ℕ) :
    (Batcher.postprocessed S rawOutput c).filterMap g = [] := by
  unfold Batcher.postprocessed
  cases S.user.postprocess c rawOutput <;> simp [hg.answer, hg.drop, hg.panic, hg.postprocess]

@[simp] lemma accepted : Ignores (Event.accepted? : Event I P O F → Option (Command I P)) :=
  ⟨fun _ _ => rfl, fun _ => rfl, fun _ => rfl, fun _ _ => rfl⟩

@[simp] lemma received : Ignores (Event.received? : Event I P O F → Option (Command I P)) :=
  ⟨fun _ _ => rfl, fun _ => rfl, fun _ => rfl, fun _ _ => rfl⟩

@[simp] lemma collected : Ignores (Event.collected? : Event I P O F → Option (List (Command I P))) :=
  ⟨fun _ _ => rfl, fun _ => rfl, fun _ => rfl, fun _ _ => rfl⟩

@[simp] lemma preprocess : Ignores (Event.preprocess? : Event I P O F → Option ℕ) :=
  ⟨fun _ _ => rfl, fun _ => rfl, fun _ => rfl, fun _ _ => rfl⟩

@[simp] lemma batch : Ignores (Event.batch? : Event I P O F → Option (ℕ × List P)) :=
  ⟨fun _ _ => rfl, fun _ => rfl, fun _ => rfl, fun _ _ => rfl⟩

@[simp] lemma dispatch : Ignores (Event.dispatch? : Event I P O F → Option (ℕ × ArrayD F)) :=
  ⟨fun _ _ => rfl, fun _ => rfl, fun _ => rfl, fun _ _ => rfl⟩

end Ignores

end OrtSuperserve
