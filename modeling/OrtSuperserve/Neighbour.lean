import OrtSuperserve.Answers

/-!
# What one caller can do to the others of its batch

With `batch_array` and a model that acts row by row, an answer depends on the caller's own item and on
how the stacking of all items ended.  So of two batches that differ in the command of one caller, the
others cannot tell which one they were in if their own preprocessing failed, or if `batch_array` comes
to the same in both: a tensor, the same error, or a panic (`neighbour_unchanged`).  An array that has
the shape of the others and is not too much for one allocation makes no difference to that; an array
of another shape makes the whole batch fail (`not_neighbour_unchanged`).
-/

namespace OrtSuperserve

open Lib

variable {I O F : Type}

/-! ### The answers of a row-wise model -/

section RowWise

variable {S : Setup I (ArrayD F) O F} {wk : ArrayD F → Option (Reply F)} {b : Batcher I (ArrayD F) F}
  {f : ArrayD F → ArrayD F} {batch : List (Command I (ArrayD F))}

/-- Postprocessing a row, or a batcher that unwinds for want of workers. -/
def rowFate (S : Setup I (ArrayD F) O F) (c : ℕ) (row : ArrayD F) : Fate O :=
  if S.config.numSessions = 0 then .dropped
  else
    match S.user.postprocess c row with
    | .ok o => .answered (.ok o)
    | .err e => .answered (.error (.userError e))
    | .panic => .dropped

lemma mem_fates_postprocessed {c d : ℕ} {row : ArrayD F} {y : Fate O}
    (hn : S.config.numSessions ≠ 0) :
    (d, y) ∈ fates (Batcher.postprocessed S row c) ↔ d = c ∧ y = rowFate S c row := by
  have hrow : rowFate S c row = postFate S c row := if_neg hn
  rw [Batcher.fates_postprocessed, List.mem_singleton, Prod.mk.injEq, hrow]

/-- The arrays of the commands whose preprocessing succeeds. -/
def arrays (user : UserCode I (ArrayD F) O F) (batch : List (Command I (ArrayD F))) :
    List (ArrayD F) := (survivors user batch).map Prod.snd

/-- The worker gives back the tensor of the batch, if one is made, row by row. -/
def ServesRows (S : Setup I (ArrayD F) O F) (wk : ArrayD F → Option (Reply F))
    (f : ArrayD F → ArrayD F) (batch : List (Command I (ArrayD F))) : Prop :=
  ∀ t, ArrayD.stack S.target.bits f32Size (arrays S.user batch) = some (.ok t) →
    wk t = some (.ok (t.rows.map f))

/-- If the items can be stacked, each survivor gets its own row. -/
lemma fates_of_stack (hbatch : ∀ r items, S.user.batch r items = batchArray S.target.bits items)
    (hmodel : ServesRows S wk f batch) {t : ArrayD F}
    (ht : ArrayD.stack S.target.bits f32Size (arrays S.user batch) = some (.ok t))
    (hne : survivors S.user batch ≠ []) (d : ℕ) (y : Fate O) :
    (d, y) ∈ fates (afterFilter S wk b batch) ↔
      ∃ p, (d, p) ∈ survivors S.user batch ∧ y = rowFate S d (f p) := by
  have hwk := hmodel t ht
  unfold arrays at ht
  have hok : S.user.batch b.round ((survivors S.user batch).map Prod.snd) = .ok t := by
    rw [hbatch, batchArray, if_neg (by simpa using hne), ht]
  have hrows : t.rows = (survivors S.user batch).map Prod.snd := ArrayD.rows_stack ht
  simp only [afterFilter, afterBatch, hok, afterDispatch]
  by_cases hn : S.config.numSessions = 0
  · rw [if_pos hn]
    simp [rowFate, hn, eq_comm (b := y)]
  · have hlen : (t.rows.map f).length = ((survivors S.user batch).map Prod.fst).length := by
      rw [hrows]
      simp
    have hzip : (t.rows.map f).zip ((survivors S.user batch).map Prod.fst) =
        (survivors S.user batch).map fun x => (f x.2, x.1) := by
      rw [hrows, List.map_map, List.zip_map']
      rfl
    rw [if_neg hn]
    simp only [hwk, afterReply, hlen, ne_eq, not_true_eq_false, if_false, hzip,
      filterMap_event_cons, Event.fate?, Option.toList_none, List.nil_append, List.flatMap_map,
      List.filterMap_flatMap, List.mem_flatMap]
    constructor
    · rintro ⟨⟨c, p⟩, hx, hm⟩
      obtain ⟨rfl, rfl⟩ := (mem_fates_postprocessed hn).1 hm
      exact ⟨p, hx, rfl⟩
    · rintro ⟨p, hx, rfl⟩
      exact ⟨(d, p), hx, (mem_fates_postprocessed hn).2 ⟨rfl, rfl⟩⟩

/-- If they are refused, each survivor gets the error. -/
lemma fates_of_stack_error
    (hbatch : ∀ r items, S.user.batch r items = batchArray S.target.bits items) {e : ShapeError}
    (ht : ArrayD.stack S.target.bits f32Size (arrays S.user batch) = some (.error e))
    (hne : survivors S.user batch ≠ []) (d : ℕ) (y : Fate O) :
    (d, y) ∈ fates (afterFilter S wk b batch) ↔
      d ∈ (survivors S.user batch).map Prod.fst ∧
        y = .answered (.error (.batchingFailed e.text)) := by
  unfold arrays at ht
  have herr : S.user.batch b.round ((survivors S.user batch).map Prod.snd) = .err e.text := by
    rw [hbatch, batchArray, if_neg (by simpa using hne), ht]
  simp only [afterFilter, afterBatch, herr, filterMap_event_cons, Event.fate?, Option.toList_none,
    List.nil_append, fates_sendErr, List.mem_map, Prod.mk.injEq]
  constructor
  · rintro ⟨c, hc, rfl, rfl⟩
    exact ⟨hc, rfl⟩
  · rintro ⟨hd, rfl⟩
    exact ⟨d, hd, rfl, rfl⟩

/-- If they are too much, the batcher unwinds, and the responders are dropped. -/
lemma fates_of_stack_panic
    (hbatch : ∀ r items, S.user.batch r items = batchArray S.target.bits items)
    (ht : ArrayD.stack S.target.bits f32Size (arrays S.user batch) = none)
    (hne : survivors S.user batch ≠ []) (d : ℕ) (y : Fate O) :
    (d, y) ∈ fates (afterFilter S wk b batch) ↔
      d ∈ (survivors S.user batch).map Prod.fst ∧ y = .dropped := by
  unfold arrays at ht
  have hpanic : S.user.batch b.round ((survivors S.user batch).map Prod.snd) = .panic := by
    rw [hbatch, batchArray, if_neg (by simpa using hne), ht]
  simp only [afterFilter, afterBatch, hpanic, filterMap_event_cons, Event.fate?, Option.toList_none,
    List.nil_append, fates_dropAll, List.mem_map, Prod.mk.injEq]
  constructor
  · rintro ⟨c, hc, rfl, rfl⟩
    exact ⟨hc, rfl⟩
  · rintro ⟨hd, rfl⟩
    exact ⟨d, hd, rfl, rfl⟩

/-! ### The others of a batch -/

variable {l r : List (Command I (ArrayD F))} {cmd : Command I (ArrayD F)}

lemma survivors_append (user : UserCode I (ArrayD F) O F) (l r : List (Command I (ArrayD F))) :
    survivors user (l ++ r) = survivors user l ++ survivors user r := List.filterMap_append

/-- The survivors other than the caller of `cmd` do not depend on `cmd`. -/
lemma mem_survivors_middle {d : ℕ} {p : ArrayD F} (hd : d ≠ cmd.responder) :
    (d, p) ∈ survivors S.user (l ++ cmd :: r) ↔ (d, p) ∈ survivors S.user (l ++ r) := by
  simp only [mem_survivors, List.mem_append, List.mem_cons]
  constructor
  · rintro ⟨x, hx | rfl | hx, rfl, hp⟩
    · exact ⟨x, .inl hx, rfl, hp⟩
    · exact absurd rfl hd
    · exact ⟨x, .inr hx, rfl, hp⟩
  · rintro ⟨x, hx | hx, rfl, hp⟩
    · exact ⟨x, .inl hx, rfl, hp⟩
    · exact ⟨x, .inr (.inr hx), rfl, hp⟩

lemma mem_failures_middle {d : ℕ} (hd : d ∈ failures S.user (l ++ r)) :
    d ∈ failures S.user (l ++ cmd :: r) := by
  obtain ⟨x, hx, rfl, hp⟩ := mem_failures.1 hd
  rw [List.mem_append] at hx
  refine mem_failures.2 ⟨x, ?_, rfl, hp⟩
  rw [List.mem_append, List.mem_cons]
  exact hx.imp_right .inr

/-- How `batch_array` ends on the items of a batch. -/
def stackOutcome (S : Setup I (ArrayD F) O F) (batch : List (Command I (ArrayD F))) :
    Option (Except ShapeError Unit) :=
  ArrayD.stackOutcome S.target.bits f32Size (arrays S.user batch)

/-- The array of the command, if it has one, does no harm to the stacking of the others. -/
def DoesNoHarm (S : Setup I (ArrayD F) O F) (others : List (Command I (ArrayD F)))
    (cmd : Command I (ArrayD F)) : Prop :=
  ∀ p, cmd.item S.user = some p →
    ArrayD.Harmless S.target.bits f32Size (arrays S.user others) p

/-- A command that does no harm leaves the outcome as it is. -/
lemma stackOutcome_middle (hne : survivors S.user (l ++ r) ≠ [])
    (hp : DoesNoHarm S (l ++ r) cmd) : stackOutcome S (l ++ cmd :: r) = stackOutcome S (l ++ r) := by
  unfold stackOutcome
  cases hi : cmd.item S.user with
  | none => simp [arrays, survivors, hi]
  | some p =>
    have hmid : arrays S.user (l ++ cmd :: r) = arrays S.user l ++ p :: arrays S.user r := by
      simp [arrays, survivors, hi]
    have happ : arrays S.user (l ++ r) = arrays S.user l ++ arrays S.user r := by
      rw [arrays, survivors_append, List.map_append, arrays, arrays]
    have hne' : arrays S.user (l ++ r) ≠ [] := by simpa [arrays] using hne
    rw [happ] at hne'
    rw [hmid, happ]
    exact ArrayD.stackOutcome_harmless hne' (happ ▸ hp p hi)

/-- The answer of a caller, from the commands of its batch without that of the neighbour, and from how
the stacking of all ended. -/
def OtherFate (S : Setup I (ArrayD F) O F) (f : ArrayD F → ArrayD F)
    (outcome : Option (Except ShapeError Unit)) (others : List (Command I (ArrayD F))) (d : ℕ)
    (y : Fate O) : Prop :=
  if d ∈ failures S.user others then y = .answered (.error .preprocessingFailed)
  else
    match outcome with
    | some (.ok _) => ∃ p, (d, p) ∈ survivors S.user others ∧ y = rowFate S d (f p)
    | some (.error e) => y = .answered (.error (.batchingFailed e.text))
    | none => y = .dropped

variable {b' : Batcher I (ArrayD F) F} {log : List (Event I (ArrayD F) O F)}

/-- **All that a caller's answer depends on** but for itself is how the stacking ended. -/
theorem fate_of_other
    (hbatch : ∀ r items, S.user.batch r items = batchArray S.target.bits items)
    (hmodel : ServesRows S wk f (l ++ cmd :: r))
    (hb : b.Collected S.config (l ++ cmd :: r)) (h : Round S wk b log b')
    (hmin : S.config.minBatchSize ≤ (l ++ cmd :: r).length)
    (hnd : ((l ++ cmd :: r).map Command.responder).Nodup) (hne : survivors S.user (l ++ r) ≠ [])
    {d : ℕ} (hd : d ∈ (l ++ r).map Command.responder) (y : Fate O) :
    (d, y) ∈ fates log ↔ OtherFate S f (stackOutcome S (l ++ cmd :: r)) (l ++ r) d y := by
  have hdc : d ≠ cmd.responder := by
    rintro rfl
    have := (List.perm_middle.map Command.responder).nodup_iff.1 hnd
    exact (List.nodup_cons.1 this).1 hd
  obtain ⟨⟨c, q⟩, hq⟩ := List.exists_mem_of_ne_nil _ hne
  have hne' : survivors S.user (l ++ cmd :: r) ≠ [] := by
    obtain ⟨x, hx, rfl, hi⟩ := mem_survivors.1 hq
    refine List.ne_nil_of_mem (mem_survivors.2 ⟨x, ?_, rfl, hi⟩)
    exact List.perm_middle.symm.subset (List.mem_cons_of_mem _ hx)
  unfold OtherFate
  split
  · exact fate_of_failure hb h hmin hnd hne' (mem_failures_middle ‹_›) y
  rename_i hfail
  have hsurv : d ∈ (survivors S.user (l ++ cmd :: r)).map Prod.fst := by
    have hd' := ((survivors_perm S.user (l ++ r)).mem_iff.2 hd)
    obtain ⟨⟨d, p⟩, hm, rfl⟩ := List.mem_map.1 ((List.mem_append.1 hd').resolve_left hfail)
    exact List.mem_map.2 ⟨(d, p), (mem_survivors_middle hdc).2 hm, rfl⟩
  rw [fate_of_survivor hb h hmin hnd hsurv, stackOutcome, ArrayD.stackOutcome]
  cases ht : ArrayD.stack S.target.bits f32Size (arrays S.user (l ++ cmd :: r)) with
  | none =>
    rw [fates_of_stack_panic hbatch ht hne']
    exact and_iff_right hsurv
  | some x =>
    cases x with
    | ok t =>
      rw [fates_of_stack hbatch hmodel ht hne']
      exact exists_congr fun p => and_congr_left fun _ => mem_survivors_middle hdc
    | error e =>
      rw [fates_of_stack_error hbatch ht hne']
      exact and_iff_right hsurv

/-- No value can be sent on a responder both after one outcome and after another. -/
lemma OtherFate.outcome_eq {outcome₁ outcome₂ : Option (Except ShapeError Unit)}
    {others : List (Command I (ArrayD F))} {d : ℕ} {x : Response O}
    (h₁ : OtherFate S f outcome₁ others d (.answered x))
    (h₂ : OtherFate S f outcome₂ others d (.answered x)) (hd : d ∉ failures S.user others) :
    outcome₁ = outcome₂ := by
  have hrow : ∀ row e, rowFate S d row ≠ .answered (.error (.batchingFailed e)) := by
    intro row e
    unfold rowFate
    split
    · simp
    · split <;> simp
  unfold OtherFate at h₁ h₂
  rw [if_neg hd] at h₁ h₂
  match outcome₁, outcome₂ with
  | none, _ => cases h₁
  | some _, none => cases h₂
  | some (.ok _), some (.ok _) => rfl
  | some (.ok _), some (.error e) =>
    obtain ⟨p, -, hp⟩ := h₁
    exact absurd (hp.symm.trans h₂) (hrow _ _)
  | some (.error e), some (.ok _) =>
    obtain ⟨p, -, hp⟩ := h₂
    exact absurd (hp.symm.trans h₁) (hrow _ _)
  | some (.error e), some (.error e') =>
    have htext := h₁.symm.trans h₂
    simp only [Fate.answered.injEq, Except.error.injEq, Error.batchingFailed.injEq] at htext
    rw [ShapeError.text_injective htext]

/-- **What one caller can do to another's result.**  Two batches of one length that passes the minimum
check differ in the command of one caller only, and each has another caller whose preprocessing
succeeds; `batch_array` makes the tensors, and the worker gives back those that are made row by row.
In any two rounds on them, each other caller gets one and the same response if its own preprocessing
failed or `batch_array` ends alike in both, and no value that is the same if neither is so.  And
`batch_array` ends alike if in both the array of that one caller, when its preprocessing succeeds, has
the shape of the others' arrays (when they have one) and does not make the stack too much. -/
theorem neighbour_unchanged {cmd₁ cmd₂ : Command I (ArrayD F)} {b₁ b₁' b₂ b₂' : Batcher I (ArrayD F) F}
    {wk₁ wk₂ : ArrayD F → Option (Reply F)} {log₁ log₂ : List (Event I (ArrayD F) O F)}
    (hbatch : ∀ r items, S.user.batch r items = batchArray S.target.bits items)
    (hmodel₁ : ServesRows S wk₁ f (l ++ cmd₁ :: r)) (hmodel₂ : ServesRows S wk₂ f (l ++ cmd₂ :: r))
    (hc : cmd₁.responder = cmd₂.responder)
    (hnd : ((l ++ cmd₁ :: r).map Command.responder).Nodup)
    (hmin : S.config.minBatchSize ≤ (l ++ cmd₁ :: r).length)
    (hne : survivors S.user (l ++ r) ≠ [])
    (hb₁ : b₁.Collected S.config (l ++ cmd₁ :: r)) (hb₂ : b₂.Collected S.config (l ++ cmd₂ :: r))
    (h₁ : Round S wk₁ b₁ log₁ b₁') (h₂ : Round S wk₂ b₂ log₂ b₂') :
    (∀ d ∈ (l ++ r).map Command.responder,
      (d ∈ failures S.user (l ++ r) ∨
          stackOutcome S (l ++ cmd₁ :: r) = stackOutcome S (l ++ cmd₂ :: r) →
        ∃ y, ∀ z, ((d, z) ∈ fates log₁ ↔ z = y) ∧ ((d, z) ∈ fates log₂ ↔ z = y)) ∧
      (d ∉ failures S.user (l ++ r) →
        stackOutcome S (l ++ cmd₁ :: r) ≠ stackOutcome S (l ++ cmd₂ :: r) →
        ∀ x, ¬ ((d, .answered x) ∈ fates log₁ ∧ (d, .answered x) ∈ fates log₂))) ∧
    (DoesNoHarm S (l ++ r) cmd₁ → DoesNoHarm S (l ++ r) cmd₂ →
      stackOutcome S (l ++ cmd₁ :: r) = stackOutcome S (l ++ cmd₂ :: r)) := by
  have hlen : (l ++ cmd₂ :: r).length = (l ++ cmd₁ :: r).length := by simp
  have hnd₂ : ((l ++ cmd₂ :: r).map Command.responder).Nodup := by simpa [hc] using hnd
  refine ⟨?_, ?_⟩
  · intro d hd
    have hother₁ := fate_of_other hbatch hmodel₁ hb₁ h₁ hmin hnd hne hd
    have hother₂ := fate_of_other hbatch hmodel₂ hb₂ h₂ (hlen ▸ hmin) hnd₂ hne hd
    refine ⟨?_, ?_⟩
    · intro hsame
      have hmem : d ∈ (l ++ cmd₁ :: r).map Command.responder :=
        (List.perm_middle.map _).symm.subset (List.mem_cons_of_mem _ hd)
      obtain ⟨y, hy⟩ := exists_fate hb₁ h₁ hnd hmem
      refine ⟨y, fun z => ⟨hy z, ?_⟩⟩
      rw [← hy z, hother₁, hother₂]
      rcases hsame with hfail | hout
      · simp only [OtherFate, if_pos hfail]
      · rw [hout]
    · rintro hd' hdiff x ⟨hx₁, hx₂⟩
      exact hdiff (((hother₁ _).1 hx₁).outcome_eq ((hother₂ _).1 hx₂) hd')
  · intro hp₁ hp₂
    rw [stackOutcome_middle hne hp₁, stackOutcome_middle hne hp₂]

end RowWise

/-! ### An array of another shape -/

/-- Inputs are arrays already, batched by `batch_array`; an output is the first number of a row. -/
def arrayServer : Setup (ArrayD ℕ) (ArrayD ℕ) ℕ ℕ where
  config := { maxBatchSize := 2 }
  target := {}
  user :=
    { preprocess := fun _ x => .ok x
      batch := fun _ items => batchArray 64 items
      postprocess := fun _ a => .ok (a.data.headD 0) }
  session := identitySession
  inputName := "input"
  outputName := "output"

/-- Two callers: `0` with a fixed array, `1` with `x`. -/
def twoCallers (x : ArrayD ℕ) : List (Command (ArrayD ℕ) (ArrayD ℕ)) :=
  [.newRaw 0 (single 7) 0, .newRaw 1 x 1]

/-- An array of two numbers. -/
def double (x : ℕ) : ArrayD ℕ := ⟨[2], [x, x], rfl⟩

/-- An array of three numbers. -/
def triple (x : ℕ) : ArrayD ℕ := ⟨[3], [x, x, x], rfl⟩

/-- The batcher behind the collection of the two. -/
def collectedTwo (x : ArrayD ℕ) : Batcher (ArrayD ℕ) (ArrayD ℕ) ℕ := ⟨twoCallers x, 0, 0, .collected⟩

lemma collected_collectedTwo (x : ArrayD ℕ) :
    (collectedTwo x).Collected arrayServer.config (twoCallers x) := ⟨rfl, rfl, Nat.le_succ 1, le_rfl⟩

/-- The worker of the server, on the message of the first round. -/
def arrayWorker (t : ArrayD ℕ) : Option (Reply ℕ) :=
  match processMessage arrayServer.target arrayServer.session ⟨t, "input", "output", 0⟩ with
  | .ok slicedOutputs => some (.ok slicedOutputs)
  | .err e => some (.err e)
  | .panic => some .closed

/-- Arrays of one number are served. -/
lemma servesRows_single (x : ℕ) : ServesRows arrayServer arrayWorker id (twoCallers (single x)) := by
  intro t ht
  obtain rfl := Except.ok.inj (Option.some.inj ht)
  rfl

/-- Whether the other caller sends `1` or `2`, and whether it sends arrays of two numbers or of three,
the first caller gets the same. -/
theorem neighbour_unchanged_sample :
    (∃ log₁ log₂ : List (Event (ArrayD ℕ) (ArrayD ℕ) ℕ ℕ), ∃ b₁ b₂ : Batcher (ArrayD ℕ) (ArrayD ℕ) ℕ,
      Round arrayServer arrayWorker (collectedTwo (single 1)) log₁ b₁ ∧
      Round arrayServer arrayWorker (collectedTwo (single 2)) log₂ b₂ ∧
      ∃ y, ∀ z, ((0, z) ∈ fates log₁ ↔ z = y) ∧ ((0, z) ∈ fates log₂ ↔ z = y)) ∧
    ∃ log₁ log₂ : List (Event (ArrayD ℕ) (ArrayD ℕ) ℕ ℕ), ∃ b₁ b₂ : Batcher (ArrayD ℕ) (ArrayD ℕ) ℕ,
      Round arrayServer arrayWorker (collectedTwo (double 1)) log₁ b₁ ∧
      Round arrayServer arrayWorker (collectedTwo (triple 1)) log₂ b₂ ∧
      ∃ y, ∀ z, ((0, z) ∈ fates log₁ ↔ z = y) ∧ ((0, z) ∈ fates log₂ ↔ z = y) := by
  refine ⟨?_, ?_⟩
  · have hb₁ := collected_collectedTwo (single 1)
    have hb₂ := collected_collectedTwo (single 2)
    obtain ⟨log₁, b₁, h₁⟩ := exists_round arrayServer arrayWorker hb₁
    obtain ⟨log₂, b₂, h₂⟩ := exists_round arrayServer arrayWorker hb₂
    refine ⟨log₁, log₂, b₁, b₂, h₁, h₂, ?_⟩
    exact ((neighbour_unchanged (S := arrayServer) (l := [.newRaw 0 (single 7) 0]) (r := []) (f := id)
      (fun _ _ => rfl) (servesRows_single 1) (servesRows_single 2) rfl (by decide) (by decide)
      (List.cons_ne_nil (0, single 7) []) hb₁ hb₂ h₁ h₂).1 0 (by decide)).1 (.inr rfl)
  · have hb₁ := collected_collectedTwo (double 1)
    have hb₂ := collected_collectedTwo (triple 1)
    obtain ⟨log₁, b₁, h₁⟩ := exists_round arrayServer arrayWorker hb₁
    obtain ⟨log₂, b₂, h₂⟩ := exists_round arrayServer arrayWorker hb₂
    refine ⟨log₁, log₂, b₁, b₂, h₁, h₂, ?_⟩
    -- no tensor is made of either
    have hr₁ : ServesRows arrayServer arrayWorker id (twoCallers (double 1)) := fun t ht => by cases ht
    have hr₂ : ServesRows arrayServer arrayWorker id (twoCallers (triple 1)) := fun t ht => by cases ht
    exact ((neighbour_unchanged (S := arrayServer) (l := [.newRaw 0 (single 7) 0]) (r := []) (f := id)
      (fun _ _ => rfl) hr₁ hr₂ rfl (by decide) (by decide)
      (List.cons_ne_nil (0, single 7) []) hb₁ hb₂ h₁ h₂).1 0 (by decide)).1 (.inr rfl)

/-- One array of another shape and the whole batch fails, whatever the others sent. -/
theorem not_neighbour_unchanged : ¬ ∀ (S : Setup (ArrayD ℕ) (ArrayD ℕ) ℕ ℕ)
    (wk : ArrayD ℕ → Option (Reply ℕ)) (f : ArrayD ℕ → ArrayD ℕ)
    (l r : List (Command (ArrayD ℕ) (ArrayD ℕ))) (cmd₁ cmd₂ : Command (ArrayD ℕ) (ArrayD ℕ))
    (b₁ b₁' b₂ b₂' : Batcher (ArrayD ℕ) (ArrayD ℕ) ℕ)
    (log₁ log₂ : List (Event (ArrayD ℕ) (ArrayD ℕ) ℕ ℕ)),
    (∀ r items, S.user.batch r items = batchArray S.target.bits items) →
    ServesRows S wk f (l ++ cmd₁ :: r) → ServesRows S wk f (l ++ cmd₂ :: r) →
    cmd₁.responder = cmd₂.responder → ((l ++ cmd₁ :: r).map Command.responder).Nodup →
    S.config.minBatchSize ≤ (l ++ cmd₁ :: r).length → survivors S.user (l ++ r) ≠ [] →
    b₁.Collected S.config (l ++ cmd₁ :: r) → b₂.Collected S.config (l ++ cmd₂ :: r) →
    Round S wk b₁ log₁ b₁' → Round S wk b₂ log₂ b₂' →
    ∀ d ∈ (l ++ r).map Command.responder,
      ∃ y, ∀ z, ((d, z) ∈ fates log₁ ↔ z = y) ∧ ((d, z) ∈ fates log₂ ↔ z = y) := by
  intro h
  obtain ⟨x₁, hrun₁, hend₁, hf₁⟩ : ∃ x,
      (roundMachine arrayServer arrayWorker (collectedTwo (single 1))).run
          (collectedTwo (single 1), [])
          [.turn .check, .turn (.preprocessed 0), .turn (.preprocessed 0), .turn (.filter [1, 0]),
            .turn .batch, .dispatch, .reply, .turn (.postprocessed 0), .turn (.postprocessed 0),
            .turn .finish] = some x ∧ x.1.inRound = false ∧
        fates x.2 = [(0, .answered (.ok 7)), (1, .answered (.ok 1))] := ⟨_, rfl, rfl, rfl⟩
  obtain ⟨x₂, hrun₂, hend₂, hf₂⟩ : ∃ x,
      (roundMachine arrayServer arrayWorker (collectedTwo (double 1))).run
          (collectedTwo (double 1), [])
          [.turn .check, .turn (.preprocessed 0), .turn (.preprocessed 0), .turn (.filter [1, 0]),
            .turn .batch] = some x ∧ x.1.inRound = false ∧
        fates x.2 = [(0, .answered (.error (.batchingFailed ShapeError.incompatibleShape.text))),
          (1, .answered (.error (.batchingFailed ShapeError.incompatibleShape.text)))] :=
    ⟨_, rfl, rfl, rfl⟩
  obtain ⟨y, hy⟩ := h arrayServer arrayWorker id [.newRaw 0 (single 7) 0] []
    (.newRaw 1 (single 1) 1) (.newRaw 1 (double 1) 1) _ _ _ _ _ _ (fun _ _ => rfl)
    (servesRows_single 1) (fun t ht => by cases ht) rfl (by decide) (by decide)
    (List.cons_ne_nil (0, single 7) []) (collected_collectedTwo (single 1))
    (collected_collectedTwo (double 1)) ⟨⟨_, hrun₁⟩, hend₁⟩ ⟨⟨_, hrun₂⟩, hend₂⟩ 0 (by decide)
  have h₁ := (hy (.answered (.ok 7))).1.1 (by rw [hf₁]; simp)
  have h₂ := (hy (.answered (.ok 7))).2.2 h₁
  rw [hf₂] at h₂
  simp at h₂

end OrtSuperserve
