import OrtSuperserve.Answers
import OrtSuperserve.Server

/-!
# The two preprocessing modes

A request is preprocessed by its call of `infer` or by the batcher.  `queued` is the batch that a list
of requests makes when each of them is preprocessed in one of the two places; all raw and all
preprocessed are the two modes of the server.  Wherever it is done, the survivors are the same
(`survivors_queued`), and so are the tensor and the answers of a round (`modes_agree`).
-/

namespace OrtSuperserve

open Lib

variable {I P O F : Type}

/-- The server with `preprocess_on_infer` set. -/
def Setup.withMode (S : Setup I P O F) (onInfer : Bool) : Setup I P O F :=
  { S with
    config := S.config.withPreprocessOnInfer onInfer
    preprocessOnInfer := fun _ => onInfer }

/-- The command a call is about to send. -/
def CallState.command : CallState I P O → Option (Command I P)
  | .sending cmd => some cmd
  | _ => none

section Queued

variable (S : Setup I P O F) (onInfer : ℕ → Bool) (reqs : List (ℕ × I))

/-- The commands of the requests that are sent, in order. -/
def queued : List (Command I P) :=
  reqs.filterMap fun x => (prepare (S.withMode (onInfer x.1)) x.1 x.2).1.command

/-- The calls of `preprocess` made by the calls of `infer`. -/
def inferPreprocess : List ℕ :=
  preprocessCalls (reqs.flatMap fun x => (prepare (S.withMode (onInfer x.1)) x.1 x.2).2)

/-- The requests whose preprocessing succeeds, with its result. -/
def succeeding : List (ℕ × P) :=
  reqs.filterMap fun x => (S.user.preprocess x.1 x.2).toOption.map fun p => (x.1, p)

/-- **Where a request is preprocessed does not change the survivors.** -/
theorem survivors_queued : survivors S.user (queued S onInfer reqs) = succeeding S reqs := by
  unfold survivors queued succeeding
  rw [List.filterMap_filterMap]
  apply List.filterMap_congr
  intro x _
  simp only [prepare, Setup.withMode]
  cases onInfer x.1
  · rfl
  · simp only [if_true]
    cases S.user.preprocess x.1 x.2 <;> rfl

end Queued

/-! ### Two rounds -/

section Rounds

variable {S : Setup I P O F} {T T₁ T₂ : ℕ → Bool} {reqs : List (ℕ × I)}

/-- Every request has a command of its own. -/
lemma nodup_queued (hnd : (reqs.map Prod.fst).Nodup) :
    ((queued S T reqs).map Command.responder).Nodup := by
  have hpair : reqs.Pairwise fun x y => x.1 ≠ y.1 := List.pairwise_map.1 hnd
  have hresp : ∀ (x : ℕ × I) cmd, (prepare (S.withMode (T x.1)) x.1 x.2).1.command = some cmd →
      cmd.responder = x.1 := by
    intro x cmd h
    unfold prepare at h
    split at h
    · split at h
      · obtain rfl := Option.some.inj h
        rfl
      · cases h
      · cases h
    · obtain rfl := Option.some.inj h
      rfl
  refine List.pairwise_map.2 (hpair.filterMap _ fun x y hxy u hu v hv => ?_)
  rw [hresp x u hu, hresp y v hv]
  exact hxy

/-- The raw commands queued are those their call did not preprocess. -/
lemma rawCalls_queued : rawCalls (queued S T reqs) =
    reqs.filterMap fun x => if T x.1 then none else some x.1 := by
  unfold rawCalls queued
  rw [List.filterMap_filterMap]
  apply List.filterMap_congr
  intro x _
  simp only [prepare, Setup.withMode]
  cases T x.1
  · rfl
  · simp only [if_true]
    cases S.user.preprocess x.1 x.2 <;> rfl

lemma inferPreprocess_eq : inferPreprocess S T reqs =
    reqs.filterMap fun x => if T x.1 then some x.1 else none := by
  unfold inferPreprocess
  induction reqs with
  | nil => rfl
  | cons x reqs ih =>
    rw [List.flatMap_cons, preprocessCalls_append, ih, List.filterMap_cons]
    simp only [prepare, Setup.withMode]
    cases T x.1
    · rfl
    · simp only [if_true]
      cases S.user.preprocess x.1 x.2 <;> rfl

/-- Each request is preprocessed in one of the two places. -/
lemma preprocess_once_perm :
    (inferPreprocess S T reqs ++ rawCalls (queued S T reqs)).Perm (reqs.map Prod.fst) := by
  rw [inferPreprocess_eq, rawCalls_queued]
  induction reqs with
  | nil => exact .nil
  | cons x reqs ih =>
    cases hT : T x.1 with
    | false =>
      simp only [List.filterMap_cons, hT, Bool.false_eq_true, if_false, List.map_cons]
      exact List.perm_middle.trans (ih.cons _)
    | true =>
      simp only [List.filterMap_cons, hT, if_true, List.map_cons, List.cons_append]
      exact ih.cons _

/-- What a request meets whose preprocessing does not succeed: preprocessed by its call it is never
sent, and preprocessed by the batcher it is answered with the error. -/
def Fails (S : Setup I P O F) (T : ℕ → Bool) (log : List (Event I P O F)) (x : ℕ × I) : Prop :=
  if T x.1 then
    (∃ e, (prepare (S.withMode true) x.1 x.2).1 = .returned (.error (.userError e))) ∨
      (prepare (S.withMode true) x.1 x.2).1 = .panicked
  else ∀ y, (x.1, y) ∈ fates log ↔ y = .answered (.error .preprocessingFailed)

variable {wk : ArrayD F → Option (Reply F)} {b b' b₁ b₁' b₂ b₂' : Batcher I P F}
  {log log₁ log₂ : List (Event I P O F)}

lemma length_queued_ge (hmin : max 1 S.config.minBatchSize ≤ (succeeding S reqs).length) :
    S.config.minBatchSize ≤ (queued S T reqs).length ∧ survivors S.user (queued S T reqs) ≠ [] := by
  have hlen := survivors_length_le S.user (queued S T reqs)
  rw [survivors_queued] at hlen ⊢
  refine ⟨(le_max_right _ _).trans (hmin.trans hlen), ?_⟩
  intro hnil
  rw [hnil] at hmin
  simp at hmin

/-- A request whose preprocessing fails, fails, wherever it is preprocessed. -/
lemma fails (hnd : (reqs.map Prod.fst).Nodup)
    (hmin : max 1 S.config.minBatchSize ≤ (succeeding S reqs).length)
    (hb : b.Collected S.config (queued S T reqs)) (h : Round S wk b log b') {x : ℕ × I}
    (hx : x ∈ reqs) (hnone : (S.user.preprocess x.1 x.2).toOption = none) : Fails S T log x := by
  unfold Fails
  split
  · simp only [prepare, Setup.withMode, if_true]
    cases hp : S.user.preprocess x.1 x.2 with
    | ok p => rw [hp] at hnone; cases hnone
    | err e => exact .inl ⟨e, rfl⟩
    | panic => exact .inr rfl
  · rename_i hT
    obtain ⟨hle, hne⟩ := length_queued_ge (T := T) hmin
    have hqueued : .newRaw x.1 x.2 x.1 ∈ queued S T reqs := by
      refine List.mem_filterMap.2 ⟨x, hx, ?_⟩
      simp only [prepare, Setup.withMode, hT]
      rfl
    have hfail : x.1 ∈ failures S.user (queued S T reqs) :=
      mem_failures.2 ⟨.newRaw x.1 x.2 x.1, hqueued, rfl, hnone⟩
    exact fate_of_failure hb h hle (nodup_queued hnd) hne hfail

/-- **The two modes agree.**  Take two batches made of the same requests, each request preprocessed by
its call in one of them and by the batcher in the other, or by the same in both: all raw against the
survivors preprocessed, or any of the survivors preprocessed in place.  If enough requests succeed
for the minimum check, then in rounds of the same number, with the same user code and worker, each
request that succeeds has one and the same answer, the same tensor is dispatched, each request is
preprocessed once in all, and each request that does not succeed fails. -/
theorem modes_agree (hnd : (reqs.map Prod.fst).Nodup)
    (hmin : max 1 S.config.minBatchSize ≤ (succeeding S reqs).length)
    (hb₁ : b₁.Collected S.config (queued S T₁ reqs)) (hb₂ : b₂.Collected S.config (queued S T₂ reqs))
    (hround : b₁.round = b₂.round) (h₁ : Round S wk b₁ log₁ b₁') (h₂ : Round S wk b₂ log₂ b₂') :
    (∀ x ∈ reqs, ∀ p, S.user.preprocess x.1 x.2 = .ok p →
      ∃ y, ∀ z, ((x.1, z) ∈ fates log₁ ↔ z = y) ∧ ((x.1, z) ∈ fates log₂ ↔ z = y)) ∧
    (dispatches log₁).map Prod.snd = (dispatches log₂).map Prod.snd ∧
    (inferPreprocess S T₁ reqs ++ preprocessCalls log₁).Perm (reqs.map Prod.fst) ∧
    (inferPreprocess S T₂ reqs ++ preprocessCalls log₂).Perm (reqs.map Prod.fst) ∧
    ∀ x ∈ reqs, (S.user.preprocess x.1 x.2).toOption = none →
      Fails S T₁ log₁ x ∧ Fails S T₂ log₂ x := by
  obtain ⟨hle₁, hne₁⟩ := length_queued_ge (T := T₁) hmin
  obtain ⟨hle₂, hne₂⟩ := length_queued_ge (T := T₂) hmin
  have hsurv : survivors S.user (queued S T₁ reqs) = survivors S.user (queued S T₂ reqs) := by
    rw [survivors_queued, survivors_queued]
  obtain ⟨hfates, htensor⟩ := afterFilter_congr wk hround hsurv
  refine ⟨?_, ?_, ?_, ?_,
    fun x hx hnone => ⟨fails hnd hmin hb₁ h₁ hx hnone, fails hnd hmin hb₂ h₂ hx hnone⟩⟩
  · intro x hx p hp
    have hmem : x.1 ∈ (succeeding S reqs).map Prod.fst :=
      List.mem_map.2 ⟨(x.1, p), List.mem_filterMap.2 ⟨x, hx, by rw [hp]; rfl⟩, rfl⟩
    have hmem₁ : x.1 ∈ (survivors S.user (queued S T₁ reqs)).map Prod.fst := by
      rwa [survivors_queued]
    have hmem₂ : x.1 ∈ (survivors S.user (queued S T₂ reqs)).map Prod.fst := by
      rwa [survivors_queued]
    obtain ⟨y, hy⟩ := exists_fate hb₁ h₁ (nodup_queued hnd)
      ((survivors_perm S.user _).subset (List.mem_append_right _ hmem₁))
    refine ⟨y, fun z => ⟨hy z, ?_⟩⟩
    rw [← hy z, fate_of_survivor hb₁ h₁ hle₁ (nodup_queued hnd) hmem₁,
      fate_of_survivor hb₂ h₂ hle₂ (nodup_queued hnd) hmem₂, hfates]
  · rw [dispatches_round hb₁ h₁ hle₁ hne₁, dispatches_round hb₂ h₂ hle₂ hne₂]
    exact htensor
  · exact ((preprocessCalls_perm (round_log hb₁ h₁)).append_left _).trans
      (by rw [preprocessCalls_script hle₁ hne₁]; exact preprocess_once_perm)
  · exact ((preprocessCalls_perm (round_log hb₂ h₂)).append_left _).trans
      (by rw [preprocessCalls_script hle₂ hne₂]; exact preprocess_once_perm)

end Rounds

/-- The requests `7` and `0` of the sample, raw, and what is left of them preprocessed, each in a round
with the identity model. -/
theorem modes_agree_sample :
    ∃ log₁ log₂ : List (Event ℕ ℕ ℕ ℕ), ∃ b₁ b₂ : Batcher ℕ ℕ ℕ,
      Round sample (fun t => some (.ok t.rows))
        ⟨queued sample (fun _ => false) [(0, 7), (1, 0)], 0, 0, .collected⟩ log₁ b₁ ∧
      Round sample (fun t => some (.ok t.rows))
        ⟨queued sample (fun _ => true) [(0, 7), (1, 0)], 0, 0, .collected⟩ log₂ b₂ ∧
      ∃ y, ∀ z, ((0, z) ∈ fates log₁ ↔ z = y) ∧ ((0, z) ∈ fates log₂ ↔ z = y) := by
  have hb₁ : (⟨queued sample (fun _ => false) [(0, 7), (1, 0)], 0, 0, .collected⟩ :
      Batcher ℕ ℕ ℕ).Collected sample.config (queued sample (fun _ => false) [(0, 7), (1, 0)]) :=
    ⟨rfl, rfl, by decide, by decide⟩
  have hb₂ : (⟨queued sample (fun _ => true) [(0, 7), (1, 0)], 0, 0, .collected⟩ :
      Batcher ℕ ℕ ℕ).Collected sample.config (queued sample (fun _ => true) [(0, 7), (1, 0)]) :=
    ⟨rfl, rfl, by decide, by decide⟩
  obtain ⟨log₁, b₁, h₁⟩ := exists_round sample (fun t => some (.ok t.rows)) hb₁
  obtain ⟨log₂, b₂, h₂⟩ := exists_round sample (fun t => some (.ok t.rows)) hb₂
  exact ⟨log₁, log₂, b₁, b₂, h₁, h₂,
    (modes_agree (by decide) (by decide) hb₁ hb₂ rfl h₁ h₂).1 (0, 7) (by decide) 7 rfl⟩

end OrtSuperserve
