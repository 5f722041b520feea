import OrtSuperserve.Stream

/-!
# Where the entries of the log come from

For each call of `I::batch`, each dispatch and each value or drop of a responder the log has, the
batch it belongs to is among the collected ones, at the index of its round, and what was passed on is
what the batch and the user's code determine (`History`).
-/

namespace OrtSuperserve

open Lib

variable {I P O F : Type}

/-- The errors the batcher answers with. -/
def Error.sentByBatcher : Error → Bool
  | .serverChannelClosed | .responseChannelClosed => false
  | _ => true

/-- The row that `c` gets in the round `r`: the entry of the reply to the tensor of the batch at the
position of `c` among the survivors. -/
def RowOf (S : Setup I P O F) (V : WorkerMessage F → Reply F → Prop) (r : ℕ)
    (batch : List (Command I P)) (c : ℕ) (row : ArrayD F) : Prop :=
  ∃ (t : ArrayD F) (outputs : List (ArrayD F)) (k : ℕ) (p : P), Batched S.user r batch t ∧
    V ⟨t, S.inputName, S.outputName, r⟩ (.ok outputs) ∧
    outputs.length = (survivors S.user batch).length ∧
    (survivors S.user batch)[k]? = some (c, p) ∧ outputs[k]? = some row

namespace Batcher

variable {S : Setup I P O F} {V : WorkerMessage F → Reply F → Prop} {batch : List (Command I P)}
  {b b' : Batcher I P F} {a : BatcherAction I P F} {evs : List (Event I P O F)}

/-! ### The events of one step -/

/-- The call of `I::batch` of the round is behind the batcher. -/
def pastBatch (b : Batcher I P F) : Bool :=
  match b.phase with
  | .dispatching _ _ | .awaiting _ _ | .postprocessing _ => true
  | _ => false

lemma Move.of_batchCall (h : Move S b a b' evs) (hf : b.Fits S V batch) {r : ℕ} {items : List P}
    (hm : (r, items) ∈ batchCalls evs) :
    b.inRound = true ∧ r = b.round ∧ Formed S.config batch ∧ survivors S.user batch ≠ [] ∧
      items = (survivors S.user batch).map Prod.snd := by
  have key : ∀ {its : List P} {rs : List ℕ}, b.phase = .batching its rs →
      (r, items) = (b.round, its) → b.inRound = true ∧ r = b.round ∧ Formed S.config batch ∧
        survivors S.user batch ≠ [] ∧ items = (survivors S.user batch).map Prod.snd := by
    intro its rs hp he
    obtain ⟨rfl, rfl⟩ := Prod.mk.inj he
    simp only [Fits, hp] at hf
    obtain ⟨-, hform, hne, hits, -⟩ := hf
    exact ⟨by simp [inRound, hp], rfl, hform, hne, hits⟩
  cases h with
  | batchOk items rs t hp h => exact key hp (by simpa using hm)
  | batchErr items rs e hp h => exact key hp (by simpa using hm)
  | batchPanic items rs hp h => exact key hp (by simpa using hm)
  | spawn => simp [spawnPreprocess] at hm
  | _ => simp at hm

lemma Move.of_dispatch (h : Move S b a b' evs) (hf : b.Fits S V batch) {w : ℕ} {t : ArrayD F}
    (hm : (w, t) ∈ dispatches evs) :
    b.pastBatch = true ∧ Batched S.user b.round batch t := by
  have key : ∀ {t' : ArrayD F} {rs : List ℕ}, b.phase = .dispatching t' rs → t = t' →
      b.pastBatch = true ∧ Batched S.user b.round batch t := by
    rintro t' rs hp rfl
    simp only [Fits, hp] at hf
    obtain ⟨-, -, hb, -⟩ := hf
    exact ⟨by simp [Batcher.pastBatch, hp], hb⟩
  cases h with
  | sent t' rs hp => exact key hp (by simp at hm; exact hm.2)
  | refused t' rs hp => exact key hp (by simp at hm; exact hm.2)
  | spawn => simp [spawnPreprocess] at hm
  | _ => simp at hm

/-- A postprocessing task has the row of its caller. -/
lemma Fits.rowOf {tasks : List (ArrayD F × ℕ)} {row : ArrayD F} {c : ℕ} (hf : b.Fits S V batch)
    (hp : b.phase = .postprocessing tasks) (hm : (row, c) ∈ tasks) :
    RowOf S V b.round batch c row := by
  simp only [Fits, hp] at hf
  obtain ⟨-, -, t, outputs, hb, hv, hlen, htasks⟩ := hf
  obtain ⟨k, hk⟩ := List.mem_iff_getElem?.1 (htasks _ hm)
  rw [List.getElem?_zip_eq_some, List.getElem?_map, Option.map_eq_some_iff] at hk
  obtain ⟨hrow, ⟨c', p⟩, hs, rfl⟩ := hk
  exact ⟨t, outputs, k, p, hb, hv, hlen, hs, hrow⟩

/-- What becomes of a responder in one step: an error of the batcher is sent on it, or it goes down
with the batcher, or its postprocessing decides. -/
inductive Fated (S : Setup I P O F) (V : WorkerMessage F → Reply F → Prop)
    (batch : List (Command I P)) (b b' : Batcher I P F) (evs : List (Event I P O F)) (c : ℕ) :
    Fate O → Prop where
  | error (e : Error) (h : e.sentByBatcher = true) : Fated S V batch b b' evs c (.answered (.error e))
  | unwound (h : b'.phase = .panicked) : Fated S V batch b b' evs c .dropped
  | ok (row : ArrayD F) (o : O) (hb : b.pastBatch = true) (hr : RowOf S V b.round batch c row)
      (h : S.user.postprocess c row = .ok o) : Fated S V batch b b' evs c (.answered (.ok o))
  | panic (row : ArrayD F) (hm : (c, row) ∈ postprocessCalls evs)
      (h : S.user.postprocess c row = .panic) : Fated S V batch b b' evs c .dropped

lemma Move.fated (h : Move S b a b' evs) (hf : b.Fits S V batch) {c : ℕ} {x : Fate O}
    (hm : (c, x) ∈ fates evs) : Fated S V batch b b' evs c x := by
  have hsend : ∀ {e : Error} {cs : List ℕ}, e.sentByBatcher = true →
      (c, x) ∈ fates (sendErr e cs : List (Event I P O F)) → Fated S V batch b b' evs c x := by
    intro e cs he hm
    rw [fates_sendErr, List.mem_map] at hm
    obtain ⟨c', -, heq⟩ := hm
    obtain ⟨rfl, rfl⟩ := Prod.mk.inj heq
    exact .error e he
  have hdrop : ∀ {cs : List ℕ}, b'.phase = .panicked →
      (c, x) ∈ fates (dropAll cs : List (Event I P O F)) → Fated S V batch b b' evs c x := by
    intro cs hp hm
    rw [fates_dropAll, List.mem_map] at hm
    obtain ⟨c', -, heq⟩ := hm
    obtain ⟨rfl, rfl⟩ := Prod.mk.inj heq
    exact .unwound hp
  cases h with
  | short => exact hsend rfl hm
  | spawn => rw [fates_spawnPreprocess] at hm; cases hm
  | filterNone j keys hp ht hk h =>
    simp only [Fits, hp] at hf
    obtain ⟨-, -, hj⟩ := hf
    have hnil : survivors S.user batch = [] := by
      rw [hj.items ht] at h
      exact List.map_eq_nil_iff.1 h
    rw [hj.kept ht hk, hnil, fates_append, List.mem_append] at hm
    rcases hm with hm | hm
    · exact hsend rfl hm
    · cases hm
  | filterSome => exact hsend rfl hm
  | batchErr items rs e => exact hsend (e := .batchingFailed e) rfl (by simpa using hm)
  | batchPanic items rs => exact hdrop rfl (by simpa using hm)
  | divZero t rs => exact hdrop rfl (by simpa using hm)
  | refused t rs => exact hsend (e := .workerUnavailable) rfl (by simpa using hm)
  | replyFailed msg rs r e hp h =>
    refine hsend ?_ hm
    cases r with
    | ok outputs => rw [h.2]; rfl
    | err t => rw [show e = _ from h]; rfl
    | closed => rw [show e = _ from h]; rfl
  | post tasks k rawOutput c' hp hk =>
    have hrow := hf.rowOf hp (List.mem_of_getElem? hk)
    unfold postprocessed at hm ⊢
    split at hm
    · obtain ⟨rfl, rfl⟩ : c = c' ∧ x = _ := by simpa using hm
      exact .ok rawOutput _ (by simp [Batcher.pastBatch, hp]) hrow ‹_›
    · obtain ⟨rfl, rfl⟩ : c = c' ∧ x = _ := by simpa using hm
      exact .error _ rfl
    · rename_i hpanic
      obtain ⟨rfl, rfl⟩ : c = c' ∧ x = _ := by simpa using hm
      exact .panic rawOutput (by simp) hpanic
  | _ => simp at hm

/-- The dispatch index counts the dispatches. -/
lemma Move.dispatchIndex_eq (h : Move S b a b' evs) (hlt : b.dispatchIndex < 2 ^ S.target.bits) :
    b'.dispatchIndex = (b.dispatchIndex + (dispatches evs).length) % 2 ^ S.target.bits ∧
      ∀ w t, (w, t) ∈ dispatches evs → w = b.dispatchIndex % S.config.numSessions := by
  have hmod := Nat.mod_eq_of_lt hlt
  cases h with
  | sent => simp
  | refused => simp
  | spawn => simp [spawnPreprocess, hmod, Function.comp_def]
  | _ => simp [nextRound, hmod]

/-- A call of `I::batch` behind the batcher is in the log. -/
lemma Move.call_logged (h : Move S b a b' evs) (hf : b.Fits S V batch) (hp' : b'.pastBatch = true) :
    (b'.round, (survivors S.user batch).map Prod.snd) ∈ batchCalls evs ∨
      b.pastBatch = true ∧ b.round = b'.round ∧ collected evs = [] := by
  cases h with
  | batchOk items rs t hp =>
    simp only [Fits, hp] at hf
    obtain ⟨-, -, -, rfl, -⟩ := hf
    exact .inl (by simp)
  | sent t rs hp => exact .inr ⟨by simp [Batcher.pastBatch, hp], rfl, by simp⟩
  | replyOk msg rs outputs hp => exact .inr ⟨by simp [Batcher.pastBatch, hp], rfl, rfl⟩
  | post tasks k rawOutput c hp =>
    exact .inr ⟨by simp [Batcher.pastBatch, hp], rfl, Ignores.collected.postprocessed ..⟩
  | more cmd hp => simp [Batcher.pastBatch, hp] at hp'
  | spawn => simp [Batcher.pastBatch, spawnPreprocess] at hp'
  | _ => simp [Batcher.pastBatch, nextRound] at hp'

end Batcher

/-! ### The log -/

/-- The batch of round `r` is `batch`, and `I::batch` was called on its survivors. -/
structure Called (S : Setup I P O F) (log : List (Event I P O F)) (r : ℕ)
    (batch : List (Command I P)) : Prop where
  index : (collected log)[r]? = some batch
  formed : Formed S.config batch
  nonempty : survivors S.user batch ≠ []
  call : (r, (survivors S.user batch).map Prod.snd) ∈ batchCalls log

lemma Called.append {S : Setup I P O F} {log : List (Event I P O F)} {r : ℕ}
    {batch : List (Command I P)} (h : Called S log r batch) (evs : List (Event I P O F)) :
    Called S (log ++ evs) r batch := by
  refine ⟨?_, h.formed, h.nonempty, ?_⟩
  · rw [collected_append, List.getElem?_append_left (List.getElem?_eq_some_iff.1 h.index).1]
    exact h.index
  · rw [batchCalls_append]
    exact List.mem_append_left _ h.call

/-- Why the responder `c` has the fate it has. -/
def Reason (S : Setup I P O F) (log : List (Event I P O F)) (panicked : Prop) (c : ℕ) (x : Fate O) :
    Prop :=
  match x with
  | .answered (.ok o) => ∃ r batch row, Called S log r batch ∧ RowOf S (Reply.For S) r batch c row ∧
      S.user.postprocess c row = .ok o
  | .answered (.error e) => e.sentByBatcher = true
  | .dropped => panicked ∨ ∃ row, (c, row) ∈ postprocessCalls log ∧ S.user.postprocess c row = .panic

lemma Reason.append {S : Setup I P O F} {log : List (Event I P O F)} {p q : Prop} {c : ℕ}
    {x : Fate O} (h : Reason S log p c x) (hpq : p → q) (evs : List (Event I P O F)) :
    Reason S (log ++ evs) q c x := by
  cases x with
  | answered r =>
    cases r with
    | ok o =>
      obtain ⟨r, batch, row, hc, hr, ho⟩ := h
      exact ⟨r, batch, row, hc.append evs, hr, ho⟩
    | error e => exact h
  | dropped =>
    rcases h with h | ⟨row, hm, hr⟩
    · exact .inl (hpq h)
    · refine .inr ⟨row, ?_, hr⟩
      rw [postprocessCalls_append]
      exact List.mem_append_left _ hm

/-- The log of a state, with its reasons. -/
structure History (S : Setup I P O F) (s : State I P O F) : Prop where
  batch : ∀ r items, (r, items) ∈ batchCalls s.log →
    ∃ batch, Called S s.log r batch ∧ items = (survivors S.user batch).map Prod.snd
  current : s.batcher.pastBatch = true → Called S s.log s.batcher.round (currentBatch [] s.log)
  dispatch : ∀ w t, (w, t) ∈ dispatches s.log →
    ∃ r batch, Called S s.log r batch ∧ Batched S.user r batch t
  fate : ∀ c x, (c, x) ∈ fates s.log →
    Reason S s.log (s.batcher.phase = .panicked) c x

variable {S : Setup I P O F} {s s' : State I P O F} {a : Action I}

lemma History.start (S : Setup I P O F) : History S (State.start S) := by
  refine ⟨?_, ?_, ?_, ?_⟩ <;> simp [State.start, Batcher.init, Batcher.pastBatch]

/-- A step that leaves the batcher and the collected batches alone. -/
lemma History.quiet (h : History S s) {evs : List (Event I P O F)} (hb : s'.batcher = s.batcher)
    (hlog : s'.log = s.log ++ evs) (hcol : collected evs = [])
    (hcalls : batchCalls evs = []) (hdisp : dispatches evs = [])
    (hfates : ∀ c x, (c, x) ∈ fates evs → x = .dropped ∧ s.batcher.phase = .panicked) :
    History S s' := by
  refine ⟨fun r items hm => ?_, fun hp => ?_, fun w t hm => ?_, fun c x hm => ?_⟩ <;> rw [hlog] at *
  · rw [batchCalls_append, hcalls, List.append_nil] at hm
    obtain ⟨batch, hc, hi⟩ := h.batch r items hm
    exact ⟨batch, hc.append evs, hi⟩
  · rw [hb] at hp ⊢
    rw [← currentBatch_append, currentBatch, hcol]
    exact (h.current hp).append evs
  · rw [dispatches_append, hdisp, List.append_nil] at hm
    obtain ⟨r, batch, hc, ht⟩ := h.dispatch w t hm
    exact ⟨r, batch, hc.append evs, ht⟩
  · rw [fates_append, List.mem_append] at hm
    rcases hm with hm | hm
    · exact (h.fate c x hm).append (by rw [hb]; exact id) evs
    · obtain ⟨rfl, hp⟩ := hfates c x hm
      exact .inl (by rw [hb]; exact hp)

lemma History.step (h : History S s) (hst : Stream S s) (hs : Step S s a s') : History S s' := by
  cases hs.effect with
  | batcher l evs move log queue _ _ closed reply =>
    have hcur : s.batcher.inRound = true →
        currentBatch [] s'.log = currentBatch [] s.log := fun hb => by
      rw [log, ← currentBatch_append, currentBatch, move.collected_eq hb]
      rfl
    have hcalled : ∀ r items, (r, items) ∈ batchCalls evs → r = s.batcher.round ∧
        Called S s'.log s.batcher.round (currentBatch [] s.log) ∧
        items = (survivors S.user (currentBatch [] s.log)).map Prod.snd := by
      intro r items hm
      obtain ⟨hb, rfl, hform, hne, rfl⟩ := move.of_batchCall hst.fits hm
      refine ⟨rfl, ⟨?_, hform, hne, ?_⟩, rfl⟩
      · have hcol := hst.current hb
        rw [log, collected_append, List.getElem?_append_left (List.getElem?_eq_some_iff.1 hcol).1]
        exact hcol
      · rw [log, batchCalls_append]
        exact List.mem_append_right _ hm
    refine ⟨?_, ?_, ?_, ?_⟩
    · intro r items hm
      rw [log, batchCalls_append, List.mem_append] at hm
      rcases hm with hm | hm
      · obtain ⟨batch, hc, hi⟩ := h.batch r items hm
        exact ⟨batch, log ▸ hc.append evs, hi⟩
      · obtain ⟨rfl, hc, hi⟩ := hcalled r items hm
        exact ⟨_, hc, hi⟩
    · intro hp
      rcases move.call_logged hst.fits hp with hm | ⟨hb, hr, hcol⟩
      · obtain ⟨hr, hc, -⟩ := hcalled _ _ hm
        obtain ⟨hb, -⟩ := move.of_batchCall hst.fits hm
        rw [hr, hcur hb]
        exact hc
      · rw [← hr, log, ← currentBatch_append, currentBatch, hcol]
        exact (h.current hb).append evs
    · intro w t hm
      rw [log, dispatches_append, List.mem_append] at hm
      rcases hm with hm | hm
      · obtain ⟨r, batch, hc, ht⟩ := h.dispatch w t hm
        exact ⟨r, batch, log ▸ hc.append evs, ht⟩
      · obtain ⟨hb, ht⟩ := move.of_dispatch hst.fits hm
        exact ⟨_, _, log ▸ (h.current hb).append evs, ht⟩
    · intro c x hm
      rw [log, fates_append, List.mem_append] at hm
      rcases hm with hm | hm
      · have halive := move.alive
        rw [log]
        exact (h.fate c x hm).append (fun hp => by simp [Batcher.gone, hp] at halive) evs
      · cases move.fated hst.fits hm with
        | error e he => exact he
        | unwound hp => exact .inl hp
        | ok row o hb hr ho => exact ⟨_, _, row, log ▸ (h.current hb).append evs, hr, ho⟩
        | panic row hcall hr =>
          refine .inr ⟨row, ?_, hr⟩
          rw [log, postprocessCalls_append]
          exact List.mem_append_right _ hcall
  | accepted cmd batcher alive log queue => exact h.quiet batcher log rfl rfl rfl (by simp)
  | dropped cmd batcher gone log queue =>
    apply h.quiet batcher log rfl rfl rfl
    intro c x hm
    obtain ⟨rfl, rfl⟩ : c = cmd.responder ∧ x = .dropped := by simpa using hm
    refine ⟨rfl, ?_⟩
    unfold Batcher.gone at gone
    split at gone
    · rename_i hp
      rw [hst.stopped hp] at queue
      cases queue
    · assumption
    · cases gone
  | quiet evs batcher quiet log queue =>
    have hcol : collected evs = [] := quiet.collected_eq
    have hcalls : batchCalls evs = [] := quiet.batchCalls_eq
    have hdisp : dispatches evs = [] := quiet.dispatches_eq
    have hfates : fates evs = [] := quiet.fates_eq
    exact h.quiet batcher log hcol hcalls hdisp fun c x hm => by rw [hfates] at hm; cases hm

/-- **The history invariant.** -/
theorem history (hs : (server S).Reachable s) : History S s :=
  hs.invariant (History.start S) fun _ _ _ hr hu hstep => hu.step (stream hr) (server_step hstep)

end OrtSuperserve
