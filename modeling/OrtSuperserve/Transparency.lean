import OrtSuperserve.Order
import OrtSuperserve.Quiescence
import OrtSuperserve.Slicing

/-!
# Batching is transparent

With a batch function that stacks and a model that acts row by row (`RowWise`), a minimum batch size of
one and workers that do not panic, what a call of `infer` returns is a function of its own input
(`direct`): the same as if the input had been preprocessed, given to the model and postprocessed alone.
Neither the other calls, nor the boundaries of the batches, nor the failures and panics of others in
the same batch can be told from it (`batching_transparent`), and in a fair run every command comes to
that response (`served_directly`).
-/

namespace OrtSuperserve

open Lib

variable {I P O F : Type}

/-- Preprocessed items can be stacked in every batch the server forms; the session takes the tensor of
such a batch to one with its rows under `f`, of a size that an array may have; and there is room for the
slices of a full batch. -/
structure RowWise (S : Setup I P O F) (row : P → ArrayD F) (f : ArrayD F → ArrayD F) : Prop where
  batch : ∀ r items, items ≠ [] → items.length ≤ S.config.roundSize →
    (∀ p ∈ items, ∃ c x, S.user.preprocess c x = .ok p) →
    ∃ t, S.user.batch r items = .ok t ∧ t.rows = items.map row
  run : ∀ r items t, items ≠ [] → items.length ≤ S.config.roundSize →
    (∀ p ∈ items, ∃ c x, S.user.preprocess c x = .ok p) → S.user.batch r items = .ok t →
    S.session.fromArrayView r t = .ok () ∧ ∃ outputs, ∃ out : ArrayD F,
      S.session.run r S.inputName t = .ok outputs ∧
      outputs.lookup S.outputName = some (.tensor (out.shape.map Int.ofNat) out.data) ∧
      nonzeroSize out.shape ≤ isizeMax S.target.bits ∧ out.rows = t.rows.map f
  room : ¬ S.target.capacityOverflow S.target.arraySize S.config.roundSize

/-- **What the worker makes of such a batch**: its rows under `f`. -/
lemma RowWise.process {S : Setup I P O F} {row : P → ArrayD F} {f : ArrayD F → ArrayD F}
    (h : RowWise S row f) {r : ℕ} {items : List P} {t : ArrayD F} (hne : items ≠ [])
    (hlen : items.length ≤ S.config.roundSize)
    (hpre : ∀ p ∈ items, ∃ c x, S.user.preprocess c x = .ok p) (ht : S.user.batch r items = .ok t) :
    processMessage S.target S.session (S.message r t) = .ok (t.rows.map f) := by
  obtain ⟨t', ht', hrows⟩ := h.batch r items hne hlen hpre
  obtain rfl : t = t' := Outcome.ok.inj (ht.symm.trans ht')
  obtain ⟨hview, outputs, out, hrun, hlook, hfit, hout⟩ := h.run r items t hne hlen hpre ht
  -- the output has a row for each item, so it has a first axis
  have hfirst : out.shape.headD 0 = items.length := by
    rw [← ArrayD.length_rows, hout, List.length_map, hrows, List.length_map]
  obtain ⟨tail, hs⟩ : ∃ tail, out.shape = items.length :: tail := by
    have hpos := List.length_pos_iff.2 hne
    cases hshape : out.shape with
    | nil =>
      rw [hshape, List.headD_nil] at hfirst
      omega
    | cons n tail =>
      rw [hshape, List.headD_cons] at hfirst
      exact ⟨tail, by rw [hfirst]⟩
  have hroom : ¬ S.target.capacityOverflow S.target.arraySize items.length :=
    not_lt.2 ((Nat.mul_le_mul_right _ hlen).trans (not_lt.1 h.room))
  rw [← hout]
  exact processMessage_of_array hview hrun hlook hs hfit hroom

/-- What `infer(x)` would return without batching. -/
def direct (S : Setup I P O F) (row : P → ArrayD F) (f : ArrayD F → ArrayD F) (c : ℕ) (x : I) :
    Response O :=
  match S.user.preprocess c x with
  | .ok p => (postFate S c (f (row p))).response
  | .err e => .error (if S.preprocessOnInfer c then .userError e else .preprocessingFailed)
  | .panic => .error .preprocessingFailed

variable {S : Setup I P O F} {s s' : State I P O F} {a : Action I} {row : P → ArrayD F}
  {f : ArrayD F → ArrayD F}

/-! ### Callers and their batch -/

/-- The command of a caller, with its call. -/
lemma exists_call (hs : (server S).Reachable s) {r c : ℕ} {batch : List (Command I P)}
    (hb : (collected s.log)[r]? = some batch) {cmd : Command I P} (hm : cmd ∈ batch)
    (hc : cmd.responder = c) :
    ∃ call, s.calls[c]? = some call ∧ (prepare S c call.input).1 = .sending cmd := by
  have hacc : cmd ∈ accepted s.log :=
    (collected_prefix_accepted (stream hs)).subset
      (List.mem_flatten.2 ⟨batch, List.mem_of_getElem? hb, hm⟩)
  obtain ⟨call, hcall, -, hprep⟩ := (calls hs).sent cmd hacc
  rw [hc] at hcall hprep
  exact ⟨call, hcall, hprep⟩

/-- The survivors of a batch are preprocessed inputs, few enough for a round. -/
lemma survivors_preprocessed (hs : (server S).Reachable s) {r : ℕ} {batch : List (Command I P)}
    (hb : (collected s.log)[r]? = some batch) :
    ((survivors S.user batch).map Prod.snd).length ≤ S.config.roundSize ∧
      ∀ p ∈ (survivors S.user batch).map Prod.snd, ∃ c x, S.user.preprocess c x = .ok p := by
  refine ⟨?_, ?_⟩
  · have hle := survivors_length_le S.user batch
    have hmax := ((stream hs).sizes batch (List.mem_of_getElem? hb)).2
    rw [List.length_map]
    omega
  · intro p hp
    obtain ⟨⟨c, p⟩, hm, rfl⟩ := List.mem_map.1 hp
    obtain ⟨cmd, call, -, -, -, hpre⟩ := (calls hs).survivor (stream hs) hb hm
    exact ⟨c, call.input, hpre⟩

/-- The item of a command whose preprocessing failed. -/
lemma direct_of_failed {c : ℕ} {x : I} {cmd : Command I P}
    (hprep : (prepare S c x).1 = .sending cmd) (hitem : cmd.item S.user = none) :
    direct S row f c x = .error .preprocessingFailed := by
  unfold direct
  cases hpre : S.user.preprocess c x with
  | ok p =>
    rw [(item_of_prepare hprep).2 hpre] at hitem
    cases hitem
  | err e =>
    -- a call that preprocesses itself has sent nothing
    cases hmode : S.preprocessOnInfer c with
    | false => simp
    | true => simp [prepare, hmode, hpre] at hprep
  | panic => rfl

/-- **An answer that a row-wise model allows is the direct one.** -/
lemma direct_of_answer (hs : (server S).Reachable s) (h : RowWise S row f)
    (hmin : S.config.minBatchSize ≤ 1) {r c : ℕ} {batch : List (Command I P)}
    (hb : (collected s.log)[r]? = some batch) {x : Fate O} (ha : Answer S false r batch c x) :
    ∃ call, s.calls[c]? = some call ∧ x.response = direct S row f c call.input := by
  have hsize := (stream hs).sizes batch (List.mem_of_getElem? hb)
  obtain ⟨hlen, hpre⟩ := survivors_preprocessed hs hb
  have hne : ∀ {c : ℕ}, c ∈ (survivors S.user batch).map Prod.fst →
      (survivors S.user batch).map Prod.snd ≠ [] := by
    intro c hc hnil
    rw [List.map_eq_nil_iff] at hnil
    rw [hnil] at hc
    cases hc
  have hproc : ∀ {t : ArrayD F}, Batched S.user r batch t →
      processMessage S.target S.session (S.message r t) = .ok (t.rows.map f) := by
    intro t ht
    have hne' : (survivors S.user batch).map Prod.snd ≠ [] :=
      fun hnil => ht.nonempty (List.map_eq_nil_iff.1 hnil)
    exact h.process hne' hlen hpre ht.batch
  have hrows : ∀ {t : ArrayD F}, Batched S.user r batch t →
      t.rows = ((survivors S.user batch).map Prod.snd).map row := by
    intro t ht
    have hne' : (survivors S.user batch).map Prod.snd ≠ [] :=
      fun hnil => ht.nonempty (List.map_eq_nil_iff.1 hnil)
    obtain ⟨t', ht', hr⟩ := h.batch r _ hne' hlen hpre
    obtain rfl : t = t' := Outcome.ok.inj (ht.batch.symm.trans ht')
    exact hr
  cases ha with
  | short hlt => omega
  | failed hf hc =>
    obtain ⟨cmd, hm, hresp, hitem⟩ := mem_failures.1 hc
    obtain ⟨call, hcall, hprep⟩ := exists_call hs hb hm hresp
    exact ⟨call, hcall, (direct_of_failed hprep hitem).symm⟩
  | batching hf hc e hbatch =>
    obtain ⟨t, ht, -⟩ := h.batch r _ (hne hc) hlen hpre
    rw [ht] at hbatch
    cases hbatch
  | unavailable hf hc t ht hd => cases hd
  | inference hf hc t ht e he =>
    rw [hproc ht] at he
    cases he
  | closed hf hc t ht hd => cases hd
  | mismatch hf hc t ht outputs ho hl =>
    rw [hproc ht] at ho
    obtain rfl := Outcome.ok.inj ho
    rw [hrows ht, List.length_map, List.length_map, List.length_map] at hl
    exact absurd rfl hl
  | post hf rw' hrow =>
    obtain ⟨t, outputs, k, p, ht, hfor, hl, hk, hok⟩ := hrow
    have hfor : processMessage S.target S.session (S.message r t) = .ok outputs := hfor
    rw [hproc ht] at hfor
    obtain rfl := Outcome.ok.inj hfor
    obtain ⟨cmd, call, -, -, hcall, hprec⟩ :=
      (calls hs).survivor (stream hs) hb (List.mem_of_getElem? hk)
    refine ⟨call, hcall, ?_⟩
    -- the row of the caller is `f` of its own item
    have hitem : ((survivors S.user batch).map Prod.snd)[k]? = some p := by
      rw [List.getElem?_map, hk]
      rfl
    rw [hrows ht, List.getElem?_map, List.getElem?_map, hitem] at hok
    obtain rfl : f (row p) = rw' := Option.some.inj hok
    rw [direct, hprec]

/-! ### No call meets a closed channel -/

def State.Unrefused (s : State I P O F) : Prop :=
  s.batcher.phase ≠ .panicked →
    ∀ call ∈ s.calls, call.state ≠ .returned (.error .serverChannelClosed)

/-- What is sent on a responder is no closed command channel. -/
lemma response_ne_refused (hs : (server S).Reachable s) {c : ℕ} {fate : Fate O}
    (hf : (fates s.log).lookup c = some fate) : fate.response ≠ .error .serverChannelClosed := by
  obtain ⟨l₁, l₂, hl, -⟩ := List.lookup_eq_some_iff.1 hf
  have hreason := (history hs).fate c fate (by rw [hl]; simp)
  intro he
  cases fate with
  | answered r =>
    obtain rfl : r = .error .serverChannelClosed := he
    simp [Reason, Error.sentByBatcher] at hreason
  | dropped => simp [Fate.response] at he

lemma Step.unrefused (h : Step S s a s') (hst : (server S).step s a = some s')
    (hs : (server S).Reachable s) (hu : s.Unrefused) : s'.Unrefused := by
  intro hp'
  have hp : s.batcher.phase ≠ .panicked := fun hp => hp' (panicked_of_reaches hp (.single hst))
  have hset : ∀ {c : ℕ} {call : Call I P O} {st : CallState I P O},
      st ≠ .returned (.error .serverChannelClosed) →
      ∀ x ∈ s.calls.set c { call with state := st },
        x.state ≠ .returned (.error .serverChannelClosed) := by
    intro c call st hst x hx
    rcases List.mem_or_eq_of_mem_set hx with hx | rfl
    · exact hu hp x hx
    · exact hst
  cases h with
  | client a _ hm =>
    cases hm with
    | clone => exact hu hp
    | shutdown => exact hu hp
    | infer h input hh =>
      intro call hc
      rcases List.mem_append.1 hc with hc | hc
      · exact hu hp call hc
      · rw [List.mem_singleton.1 hc]
        simp
    | prepare c call hc hsc =>
      apply hset
      rcases prepare_cases S c call.input with ⟨cmd, he⟩ | ⟨e, -, -, he⟩ | he <;> simp [he]
    | send c call cmd hc hsc => exact hset (by simp)
    | refused c call cmd hc hsc hg =>
      -- the call keeps its handle alive, so the batcher cannot have stopped
      have hstop : s.batcher.phase = .stopped := by
        unfold Batcher.gone at hg
        split at hg
        · assumption
        · exact absurd ‹_› hp
        · cases hg
      have hquiet := not_running hs (handles_of_stopped hs hstop) call (List.mem_of_getElem? hc)
      rw [hsc] at hquiet
      cases hquiet
    | receive c call fate hc hsc hf =>
      apply hset
      intro he
      exact response_ne_refused hs hf (CallState.returned.inj he)
    | cancel c call hc hsc => exact hset (by simp)
  | _ => exact hu hp

lemma unrefused (hs : (server S).Reachable s) : s.Unrefused := by
  refine hs.invariant (P := State.Unrefused) ?_ ?_
  · intro _ call hc
    cases hc
  · intro u a v hu hun hst
    exact (server_step hst).unrefused hst hu hun

/-! ### The theorems -/

/-- What is received on a responder that is used. -/
lemma exists_lookup {c : ℕ} {x : Fate O} {l : List (ℕ × Fate O)} (h : (c, x) ∈ l) :
    ∃ y, l.lookup c = some y ∧ (c, y) ∈ l := by
  have hsome : (l.lookup c).isSome := List.lookup_isSome_iff.2 ⟨_, h, by simp⟩
  obtain ⟨y, hy⟩ := Option.isSome_iff_exists.1 hsome
  obtain ⟨l₁, l₂, rfl, -⟩ := List.lookup_eq_some_iff.1 hy
  exact ⟨y, hy, by simp⟩

/-- A state in which neither the batcher nor a worker has panicked. -/
structure Intact (s : State I P O F) : Prop where
  batcher : s.batcher.phase ≠ .panicked
  workers : s.log.any Event.workerPanic = false

/-- An intact state has an intact past. -/
lemma Intact.of_reaches (h : (server S).Reaches s s') (hs' : Intact s') : Intact s := by
  refine ⟨?_, ?_⟩
  · intro hp
    exact hs'.batcher (panicked_of_reaches hp h)
  · rw [List.any_eq_false]
    intro e he
    exact (List.any_eq_false.1 hs'.workers) e ((log_grows h).subset he)

/-- **Batching is transparent.**  With a row-wise model and a minimum batch size of one, as long as
neither the batcher nor a worker panics: in every run, a call that has returned has returned the direct
response to its own input. -/
theorem batching_transparent (hs : (server S).Reachable s) (hintact : Intact s) (h : RowWise S row f)
    (hmin : S.config.minBatchSize ≤ 1) {c : ℕ} {call : Call I P O} {r : Response O}
    (hc : s.calls[c]? = some call) (hr : call.state = .returned r) :
    r = direct S row f c call.input := by
  rcases ((calls hs).calls c call hc).returned r hr with ⟨fate, hf, rfl⟩ | ⟨-, rfl⟩ | ⟨e, hm, hpre, rfl⟩
  · obtain ⟨i, batch, hb, ha⟩ := answer_allowed hs hintact.batcher hf
    rw [hintact.workers] at ha
    obtain ⟨call', hcall, hresp⟩ := direct_of_answer hs h hmin hb ha
    obtain rfl : call = call' := Option.some.inj (hc.symm.trans hcall)
    exact hresp
  · exact absurd hr (unrefused hs hintact.batcher call (List.mem_of_getElem? hc))
  · simp [direct, hpre, hm]

/-- A responder that is used has the direct response on it. -/
lemma direct_of_used (hs : (server S).Reachable s) (hintact : Intact s) (h : RowWise S row f)
    (hmin : S.config.minBatchSize ≤ 1) {cmd : Command I P} (hu : Used cmd s) :
    ∃ call fate, s.calls[cmd.responder]? = some call ∧
      (fates s.log).lookup cmd.responder = some fate ∧
      fate.response = direct S row f cmd.responder call.input := by
  obtain ⟨x, hx⟩ := hu
  obtain ⟨fate, hfate, hmem⟩ := exists_lookup hx
  obtain ⟨i, batch, hb, ha⟩ := answer_allowed hs hintact.batcher hmem
  rw [hintact.workers] at ha
  obtain ⟨call, hcall, hresp⟩ := direct_of_answer hs h hmin hb ha
  exact ⟨call, fate, hcall, hfate, hresp⟩

/-- In a fair run that stays intact every responder is used in the end. -/
lemma eventually_used_of_intact (ρ : (server S).FairRun Action.internal)
    (hintact : ∀ j, Intact (ρ.state j)) {k : ℕ} {cmd : Command I P}
    (hm : cmd ∈ accepted (ρ.state k).log) : ∃ j, k ≤ j ∧ Used cmd (ρ.state j) := by
  apply eventually_used ρ (fun j => (hintact j).batcher) _ hm
  intro j t ht hd
  obtain ⟨w, hw⟩ := panic_of_dead (ρ.reachable j) t ht hd
  have := workerPanic_of_mem hw
  rw [(hintact j).workers] at this
  cases this

/-- **Every command comes to the direct response.**  In a run that is fair to the server's own steps,
under the same conditions at all times, the responder of each command accepted is used in the end, and
what its call then receives is the direct response. -/
theorem served_directly (ρ : (server S).FairRun Action.internal) (hintact : ∀ j, Intact (ρ.state j))
    (h : RowWise S row f) (hmin : S.config.minBatchSize ≤ 1) {k : ℕ} {cmd : Command I P}
    (hm : cmd ∈ accepted (ρ.state k).log) :
    ∃ j, k ≤ j ∧ ∃ call fate, (ρ.state j).calls[cmd.responder]? = some call ∧
      (fates (ρ.state j).log).lookup cmd.responder = some fate ∧
      fate.response = direct S row f cmd.responder call.input := by
  obtain ⟨j, hkj, hu⟩ := eventually_used_of_intact ρ hintact hm
  exact ⟨j, hkj, direct_of_used (ρ.reachable j) (hintact j) h hmin hu⟩

/-! ### The sample -/

lemma rowWise_sample : RowWise sample single id := by
  -- a batch of the sample has one item or two
  have hcases : ∀ items : List ℕ, items ≠ [] → items.length ≤ sample.config.roundSize →
      (∃ x, items = [x]) ∨ ∃ x y, items = [x, y] := by
    intro items hne hlen
    have hlen : items.length ≤ 2 := hlen
    match items with
    | [] => exact absurd rfl hne
    | [x] => exact .inl ⟨x, rfl⟩
    | [x, y] => exact .inr ⟨x, y, rfl⟩
    | _ :: _ :: _ :: _ => simp at hlen
  refine ⟨?_, ?_, by decide⟩
  · intro r items hne hlen _
    rcases hcases items hne hlen with ⟨x, rfl⟩ | ⟨x, y, rfl⟩
    · exact ⟨_, rfl, rfl⟩
    · exact ⟨_, rfl, rfl⟩
  · intro r items t hne hlen _ ht
    rcases hcases items hne hlen with ⟨x, rfl⟩ | ⟨x, y, rfl⟩
    · obtain rfl := Outcome.ok.inj ht
      have hfit : nonzeroSize [1, 1] ≤ isizeMax 64 := by decide
      exact ⟨rfl, _, _, rfl, List.lookup_cons_self, hfit, (List.map_id _).symm⟩
    · obtain rfl := Outcome.ok.inj ht
      have hfit : nonzeroSize [2, 1] ≤ isizeMax 64 := by decide
      exact ⟨rfl, _, _, rfl, List.lookup_cons_self, hfit, (List.map_id _).symm⟩

/-- The caller of `7` gets `7`, the caller of `0` the error of its own preprocessing. -/
theorem batching_transparent_sample :
    ∃ s : State ℕ ℕ ℕ ℕ, (server sample).run (.start sample) sampleRun = some s ∧
      ∃ call call' : Call ℕ ℕ ℕ, ∃ r r', s.calls = [call, call'] ∧
        call.state = .returned r ∧ call'.state = .returned r' ∧
        r = direct sample single id 0 7 ∧ r' = direct sample single id 1 0 := by
  obtain ⟨s, hrun, hphase, hlog, call, call', r, r', hcalls, hin, hin', hr, hr'⟩ :
      ∃ s : State ℕ ℕ ℕ ℕ, (server sample).run (.start sample) sampleRun = some s ∧
        s.batcher.phase = .head ∧ s.log.any Event.workerPanic = false ∧
        ∃ call call' : Call ℕ ℕ ℕ, ∃ r r', s.calls = [call, call'] ∧ call.input = 7 ∧
          call'.input = 0 ∧ call.state = .returned r ∧ call'.state = .returned r' :=
    ⟨_, rfl, rfl, rfl, _, _, _, _, rfl, rfl, rfl, rfl, rfl⟩
  have hintact : Intact s := ⟨by rw [hphase]; simp, hlog⟩
  have h := batching_transparent ⟨sampleRun, hrun⟩ hintact rowWise_sample (by decide)
    (c := 0) (by rw [hcalls]; rfl) hr
  have h' := batching_transparent ⟨sampleRun, hrun⟩ hintact rowWise_sample (by decide)
    (c := 1) (by rw [hcalls]; rfl) hr'
  rw [hin] at h
  rw [hin'] at h'
  exact ⟨s, hrun, call, call', r, r', hcalls, hr, hr', h, h'⟩

/-- A fair run goes on from the sample, and its two commands come to those responses. -/
theorem served_directly_sample : ∃ ρ : (server sample).FairRun Action.internal,
    ∃ cmd cmd' : Command ℕ ℕ, accepted (ρ.state 24).log = [cmd, cmd'] ∧
      ∀ d ∈ [cmd, cmd'], ∃ j, 24 ≤ j ∧ ∃ call fate,
        (ρ.state j).calls[d.responder]? = some call ∧
        (fates (ρ.state j).log).lookup d.responder = some fate ∧
        fate.response = direct sample single id d.responder call.input := by
  obtain ⟨s, hrun, hp, hq, hh, hw, hlog, cmd, cmd', hacc⟩ : ∃ s : State ℕ ℕ ℕ ℕ,
      (server sample).run (.start sample) sampleRun = some s ∧ s.batcher.phase = .head ∧
        s.commandQueue = [] ∧ s.handles = [true] ∧ s.workers = [⟨[], .receiving⟩] ∧
        s.log.any Event.workerPanic = false ∧ ∃ cmd cmd' : Command ℕ ℕ,
          accepted s.log = [cmd, cmd'] := ⟨_, rfl, rfl, rfl, rfl, rfl, rfl, _, _, rfl⟩
  obtain ⟨ρ, hlast, -⟩ := Machine.exists_fairRun sampleRun hrun
    (idle_quiet (S := sample) hp hq (by simp [hh]) (by simp [hw]))
  have hlast : ∀ k, 24 ≤ k → ρ.state k = s := hlast
  have hintact : ∀ j, Intact (ρ.state j) := by
    intro j
    apply Intact.of_reaches (ρ.reaches (le_max_left j 24))
    rw [hlast _ (le_max_right _ _)]
    exact ⟨by rw [hp]; simp, hlog⟩
  have hacc' : accepted (ρ.state 24).log = [cmd, cmd'] := by rw [hlast 24 le_rfl]; exact hacc
  refine ⟨ρ, cmd, cmd', hacc', ?_⟩
  intro d hd
  exact served_directly ρ hintact rowWise_sample (by decide) (by rw [hacc']; exact hd)

end OrtSuperserve
