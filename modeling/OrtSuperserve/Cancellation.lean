import OrtSuperserve.Responses
import OrtSuperserve.Lib.Simulation

/-!
# A caller that goes away

When the future of a call is dropped after its command went into the channel, the command stays there,
and is served like the others; only the response finds no receiver.  So nobody else can tell
(`cancellation_invisible`): what the server goes on to do, it would have done with the caller waiting,
and what it would have done, it still can.
-/

namespace OrtSuperserve

open Lib

variable {I P O F : Type}

/-! ### Without the caller -/

/-- The state with the future of call `c` dropped. -/
def State.cancelled (s : State I P O F) (c : ℕ) : State I P O F :=
  { s with calls := s.calls.modify c fun call => { call with state := .cancelled } }

/-- What the caller of `c` does while its call waits. -/
def Action.awaits (c : ℕ) : Action I → Bool
  | .client (.receive d) => d == c
  | .client (.cancel d) => d == c
  | _ => false

/-- The call has its command in the channel, or is over. -/
def CallState.committed : CallState I P O → Bool
  | .starting | .sending _ => false
  | .waiting | .returned _ | .panicked | .cancelled => true

/-- The call `c` has its command in the channel, or is over. -/
def State.Committed (s : State I P O F) (c : ℕ) : Prop :=
  ∃ call, s.calls[c]? = some call ∧ call.state.committed = true

variable {S : Setup I P O F} {s s' : State I P O F} {c d : ℕ} {call : Call I P O}
  {st : CallState I P O} {a : Action I}

lemma getElem?_cancelled (hd : d ≠ c) : (s.cancelled c).calls[d]? = s.calls[d]? :=
  List.getElem?_modify_ne _ _ (Ne.symm hd)

lemma getElem?_cancelled_self (hc : s.calls[c]? = some call) :
    (s.cancelled c).calls[c]? = some { call with state := .cancelled } := by
  simp [State.cancelled, hc]

/-- The other calls go on as before. -/
lemma cancelled_setCall (hd : d ≠ c) :
    (s.setCall d call st).cancelled c = (s.cancelled c).setCall d call st := by
  have hcalls : ∀ x : Call I P O,
      ((s.calls.set d x).modify c fun call => { call with state := .cancelled }) =
        (s.calls.modify c fun call => { call with state := .cancelled }).set d x := by
    intro x
    apply List.ext_getElem?
    intro i
    by_cases hi : i = d
    · subst hi
      simp [List.getElem?_set, Ne.symm hd]
    · simp [List.getElem?_modify, Ne.symm hi]
  simp only [State.cancelled, State.setCall, hcalls]

/-- Whatever becomes of the call itself does not show. -/
lemma cancelled_setCall_self (hc : s.calls[c]? = some call) :
    (s.setCall c call st).cancelled c = s.cancelled c := by
  have hcalls : ((s.calls.set c { call with state := st }).modify c
      fun call => { call with state := .cancelled }) =
        s.calls.modify c fun call => { call with state := .cancelled } := by
    obtain ⟨hlt, rfl⟩ := List.getElem?_eq_some_iff.1 hc
    apply List.ext_getElem?
    intro i
    by_cases hi : i = c
    · subst hi
      simp [hlt]
    · simp [Ne.symm hi]
  simp only [State.cancelled, State.setCall, hcalls]

/-- Dropping the future. -/
lemma setCall_cancelled (hc : s.calls[c]? = some call) :
    s.setCall c call .cancelled = s.cancelled c := by
  have hcalls : s.calls.set c { call with state := .cancelled } =
      s.calls.modify c fun call => { call with state := .cancelled } := by
    obtain ⟨hlt, rfl⟩ := List.getElem?_eq_some_iff.1 hc
    apply List.ext_getElem?
    intro i
    by_cases hi : i = c
    · subst hi
      simp [hlt]
    · simp [Ne.symm hi]
  simp only [State.cancelled, State.setCall, hcalls]

/-! ### One step -/

/-- Only its caller takes a committed call further. -/
lemma ClientMove.call_eq {b : ClientAction I} (h : ClientMove S s b s')
    (hc : s.calls[c]? = some call) (hcom : call.state.committed = true)
    (hb : (Action.client b).awaits c = false) : s'.calls[c]? = some call := by
  have hne : ∀ {d : ℕ} {call' : Call I P O}, s.calls[d]? = some call' →
      call'.state.committed = false → d ≠ c := by
    rintro d call' hd hst rfl
    obtain rfl := Option.some.inj (hd.symm.trans hc)
    rw [hcom] at hst
    cases hst
  cases h with
  | clone i hh => exact hc
  | infer i input hh =>
    exact (List.getElem?_append_left (List.getElem?_eq_some_iff.1 hc).1).trans hc
  | prepare d call' hd hst => exact (List.getElem?_set_ne (hne hd (by rw [hst]; rfl))).trans hc
  | send d call' cmd hd hst => exact (List.getElem?_set_ne (hne hd (by rw [hst]; rfl))).trans hc
  | refused d call' cmd hd hst => exact (List.getElem?_set_ne (hne hd (by rw [hst]; rfl))).trans hc
  | receive d => exact (List.getElem?_set_ne (by simpa [Action.awaits] using hb)).trans hc
  | cancel d => exact (List.getElem?_set_ne (by simpa [Action.awaits] using hb)).trans hc
  | shutdown i hh hu => exact hc

lemma Step.call_eq (h : Step S s a s') (hc : s.calls[c]? = some call)
    (hcom : call.state.committed = true) (ha : a.awaits c = false) : s'.calls[c]? = some call := by
  cases h with
  | client b _ hm => exact hm.call_eq hc hcom ha
  | _ => exact hc

lemma Step.committed (h : Step S s a s') (hs : s.Committed c) : s'.Committed c := by
  obtain ⟨call, hc, hcom⟩ := hs
  have hlt := (List.getElem?_eq_some_iff.1 hc).1
  cases ha : a.awaits c with
  | false => exact ⟨call, h.call_eq hc hcom ha, hcom⟩
  | true =>
    cases h with
    | client b _ hm =>
      cases hm with
      | receive d call' fate hd =>
        obtain rfl : d = c := by simpa [Action.awaits] using ha
        exact ⟨_, List.getElem?_set_self hlt, rfl⟩
      | cancel d call' hd =>
        obtain rfl : d = c := by simpa [Action.awaits] using ha
        exact ⟨_, List.getElem?_set_self hlt, rfl⟩
      | _ => cases ha
    | _ => cases ha

/-- The handles the caller does not borrow are as unused as before. -/
lemma unused_cancelled {h : ℕ} (hc : s.calls[c]? = some call)
    (hh : call.handle = h → call.state.running = false) :
    (s.cancelled c).unused h = s.unused h := by
  rw [Bool.eq_iff_iff, State.unused_iff, State.unused_iff]
  constructor
  · intro hall x hx hxh
    obtain ⟨i, hi⟩ := List.mem_iff_getElem?.1 hx
    by_cases hic : i = c
    · subst hic
      obtain rfl := Option.some.inj (hi.symm.trans hc)
      exact hh hxh
    · rw [← getElem?_cancelled hic] at hi
      exact hall x (List.mem_of_getElem? hi) hxh
  · intro hall x hx hxh
    obtain ⟨i, hi⟩ := List.mem_iff_getElem?.1 hx
    by_cases hic : i = c
    · subst hic
      rw [getElem?_cancelled_self hc] at hi
      obtain rfl := Option.some.inj hi
      rfl
    · rw [getElem?_cancelled hic] at hi
      exact hall x (List.mem_of_getElem? hi) hxh

lemma calls_append_cancelled (hc : s.calls[c]? = some call) (x : Call I P O) :
    ({ s with calls := s.calls ++ [x] } : State I P O F).cancelled c =
      { s.cancelled c with calls := (s.cancelled c).calls ++ [x] } := by
  have hlt := (List.getElem?_eq_some_iff.1 hc).1
  have hcalls : ((s.calls ++ [x]).modify c fun call => { call with state := .cancelled }) =
      (s.calls.modify c fun call => { call with state := .cancelled }) ++ [x] := by
    apply List.ext_getElem?
    intro i
    by_cases hi : i = c
    · subst hi
      simp [List.getElem?_append, hlt]
    · simp [List.getElem?_append, Ne.symm hi]
  simp only [State.cancelled, hcalls]

lemma clientStep_cancelled {b : ClientAction I} (hc : s.calls[c]? = some call)
    (hcom : call.state.committed = true) (hb : (Action.client b).awaits c = false)
    (hh : b = .shutdown call.handle → call.state.running = false) :
    (s.cancelled c).clientStep S b = (s.clientStep S b).map fun t => t.cancelled c := by
  cases b with
  | clone i =>
    by_cases hi : s.handles[i]? = some true
    · simp [State.clientStep, State.cancelled, hi]
    · simp [State.clientStep, State.cancelled, hi]
  | infer i input =>
    by_cases hi : s.handles[i]? = some true
    · have hi' : (s.cancelled c).handles[i]? = some true := hi
      simp only [State.clientStep, if_pos hi, if_pos hi', Option.map_some, calls_append_cancelled hc]
    · simp [State.clientStep, State.cancelled, hi]
  | prepare d =>
    by_cases hdc : d = c
    · subst hdc
      obtain ⟨i, input, state⟩ := call
      simp only [State.clientStep, getElem?_cancelled_self hc, hc]
      cases state with
      | starting => cases hcom
      | _ => rfl
    · simp only [State.clientStep, getElem?_cancelled hdc]
      cases hd : s.calls[d]? with
      | none => rfl
      | some call' =>
        obtain ⟨i, input, state⟩ := call'
        cases state with
        | starting =>
          simp only [Option.map_some, ← cancelled_setCall hdc]
          rfl
        | _ => rfl
  | send d =>
    by_cases hdc : d = c
    · subst hdc
      obtain ⟨i, input, state⟩ := call
      simp only [State.clientStep, getElem?_cancelled_self hc, hc]
      cases state with
      | sending => cases hcom
      | _ => rfl
    · simp only [State.clientStep, getElem?_cancelled hdc]
      cases hd : s.calls[d]? with
      | none => rfl
      | some call' =>
        obtain ⟨i, input, state⟩ := call'
        cases state with
        | sending cmd =>
          by_cases hg : s.batcher.gone = true
          · have hg' : (s.cancelled c).batcher.gone = true := hg
            simp only [if_pos hg, if_pos hg', Option.map_some, cancelled_setCall hdc]
          · have hg' : ¬ (s.cancelled c).batcher.gone = true := hg
            simp only [if_neg hg, if_neg hg', Option.map_some, ← cancelled_setCall hdc]
            rfl
        | _ => rfl
  | receive d =>
    have hdc : d ≠ c := by simpa [Action.awaits] using hb
    have hlog : (s.cancelled c).log = s.log := rfl
    simp only [State.clientStep, getElem?_cancelled hdc, hlog]
    cases hd : s.calls[d]? with
    | none => rfl
    | some call' =>
      obtain ⟨i, input, state⟩ := call'
      cases state with
      | waiting =>
        cases hf : (fates s.log).lookup d with
        | none => rfl
        | some fate => simp only [Option.map_some, cancelled_setCall hdc]
      | _ => rfl
  | cancel d =>
    have hdc : d ≠ c := by simpa [Action.awaits] using hb
    simp only [State.clientStep, getElem?_cancelled hdc]
    cases hd : s.calls[d]? with
    | none => rfl
    | some call' =>
      by_cases hr : call'.state.running = true
      · simp only [if_pos hr, Option.map_some, cancelled_setCall hdc]
      · simp only [if_neg hr, Option.map_none]
  | shutdown i =>
    have hu : (s.cancelled c).unused i = s.unused i :=
      unused_cancelled hc fun hi => hh (by rw [hi])
    by_cases hi : s.handles[i]? = some true ∧ s.unused i
    · simp only [State.clientStep, hu, if_pos hi, Option.map_some]
      exact if_pos hi
    · simp only [State.clientStep, hu, if_neg hi, Option.map_none]
      exact if_neg hi

lemma batcherStep_cancelled (b : BatcherTaskAction) :
    (s.cancelled c).batcherStep S b = (s.batcherStep S b).map fun t => t.cancelled c := by
  cases b with
  | recv =>
    cases hq : s.commandQueue with
    | nil => simp [State.batcherStep, State.cancelled, hq]
    | cons cmd rest =>
      simp [State.batcherStep, State.cancelled, hq, Function.comp_def]
  | closed =>
    by_cases hq : s.commandQueue.isEmpty ∧ s.handles.all (!·)
    · simp only [State.batcherStep, if_pos hq, Option.map_map]
      exact if_pos hq
    · simp only [State.batcherStep, if_neg hq, Option.map_none]
      exact if_neg hq
  | dispatch =>
    simp only [State.batcherStep, Option.map_map]
    rfl
  | reply =>
    cases hr : s.replies.lookup s.batcher.round with
    | none => simp [State.batcherStep, State.cancelled, hr]
    | some r => simp [State.batcherStep, State.cancelled, hr, Function.comp_def]
  | turn t =>
    simp only [State.batcherStep, Option.map_map]
    rfl

/-- **A step without the caller is the step with it**, unless the caller takes it, or it needs the
handle. -/
theorem step_cancelled (hc : s.calls[c]? = some call) (hcom : call.state.committed = true)
    (ha : a.awaits c = false)
    (hh : a = .client (.shutdown call.handle) → call.state.running = false) :
    (server S).step (s.cancelled c) a = ((server S).step s a).map fun t => t.cancelled c := by
  cases a with
  | client b => exact clientStep_cancelled hc hcom ha fun hb => hh (by rw [hb])
  | batcher b => exact batcherStep_cancelled b
  | worker w b =>
    show (s.cancelled c).workerStep S w b = (s.workerStep S w b).map fun t => t.cancelled c
    cases hw : s.workers[w]? with
    | none => simp [State.workerStep, State.cancelled, hw]
    | some t => simp [State.workerStep, State.cancelled, hw, Function.comp_def]
  | discard =>
    show (s.cancelled c).discardStep = s.discardStep.map fun t => t.cancelled c
    cases hq : s.commandQueue with
    | nil => simp [State.discardStep, State.cancelled, hq]
    | cons cmd rest =>
      by_cases hg : s.batcher.gone = true
      · simp [State.discardStep, State.cancelled, hq, hg]
      · simp [State.discardStep, State.cancelled, hq, hg]

/-! ### Whole runs -/

/-- What the caller itself does then does not show. -/
lemma ClientMove.cancelled_eq {b : ClientAction I} (h : ClientMove S s b s')
    (hb : (Action.client b).awaits c = true) : s'.cancelled c = s.cancelled c := by
  cases h with
  | receive d call fate hd =>
    obtain rfl : d = c := by simpa [Action.awaits] using hb
    exact cancelled_setCall_self hd
  | cancel d call hd =>
    obtain rfl : d = c := by simpa [Action.awaits] using hb
    exact cancelled_setCall_self hd
  | _ => cases hb

lemma step_cancelled_of_step (h : (server S).step s a = some s') (hs : s.Committed c) :
    (Option.guard (fun a => !a.awaits c) a = none ∧ s'.cancelled c = s.cancelled c) ∨
      ∃ b, Option.guard (fun a => !a.awaits c) a = some b ∧
        (server S).step (s.cancelled c) b = some (s'.cancelled c) := by
  obtain ⟨call, hc, hcom⟩ := hs
  cases ha : a.awaits c with
  | true =>
    refine .inl ⟨by simp [Option.guard, ha], ?_⟩
    cases server_step h with
    | client b _ hm => exact hm.cancelled_eq ha
    | _ => cases ha
  | false =>
    refine .inr ⟨a, by simp [Option.guard, ha], ?_⟩
    rw [step_cancelled hc hcom ha, h]
    · rfl
    · rintro rfl
      cases server_step h with
      | client _ _ hm =>
        cases hm with
        | shutdown _ hh hu => exact hu call (List.mem_of_getElem? hc) rfl

/-- Nor can it do anything once it is gone. -/
lemma awaits_of_cancelled {u : State I P O F} (hc : s.calls[c]? = some call)
    (h : (server S).step (s.cancelled c) a = some u) : a.awaits c = false := by
  have hgone := getElem?_cancelled_self hc
  cases ha : a.awaits c with
  | false => rfl
  | true =>
    cases server_step h with
    | client b _ hm =>
      cases hm with
      | receive d call' fate hd hst =>
        obtain rfl : d = c := by simpa [Action.awaits] using ha
        obtain rfl := Option.some.inj (hgone.symm.trans hd)
        cases hst
      | cancel d call' hd hst =>
        obtain rfl : d = c := by simpa [Action.awaits] using ha
        obtain rfl := Option.some.inj (hgone.symm.trans hd)
        cases hst
      | _ => cases ha
    | _ => cases ha

/-- **Nobody can tell that a caller went away.**  Let the future of a call be dropped while it waits
for its response.  Each run from before is a run from there, less what the caller did in it; and each
run from there that does not shut the handle down is a run from before.  The states on the way agree in
everything but this call. -/
theorem cancellation_invisible (hc : s.calls[c]? = some call) (hw : call.state = .waiting)
    (h : (server S).step s (.client (.cancel c)) = some s') :
    (∀ as t, (server S).run s as = some t →
      (server S).run s' (as.filter fun a => !a.awaits c) = some (t.cancelled c)) ∧
    ∀ as u, .client (.shutdown call.handle) ∉ as → (server S).run s' as = some u →
      ∃ t, (server S).run s as = some t ∧ t.cancelled c = u := by
  have hcom : call.state.committed = true := by rw [hw]; rfl
  obtain rfl : s' = s.cancelled c := by
    cases server_step h with
    | client _ _ hm =>
      cases hm with
      | cancel _ call' hc' => exact setCall_cancelled hc'
  refine ⟨?_, ?_⟩
  · intro as t hrun
    rw [← List.filterMap_eq_filter]
    exact Machine.run_filterMap (P := fun u => u.Committed c)
      (fun u a v hu hst => (server_step hst).committed hu)
      (fun u a v hu hst => step_cancelled_of_step hst hu) ⟨call, hc, hcom⟩ hrun
  · intro as u hnot hrun
    refine Machine.run_lift (P := fun u => u.calls[c]? = some call)
      (Q := fun a => a ≠ .client (.shutdown call.handle)) ?_ hc ?_ hrun
    · intro v a w hv hne hst
      have ha := awaits_of_cancelled hv hst
      rw [step_cancelled hv hcom ha fun he => absurd he hne] at hst
      obtain ⟨v', hst', rfl⟩ := Option.map_eq_some_iff.1 hst
      exact ⟨v', hst', (server_step hst').call_eq hv hcom ha, rfl⟩
    · rintro _ ha rfl
      exact hnot ha

/-- The caller of `7` goes away while both calls of the sample wait, and the other gets its answer. -/
theorem cancellation_invisible_sample : ∃ s s' t : State ℕ ℕ ℕ ℕ,
    (server sample).run (.start sample) (sampleRun.take 8) = some s ∧
    (server sample).step s (.client (.cancel 0)) = some s' ∧
    (server sample).run s (sampleRun.drop 8) = some t ∧
    (server sample).run s' ((sampleRun.drop 8).filter fun a => !a.awaits 0) = some (t.cancelled 0) ∧
    (t.cancelled 0).calls =
      [⟨0, 7, .cancelled⟩, ⟨0, 0, .returned (.error .preprocessingFailed)⟩] := by
  obtain ⟨s, s', t, call, h₁, h₂, h₃, hc, hw, hcalls⟩ : ∃ (s s' t : State ℕ ℕ ℕ ℕ) (call : Call ℕ ℕ ℕ),
      (server sample).run (.start sample) (sampleRun.take 8) = some s ∧
        (server sample).step s (.client (.cancel 0)) = some s' ∧
        (server sample).run s (sampleRun.drop 8) = some t ∧
        s.calls[0]? = some call ∧ call.state = .waiting ∧
        (t.cancelled 0).calls =
          [⟨0, 7, .cancelled⟩, ⟨0, 0, .returned (.error .preprocessingFailed)⟩] :=
    ⟨_, _, _, _, rfl, rfl, rfl, rfl, rfl, rfl⟩
  exact ⟨s, s', t, h₁, h₂, h₃, (cancellation_invisible hc hw h₂).1 _ t h₃, hcalls⟩

end OrtSuperserve
