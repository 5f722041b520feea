import OrtSuperserve.Lib.Simulation

/-!
# A service that answers requests in batches

The specification of a service that takes the requests submitted to it in batches, one batch at a
time: it takes a batch off the front of the queue once everything taken before is answered, and then
answers the requests of the batch in any order.  Which answers a request may get depends on the batch
it is in (`Rules.answer`) and on whether the service is degraded; a service that crashes takes nothing
any more, and loses the requests it has not answered.

The state is the history.  `machine_ordered` is what all runs have in common: the batches are cut off
the stream of requests in order, no request is answered twice, each answer is one that the batch of the
request allows, and no answer overtakes one of an earlier batch.
-/

namespace OrtSuperserve.Lib.BatchQueue

universe u v w

variable {ρ : Type u} {κ : Type v} {ω : Type w}

/-! ### The service -/

structure Rules (ρ : Type u) (κ : Type v) (ω : Type w) where
  key : ρ → κ
  maxSize : ℕ
  /-- The answers a key may get from a batch, by its index, for a service that is degraded or not. -/
  answer : Bool → ℕ → List ρ → κ → ω → Prop
  mono : ∀ {i b k a}, answer false i b k a → answer true i b k a
  lost : ω

structure Service (ρ : Type u) (κ : Type v) (ω : Type w) where
  submitted : List ρ
  taken : List (List ρ)
  answers : List (κ × ω)
  degraded : Bool
  crashed : Bool

inductive Action (ρ : Type u) (κ : Type v) (ω : Type w) where
  | submit (r : ρ)
  | take (n : ℕ)
  | answer (k : κ) (a : ω)
  | degrade
  | crash
  | lose (k : κ)

namespace Service

variable (s : Service ρ κ ω)

def answered : List κ := s.answers.map Prod.fst

/-- The requests no batch has taken. -/
def waiting : List ρ := s.submitted.drop s.taken.flatten.length

/-- The batch in hand, or the one answered last. -/
def batch : List ρ := s.taken.getLastD []

variable (R : Rules ρ κ ω)

/-- All requests taken are answered. -/
def Settled : Prop := ∀ r ∈ s.taken.flatten, R.key r ∈ s.answered

/-- The guard of each action. -/
def Allows : Action ρ κ ω → Prop
  | .submit r => s.crashed = false ∧ R.key r ∉ s.submitted.map R.key
  | .take n =>
    s.crashed = false ∧ s.Settled R ∧ 1 ≤ n ∧ n ≤ R.maxSize ∧ n ≤ s.waiting.length
  | .answer k a =>
    s.crashed = false ∧ k ∈ s.batch.map R.key ∧ k ∉ s.answered ∧
      R.answer s.degraded (s.taken.length - 1) s.batch k a
  | .degrade => True
  | .crash => True
  | .lose k => s.crashed = true ∧ k ∈ s.submitted.map R.key ∧ k ∉ s.answered

def next : Action ρ κ ω → Service ρ κ ω
  | .submit r => { s with submitted := s.submitted ++ [r] }
  | .take n => { s with taken := s.taken ++ [s.waiting.take n] }
  | .answer k a => { s with answers := s.answers ++ [(k, a)] }
  | .degrade => { s with degraded := true }
  | .crash => { s with crashed := true }
  | .lose k => { s with answers := s.answers ++ [(k, R.lost)] }

end Service

open scoped Classical in
/-- **The batching service.** -/
noncomputable def machine (R : Rules ρ κ ω) : Machine (Service ρ κ ω) (Action ρ κ ω) where
  start := ⟨[], [], [], false, false⟩
  step s a := if s.Allows R a then some (s.next R a) else none

variable {R : Rules ρ κ ω} {s t : Service ρ κ ω} {a : Action ρ κ ω}

lemma step_iff : (machine R).step s a = some t ↔ s.Allows R a ∧ t = s.next R a := by
  unfold machine
  simp only
  split <;> simp_all [eq_comm]

lemma reaches_of_allows (h : s.Allows R a) : (machine R).Reaches s (s.next R a) :=
  Machine.Reaches.single (step_iff.2 ⟨h, rfl⟩)

/-! ### Several answers in a row -/

/-- Different requests of the batch in hand can be answered one after the other. -/
lemma reaches_answers {l : List (κ × ω)} (hc : s.crashed = false)
    (hk : ∀ x ∈ l, x.1 ∈ s.batch.map R.key)
    (ha : ∀ x ∈ l, R.answer s.degraded (s.taken.length - 1) s.batch x.1 x.2)
    (hnd : (s.answered ++ l.map Prod.fst).Nodup) :
    (machine R).Reaches s { s with answers := s.answers ++ l } := by
  induction l generalizing s with
  | nil =>
    rw [List.append_nil]
    exact Machine.Reaches.refl s
  | cons x l ih =>
    have hnot : x.1 ∉ s.answered := by
      intro hx
      exact (List.nodup_append'.1 hnd).2.2 hx (by simp)
    have hallows : s.Allows R (.answer x.1 x.2) :=
      ⟨hc, hk x (by simp), hnot, ha x (by simp)⟩
    have hstep := reaches_of_allows hallows
    refine hstep.trans ?_
    have hrest := ih (s := s.next R (.answer x.1 x.2)) hc
      (fun y hy => hk y (List.mem_cons_of_mem _ hy)) (fun y hy => ha y (List.mem_cons_of_mem _ hy)) ?_
    · simpa [Service.next] using hrest
    · simpa [Service.answered, Service.next] using hnd

/-- A service that has crashed can lose different requests one after the other. -/
lemma reaches_lost {l : List κ} (hc : s.crashed = true) (hk : ∀ k ∈ l, k ∈ s.submitted.map R.key)
    (hnd : (s.answered ++ l).Nodup) :
    (machine R).Reaches s { s with answers := s.answers ++ l.map fun k => (k, R.lost) } := by
  induction l generalizing s with
  | nil =>
    rw [List.map_nil, List.append_nil]
    exact Machine.Reaches.refl s
  | cons k l ih =>
    have hnot : k ∉ s.answered := fun hx => (List.nodup_append'.1 hnd).2.2 hx (by simp)
    have hallows : s.Allows R (.lose k) := ⟨hc, hk k (by simp), hnot⟩
    refine (reaches_of_allows hallows).trans ?_
    have hrest := ih (s := s.next R (.lose k)) hc (fun y hy => hk y (List.mem_cons_of_mem _ hy)) ?_
    · simpa [Service.next] using hrest
    · simpa [Service.answered, Service.next] using hnd

/-! ### What all runs have in common -/

/-- `x` comes before `y` in the list. -/
def Before {γ : Type*} (l : List γ) (x y : γ) : Prop := ∃ l₁ l₂, l = l₁ ++ y :: l₂ ∧ x ∈ l₁

lemma Before.append {γ : Type*} {l : List γ} {x y : γ} (h : Before l x y) (m : List γ) :
    Before (l ++ m) x y := by
  obtain ⟨l₁, l₂, rfl, hx⟩ := h
  exact ⟨l₁, l₂ ++ m, by simp, hx⟩

lemma before_concat {γ : Type*} {l : List γ} {x : γ} (h : x ∈ l) (y : γ) : Before (l ++ [y]) x y :=
  ⟨l, [], rfl, h⟩

structure Ordered (R : Rules ρ κ ω) (s : Service ρ κ ω) : Prop where
  unique : (s.submitted.map R.key).Nodup
  stream : s.taken.flatten <+: s.submitted
  sizes : ∀ b ∈ s.taken, 1 ≤ b.length ∧ b.length ≤ R.maxSize
  submitted : ∀ k ∈ s.answered, k ∈ s.submitted.map R.key
  nodup : s.answered.Nodup
  allowed : ∀ x ∈ s.answers, (∃ i b, s.taken[i]? = some b ∧ x.1 ∈ b.map R.key ∧
    R.answer s.degraded i b x.1 x.2) ∨ s.crashed = true ∧ x.2 = R.lost
  earlier : ∀ (i : ℕ) (b : List ρ), s.taken[i]? = some b → i + 1 < s.taken.length →
    ∀ r ∈ b, R.key r ∈ s.answered
  order : s.crashed = false → ∀ (i j : ℕ) (b c : List ρ), i < j → s.taken[i]? = some b →
    s.taken[j]? = some c → ∀ r ∈ b, ∀ r' ∈ c, R.key r' ∈ s.answered →
    Before s.answered (R.key r) (R.key r')

lemma getElem?_batch (h : s.taken ≠ []) : s.taken[s.taken.length - 1]? = some s.batch := by
  rw [Service.batch, List.getLastD_eq_getLast?, List.getLast?_eq_getElem?,
    List.getElem?_eq_getElem (by have := List.length_pos_iff.2 h; omega), Option.getD_some]

/-- Requests taken are submitted, each at one index. -/
lemma Ordered.key_mem (h : Ordered R s) {i : ℕ} {b : List ρ} (hb : s.taken[i]? = some b) {r : ρ}
    (hr : r ∈ b) : r ∈ s.submitted :=
  h.stream.subset (List.mem_flatten.2 ⟨b, List.mem_of_getElem? hb, hr⟩)

lemma ordered_start : Ordered R (machine R).start := by
  refine ⟨?_, ?_, ?_, ?_, ?_, ?_, ?_, ?_⟩ <;> simp [machine, Service.answered]

lemma Ordered.submit (h : Ordered R s) {r : ρ} (hr : R.key r ∉ s.submitted.map R.key) :
    Ordered R (s.next R (.submit r)) := by
  refine ⟨?_, ?_, h.sizes, ?_, h.nodup, h.allowed, h.earlier, h.order⟩
  · have := h.unique
    simpa [Service.next, List.nodup_append, this] using hr
  · exact h.stream.trans (List.prefix_append _ _)
  · intro k hk
    have := h.submitted k hk
    simp only [Service.next, List.map_append]
    exact List.mem_append_left _ this

/-- A service that has not crashed has answered none of the requests that wait. -/
lemma Ordered.not_waiting (h : Ordered R s) (hc : s.crashed = false) {r : ρ} (hr : r ∈ s.waiting) :
    R.key r ∉ s.answered := by
  intro hk
  obtain ⟨x, hx, hxk⟩ := List.mem_map.1 hk
  rcases h.allowed x hx with ⟨i, b, hb, hmem, -⟩ | ⟨hcr, -⟩
  · obtain ⟨r', hr', hk'⟩ := List.mem_map.1 hmem
    have hmem' : r' ∈ s.taken.flatten := List.mem_flatten.2 ⟨b, List.mem_of_getElem? hb, hr'⟩
    have hsplit : s.taken.flatten ++ s.waiting = s.submitted := by
      obtain ⟨rest, hrest⟩ := h.stream
      rw [Service.waiting, ← hrest, List.drop_left]
    have hnd := h.unique
    rw [← hsplit, List.map_append, List.nodup_append'] at hnd
    have hin := List.mem_map_of_mem (f := R.key) hmem'
    rw [hk', hxk] at hin
    exact hnd.2.2 hin (List.mem_map_of_mem hr)
  · rw [hc] at hcr
    cases hcr

lemma Ordered.take (h : Ordered R s) {n : ℕ} (hc : s.crashed = false) (hset : s.Settled R)
    (hpos : 1 ≤ n) (hmax : n ≤ R.maxSize) (hn : n ≤ s.waiting.length) :
    Ordered R (s.next R (.take n)) := by
  have hlen : (s.waiting.take n).length = n := by rw [List.length_take]; omega
  have hold : ∀ {i : ℕ} {b : List ρ}, i < s.taken.length →
      (s.taken ++ [s.waiting.take n])[i]? = some b → s.taken[i]? = some b := by
    intro i b hi hb
    rwa [List.getElem?_append_left hi] at hb
  have hanswered : ∀ {i : ℕ} {b : List ρ}, s.taken[i]? = some b → ∀ r ∈ b, R.key r ∈ s.answered := by
    intro i b hb r hr
    exact hset r (List.mem_flatten.2 ⟨b, List.mem_of_getElem? hb, hr⟩)
  refine ⟨h.unique, ?_, ?_, h.submitted, h.nodup, ?_, ?_, ?_⟩
  · obtain ⟨rest, hrest⟩ := h.stream
    have hw : s.waiting = rest := by rw [Service.waiting, ← hrest, List.drop_left]
    have hflat : (s.next R (.take n)).taken.flatten = s.taken.flatten ++ rest.take n := by
      simp [Service.next, hw]
    rw [hflat]
    refine ⟨rest.drop n, ?_⟩
    rw [List.append_assoc, List.take_append_drop]
    exact hrest
  · intro b hb
    rcases List.mem_append.1 hb with hb | hb
    · exact h.sizes b hb
    · rw [List.mem_singleton.1 hb, hlen]
      exact ⟨hpos, hmax⟩
  · intro x hx
    rcases h.allowed x hx with ⟨i, b, hb, hmem, ha⟩ | hlost
    · refine .inl ⟨i, b, ?_, hmem, ha⟩
      rw [Service.next, List.getElem?_append_left (List.getElem?_eq_some_iff.1 hb).1]
      exact hb
    · exact .inr hlost
  · intro i b hb hi
    simp only [Service.next, List.length_append, List.length_singleton] at hi
    exact hanswered (hold (by omega) hb)
  · intro _ i j b c hij hb hcj r hr r' hr' hk
    have hj := (List.getElem?_eq_some_iff.1 hcj).1
    simp only [Service.next, List.length_append, List.length_singleton] at hj
    rcases Nat.lt_or_ge j s.taken.length with hlt | hge
    · exact h.order hc i j b c hij (hold (by omega) hb) (hold hlt hcj) r hr r' hr' hk
    · -- nothing in the new batch is answered
      have hnew : c = s.waiting.take n := by
        obtain rfl : j = s.taken.length := by omega
        simpa [Service.next] using hcj.symm
      rw [hnew] at hr'
      exact absurd hk (h.not_waiting hc (List.mem_of_mem_take hr'))

lemma Ordered.answer (h : Ordered R s) {k : κ} {a : ω} (hk : k ∈ s.batch.map R.key)
    (hnot : k ∉ s.answered) (ha : R.answer s.degraded (s.taken.length - 1) s.batch k a) :
    Ordered R (s.next R (.answer k a)) := by
  have hkeys : (s.next R (.answer k a)).answered = s.answered ++ [k] := by
    simp [Service.answered, Service.next]
  have hne : s.taken ≠ [] := by
    intro hnil
    simp [Service.batch, hnil] at hk
  have hbatch := getElem?_batch hne
  obtain ⟨r₀, hr₀, hk₀⟩ := List.mem_map.1 hk
  refine ⟨h.unique, h.stream, h.sizes, ?_, ?_, ?_, ?_, ?_⟩
  · intro k' hk'
    rw [hkeys, List.mem_append, List.mem_singleton] at hk'
    rcases hk' with hk' | rfl
    · exact h.submitted k' hk'
    · exact hk₀ ▸ List.mem_map_of_mem (h.key_mem hbatch hr₀)
  · rw [hkeys]
    exact List.nodup_append'.2 ⟨h.nodup, List.nodup_singleton k, by simpa using hnot⟩
  · intro x hx
    rcases List.mem_append.1 hx with hx | hx
    · exact h.allowed x hx
    · obtain rfl := List.mem_singleton.1 hx
      exact .inl ⟨_, _, hbatch, hk, ha⟩
  · intro i b hb hi r hr
    rw [hkeys]
    exact List.mem_append_left _ (h.earlier i b hb hi r hr)
  · intro hc i j b c hij hb hcj r hr r' hr' hk'
    rw [hkeys, List.mem_append, List.mem_singleton] at hk'
    rw [hkeys]
    rcases hk' with hk' | hk'
    · exact (h.order hc i j b c hij hb hcj r hr r' hr' hk').append [k]
    · -- the request just answered is in the last batch, and the earlier ones are settled
      rw [hk']
      have hj : j < s.taken.length := (List.getElem?_eq_some_iff.1 hcj).1
      exact before_concat (h.earlier i b hb (by omega) r hr) k

lemma Ordered.degrade (h : Ordered R s) : Ordered R (s.next R .degrade) := by
  refine ⟨h.unique, h.stream, h.sizes, h.submitted, h.nodup, ?_, h.earlier, h.order⟩
  intro x hx
  rcases h.allowed x hx with ⟨i, b, hb, hmem, ha⟩ | hlost
  · refine .inl ⟨i, b, hb, hmem, ?_⟩
    cases hd : s.degraded with
    | false =>
      rw [hd] at ha
      exact R.mono ha
    | true =>
      rw [hd] at ha
      exact ha
  · exact .inr hlost

lemma Ordered.crash (h : Ordered R s) : Ordered R (s.next R .crash) := by
  refine ⟨h.unique, h.stream, h.sizes, h.submitted, h.nodup, ?_, h.earlier, fun hc => by cases hc⟩
  intro x hx
  rcases h.allowed x hx with hin | ⟨-, hlost⟩
  · exact .inl hin
  · exact .inr ⟨rfl, hlost⟩

lemma Ordered.lose (h : Ordered R s) {k : κ} (hc : s.crashed = true)
    (hk : k ∈ s.submitted.map R.key) (hnot : k ∉ s.answered) : Ordered R (s.next R (.lose k)) := by
  have hkeys : (s.next R (.lose k)).answered = s.answered ++ [k] := by
    simp [Service.answered, Service.next]
  refine ⟨h.unique, h.stream, h.sizes, ?_, ?_, ?_, ?_, ?_⟩
  · intro k' hk'
    rw [hkeys, List.mem_append, List.mem_singleton] at hk'
    rcases hk' with hk' | rfl
    · exact h.submitted k' hk'
    · exact hk
  · rw [hkeys]
    exact List.nodup_append'.2 ⟨h.nodup, List.nodup_singleton k, by simpa using hnot⟩
  · intro x hx
    rcases List.mem_append.1 hx with hx | hx
    · exact h.allowed x hx
    · obtain rfl := List.mem_singleton.1 hx
      exact .inr ⟨hc, rfl⟩
  · intro i b hb hi r hr
    rw [hkeys]
    exact List.mem_append_left _ (h.earlier i b hb hi r hr)
  · intro hc'
    have hc' : s.crashed = false := hc'
    rw [hc] at hc'
    cases hc'

lemma Ordered.next (h : Ordered R s) (ha : s.Allows R a) : Ordered R (s.next R a) := by
  cases a with
  | submit r => exact h.submit ha.2
  | take n => exact h.take ha.1 ha.2.1 ha.2.2.1 ha.2.2.2.1 ha.2.2.2.2
  | answer k x => exact h.answer ha.2.1 ha.2.2.1 ha.2.2.2
  | degrade => exact h.degrade
  | crash => exact h.crash
  | lose k => exact h.lose ha.1 ha.2.1 ha.2.2

/-- **Every run of the service is ordered.** -/
theorem machine_ordered (hs : (machine R).Reachable s) : Ordered R s := by
  refine hs.invariant (P := Ordered R) ordered_start ?_
  intro u a v _ hu hst
  obtain ⟨ha, rfl⟩ := step_iff.1 hst
  exact hu.next ha

/-! ### Overtaking -/

/-- The blocks of two entries of a flattened list are in the order of the entries. -/
lemma exists_blocks_of_lt {L : List (List ρ)} {p q : ℕ} {x y : ρ} (hpq : p < q)
    (hx : L.flatten[p]? = some x) (hy : L.flatten[q]? = some y) :
    ∃ (i j : ℕ) (b c : List ρ), i ≤ j ∧ L[i]? = some b ∧ L[j]? = some c ∧ x ∈ b ∧ y ∈ c := by
  induction L generalizing p q with
  | nil => simp at hx
  | cons b L ih =>
    rw [List.flatten_cons] at hx hy
    rcases Nat.lt_or_ge p b.length with hp | hp
    · rw [List.getElem?_append_left hp] at hx
      rcases Nat.lt_or_ge q b.length with hq | hq
      · rw [List.getElem?_append_left hq] at hy
        exact ⟨0, 0, b, b, le_rfl, rfl, rfl, List.mem_of_getElem? hx, List.mem_of_getElem? hy⟩
      · rw [List.getElem?_append_right hq] at hy
        obtain ⟨c, hc, hyc⟩ := List.mem_flatten.1 (List.mem_of_getElem? hy)
        obtain ⟨j, hj⟩ := List.mem_iff_getElem?.1 hc
        exact ⟨0, j + 1, b, c, by omega, rfl, by simpa using hj, List.mem_of_getElem? hx, hyc⟩
    · rw [List.getElem?_append_right hp] at hx
      rw [List.getElem?_append_right (by omega)] at hy
      obtain ⟨i, j, b', c, hij, hb, hc, hxb, hyc⟩ := ih (by omega) hx hy
      exact ⟨i + 1, j + 1, b', c, by omega, by simpa using hb, by simpa using hc, hxb, hyc⟩

/-- **Answers overtake inside a batch only**: of two requests, if the one submitted later is answered,
then so was the other one before it, or they are in one batch. -/
theorem Ordered.overtaking (h : Ordered R s) (hc : s.crashed = false) {p q : ℕ} {x y : ρ} (hpq : p < q)
    (hx : s.submitted[p]? = some x) (hy : s.submitted[q]? = some y) (ha : R.key y ∈ s.answered) :
    Before s.answered (R.key x) (R.key y) ∨ ∃ b ∈ s.taken, x ∈ b ∧ y ∈ b := by
  obtain ⟨rest, hrest⟩ := h.stream
  have hw : s.waiting = rest := by rw [Service.waiting, ← hrest, List.drop_left]
  have hq : q < s.taken.flatten.length := by
    by_contra hge
    rw [← hrest, List.getElem?_append_right (by omega)] at hy
    exact h.not_waiting hc (hw ▸ List.mem_of_getElem? hy) ha
  rw [← hrest, List.getElem?_append_left (by omega)] at hx
  rw [← hrest, List.getElem?_append_left hq] at hy
  obtain ⟨i, j, b, c, hij, hb, hcj, hxb, hyc⟩ := exists_blocks_of_lt hpq hx hy
  rcases Nat.lt_or_eq_of_le hij with hlt | rfl
  · exact .inl (h.order hc i j b c hlt hb hcj x hxb y hyc ha)
  · obtain rfl : b = c := Option.some.inj (hb.symm.trans hcj)
    exact .inr ⟨b, List.mem_of_getElem? hb, hxb, hyc⟩

end OrtSuperserve.Lib.BatchQueue
