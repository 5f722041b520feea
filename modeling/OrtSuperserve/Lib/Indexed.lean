import Mathlib.Tactic
import Mathlib.Data.List.AList
import Mathlib.Algebra.BigOperators.Group.List.Basic

/-!
# Lists by index

What a list turns into when its entries travel with their indices as tags.

* `filterMap_range`: reading `f` off a list index by index is `List.filterMap f`;
* `extractAll_range`: so is emptying, in index order, any store that holds `f` of the entries under
  their indices, in whatever order the store was filled;
* `insertAll` fills a store from a list of tagged values, `lookup_insertAll_of_mem` reads it;
* `filter_zipIdx`: a second list, parallel to the first, filtered by the indices the store holds
  lines up with what was read;
* `map_some_filter_zipIdx`: a list filtered by index is the list at the indices that pass, in order;
* `length_indices`: how many indices there are of the entries that pass a test;
* `index_unique_of_nodup_flatten`: an entry of one of several lists that share none is in that one only;
* `sum_map_set`, `sum_map_modify`: what a sum over a list becomes when one entry changes;
* `foldl_last`, `foldl_append`: what a list of updates makes of a field that some of them set, or add
  to.
-/

namespace OrtSuperserve.Lib

universe u v w

variable {α : Type u} {β : Type v} {γ : Type w}

/-! ### Reading a list by its indices -/

/-- A list read through `f` index by index. -/
theorem filterMap_range (f : α → Option β) (l : List α) :
    (List.range l.length).filterMap (fun i => l[i]?.bind f) = l.filterMap f := by
  induction l with
  | nil => rfl
  | cons a l ih =>
    rw [List.length_cons, List.range_succ_eq_map, List.filterMap_cons, List.filterMap_map,
      List.filterMap_cons]
    have htail : (fun i => (a :: l)[i]?.bind f) ∘ Nat.succ = fun i => l[i]?.bind f := by
      funext i
      simp
    rw [htail, ih]
    rfl

/-- A list parallel to `l`, filtered by a test of the index that agrees with `f` on `l`. -/
theorem filter_zipIdx (f : α → Option β) (g : α → γ) (p : ℕ → Bool) :
    ∀ (l : List α) (k : ℕ), (∀ i < l.length, p (k + i) = (l[i]?.bind f).isSome) →
      ((((l.map g).zipIdx k).filter fun y => p y.2).map Prod.fst) =
        l.filterMap fun a => (f a).map fun _ => g a
  | [], _, _ => rfl
  | a :: l, k, h => by
    have hhead : p k = (f a).isSome := by simpa using h 0 (by simp)
    have htail := filter_zipIdx f g p l (k + 1) fun i hi => by
      have := h (i + 1) (by simpa using hi)
      rw [show k + 1 + i = k + (i + 1) by omega]
      simpa using this
    rw [List.map_cons, List.zipIdx_cons, List.filterMap_cons]
    cases hf : f a with
    | none =>
      rw [List.filter_cons_of_neg (by simp [hhead, hf])]
      simpa using htail
    | some b =>
      rw [List.filter_cons_of_pos (by simp [hhead, hf])]
      simpa using htail

/-- The entries whose index passes a test, by their indices. -/
theorem map_some_filter_zipIdx (p : ℕ → Bool) (l : List α) :
    ((l.zipIdx.filter fun x => p x.2).map Prod.fst).map some =
      ((List.range l.length).filter p).map fun i => l[i]? := by
  have hget : ∀ x ∈ l.zipIdx.filter (fun x => p x.2), some x.1 = l[x.2]? := by
    intro x hx
    exact (List.mk_mem_zipIdx_iff_getElem?.1 (List.mem_of_mem_filter hx)).symm
  rw [List.map_map, List.range_eq_range', ← List.zipIdx_map_snd 0 l, List.filter_map, List.map_map]
  exact List.map_congr_left hget

/-- A list of just the indices of the entries that pass a test is as long as there are such entries. -/
theorem length_indices (p : α → Bool) (l : List α) {is : List ℕ} (hnd : is.Nodup)
    (h : ∀ i, i ∈ is ↔ ∃ a, l[i]? = some a ∧ p a) : is.length = l.countP p := by
  have hperm : is.Perm (l.findIdxs p) := by
    refine (List.perm_ext_iff_of_nodup hnd List.nodup_findIdxs).2 fun i => ?_
    rw [h i, List.mem_findIdxs_iff_exists_getElem_pos]
    constructor
    · rintro ⟨a, ha, hp⟩
      obtain ⟨hlt, rfl⟩ := List.getElem?_eq_some_iff.1 ha
      exact ⟨hlt, hp⟩
    · rintro ⟨hlt, hp⟩
      exact ⟨_, List.getElem?_eq_getElem hlt, hp⟩
  rw [hperm.length_eq, List.length_findIdxs]

/-- A list of one entry at most has no other order. -/
lemma eq_of_perm_of_length_le_one {l₁ l₂ : List α} (h : l₁.Perm l₂) (hlen : l₂.length ≤ 1) :
    l₁ = l₂ := by
  rcases Nat.le_one_iff_eq_zero_or_eq_one.1 hlen with hlen | hlen
  · rw [List.length_eq_zero_iff.1 hlen] at h ⊢
    exact List.perm_nil.1 h
  · obtain ⟨x, rfl⟩ := List.length_eq_one_iff.1 hlen
    exact List.perm_singleton.1 h

/-- In lists that share no entry, an entry is in one of them. -/
lemma index_unique_of_nodup_flatten {ls : List (List α)} (h : ls.flatten.Nodup) {i j : ℕ}
    {l l' : List α} {x : α} (hi : ls[i]? = some l) (hj : ls[j]? = some l') (hx : x ∈ l)
    (hx' : x ∈ l') : i = j := by
  obtain ⟨-, hpair⟩ := List.nodup_flatten.1 h
  obtain ⟨hilt, rfl⟩ := List.getElem?_eq_some_iff.1 hi
  obtain ⟨hjlt, rfl⟩ := List.getElem?_eq_some_iff.1 hj
  rw [List.pairwise_iff_getElem] at hpair
  rcases lt_trichotomy i j with hlt | heq | hgt
  · exact absurd hx' (List.disjoint_left.1 (hpair i j hilt hjlt hlt) hx)
  · exact heq
  · exact absurd hx (List.disjoint_left.1 (hpair j i hjlt hilt hgt) hx')

/-! ### Emptying a store -/

/-- A store of values of one type under numbers. -/
abbrev Store (β : Type v) := AList fun _ : ℕ => β

/-- Remove the keys of a list one after the other, keeping the values found. -/
def extractAll : List ℕ → Store β → List β
  | [], _ => []
  | i :: is, m =>
    match m.extract i with
    | (some b, m') => b :: extractAll is m'
    | (none, m') => extractAll is m'

lemma extractAll_eq (is : List ℕ) (h : is.Nodup) (m : Store β) :
    extractAll is m = is.filterMap fun i => m.lookup i := by
  induction is generalizing m with
  | nil => rfl
  | cons i is ih =>
    obtain ⟨hi, his⟩ := List.nodup_cons.1 h
    -- removing `i` does not disturb the keys still to come
    have hrest : (is.filterMap fun j => (m.erase i).lookup j) = is.filterMap fun j => m.lookup j :=
      List.filterMap_congr fun j hj => AList.lookup_erase_ne fun e => hi (e ▸ hj)
    rw [extractAll, AList.extract_eq_lookup_erase, List.filterMap_cons]
    cases m.lookup i <;> simp [ih his, hrest]

/-- **A store emptied in index order.** -/
theorem extractAll_range (f : α → Option β) (l : List α) (m : Store β)
    (h : ∀ i, m.lookup i = l[i]?.bind f) : extractAll (List.range l.length) m = l.filterMap f := by
  rw [extractAll_eq _ List.nodup_range, ← filterMap_range f l]
  exact List.filterMap_congr fun i _ => h i

/-- Enter the pairs of a list one after the other. -/
def insertAll (l : List (ℕ × β)) (m : Store β) : Store β := l.foldl (fun m x => m.insert x.1 x.2) m

lemma lookup_insertAll_of_notMem {l : List (ℕ × β)} {m : Store β} {i : ℕ}
    (h : i ∉ l.map Prod.fst) : (insertAll l m).lookup i = m.lookup i := by
  induction l generalizing m with
  | nil => rfl
  | cons x l ih =>
    rw [List.map_cons, List.mem_cons, not_or] at h
    exact (ih h.2).trans (AList.lookup_insert_ne h.1)

lemma lookup_insertAll_of_mem {l : List (ℕ × β)} {m : Store β} {i : ℕ} {b : β}
    (hl : (l.map Prod.fst).Nodup) (h : (i, b) ∈ l) : (insertAll l m).lookup i = some b := by
  induction l generalizing m with
  | nil => cases h
  | cons x l ih =>
    obtain ⟨hx, hl⟩ := List.nodup_cons.1 hl
    rcases List.mem_cons.1 h with rfl | h
    · exact (lookup_insertAll_of_notMem hx).trans (AList.lookup_insert _)
    · exact ih hl h

/-! ### Changing one entry -/

/-- Replacing the entry at `i` trades its contribution to a sum. -/
theorem sum_map_set [AddCommMonoid γ] (f : α → γ) :
    ∀ {l : List α} {i : ℕ} {a : α} (b : α), l[i]? = some a →
      ((l.set i b).map f).sum + f a = (l.map f).sum + f b
  | x :: l, 0, a, b, h => by
    obtain rfl : x = a := by simpa using h
    simp only [List.set_cons_zero, List.map_cons, List.sum_cons]
    rw [add_right_comm, add_comm (f b), add_right_comm]
  | x :: l, i + 1, a, b, h => by
    have ih := sum_map_set f (l := l) (i := i) b (by simpa using h)
    simp only [List.set_cons_succ, List.map_cons, List.sum_cons, add_assoc, ih]

/-- Changing the entry at `i` by a function that adds `c` to its contribution adds `c` to the sum. -/
theorem sum_map_modify [AddCommMonoid γ] (f : α → γ) (g : α → α) (c : γ)
    (hg : ∀ a, f (g a) = f a + c) :
    ∀ (l : List α) (i : ℕ), i < l.length → ((l.modify i g).map f).sum = (l.map f).sum + c
  | [], i, hi => absurd hi (Nat.not_lt_zero i)
  | a :: l, 0, _ => by
    simp only [List.modify_zero_cons, List.map_cons, List.sum_cons, hg]
    exact add_right_comm _ _ _
  | a :: l, i + 1, hi => by
    have ih := sum_map_modify f g c hg l i (Nat.lt_of_succ_lt_succ hi)
    simp only [List.modify_succ_cons, List.map_cons, List.sum_cons, ih, add_assoc]

/-- What a sum of multisets over a list has. -/
lemma mem_sum_map {f : α → Multiset β} {b : β} :
    ∀ {l : List α}, b ∈ (l.map f).sum ↔ ∃ a ∈ l, b ∈ f a
  | [] => by simp
  | a :: l => by
    rw [List.map_cons, List.sum_cons, Multiset.mem_add, mem_sum_map]
    simp

/-! ### A list of updates -/

/-- The last of the values that `f` reads off a list. -/
def lastOf (f : α → Option β) (l : List α) : Option β := (l.filterMap f).getLast?

/-- **The last update wins.**  A field that each update sets, or leaves alone, has what the last update
has set. -/
theorem foldl_last {σ : Type w} {g : σ → β} {f : α → Option β} {update : σ → α → σ}
    (h : ∀ s a, g (update s a) = (f a).getD (g s)) (l : List α) (s : σ) :
    g (l.foldl update s) = (lastOf f l).getD (g s) := by
  induction l generalizing s with
  | nil => rfl
  | cons a l ih =>
    rw [List.foldl_cons, ih, h, lastOf, lastOf, List.filterMap_cons]
    cases f a with
    | none => rfl
    | some b =>
      show _ = ((b :: l.filterMap f).getLast?).getD (g s)
      rw [List.getLast?_cons]
      cases (l.filterMap f).getLast? <;> rfl

/-- A field that is empty until an update sets it. -/
theorem foldl_last_some {σ : Type w} {g : σ → Option β} {f : α → Option β} {update : σ → α → σ}
    (h : ∀ s a, g (update s a) = (f a).or (g s)) (l : List α) {s : σ} (hs : g s = none) :
    g (l.foldl update s) = lastOf f l := by
  have hset : ∀ s a, g (update s a) = ((f a).map some).getD (g s) := by
    intro s a
    rw [h]
    cases f a <;> rfl
  have hlast : lastOf (fun a => (f a).map some) l = (lastOf f l).map some := by
    rw [lastOf, lastOf, ← List.getLast?_map, List.map_filterMap]
  rw [foldl_last hset, hlast, hs]
  cases lastOf f l <;> rfl

/-- A field that each update adds to, or leaves alone, has what was added, in order. -/
theorem foldl_append {σ : Type w} {g : σ → List β} {f : α → Option β} {update : σ → α → σ}
    (h : ∀ s a, g (update s a) = g s ++ (f a).toList) (l : List α) (s : σ) :
    g (l.foldl update s) = g s ++ l.filterMap f := by
  induction l generalizing s with
  | nil => exact (List.append_nil _).symm
  | cons a l ih =>
    rw [List.foldl_cons, ih, h, List.filterMap_cons, List.append_assoc]
    cases f a <;> rfl

end OrtSuperserve.Lib
