import Safeguard.Cancellation

/-!
# What becomes of tokens

Whatever is done to a forest of tokens, a token that was cancelled is cancelled ever after, and
a token hangs from the one that it was made for or from none. A token is made after the one that
it hangs from, so going down the forest means going on to later tokens: cancelling a token never
cancels an earlier one.

## Main definitions

* `TokenForest.Has`: a token was made.
* `TokenForest.Grows`: what is never undone.
* `TokenForest.Chronological`: tokens hang from earlier ones.
* `TokenForest.retire`: a token is cancelled and let go.

## Main results

* `TokenForest.grows_root`, `TokenForest.grows_child`, `TokenForest.grows_cancel`,
  `TokenForest.grows_drop`: every operation on a forest.
* `TokenForest.mem_affected`, `TokenForest.le_of_mem_affected`: what cancelling a token cancels
  hangs below it, and so comes later.
-/

namespace Safeguard.TokenForest

variable {f f' f'' : TokenForest} {id i p : TokenId}

/-- The token was made. -/
def Has (f : TokenForest) (id : TokenId) : Prop := id < f.tokens.length

instance (f : TokenForest) (id : TokenId) : Decidable (f.Has id) :=
  inferInstanceAs (Decidable (id < f.tokens.length))

theorem isCancelled_eq_true_iff : f.isCancelled id = true ↔ ∃ t, f.tokens[id]? = some t ∧
    t.cancelled = true := by
  unfold isCancelled
  cases f.tokens[id]? <;> simp

theorem mem_children_iff : i ∈ f.children p ↔ ∃ t, f.tokens[p]? = some t ∧ i ∈ t.children := by
  unfold children
  cases f.tokens[p]? <;> simp

/-! ## What is never undone -/

/-- A token that is cancelled in the first forest is cancelled in the second, and a token of the
first forest hangs from no other token than before. A new token hangs from an earlier one. -/
structure Grows (f f' : TokenForest) : Prop where
  cancelled : ∀ id, f.isCancelled id = true → f'.isCancelled id = true
  length_le : f.tokens.length ≤ f'.tokens.length
  hangs : ∀ p id, id ∈ f'.children p → id ∈ f.children p ∨ p < id ∧ ¬ f.Has id ∧ f'.Has id

theorem Grows.refl (f : TokenForest) : Grows f f :=
  ⟨fun _ h => h, Nat.le_refl _, fun _ _ h => .inl h⟩

theorem Grows.has (h : Grows f f') (hid : f.Has id) : f'.Has id :=
  Nat.lt_of_lt_of_le hid h.length_le

theorem Grows.trans (h : Grows f f') (h' : Grows f' f'') : Grows f f'' := by
  refine ⟨fun id hid => h'.cancelled id (h.cancelled id hid),
    Nat.le_trans h.length_le h'.length_le, fun p id hid => ?_⟩
  obtain hid | ⟨hlt, hnew, hhas⟩ := h'.hangs p id hid
  · exact (h.hangs p id hid).imp_right fun ⟨hlt, hnew, hhas⟩ => ⟨hlt, hnew, h'.has hhas⟩
  · exact .inr ⟨hlt, fun hold => hnew (h.has hold), hhas⟩

/-- A token that there was hangs where it hung. -/
theorem Grows.mem_children (h : Grows f f') (hhas : f.Has id) (hid : id ∈ f'.children p) :
    id ∈ f.children p :=
  (h.hangs p id hid).resolve_right fun ⟨_, hnew, _⟩ => hnew hhas

theorem getElem?_modify (f : TokenForest) (id : TokenId) (change : Token → Token) (i : TokenId) :
    (f.modify id change).tokens[i]? =
      f.tokens[i]?.map fun t => if id = i then change t else t :=
  List.getElem?_modify change id f.tokens i

/-- A change of one token that does not take its cancellation back. -/
theorem isCancelled_modify {change : Token → Token}
    (h : ∀ t, t.cancelled = true → (change t).cancelled = true) (hi : f.isCancelled i = true) :
    (f.modify id change).isCancelled i = true := by
  obtain ⟨t, ht, hflag⟩ := isCancelled_eq_true_iff.mp hi
  refine isCancelled_eq_true_iff.mpr ⟨if id = i then change t else t, ?_, ?_⟩
  · rw [getElem?_modify, ht]
    rfl
  · split
    · exact h t hflag
    · exact hflag

/-- A change of one token that may cancel it, or take others away from it. -/
theorem grows_modify (f : TokenForest) (id : TokenId) {change : Token → Token}
    (hcancelled : ∀ t, t.cancelled = true → (change t).cancelled = true)
    (hchildren : ∀ t, (change t).children ⊆ t.children) : Grows f (f.modify id change) := by
  refine ⟨fun i => isCancelled_modify hcancelled, by simp [modify], fun p i hi => .inl ?_⟩
  obtain ⟨t', ht', hmem⟩ := mem_children_iff.mp hi
  rw [getElem?_modify] at ht'
  obtain ⟨t, ht, rfl⟩ := Option.map_eq_some_iff.mp ht'
  refine mem_children_iff.mpr ⟨t, ht, ?_⟩
  split at hmem
  · exact hchildren t hmem
  · exact hmem

/-! ## New tokens -/

/-- What hangs from a token when one more was made, from which none hangs. -/
theorem mem_children_append {t : Token} (ht : t.children = [])
    (h : i ∈ children ⟨f.tokens ++ [t]⟩ p) : i ∈ f.children p := by
  obtain ⟨t', ht', hmem⟩ := mem_children_iff.mp h
  rw [List.getElem?_append] at ht'
  split at ht'
  · exact mem_children_iff.mpr ⟨t', ht', hmem⟩
  · obtain rfl := List.mem_singleton.mp (List.mem_of_getElem? ht')
    rw [ht] at hmem
    cases hmem

theorem grows_append (f : TokenForest) {t : Token} (ht : t.children = []) :
    Grows f ⟨f.tokens ++ [t]⟩ := by
  refine ⟨fun i hi => ?_, by simp, fun p i hi => .inl (mem_children_append ht hi)⟩
  obtain ⟨t, ht, hflag⟩ := isCancelled_eq_true_iff.mp hi
  have hlt := (List.getElem?_eq_some_iff.mp ht).1
  exact isCancelled_eq_true_iff.mpr ⟨t, (List.getElem?_append_left hlt).trans ht, hflag⟩

theorem grows_root (f : TokenForest) : Grows f f.root.1 := grows_append f rfl

section Child

variable (f : TokenForest) (parent : TokenId) (holders : Nat)

theorem child_snd : (f.child parent holders).2 = f.tokens.length := by
  unfold child
  dsimp only
  split <;> rfl

theorem length_child : (f.child parent holders).1.tokens.length = f.tokens.length + 1 := by
  unfold child
  dsimp only
  split <;> simp [modify]

/-- The new token is cancelled if the one is that it is made for. -/
theorem isCancelled_child :
    (f.child parent holders).1.isCancelled f.tokens.length = f.isCancelled parent := by
  unfold child
  dsimp only
  split
  · rename_i hparent
    rw [hparent]
    simp [isCancelled]
  · rename_i hparent
    rw [Bool.eq_false_iff.mpr hparent]
    simp [isCancelled, modify]

end Child

/-- The new token hangs from the given one or from none, and nothing else changes. -/
theorem mem_children_child {parent : TokenId} {holders : Nat}
    (h : i ∈ (f.child parent holders).1.children p) :
    i ∈ f.children p ∨ p = parent ∧ f.Has parent ∧ i = f.tokens.length := by
  unfold child at h
  dsimp only at h
  split at h
  · exact .inl (mem_children_append rfl h)
  · obtain ⟨t', ht', hmem⟩ := mem_children_iff.mp (mem_children_append rfl h)
    rw [getElem?_modify] at ht'
    obtain ⟨t, ht, rfl⟩ := Option.map_eq_some_iff.mp ht'
    split at hmem
    · rename_i hparent
      subst hparent
      refine (List.mem_append.mp hmem).imp (fun hmem => mem_children_iff.mpr ⟨t, ht, hmem⟩)
        fun hnew => ⟨rfl, (List.getElem?_eq_some_iff.mp ht).1, List.mem_singleton.mp hnew⟩
    · exact .inl (mem_children_iff.mpr ⟨t, ht, hmem⟩)

theorem grows_child (f : TokenForest) (parent : TokenId) (holders : Nat) :
    Grows f (f.child parent holders).1 := by
  refine ⟨fun i hi => ?_, by simp [length_child], fun p i hi => ?_⟩
  · unfold child
    dsimp only
    split
    · exact (grows_append f rfl).cancelled i hi
    · refine (grows_append (f.modify parent _) rfl).cancelled i ?_
      exact isCancelled_modify (fun _ h => h) hi
  · refine (mem_children_child hi).imp_right fun ⟨hp, hhas, hnew⟩ => ?_
    subst hp hnew
    exact ⟨hhas, Nat.lt_irrefl _, by simp [Has, length_child]⟩

/-! ## Cancelling -/

/-- What cancelling does with one token. -/
def mark (id : TokenId) (f : TokenForest) (i : TokenId) : TokenForest :=
  f.modify i fun t =>
    { t with cancelled := true, children := [], parent := if i = id then t.parent else none }

theorem cancel_fst (f : TokenForest) (id : TokenId) :
    (f.cancel id).1 = (f.affected id).foldl (mark id) f := rfl

theorem grows_mark (f : TokenForest) (id i : TokenId) : Grows f (f.mark id i) :=
  grows_modify f i (fun _ _ => rfl) fun _ => List.nil_subset _

theorem grows_marks (f : TokenForest) (id : TokenId) (order : List TokenId) :
    Grows f (order.foldl (mark id) f) := by
  induction order generalizing f with
  | nil => exact .refl f
  | cons i order ih => exact (grows_mark f id i).trans (ih _)

theorem grows_cancel (f : TokenForest) (id : TokenId) : Grows f (f.cancel id).1 := by
  rw [cancel_fst]
  exact grows_marks f id _

theorem isCancelled_mark (f : TokenForest) (id i j : TokenId) :
    (f.mark id i).isCancelled j = true ↔ f.isCancelled j = true ∨ i = j ∧ f.Has j := by
  unfold isCancelled mark Has
  rw [getElem?_modify]
  by_cases hj : i = j
  · subst hj
    by_cases hlt : i < f.tokens.length
    · simp [hlt]
    · simp [hlt]
  · simp [hj]

/-- What is cancelled after marking tokens. -/
theorem isCancelled_marks {order : List TokenId} :
    (order.foldl (mark id) f).isCancelled i = true ↔
      f.isCancelled i = true ∨ i ∈ order ∧ f.Has i := by
  induction order generalizing f with
  | nil => simp
  | cons j order ih =>
    have hhas : (f.mark id j).Has i ↔ f.Has i := by simp [Has, mark, modify]
    rw [List.foldl_cons, ih, isCancelled_mark, hhas, List.mem_cons]
    grind

/-- Cancelling cancels what is in the order in which watchers are told. -/
theorem isCancelled_cancel :
    (f.cancel id).1.isCancelled i = true ↔
      f.isCancelled i = true ∨ i ∈ f.affected id ∧ f.Has i := by
  rw [cancel_fst]
  exact isCancelled_marks

theorem mem_order_of_isCancelled (h : (f.cancel id).1.isCancelled i = true) :
    f.isCancelled i = true ∨ i ∈ (f.cancel id).2 :=
  (isCancelled_cancel.mp h).imp_right And.left

theorem isCancelled_cancel_self (h : f.Has id) : (f.cancel id).1.isCancelled id = true := by
  refine isCancelled_cancel.mpr ?_
  by_cases hbefore : f.isCancelled id = true
  · exact .inl hbefore
  · refine .inr ⟨?_, h⟩
    rw [affected, if_neg hbefore]
    exact List.mem_append_right _ (.head _)

/-! ### What cancelling reaches -/

theorem mem_of_mem_rotateRight {ids : List TokenId} (h : i ∈ ids.rotateRight) : i ∈ ids := by
  unfold List.rotateRight at h
  dsimp only at h
  split at h
  · exact h
  · obtain h | h := List.mem_append.mp h
    · exact List.mem_of_mem_drop h
    · exact List.mem_of_mem_take h

/-- Whatever is reached was in the queue, or hangs from something that is reached. -/
theorem mem_below {fuel : Nat} {queue : List TokenId} (h : i ∈ f.below fuel queue) :
    f.isCancelled i = false ∧ (i ∈ queue ∨ ∃ p ∈ f.below fuel queue, i ∈ f.children p) := by
  induction fuel generalizing queue with
  | zero => simp [below] at h
  | succ fuel ih =>
    cases queue with
    | nil => simp [below] at h
    | cons id queue =>
      unfold below at h ⊢
      split at h
      · rename_i hcancelled
        rw [if_pos hcancelled]
        obtain ⟨hgoing, hreached⟩ := ih h
        exact ⟨hgoing, hreached.imp_left fun hqueue => .tail _ (mem_of_mem_rotateRight hqueue)⟩
      · rename_i hgoing
        rw [if_neg hgoing]
        obtain rfl | h := List.mem_cons.mp h
        · exact ⟨Bool.eq_false_iff.mpr hgoing, .inl (.head _)⟩
        · obtain ⟨hgoing', hqueue | ⟨p, hp, hhangs⟩⟩ := ih h
          · refine ⟨hgoing', (List.mem_append.mp hqueue).imp (.tail _) fun hjoins => ?_⟩
            exact ⟨id, .head _, List.mem_reverse.mp (List.mem_filter.mp hjoins).1⟩
          · exact ⟨hgoing', .inr ⟨p, .tail _ hp, hhangs⟩⟩

/-- Cancelling a token reaches it, and what hangs from something that it reaches. -/
theorem mem_affected (h : i ∈ f.affected id) :
    f.isCancelled i = false ∧ (i = id ∨ ∃ p ∈ f.affected id, i ∈ f.children p) := by
  unfold affected at h ⊢
  split at h
  · cases h
  · rename_i hgoing
    rw [if_neg hgoing]
    obtain h | h := List.mem_append.mp h
    · obtain ⟨hgoing', hqueue | ⟨p, hp, hhangs⟩⟩ := mem_below h
      · refine ⟨hgoing', .inr ⟨id, List.mem_append_right _ (.head _), ?_⟩⟩
        exact mem_of_mem_rotateRight hqueue
      · exact ⟨hgoing', .inr ⟨p, List.mem_append_left _ hp, hhangs⟩⟩
    · obtain rfl := List.mem_singleton.mp h
      exact ⟨Bool.eq_false_iff.mpr hgoing, .inl rfl⟩

/-! ## Letting go -/

theorem grows_detach (f : TokenForest) (id : TokenId) : Grows f (f.detach id) := by
  have hsubset : ∀ ids : List TokenId, removeSwapping ids id ⊆ ids := by
    intro ids j hj
    unfold removeSwapping at hj
    split at hj
    · cases hj
    · rename_i last hlast
      have hmem := List.mem_of_getLast? hlast
      split at hj
      · exact List.dropLast_subset ids hj
      · obtain ⟨k, hk, rfl⟩ := List.mem_map.mp hj
        split
        · exact hmem
        · exact List.dropLast_subset ids hk
  unfold detach
  split
  · exact .refl f
  · have hfreed : Grows f (f.modify id fun t => { t with parent := none }) :=
      grows_modify f id (fun _ h => h) fun _ => List.Subset.refl _
    refine hfreed.trans (grows_modify _ _ ?_ fun t => hsubset t.children)
    exact fun _ h => h

theorem grows_drop (f : TokenForest) (id : TokenId) : Grows f (f.drop id) := by
  unfold drop
  split
  · exact .refl f
  · have hheld : Grows f (f.modify id fun t => { t with holders := t.holders - 1 }) :=
      grows_modify f id (fun _ h => h) fun _ => List.Subset.refl _
    dsimp only
    split
    · exact hheld
    · exact hheld.trans (grows_detach _ id)

/-- A change of one token that leaves its cancellation alone. -/
theorem isCancelled_modify_eq (f : TokenForest) (id : TokenId) {change : Token → Token}
    (h : ∀ t, (change t).cancelled = t.cancelled) :
    (f.modify id change).isCancelled i = f.isCancelled i := by
  unfold isCancelled
  rw [getElem?_modify]
  cases f.tokens[i]? with
  | none => rfl
  | some t =>
    simp only [Option.map_some, Option.elim_some]
    split
    · exact h t
    · rfl

/-- Letting a token go cancels nothing. -/
theorem isCancelled_drop (f : TokenForest) (id : TokenId) :
    (f.drop id).isCancelled i = f.isCancelled i := by
  have hdetach : ∀ f : TokenForest, (f.detach id).isCancelled i = f.isCancelled i := by
    intro f
    unfold detach
    split
    · rfl
    · refine (isCancelled_modify_eq _ _ ?_).trans (isCancelled_modify_eq f id ?_)
      · exact fun _ => rfl
      · exact fun _ => rfl
  unfold drop
  split
  · rfl
  · have hheld : (f.modify id fun t => { t with holders := t.holders - 1 }).isCancelled i =
        f.isCancelled i := isCancelled_modify_eq f id fun _ => rfl
    dsimp only
    split
    · exact hheld
    · exact (hdetach _).trans hheld

/-- A token is cancelled and let go. -/
def retire (f : TokenForest) (id : TokenId) : TokenForest := (f.cancel id).1.drop id

theorem grows_retire (f : TokenForest) (id : TokenId) : Grows f (f.retire id) :=
  (grows_cancel f id).trans (grows_drop _ id)

theorem isCancelled_retire :
    (f.retire id).isCancelled i = true ↔
      f.isCancelled i = true ∨ i ∈ f.affected id ∧ f.Has i := by
  rw [retire, isCancelled_drop, isCancelled_cancel]

theorem isCancelled_retire_self (h : f.Has id) : (f.retire id).isCancelled id = true := by
  rw [retire, isCancelled_drop]
  exact isCancelled_cancel_self h

/-! ## Earlier and later tokens -/

/-- Every token hangs from earlier ones only. -/
def Chronological (f : TokenForest) : Prop := ∀ p id, id ∈ f.children p → p < id ∧ f.Has id

theorem chronological_empty : empty.Chronological := fun p id h => by
  obtain ⟨t, ht, -⟩ := mem_children_iff.mp h
  cases ht

theorem Chronological.grows (h : f.Chronological) (hgrows : Grows f f') : f'.Chronological :=
  fun p id hid => (hgrows.hangs p id hid).elim
    (fun hold => ⟨(h p id hold).1, hgrows.has (h p id hold).2⟩)
    fun ⟨hlt, _, hhas⟩ => ⟨hlt, hhas⟩

/-- Cancelling a token does not reach earlier ones. -/
theorem le_of_mem_affected (hf : f.Chronological) (h : i ∈ f.affected id) : id ≤ i := by
  -- By induction on the token that is reached: what it hangs from came before it.
  induction i using Nat.strongRecOn with
  | ind i ih =>
    obtain ⟨-, rfl | ⟨p, hp, hhangs⟩⟩ := mem_affected h
    · exact Nat.le_refl _
    · have hlt := (hf p i hhangs).1
      exact Nat.le_trans (ih p hlt hp) (Nat.le_of_lt hlt)

end Safeguard.TokenForest
