import Mathlib

/-!
# Lists of records with a key

`modifyFirst p f` changes the first record that meets `p`, as a search loop
with a `break` does. Under unique keys that is the only record with its key.
-/

namespace Lib

variable {α β γ : Type}

def modifyFirst (p : α → Bool) (f : α → α) : List α → List α
  | [] => []
  | x :: xs => if p x then f x :: xs else x :: modifyFirst p f xs

theorem length_modifyFirst (p : α → Bool) (f : α → α) (l : List α) :
    (modifyFirst p f l).length = l.length := by
  induction l with
  | nil => rfl
  | cons x xs ih =>
    unfold modifyFirst
    split
    · rfl
    · rw [List.length_cons, List.length_cons, ih]

theorem map_modifyFirst {g : α → β} {f : α → α} (hf : ∀ x, g (f x) = g x) (p : α → Bool)
    (l : List α) : (modifyFirst p f l).map g = l.map g := by
  induction l with
  | nil => rfl
  | cons x xs ih =>
    unfold modifyFirst
    split
    · rw [List.map_cons, List.map_cons, hf]
    · rw [List.map_cons, List.map_cons, ih]

theorem modifyFirst_map {g : β → α} {f : α → α} {f' : β → β} (hg : ∀ x, g (f' x) = f (g x))
    (p : α → Bool) (l : List β) :
    modifyFirst p f (l.map g) = (modifyFirst (fun x => p (g x)) f' l).map g := by
  induction l with
  | nil => rfl
  | cons x xs ih =>
    rw [List.map_cons, modifyFirst, modifyFirst]
    split
    · rw [List.map_cons, hg]
    · rw [List.map_cons, ih]

theorem filter_not_modifyFirst {p : α → Bool} {f : α → α} (hf : ∀ x, p (f x) = p x) (l : List α) :
    (modifyFirst p f l).filter (fun x => !p x) = l.filter fun x => !p x := by
  induction l with
  | nil => rfl
  | cons x xs ih =>
    unfold modifyFirst
    split
    · rename_i hp
      rw [List.filter_cons_of_neg (by simp [hf, hp]), List.filter_cons_of_neg (by simp [hp])]
    · rename_i hp
      rw [List.filter_cons_of_pos (by simp [hp]), List.filter_cons_of_pos (by simp [hp]), ih]

theorem mem_or_of_mem_modifyFirst {p : α → Bool} {f : α → α} {l : List α} {y : α}
    (hy : y ∈ modifyFirst p f l) : y ∈ l ∨ ∃ x ∈ l, p x = true ∧ y = f x := by
  induction l with
  | nil => exact .inl hy
  | cons x xs ih =>
    unfold modifyFirst at hy
    split at hy
    · rename_i hx
      rcases List.mem_cons.1 hy with rfl | hy
      · exact .inr ⟨x, List.mem_cons_self, hx, rfl⟩
      · exact .inl (List.mem_cons_of_mem _ hy)
    · rcases List.mem_cons.1 hy with rfl | hy
      · exact .inl List.mem_cons_self
      · refine (ih hy).imp (List.mem_cons_of_mem _) ?_
        rintro ⟨z, hz, hp, e⟩
        exact ⟨z, List.mem_cons_of_mem _ hz, hp, e⟩

section
variable [DecidableEq β] {key : α → β} {f : α → α} {k : β}

/-- Under unique keys the record that is changed is the only one with its key. -/
theorem filter_key_modifyFirst (hf : ∀ x, key (f x) = key x) {l : List α}
    (hl : (l.map key).Nodup) (hk : k ∈ l.map key) :
    ∃ x, key x = k ∧ (modifyFirst (key · = k) f l).filter (key · = k) = [f x] := by
  induction l with
  | nil => cases hk
  | cons x xs ih =>
    rw [List.map_cons, List.nodup_cons] at hl
    unfold modifyFirst
    split
    · rename_i hx
      have hx := of_decide_eq_true hx
      have hnone : xs.filter (key · = k) = [] :=
        List.filter_eq_nil_iff.2 fun y hy => by
          rw [decide_eq_true_eq]
          rintro rfl
          exact hl.1 (hx ▸ List.mem_map_of_mem hy)
      refine ⟨x, hx, ?_⟩
      rw [List.filter_cons_of_pos (by simp [hf, hx]), hnone]
    · rename_i hx
      have hmem : k ∈ xs.map key := by
        rw [List.map_cons, List.mem_cons] at hk
        exact hk.resolve_left fun e => hx (decide_eq_true e.symm)
      rw [List.filter_cons_of_neg (by simpa using hx)]
      exact ih hl.2 hmem

theorem find?_modifyFirst (hf : ∀ x, key (f x) = key x) (l : List α) :
    (modifyFirst (key · = k) f l).find? (key · = k) = (l.find? (key · = k)).map f := by
  induction l with
  | nil => rfl
  | cons x xs ih =>
    unfold modifyFirst
    split
    · rename_i hx
      have hx := of_decide_eq_true hx
      rw [List.find?_cons_of_pos (by simpa [hf] using hx), List.find?_cons_of_pos (by simpa using hx)]
      rfl
    · rename_i hx
      rw [List.find?_cons_of_neg (by simpa using hx), List.find?_cons_of_neg (by simpa using hx), ih]

theorem find?_modifyFirst_of_ne (hf : ∀ x, key (f x) = key x) {j : β} (hj : j ≠ k) (l : List α) :
    (modifyFirst (key · = k) f l).find? (key · = j) = l.find? (key · = j) := by
  induction l with
  | nil => rfl
  | cons x xs ih =>
    unfold modifyFirst
    split
    · rename_i hx
      have hx : key x ≠ j := fun e => hj (e.symm.trans (of_decide_eq_true hx))
      rw [List.find?_cons_of_neg (by simpa [hf] using hx), List.find?_cons_of_neg (by simpa using hx)]
    · rw [List.find?_cons, List.find?_cons, ih]

/-- Under unique keys every other record is an old one with another key. -/
theorem mem_modifyFirst {l : List α} (hl : (l.map key).Nodup) {y : α}
    (hy : y ∈ modifyFirst (key · = k) f l) :
    (y ∈ l ∧ key y ≠ k) ∨ ∃ x ∈ l, key x = k ∧ y = f x := by
  induction l with
  | nil => cases hy
  | cons x xs ih =>
    rw [List.map_cons, List.nodup_cons] at hl
    unfold modifyFirst at hy
    split at hy
    · rename_i hx
      have hx := of_decide_eq_true hx
      rcases List.mem_cons.1 hy with rfl | hy
      · exact .inr ⟨x, List.mem_cons_self, hx, rfl⟩
      · refine .inl ⟨List.mem_cons_of_mem _ hy, ?_⟩
        rintro rfl
        exact hl.1 (hx ▸ List.mem_map_of_mem hy)
    · rename_i hx
      rcases List.mem_cons.1 hy with rfl | hy
      · exact .inl ⟨List.mem_cons_self, by simpa using hx⟩
      · rcases ih hl.2 hy with ⟨hmem, hne⟩ | ⟨z, hz, hkey, e⟩
        · exact .inl ⟨List.mem_cons_of_mem _ hmem, hne⟩
        · exact .inr ⟨z, List.mem_cons_of_mem _ hz, hkey, e⟩

end

theorem getElem?_modifyFirst {p : α → Bool} {f : α → α} {l : List α} {i : Nat} {x : α}
    (hi : l[i]? = some x) (hx : p x = false) : (modifyFirst p f l)[i]? = some x := by
  induction l generalizing i with
  | nil => cases hi
  | cons y ys ih =>
    unfold modifyFirst
    cases i with
    | zero =>
      cases hi
      rw [if_neg (by rw [hx]; exact Bool.false_ne_true)]
      rfl
    | succ i =>
      split
      · exact hi
      · exact ih hi

theorem map_filter_mapIdx {image : Nat → α → β} {p : β → Bool} {q : α → Bool} {g : β → γ}
    {h : α → γ} {l : List α} (hp : ∀ i, ∀ a ∈ l, p (image i a) = q a)
    (hg : ∀ i, ∀ a ∈ l, g (image i a) = h a) :
    ((l.mapIdx image).filter p).map g = (l.filter q).map h := by
  induction l generalizing image with
  | nil => rfl
  | cons a l ih =>
    have htail := ih (fun i b hb => hp (i + 1) b (List.mem_cons_of_mem _ hb))
      fun i b hb => hg (i + 1) b (List.mem_cons_of_mem _ hb)
    rw [List.mapIdx_cons, List.filter_cons, List.filter_cons, hp 0 a List.mem_cons_self]
    split
    · rw [List.map_cons, List.map_cons, hg 0 a List.mem_cons_self, htail]
    · exact htail

end Lib
