import DRoole.Lib.Keyed

/-!
# Hash tables with chains

A table is a chain of records for every bucket. An insertion goes to the head
of its chain, a removal unlinks the first record with the key, a change is made
in place. A sound table has every record in the bucket of its key and no key
twice; on sound tables the search reads the table as a finite map.
-/

namespace Lib

section Chain
variable {α κ : Type} [DecidableEq κ] {key : α → κ} {j k : κ}

theorem find?_eraseP_of_ne (hj : j ≠ k) (l : List α) :
    (l.eraseP (key · = k)).find? (key · = j) = l.find? (key · = j) := by
  induction l with
  | nil => rfl
  | cons x xs ih =>
    by_cases hx : key x = k
    · have hxj : key x ≠ j := fun e => hj (e.symm.trans hx)
      rw [List.eraseP_cons_of_pos (by simpa using hx), List.find?_cons_of_neg (by simpa using hxj)]
    · rw [List.eraseP_cons_of_neg (by simpa using hx), List.find?_cons, List.find?_cons, ih]

theorem find?_eraseP_self {l : List α} (hl : (l.map key).Nodup) :
    (l.eraseP (key · = k)).find? (key · = k) = none := by
  induction l with
  | nil => rfl
  | cons x xs ih =>
    rw [List.map_cons, List.nodup_cons] at hl
    by_cases hx : key x = k
    · rw [List.eraseP_cons_of_pos (by simpa using hx), List.find?_eq_none]
      intro y hy hyk
      have hyx : key y = key x := (of_decide_eq_true hyk).trans hx.symm
      exact hl.1 (hyx ▸ List.mem_map_of_mem hy)
    · rw [List.eraseP_cons_of_neg (by simpa using hx), List.find?_cons_of_neg (by simpa using hx)]
      exact ih hl.2

theorem filter_ne_eraseP (l : List α) :
    (l.eraseP (key · = k)).filter (key · ≠ k) = l.filter (key · ≠ k) := by
  induction l with
  | nil => rfl
  | cons x xs ih =>
    by_cases hx : key x = k
    · rw [List.eraseP_cons_of_pos (by simpa using hx), List.filter_cons_of_neg (by simpa using hx)]
    · rw [List.eraseP_cons_of_neg (by simpa using hx), List.filter_cons_of_pos (by simpa using hx),
        List.filter_cons_of_pos (by simpa using hx), ih]

end Chain

namespace Buckets

variable {ι κ α : Type} [DecidableEq ι] [DecidableEq κ] (hash : κ → ι) (key : α → κ)

def find (t : ι → List α) (k : κ) : Option α := (t (hash k)).find? (key · = k)

def push (t : ι → List α) (a : α) : ι → List α :=
  Function.update t (hash (key a)) (a :: t (hash (key a)))

def erase (t : ι → List α) (k : κ) : ι → List α :=
  Function.update t (hash k) ((t (hash k)).eraseP (key · = k))

def modify (f : α → α) (t : ι → List α) (k : κ) : ι → List α :=
  Function.update t (hash k) (modifyFirst (key · = k) f (t (hash k)))

/-- Every record is in the bucket of its key, and no key occurs twice. -/
structure Sound (t : ι → List α) : Prop where
  placed : ∀ i, ∀ a ∈ t i, hash (key a) = i
  nodup : ∀ i, ((t i).map key).Nodup

variable {hash key} {t : ι → List α} {f : α → α} {a : α} {j k : κ}

omit [DecidableEq ι] [DecidableEq κ] in
theorem sound_empty : Sound hash key fun _ => ([] : List α) :=
  ⟨fun _ _ ha => absurd ha List.not_mem_nil, fun _ => List.nodup_nil⟩

/-! Each operation replaces one chain. -/

omit [DecidableEq κ] in
theorem Sound.update (h : Sound hash key t) {i : ι} {l : List α}
    (hplaced : ∀ a ∈ l, hash (key a) = i) (hnodup : (l.map key).Nodup) :
    Sound hash key (Function.update t i l) := by
  refine ⟨fun i' => ?_, fun i' => ?_⟩
  · by_cases hi : i' = i
    · subst hi
      rwa [Function.update_self]
    · rw [Function.update_of_ne hi]
      exact h.placed i'
  · by_cases hi : i' = i
    · subst hi
      rwa [Function.update_self]
    · rw [Function.update_of_ne hi]
      exact h.nodup i'

theorem find_update_self (l : List α) :
    find hash key (Function.update t (hash k) l) k = l.find? (key · = k) := by
  rw [find, Function.update_self]

theorem find_update_of_find {l : List α}
    (hl : l.find? (key · = j) = (t (hash k)).find? (key · = j)) :
    find hash key (Function.update t (hash k) l) j = find hash key t j := by
  unfold find
  by_cases hj : hash j = hash k
  · rw [hj, Function.update_self, hl]
  · rw [Function.update_of_ne hj]

omit [DecidableEq κ] in
theorem filter_update {l : List α} {p : α → Bool} (hl : l.filter p = (t (hash k)).filter p)
    (i : ι) : (Function.update t (hash k) l i).filter p = (t i).filter p := by
  by_cases hi : i = hash k
  · rw [hi, Function.update_self, hl]
  · rw [Function.update_of_ne hi]

/-! ## Insertion -/

theorem Sound.push (h : Sound hash key t) (hnew : find hash key t (key a) = none) :
    Sound hash key (push hash key t a) := by
  refine h.update ?_ ?_
  · rw [List.forall_mem_cons]
    exact ⟨rfl, h.placed _⟩
  · rw [List.map_cons, List.nodup_cons]
    refine ⟨fun hmem => ?_, h.nodup _⟩
    obtain ⟨b, hb, hba⟩ := List.mem_map.1 hmem
    exact List.find?_eq_none.1 hnew b hb (decide_eq_true hba)

theorem find_push_self : find hash key (push hash key t a) (key a) = some a := by
  rw [push, find_update_self, List.find?_cons_of_pos (by simp)]

theorem find_push_of_ne (hj : j ≠ key a) :
    find hash key (push hash key t a) j = find hash key t j :=
  find_update_of_find (List.find?_cons_of_neg (by simpa using hj.symm))

theorem filter_push (a : α) (i : ι) :
    (push hash key t a i).filter (key · ≠ key a) = (t i).filter (key · ≠ key a) :=
  filter_update (List.filter_cons_of_neg (by simp)) i

theorem erase_push : erase hash key (push hash key t a) (key a) = t := by
  rw [erase, push, Function.update_self, List.eraseP_cons_of_pos (by simp),
    Function.update_idem, Function.update_eq_self]

/-! ## Removal -/

theorem Sound.erase (h : Sound hash key t) (k : κ) : Sound hash key (erase hash key t k) :=
  h.update (fun a ha => h.placed _ a (List.mem_of_mem_eraseP ha))
    ((h.nodup _).sublist (List.eraseP_sublist.map key))

theorem find_erase_self (h : Sound hash key t) : find hash key (erase hash key t k) k = none := by
  rw [Buckets.erase, find_update_self, find?_eraseP_self (h.nodup _)]

theorem find_erase_of_ne (hj : j ≠ k) :
    find hash key (erase hash key t k) j = find hash key t j :=
  find_update_of_find (find?_eraseP_of_ne hj _)

theorem filter_erase (i : ι) :
    (erase hash key t k i).filter (key · ≠ k) = (t i).filter (key · ≠ k) :=
  filter_update (filter_ne_eraseP _) i

/-! ## Change in place -/

section Modify
variable (hf : ∀ x, key (f x) = key x)
include hf

theorem Sound.modify (h : Sound hash key t) (k : κ) : Sound hash key (modify hash key f t k) := by
  have hkeys : (modifyFirst (key · = k) f (t (hash k))).map key = (t (hash k)).map key :=
    map_modifyFirst hf _ _
  refine h.update (fun a ha => ?_) (hkeys ▸ h.nodup _)
  have hmem : key a ∈ (t (hash k)).map key := hkeys ▸ List.mem_map_of_mem ha
  obtain ⟨b, hb, hba⟩ := List.mem_map.1 hmem
  rw [← hba]
  exact h.placed _ b hb

theorem find_modify_self :
    find hash key (modify hash key f t k) k = (find hash key t k).map f := by
  rw [modify, find_update_self, find?_modifyFirst hf]
  rfl

theorem find_modify_of_ne (hj : j ≠ k) :
    find hash key (modify hash key f t k) j = find hash key t j :=
  find_update_of_find (find?_modifyFirst_of_ne hf hj _)

theorem filter_modify (i : ι) :
    (modify hash key f t k i).filter (key · ≠ k) = (t i).filter (key · ≠ k) := by
  refine filter_update ?_ i
  have hp : ∀ x, decide (key (f x) = k) = decide (key x = k) := fun x => by rw [hf]
  simpa using filter_not_modifyFirst hp (t (hash k))

end Modify

/-! ## Records of which a part is the record of another table -/

section Part
variable {α' : Type} (g : α' → α) (t : ι → List α')

omit [DecidableEq ι] in
theorem find_map (k : κ) :
    find hash key (fun i => (t i).map g) k = (find hash (fun a => key (g a)) t k).map g :=
  List.find?_map ..

omit [DecidableEq κ] in
theorem push_map (a : α') :
    push hash key (fun i => (t i).map g) (g a) =
      fun i => (push hash (fun a => key (g a)) t a i).map g :=
  (Function.comp_update (List.map g) t _ (a :: t _)).symm

theorem erase_map (k : κ) :
    erase hash key (fun i => (t i).map g) k =
      fun i => (erase hash (fun a => key (g a)) t k i).map g := by
  rw [erase, List.eraseP_map]
  exact (Function.comp_update (List.map g) t _ _).symm

theorem modify_map {f' : α' → α'} (hg : ∀ a, g (f' a) = f (g a)) (k : κ) :
    modify hash key f (fun i => (t i).map g) k =
      fun i => (modify hash (fun a => key (g a)) f' t k i).map g := by
  rw [modify, modifyFirst_map hg]
  exact (Function.comp_update (List.map g) t _ _).symm

end Part

end Buckets

end Lib
