import DRoole.Lib.Keyed

/-!
# Linked chains in memory

A slot is a place that holds a pointer to a cell: the head of a bucket, or the
`next` field of a cell; `none` is the NULL pointer. A memory has a pointer for
every slot and a value for every cell that is allocated. A load, store or free at
an address that is not allocated has no result, and neither has a walk that does
not end within its fuel.

`Chain m p l` says that the walk from `p` meets the cells `l` and then NULL.
`Holds m t` says that the chains of `m` are `t` and that there is no other cell:
none is shared, none is lost.
-/

namespace Lib.Linked

inductive Slot (ι π : Type) where
  | head (i : ι)
  | next (a : π)
  deriving DecidableEq

theorem Slot.next_ne_head {ι π : Type} (a : π) (i : ι) : (.next a : Slot ι π) ≠ .head i := by
  intro e
  cases e

structure Memory (ι π α : Type) where
  link : Slot ι π → Option π
  val : π → Option α

variable {ι π α : Type} [DecidableEq ι] [DecidableEq π]

namespace Memory

/-- A head is always there, the field of a cell while the cell is allocated. -/
def valid (m : Memory ι π α) : Slot ι π → Bool
  | .head _ => true
  | .next a => (m.val a).isSome

def load (m : Memory ι π α) (pp : Slot ι π) : Option (Option π) :=
  if m.valid pp then some (m.link pp) else none

def store (m : Memory ι π α) (pp : Slot ι π) (p : Option π) : Option (Memory ι π α) :=
  if m.valid pp then some { m with link := Function.update m.link pp p } else none

def alloc (m : Memory ι π α) (a : π) (x : α) : Memory ι π α where
  link := Function.update m.link (.next a) none
  val := Function.update m.val a (some x)

def free (m : Memory ι π α) (a : π) : Option (Memory ι π α) :=
  if (m.val a).isSome then some { m with val := Function.update m.val a none } else none

def modify (m : Memory ι π α) (f : α → α) (a : π) : Option (Memory ι π α) :=
  (m.val a).map fun x => { m with val := Function.update m.val a (some (f x)) }

def find (m : Memory ι π α) (q : α → Bool) : (fuel : Nat) → Option π → Option (Option π)
  | 0, _ => none
  | _ + 1, none => some none
  | n + 1, some a => (m.val a).bind fun x =>
      if q x then some (some a) else m.find q n (m.link (.next a))

def push (m : Memory ι π α) (pp : Slot ι π) (a : π) : Option (Memory ι π α) :=
  (m.load pp).bind fun p => (m.store (.next a) p).bind fun m => m.store pp (some a)

/-- Walks from the slot `pp` to the first cell that meets `q` and takes it out of the chain. -/
def unlink (m : Memory ι π α) (q : α → Bool) :
    (fuel : Nat) → Slot ι π → Option (Memory ι π α × Option π)
  | 0, _ => none
  | n + 1, pp => (m.load pp).bind fun
    | none => some (m, none)
    | some a => (m.val a).bind fun x =>
      if q x then
        (m.store pp (m.link (.next a))).bind fun m =>
          (m.store (.next a) none).map fun m => (m, some a)
      else m.unlink q n (.next a)

theorem alloc_val_self (m : Memory ι π α) (a : π) (x : α) :
    (m.alloc a x).val a = some x := Function.update_self ..

theorem push_alloc_eq (m : Memory ι π α) (a : π) (x : α) (i : ι) :
    (m.alloc a x).push (.head i) a = some
      { link := Function.update (Function.update m.link (.next a) (m.link (.head i))) (.head i)
          (some a)
        val := Function.update m.val a (some x) } := by
  have hvalid : (m.alloc a x).valid (.next a : Slot ι π) = true := by
    rw [valid, m.alloc_val_self]
    rfl
  have hhead : (m.alloc a x).link (.head i) = m.link (.head i) :=
    Function.update_of_ne (Slot.next_ne_head a i).symm none m.link
  show ((m.alloc a x).store (.next a) ((m.alloc a x).link (.head i))).bind _ = _
  rw [store, if_pos hvalid, hhead, alloc, Function.update_idem]
  rfl

end Memory

/-! ## Chains -/

/-- From `p` the cells `l` follow one another, and then NULL. -/
def Chain (m : Memory ι π α) : Option π → List (π × α) → Prop
  | p, [] => p = none
  | p, (a, x) :: l => p = some a ∧ m.val a = some x ∧ Chain m (m.link (.next a)) l

def addrs (l : List (π × α)) : List π := l.map Prod.fst

section
omit [DecidableEq ι] [DecidableEq π]

variable {m m' : Memory ι π α} {q : α → Bool} {p : Option π} {l : List (π × α)}

theorem Chain.frame (h : Chain m p l) (hval : ∀ a ∈ addrs l, m'.val a = m.val a)
    (hlink : ∀ a ∈ addrs l, m'.link (.next a) = m.link (.next a)) : Chain m' p l := by
  induction l generalizing p with
  | nil => exact h
  | cons c l ih =>
    obtain ⟨hp, hc, hl⟩ := h
    obtain ⟨hval₁, hval⟩ := List.forall_mem_cons.1 hval
    obtain ⟨hlink₁, hlink⟩ := List.forall_mem_cons.1 hlink
    refine ⟨hp, hval₁.trans hc, ?_⟩
    rw [hlink₁]
    exact ih hl hval hlink

theorem Chain.val_eq (h : Chain m p l) {a : π} {x : α} (ha : (a, x) ∈ l) : m.val a = some x := by
  induction l generalizing p with
  | nil => cases ha
  | cons c l ih =>
    obtain ⟨-, hc, hl⟩ := h
    rcases List.mem_cons.1 ha with rfl | ha
    · exact hc
    · exact ih hl ha

theorem Chain.of_addrs {l' : List (π × α)} (h : Chain m p l) (hlink : m'.link = m.link)
    (haddrs : addrs l' = addrs l) (hval : ∀ c ∈ l', m'.val c.1 = some c.2) : Chain m' p l' := by
  induction l generalizing p l' with
  | nil =>
    obtain rfl := List.map_eq_nil_iff.1 haddrs
    exact h
  | cons c l ih =>
    obtain ⟨hp, -, hl⟩ := h
    obtain ⟨c', l', rfl, hc, haddrs⟩ := List.map_eq_cons_iff.1 haddrs
    obtain ⟨hval₁, hval⟩ := List.forall_mem_cons.1 hval
    refine ⟨hc ▸ hp, hval₁, ?_⟩
    rw [hlink, hc]
    exact ih hl haddrs hval

theorem Chain.live (h : Chain m p l) {a : π} (ha : a ∈ addrs l) : (m.val a).isSome := by
  obtain ⟨c, hc, rfl⟩ := List.mem_map.1 ha
  rw [h.val_eq hc]
  rfl

theorem Chain.find_eq (h : Chain m p l) {n : Nat} (hn : l.length < n) :
    m.find q n p = some ((l.find? (q ·.2)).map Prod.fst) := by
  induction l generalizing p n with
  | nil =>
    obtain ⟨n, rfl⟩ := Nat.exists_eq_succ_of_ne_zero (Nat.ne_zero_of_lt hn)
    obtain rfl : p = none := h
    rfl
  | cons c l ih =>
    obtain ⟨n, rfl⟩ := Nat.exists_eq_succ_of_ne_zero (Nat.ne_zero_of_lt hn)
    obtain ⟨rfl, hc, hl⟩ := h
    rw [Memory.find, hc, Option.bind_some, List.find?_cons]
    by_cases hq : q c.2 = true
    · simp only [hq, if_true, Option.map_some]
    · rw [Bool.not_eq_true] at hq
      simp only [hq, Bool.false_eq_true, if_false]
      exact ih hl (Nat.lt_of_succ_lt_succ hn)

end

/-! ## Taking a cell out -/

variable {m m' : Memory ι π α} {q : α → Bool} {l : List (π × α)}

/-- What a walk from `pp` along the cells `l` leaves when it has taken out the first cell that
meets `q`: the chain without it, and every slot outside the walk as it was. -/
structure Unlinked (q : α → Bool) (pp : Slot ι π) (l : List (π × α)) (m m' : Memory ι π α) :
    Prop where
  chain : Chain m' (m'.link pp) (l.eraseP (q ·.2))
  val : m'.val = m.val
  link : ∀ s, s ≠ pp → (∀ a ∈ addrs l, s ≠ .next a) → m'.link s = m.link s

theorem exists_unlink_first {pp : Slot ι π} {a : π} {x : α} (hvalid : m.valid pp)
    (ha : m.val a = some x) (hl : Chain m (m.link (.next a)) l) (hal : a ∉ addrs l)
    (hpp : ∀ b ∈ addrs ((a, x) :: l), pp ≠ .next b) (hq : q x = true) :
    ∃ m₁ m₂, m.store pp (m.link (.next a)) = some m₁ ∧ m₁.store (.next a) none = some m₂ ∧
      Unlinked q pp ((a, x) :: l) m m₂ := by
  have hppa : pp ≠ .next a := hpp a List.mem_cons_self
  have hvalid' : Memory.valid ⟨Function.update m.link pp (m.link (.next a)), m.val⟩
      (.next a : Slot ι π) = true := by
    rw [Memory.valid, ha]
    rfl
  refine ⟨_, _, if_pos hvalid, if_pos hvalid', ?_, rfl, fun s hs hsl => ?_⟩
  · rw [List.eraseP_cons_of_pos (by exact hq)]
    show Chain _ (Function.update (Function.update m.link pp _) (.next a) none pp) l
    rw [Function.update_of_ne hppa, Function.update_self]
    refine hl.frame (fun _ _ => rfl) fun b hb => ?_
    have hba : (.next b : Slot ι π) ≠ .next a := fun e => hal (Slot.next.inj e ▸ hb)
    show Function.update (Function.update m.link pp _) (.next a) none (.next b) = _
    rw [Function.update_of_ne hba, Function.update_of_ne (hpp b (List.mem_cons_of_mem _ hb)).symm]
  · show Function.update (Function.update m.link pp _) (.next a) none s = _
    rw [Function.update_of_ne (hsl a List.mem_cons_self), Function.update_of_ne hs]

theorem exists_unlink {pp : Slot ι π} {n : Nat} (hvalid : m.valid pp)
    (hl : Chain m (m.link pp) l) (hnodup : (addrs l).Nodup)
    (hpp : ∀ b ∈ addrs l, pp ≠ .next b) (hn : l.length < n) :
    ∃ m', m.unlink q n pp = some (m', (l.find? (q ·.2)).map Prod.fst) ∧
      Unlinked q pp l m m' := by
  have hload : m.load pp = some (m.link pp) := if_pos hvalid
  induction l generalizing pp n with
  | nil =>
    obtain ⟨n, rfl⟩ := Nat.exists_eq_succ_of_ne_zero (Nat.ne_zero_of_lt hn)
    have hnone : m.link pp = none := hl
    refine ⟨m, ?_, hl, rfl, fun _ _ _ => rfl⟩
    rw [Memory.unlink, hload, hnone]
    rfl
  | cons c l ih =>
    obtain ⟨a, x⟩ := c
    obtain ⟨n, rfl⟩ := Nat.exists_eq_succ_of_ne_zero (Nat.ne_zero_of_lt hn)
    obtain ⟨hp, hc, htail⟩ := hl
    obtain ⟨hal, hnodup⟩ := List.nodup_cons.1 hnodup
    rw [Memory.unlink, hload, hp, Option.bind_some]
    dsimp only
    rw [hc, Option.bind_some, List.find?_cons]
    by_cases hq : q x = true
    · obtain ⟨m₁, m₂, h₁, h₂, hu⟩ := exists_unlink_first hvalid hc htail hal hpp hq
      refine ⟨m₂, ?_, hu⟩
      simp only [hq, if_true, h₁, Option.bind_some, h₂, Option.map_some]
    · have hvalid' : m.valid (.next a) = true := by
        rw [Memory.valid, hc]
        rfl
      obtain ⟨m', hm', hu⟩ := ih hvalid' htail hnodup
        (fun b hb e => hal (Slot.next.inj e ▸ hb)) (Nat.lt_of_succ_lt_succ hn) (if_pos hvalid')
      have hppa : pp ≠ .next a := hpp a List.mem_cons_self
      have hkeep : m'.link pp = m.link pp :=
        hu.link pp hppa fun b hb => hpp b (List.mem_cons_of_mem _ hb)
      rw [Bool.not_eq_true] at hq
      refine ⟨m', ?_, ?_, hu.val, fun s hs hsl => ?_⟩
      · simp only [hq, Bool.false_eq_true, if_false, hm']
      · rw [List.eraseP_cons_of_neg (by simpa using hq)]
        refine ⟨hkeep.trans hp, ?_, hu.chain⟩
        rw [hu.val]
        exact hc
      · exact hu.link s (hsl a List.mem_cons_self) fun b hb => hsl b (List.mem_cons_of_mem _ hb)

theorem split_of_find? {l : List α} {c : α} (h : l.find? q = some c) (f : α → α) :
    ∃ pre post, l = pre ++ c :: post ∧ l.eraseP q = pre ++ post ∧
      modifyFirst q f l = pre ++ f c :: post := by
  induction l with
  | nil => cases h
  | cons b l ih =>
    by_cases hq : q b = true
    · rw [List.find?_cons_of_pos hq] at h
      cases h
      refine ⟨[], l, rfl, List.eraseP_cons_of_pos hq, ?_⟩
      rw [modifyFirst, if_pos hq]
      rfl
    · rw [List.find?_cons_of_neg hq] at h
      obtain ⟨pre, post, rfl, herase, hmodify⟩ := ih h
      refine ⟨b :: pre, post, rfl, ?_, ?_⟩
      · rw [List.eraseP_cons_of_neg hq, herase]
        rfl
      · rw [modifyFirst, if_neg hq, hmodify]
        rfl

/-! ## A table of chains -/

/-- The chains of `m` are `t`, no two share a cell, and every cell is in one of them. -/
structure Holds (m : Memory ι π α) (t : ι → List (π × α)) : Prop where
  chain : ∀ i, Chain m (m.link (.head i)) (t i)
  nodup : ∀ i, (addrs (t i)).Nodup
  apart : ∀ i j a, a ∈ addrs (t i) → a ∈ addrs (t j) → i = j
  covers : ∀ a, (m.val a).isSome → ∃ i, a ∈ addrs (t i)

omit [DecidableEq ι] [DecidableEq π] in
theorem holds_empty : Holds (⟨fun _ => none, fun _ => none⟩ : Memory ι π α) fun _ => [] where
  chain _ := rfl
  nodup _ := List.nodup_nil
  apart _ _ _ ha := absurd ha List.not_mem_nil
  covers _ ha := absurd ha Bool.false_ne_true

variable {t : ι → List (π × α)}

namespace Holds

omit [DecidableEq ι] [DecidableEq π] in
theorem fresh (h : Holds m t) {a : π} (ha : m.val a = none) (i : ι) : a ∉ addrs (t i) := by
  intro hmem
  have hlive := (h.chain i).live hmem
  rw [ha] at hlive
  exact Bool.false_ne_true hlive

omit [DecidableEq π] in
theorem replace (h : Holds m t) {i : ι} (hl : Chain m' (m'.link (.head i)) l)
    (hnodup : (addrs l).Nodup) (hhead : ∀ j, j ≠ i → m'.link (.head j) = m.link (.head j))
    (hothers : ∀ j, j ≠ i → ∀ a ∈ addrs (t j),
      a ∉ addrs l ∧ m'.val a = m.val a ∧ m'.link (.next a) = m.link (.next a))
    (hcovers : ∀ a, (m'.val a).isSome → a ∈ addrs l ∨ ∃ j, j ≠ i ∧ a ∈ addrs (t j)) :
    Holds m' (Function.update t i l) where
  chain j := by
    by_cases hj : j = i
    · subst hj
      rwa [Function.update_self]
    · rw [Function.update_of_ne hj, hhead j hj]
      exact (h.chain j).frame (fun a ha => (hothers j hj a ha).2.1)
        fun a ha => (hothers j hj a ha).2.2
  nodup j := by
    by_cases hj : j = i
    · subst hj
      rwa [Function.update_self]
    · rw [Function.update_of_ne hj]
      exact h.nodup j
  apart j k a haj hak := by
    by_cases hj : j = i
    · by_cases hk : k = i
      · rw [hj, hk]
      · rw [hj, Function.update_self] at haj
        rw [Function.update_of_ne hk] at hak
        exact absurd haj (hothers k hk a hak).1
    · rw [Function.update_of_ne hj] at haj
      by_cases hk : k = i
      · rw [hk, Function.update_self] at hak
        exact absurd hak (hothers j hj a haj).1
      · rw [Function.update_of_ne hk] at hak
        exact h.apart j k a haj hak
  covers a ha := by
    rcases hcovers a ha with hal | ⟨j, hj, haj⟩
    · refine ⟨i, ?_⟩
      rwa [Function.update_self]
    · refine ⟨j, ?_⟩
      rwa [Function.update_of_ne hj]

theorem alloc (h : Holds m t) {a : π} (ha : m.val a = none) (x : α) (i : ι) :
    Chain (m.alloc a x) ((m.alloc a x).link (.head i)) (t i) := by
  have hne : ∀ b ∈ addrs (t i), b ≠ a := fun b hb e => h.fresh ha i (e ▸ hb)
  refine ((h.chain i).frame (fun b hb => ?_) fun b hb => ?_)
  · exact Function.update_of_ne (hne b hb) _ _
  · exact Function.update_of_ne (fun e => hne b hb (Slot.next.inj e)) _ _

theorem free_alloc (h : Holds m t) {a : π} (ha : m.val a = none) (x : α) :
    ∃ m', (m.alloc a x).free a = some m' ∧ Holds m' t := by
  have hlive : ((m.alloc a x).val a).isSome := by
    rw [m.alloc_val_self]
    rfl
  have hval : Function.update (m.alloc a x).val a none = m.val := by
    rw [Memory.alloc, Function.update_idem, ← ha, Function.update_eq_self]
  refine ⟨_, if_pos hlive, fun i => ?_, h.nodup, h.apart, ?_⟩
  · refine (h.alloc ha x i).frame (fun b hb => ?_) fun _ _ => rfl
    refine Function.update_of_ne ?_ _ _
    rintro rfl
    exact h.fresh ha i hb
  · rw [hval]
    exact h.covers

theorem push_alloc (h : Holds m t) {a : π} (ha : m.val a = none) (x : α) (i : ι) :
    ∃ m', (m.alloc a x).push (.head i) a = some m' ∧
      Holds m' (Function.update t i ((a, x) :: t i)) := by
  refine ⟨_, m.push_alloc_eq a x i, h.replace ?_ ?_ (fun j hj => ?_) (fun j hj b hb => ?_)
    fun b hb => ?_⟩
  · refine ⟨Function.update_self .., Function.update_self .., ?_⟩
    show Chain _ (Function.update (Function.update m.link _ _) (.head i) (some a) (.next a)) (t i)
    rw [Function.update_of_ne (Slot.next_ne_head a i), Function.update_self]
    have hne : ∀ b ∈ addrs (t i), b ≠ a := fun b hb e => h.fresh ha i (e ▸ hb)
    refine (h.chain i).frame (fun b hb => Function.update_of_ne (hne b hb) _ _) fun b hb => ?_
    show Function.update (Function.update m.link _ _) (.head i) (some a) (.next b) = _
    rw [Function.update_of_ne (Slot.next_ne_head b i),
      Function.update_of_ne fun e => hne b hb (Slot.next.inj e)]
  · exact List.nodup_cons.2 ⟨h.fresh ha i, h.nodup i⟩
  · show Function.update (Function.update m.link _ _) (.head i) (some a) (.head j) = _
    rw [Function.update_of_ne fun e => hj (Slot.head.inj e),
      Function.update_of_ne (Slot.next_ne_head a j).symm]
  · have hba : b ≠ a := fun e => h.fresh ha j (e ▸ hb)
    refine ⟨fun hmem => ?_, Function.update_of_ne hba _ _, ?_⟩
    · rcases List.mem_cons.1 hmem with e | hbi
      · exact hba e
      · exact hj (h.apart j i b hb hbi)
    · show Function.update (Function.update m.link _ _) (.head i) (some a) (.next b) = _
      rw [Function.update_of_ne (Slot.next_ne_head b i),
        Function.update_of_ne fun e => hba (Slot.next.inj e)]
  · by_cases hba : b = a
    · exact .inl (hba ▸ List.mem_cons_self)
    · change (Function.update m.val a (some x) b).isSome at hb
      rw [Function.update_of_ne hba] at hb
      obtain ⟨j, hbj⟩ := h.covers b hb
      by_cases hj : j = i
      · exact .inl (List.mem_cons_of_mem _ (hj ▸ hbj))
      · exact .inr ⟨j, hj, hbj⟩

omit [DecidableEq π] in
theorem of_unlinked (h : Holds m t) {i : ι} {m₁ m₂ : Memory ι π α}
    (hu : Unlinked q (.head i) (t i) m m₁) (hlink : m₂.link = m₁.link)
    (hkeep : ∀ j, ∀ b ∈ addrs (Function.update t i ((t i).eraseP (q ·.2)) j), m₂.val b = m.val b)
    (hcovers : ∀ b, (m₂.val b).isSome →
      (m.val b).isSome ∧ (b ∈ addrs (t i) → b ∈ addrs ((t i).eraseP (q ·.2)))) :
    Holds m₂ (Function.update t i ((t i).eraseP (q ·.2))) := by
  have hsub : ∀ b ∈ addrs ((t i).eraseP (q ·.2)), b ∈ addrs (t i) :=
    fun b hb => (List.eraseP_sublist.map Prod.fst).subset hb
  refine h.replace ?_ ((h.nodup i).sublist (List.eraseP_sublist.map _)) (fun j hj => ?_)
    (fun j hj b hb => ⟨fun hbi => hj (h.apart j i b hb (hsub b hbi)), ?_, ?_⟩) fun b hb => ?_
  · rw [hlink]
    refine hu.chain.frame (fun b hb => ?_) fun b _ => by rw [hlink]
    rw [hu.val]
    refine hkeep i b ?_
    rwa [Function.update_self]
  · rw [hlink]
    exact hu.link _ (fun e => hj (Slot.head.inj e)) fun b _ => (Slot.next_ne_head b j).symm
  · refine hkeep j b ?_
    rwa [Function.update_of_ne hj]
  · rw [hlink]
    refine hu.link _ (Slot.next_ne_head b i) fun c hc e => ?_
    exact hj (h.apart j i b hb (Slot.next.inj e ▸ hc))
  · obtain ⟨hlive, herase⟩ := hcovers b hb
    obtain ⟨j, hbj⟩ := h.covers b hlive
    by_cases hj : j = i
    · exact .inl (herase (hj ▸ hbj))
    · exact .inr ⟨j, hj, hbj⟩

theorem unlink_none (h : Holds m t) {i : ι} {n : Nat} (hn : (t i).length < n)
    (hnone : (t i).find? (q ·.2) = none) :
    ∃ m', m.unlink q n (.head i) = some (m', none) ∧ Holds m' t := by
  have hvalid : m.valid (.head i) := rfl
  obtain ⟨m', hm', hu⟩ := exists_unlink (q := q) hvalid (h.chain i) (h.nodup i)
    (fun b _ => (Slot.next_ne_head b i).symm) hn
  have herase : (t i).eraseP (q ·.2) = t i :=
    List.eraseP_of_forall_not (List.find?_eq_none.1 hnone)
  have hholds := h.of_unlinked hu rfl (fun _ _ _ => by rw [hu.val])
    fun b hb => ⟨by rwa [hu.val] at hb, fun hbi => by rwa [herase]⟩
  rw [herase, Function.update_eq_self] at hholds
  rw [hnone] at hm'
  exact ⟨m', hm', hholds⟩

theorem unlink_free (h : Holds m t) {i : ι} {n : Nat} (hn : (t i).length < n) {a : π} {x : α}
    (hfind : (t i).find? (q ·.2) = some (a, x)) :
    ∃ m₁ m₂, m.unlink q n (.head i) = some (m₁, some a) ∧ m₁.free a = some m₂ ∧
      Holds m₂ (Function.update t i ((t i).eraseP (q ·.2))) := by
  have hvalid : m.valid (.head i) := rfl
  obtain ⟨m₁, hm₁, hu⟩ := exists_unlink (q := q) hvalid (h.chain i) (h.nodup i)
    (fun b _ => (Slot.next_ne_head b i).symm) hn
  rw [hfind] at hm₁
  have hmem : (a, x) ∈ t i := List.mem_of_find?_eq_some hfind
  have hlive : (m₁.val a).isSome := by
    rw [hu.val, (h.chain i).val_eq hmem]
    rfl
  obtain ⟨pre, post, hl, herase, -⟩ := split_of_find? hfind id
  have hnodup : (addrs (pre ++ (a, x) :: post)).Nodup := hl ▸ h.nodup i
  rw [addrs, List.map_append, List.map_cons, List.nodup_middle, List.nodup_cons,
    ← List.map_append, ← herase] at hnodup
  refine ⟨m₁, _, hm₁, if_pos hlive, h.of_unlinked hu rfl (fun j b hb => ?_) fun b hb => ?_⟩
  · have hba : b ≠ a := by
      rintro rfl
      by_cases hj : j = i
      · subst hj
        rw [Function.update_self] at hb
        exact hnodup.1 hb
      · rw [Function.update_of_ne hj] at hb
        exact hj (h.apart j i b hb (List.mem_map_of_mem hmem))
    show Function.update m₁.val a none b = _
    rw [Function.update_of_ne hba, hu.val]
  · change (Function.update m₁.val a none b).isSome at hb
    have hba : b ≠ a := by
      rintro rfl
      rw [Function.update_self] at hb
      exact Bool.false_ne_true hb
    rw [Function.update_of_ne hba, hu.val] at hb
    refine ⟨hb, fun hbi => ?_⟩
    rw [hl, addrs, List.map_append, List.map_cons, List.mem_append, List.mem_cons] at hbi
    rw [herase, addrs, List.map_append, List.mem_append]
    exact hbi.imp_right fun hbi => hbi.resolve_left hba

theorem modify (h : Holds m t) {i : ι} {f : α → α} {a : π} {x : α}
    (hfind : (t i).find? (q ·.2) = some (a, x)) :
    ∃ m', m.modify f a = some m' ∧
      Holds m' (Function.update t i (modifyFirst (q ·.2) (fun c => (c.1, f c.2)) (t i))) := by
  have hmem : (a, x) ∈ t i := List.mem_of_find?_eq_some hfind
  have hval : m.val a = some x := (h.chain i).val_eq hmem
  have haddrs : addrs (modifyFirst (q ·.2) (fun c => (c.1, f c.2)) (t i)) = addrs (t i) :=
    map_modifyFirst (g := Prod.fst) (f := fun c : π × α => (c.1, f c.2)) (fun _ => rfl) _ _
  obtain ⟨pre, post, hl, -, hmodify⟩ := split_of_find? hfind fun c => (c.1, f c.2)
  have hnodup : (addrs (pre ++ (a, x) :: post)).Nodup := hl ▸ h.nodup i
  rw [addrs, List.map_append, List.map_cons, List.nodup_middle, List.nodup_cons,
    ← List.map_append] at hnodup
  have hother : ∀ b, b ≠ a → Function.update m.val a (some (f x)) b = m.val b :=
    fun b hb => Function.update_of_ne hb _ _
  refine ⟨{ m with val := Function.update m.val a (some (f x)) }, ?_, h.replace ?_ ?_
    (fun _ _ => rfl) (fun j hj b hb => ⟨?_, hother b ?_, rfl⟩) fun b hb => ?_⟩
  · rw [Memory.modify, hval]
    rfl
  · refine (h.chain i).of_addrs rfl haddrs fun c hc => ?_
    rw [hmodify, List.mem_append, List.mem_cons, or_left_comm, ← List.mem_append] at hc
    rcases hc with rfl | hc
    · exact Function.update_self ..
    · have hca : c.1 ≠ a := by
        have hmem : c.1 ∈ (pre ++ post).map Prod.fst := List.mem_map_of_mem hc
        exact fun e => hnodup.1 (e ▸ hmem)
      refine (hother c.1 hca).trans ((h.chain i).val_eq ?_)
      rw [hl, List.mem_append, List.mem_cons, or_left_comm, ← List.mem_append]
      exact .inr hc
  · rw [haddrs]
    exact h.nodup i
  · rw [haddrs]
    exact fun hbi => hj (h.apart j i b hb hbi)
  · rintro rfl
    exact hj (h.apart j i b hb (List.mem_map_of_mem hmem))
  · have hlive : (m.val b).isSome := by
      by_cases hba : b = a
      · rw [hba, hval]
        rfl
      · change (Function.update m.val a (some (f x)) b).isSome at hb
        rwa [hother b hba] at hb
    obtain ⟨j, hbj⟩ := h.covers b hlive
    by_cases hj : j = i
    · rw [haddrs]
      exact .inl (hj ▸ hbj)
    · exact .inr ⟨j, hj, hbj⟩

end Holds

end Lib.Linked
