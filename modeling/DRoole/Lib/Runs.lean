import Mathlib

/-!
# Runs

`run step s as` takes the labels `as` from `s` in order, if every one of them
is enabled. `Along step ok s as` says that every step the run takes meets the
condition `ok`. `run_induct` is the invariant rule for such runs.

`Moves move K a b` is the relational counterpart for a step that is described
and not computed: `b` is reached from `a` by labelled moves that all meet `K`.
-/

namespace Lib

section
variable {σ α : Type} (step : σ → α → Option σ)

def run : σ → List α → Option σ
  | s, [] => some s
  | s, a :: as => (step s a).bind fun s' => run s' as

/-- Every step of the run from `s` meets `ok`. -/
def Along (ok : σ → α → Prop) : σ → List α → Prop
  | _, [] => True
  | s, a :: as => ok s a ∧ ∀ s', step s a = some s' → Along ok s' as

instance decidableAlong {ok : σ → α → Prop} [∀ s a, Decidable (ok s a)] :
    (s : σ) → (as : List α) → Decidable (Along step ok s as)
  | _, [] => .isTrue trivial
  | s, a :: as =>
    match h : step s a with
    | none => decidable_of_iff (ok s a) ⟨fun hok => ⟨hok, by simp [h]⟩, fun hok => hok.1⟩
    | some t =>
      have : Decidable (Along step ok t as) := decidableAlong t as
      decidable_of_iff (ok s a ∧ Along step ok t as)
        ⟨fun hok => ⟨hok.1, fun s' hs => by cases h.symm.trans hs; exact hok.2⟩,
          fun hok => ⟨hok.1, hok.2 t h⟩⟩

variable {step}

theorem run_cons {s s' : σ} {a : α} {as : List α} :
    run step s (a :: as) = some s' ↔ ∃ t, step s a = some t ∧ run step t as = some s' := by
  simp only [run, Option.bind_eq_some_iff]

/-- **Invariant rule.** What the steps meeting `ok` preserve holds at the end
of every run whose steps all meet `ok`. -/
theorem run_induct {ok : σ → α → Prop} {P : σ → Prop}
    (hstep : ∀ s a s', P s → ok s a → step s a = some s' → P s') :
    ∀ {as : List α} {s s' : σ}, P s → Along step ok s as → run step s as = some s' → P s'
  | [], s, s', hs, _, hr => by cases hr; exact hs
  | a :: as, s, s', hs, hok, hr => by
    obtain ⟨t, ht, hr⟩ := run_cons.1 hr
    exact run_induct hstep (hstep s a t hs hok.1 ht) (hok.2 t ht) hr

theorem run_countdown {ok : σ → α → Prop} {P : Nat → σ → Prop}
    (hstep : ∀ n s a s', P (n + 1) s → ok s a → step s a = some s' → P n s') :
    ∀ {as : List α} {s s' : σ}, P as.length s → Along step ok s as → run step s as = some s' →
      P 0 s'
  | [], s, s', hs, _, hr => by cases hr; exact hs
  | a :: as, s, s', hs, hok, hr => by
    obtain ⟨t, ht, hr⟩ := run_cons.1 hr
    exact run_countdown hstep (hstep as.length s a t hs hok.1 ht) (hok.2 t ht) hr

theorem along_concat {ok : σ → α → Prop} :
    ∀ {as : List α} {a : α} {s t : σ}, Along step ok s (as ++ [a]) → run step s as = some t →
      Along step ok s as ∧ ok t a
  | [], _, _, _, hal, hr => by
    cases hr
    exact ⟨trivial, hal.1⟩
  | _ :: _, _, _, _, hal, hr => by
    obtain ⟨t', ht', hr⟩ := run_cons.1 hr
    have htail := along_concat (hal.2 t' ht') hr
    refine ⟨⟨hal.1, fun u hu => ?_⟩, htail.2⟩
    cases ht'.symm.trans hu
    exact htail.1

/-- **Exact rule.** If `ok` says which steps keep `P`, a run never leaves `P` if
and only if its steps all meet `ok`. -/
theorem forall_run_iff_along {ok : σ → α → Prop} {P : σ → Prop}
    (hexact : ∀ s a s', P s → step s a = some s' → (P s' ↔ ok s a)) :
    ∀ {as : List α} {s u : σ}, P s → run step s as = some u →
      ((∀ bs t, bs <+: as → run step s bs = some t → P t) ↔ Along step ok s as)
  | [], s, _, hs, _ => by
    refine ⟨fun _ => trivial, fun _ bs t hbs hr => ?_⟩
    rw [List.prefix_nil.1 hbs] at hr
    cases hr
    exact hs
  | a :: as, s, u, hs, hrun => by
    obtain ⟨s', ha, hu⟩ := run_cons.1 hrun
    have hone := hexact s a s' hs ha
    constructor
    · intro hall
      have hs' : P s' := hall [a] s' (List.cons_prefix_cons.2 ⟨rfl, List.nil_prefix⟩)
        (run_cons.2 ⟨s', ha, rfl⟩)
      refine ⟨hone.1 hs', fun t ht => ?_⟩
      cases ha.symm.trans ht
      refine (forall_run_iff_along hexact hs' hu).1 fun bs t hbs hr => ?_
      exact hall (a :: bs) t (List.cons_prefix_cons.2 ⟨rfl, hbs⟩) (run_cons.2 ⟨s', ha, hr⟩)
    · rintro ⟨hok, hrest⟩ bs t hbs hr
      cases bs with
      | nil =>
        cases hr
        exact hs
      | cons b bs =>
        obtain ⟨rfl, htail⟩ := List.cons_prefix_cons.1 hbs
        obtain ⟨t', ht', hr⟩ := run_cons.1 hr
        cases ha.symm.trans ht'
        exact (forall_run_iff_along hexact (hone.2 hok) hu).2 (hrest s' ha) bs t htail hr

/-- If every label is enabled everywhere, every list of labels is a run. -/
theorem exists_run (htotal : ∀ s a, ∃ s', step s a = some s') :
    ∀ (as : List α) (s : σ), ∃ u, run step s as = some u
  | [], s => ⟨s, rfl⟩
  | a :: as, s => by
    obtain ⟨s', ha⟩ := htotal s a
    obtain ⟨u, hu⟩ := exists_run htotal as s'
    exact ⟨u, run_cons.2 ⟨s', ha, hu⟩⟩

theorem forall_run_iff_along_of_total {ok : σ → α → Prop} {P : σ → Prop}
    (htotal : ∀ s a, ∃ s', step s a = some s')
    (hexact : ∀ s a s', P s → step s a = some s' → (P s' ↔ ok s a)) {as : List α} {s : σ}
    (hs : P s) : (∀ bs t, bs <+: as → run step s bs = some t → P t) ↔ Along step ok s as := by
  obtain ⟨u, hu⟩ := exists_run htotal as s
  exact forall_run_iff_along hexact hs hu

theorem along_congr {ok ok' : σ → α → Prop} {P : σ → Prop}
    (hstep : ∀ s a s', P s → step s a = some s' → P s')
    (hiff : ∀ s a, P s → (ok s a ↔ ok' s a)) :
    ∀ {as : List α} {s : σ}, P s → (Along step ok s as ↔ Along step ok' s as)
  | [], _, _ => Iff.rfl
  | a :: _, s, hs => and_congr (hiff s a hs) <| forall₂_congr fun s' ha =>
      along_congr hstep hiff (hstep s a s' hs ha)

theorem along_true {s : σ} {as : List α} : Along step (fun _ _ => True) s as := by
  induction as generalizing s with
  | nil => trivial
  | cons a as ih => exact ⟨trivial, fun _ _ => ih⟩

/-- **Simulation rule.** If related states take the same steps to related states, they take the
same runs. The relation may depend on how many steps are still to come. -/
theorem run_rel {τ : Type} {step' : τ → α → Option τ} {ok : σ → α → Prop} {R : Nat → σ → τ → Prop}
    (hstep : ∀ n s t a, R (n + 1) s t → ok s a → Option.Rel (R n) (step s a) (step' t a)) :
    ∀ {as : List α} {s : σ} {t : τ}, R as.length s t → Along step ok s as →
      Option.Rel (R 0) (run step s as) (run step' t as)
  | [], _, _, h, _ => .some h
  | a :: as, s, t, h, hok => by
    have hone := hstep as.length s t a h hok.1
    unfold run
    cases hs : step s a with
    | none =>
      rw [hs] at hone
      generalize step' t a = t' at hone
      cases hone
      exact .none
    | some s' =>
      rw [hs] at hone
      generalize step' t a = t' at hone
      cases hone with
      | some h' => exact run_rel hstep h' (hok.2 s' hs)

end

/-! ## Labelled moves -/

/-- `b` is reached from `a` by moves whose labels meet `K` where they start. -/
def Moves {σ α : Type} (move : α → σ → σ → Prop) (K : σ → α → Prop) : σ → σ → Prop :=
  Relation.ReflTransGen fun x y => ∃ l, K x l ∧ move l x y

namespace Moves

variable {σ α : Type} {move : α → σ → σ → Prop} {K L : σ → α → Prop} {a b c : σ} {l : α}

theorem refl (a : σ) : Moves move K a a := Relation.ReflTransGen.refl

theorem one (hm : move l a b) (hk : K a l) : Moves move K a b :=
  Relation.ReflTransGen.single ⟨l, hk, hm⟩

theorem trans (hab : Moves move K a b) (hbc : Moves move K b c) : Moves move K a c :=
  Relation.ReflTransGen.trans hab hbc

theorem mono (h : Moves move K a b) (hK : ∀ x l, K x l → L x l) : Moves move L a b := by
  refine Relation.ReflTransGen.mono ?_ _ _ h
  rintro x y ⟨l, hk, hm⟩
  exact ⟨l, hK x l hk, hm⟩

/-- **Invariant rule** for moves. -/
theorem invariant {P : σ → Prop} (hm : Moves move K a b) (ha : P a)
    (hstep : ∀ x y l, P x → K x l → move l x y → P y) : P b := by
  induction hm with
  | refl => exact ha
  | tail _ h ih =>
    obtain ⟨l, hk, hl⟩ := h
    exact hstep _ _ l ih hk hl

theorem restrict {P : σ → Prop} (hm : Moves move K a b) (ha : P a)
    (hstep : ∀ x y l, P x → K x l → move l x y → P y) :
    Moves move (fun x l => P x ∧ K x l) a b := by
  suffices h : Moves move (fun x l => P x ∧ K x l) a b ∧ P b from h.1
  refine hm.invariant (P := fun x => Moves move (fun x l => P x ∧ K x l) a x ∧ P x)
    ⟨refl a, ha⟩ fun x y l hx hk hl => ?_
  have hxy : Moves move (fun x l => P x ∧ K x l) x y := one hl ⟨hx.2, hk⟩
  exact ⟨hx.1.trans hxy, hstep x y l hx.2 hk hl⟩

end Moves

end Lib
