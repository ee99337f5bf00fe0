import Mathlib

/-!
# Elections in which a vote can be taken back

An abstract election protocol over numbered terms. A node votes at most once
for each other node in a term, but unlike the textbook protocol it may forget
its own vote within a term: a candidate or leader that hears of a leader of
its term yields and votes afresh (`Step.yield`). A vote reply reports some term
at most the voter's, and only a reply that reports the candidate's own term is
counted.

`Inv` is the invariant of the protocol and `Inv.step` its preservation. Two of
its fields are the results: `Inv.leader_unique` (a term has one leader, over
the whole history) and `Inv.quorum` (a leader was elected by a majority whose
positions its own position dominates).
-/

namespace Lib.Election

inductive Role where
  | follower
  | candidate
  | leader
  deriving DecidableEq

/-- One node: its term, role and vote, the position of its log, and the voters
it has counted in its own election. -/
@[ext] structure Local (ι Λ : Type) where
  term : ℕ
  role : Role
  vote : Option ι
  pos : Λ
  tally : Finset ι

/-- The messages sent so far and the history of votes and elections. -/
structure Past (ι Λ : Type) where
  /-- Vote requests: candidate, term, the candidate's position. -/
  asked : Set (ι × ℕ × Λ)
  /-- Positive replies: voter, candidate, reported term. -/
  granted : Set (ι × ι × ℕ)
  /-- Announcements of leadership: leader, term. -/
  announced : Set (ι × ℕ)
  /-- Votes cast: voter, candidate, term, the voter's position. -/
  cast : Set (ι × ι × ℕ × Λ)
  /-- Elections won: leader, term, the leader's position. -/
  led : Set (ι × ℕ × Λ)

structure State (ι Λ : Type) where
  loc : ι → Local ι Λ
  past : Past ι Λ

/-! ## Majorities -/

def Majority {ι : Type} (members Q : Finset ι) : Prop := Q ⊆ members ∧ members.card < 2 * Q.card

theorem Majority.inter {ι : Type} [DecidableEq ι] {members Q R : Finset ι}
    (hQ : Majority members Q) (hR : Majority members R) : ∃ v, v ∈ Q ∧ v ∈ R := by
  by_contra hne
  have hd : Disjoint Q R := Finset.disjoint_left.2 fun v hq hr => hne ⟨v, hq, hr⟩
  have hle := Finset.card_le_card (Finset.union_subset hQ.1 hR.1)
  rw [Finset.card_union_of_disjoint hd] at hle
  have h1 := hQ.2
  have h2 := hR.2
  omega

/-! ## The protocol -/

section Protocol

variable {ι Λ : Type} [DecidableEq ι] [Preorder Λ]

/-- The steps of the protocol. -/
inductive Step (members : Finset ι) : State ι Λ → State ι Λ → Prop where
  /-- `i` starts an election in its next term. -/
  | campaign (s : State ι Λ) (i : ι) :
    Step members s
      { loc := Function.update s.loc i
          { term := (s.loc i).term + 1, role := .candidate, vote := some i,
            pos := (s.loc i).pos, tally := {i} }
        past := { s.past with
          asked := insert (i, (s.loc i).term + 1, (s.loc i).pos) s.past.asked
          cast := insert (i, i, (s.loc i).term + 1, (s.loc i).pos) s.past.cast } }
  /-- `i` moves to a later term. -/
  | advance (s : State ι Λ) (i : ι) (t : ℕ) (ht : (s.loc i).term < t) :
    Step members s
      { s with
        loc := Function.update s.loc i
          { s.loc i with term := t, role := .follower, vote := none, tally := ∅ } }
  /-- A candidate or leader `i` hears of another leader of its term. -/
  | yield (s : State ι Λ) (i l : ι) (hl : (l, (s.loc i).term) ∈ s.past.announced) (hne : l ≠ i)
      (hrole : (s.loc i).role ≠ .follower) :
    Step members s
      { s with
        loc := Function.update s.loc i
          { s.loc i with role := .follower, vote := none, tally := ∅ } }
  /-- `v` votes for `x` and reports a term `r` at most its own. -/
  | grant (s : State ι Λ) (v x : ι) (p : Λ) (r : ℕ) (hask : (x, (s.loc v).term, p) ∈ s.past.asked)
      (hvote : (s.loc v).vote = none ∨ (s.loc v).vote = some x) (hpos : (s.loc v).pos ≤ p)
      (hr : r ≤ (s.loc v).term) (hne : x ≠ v) :
    Step members s
      { loc := Function.update s.loc v { s.loc v with vote := some x }
        past := { s.past with
          granted := insert (v, x, r) s.past.granted
          cast := insert (v, x, (s.loc v).term, (s.loc v).pos) s.past.cast } }
  /-- `x` counts a reply that reports its own term. -/
  | count (s : State ι Λ) (x v : ι) (hc : (s.loc x).role = .candidate)
      (hg : (v, x, (s.loc x).term) ∈ s.past.granted) :
    Step members s
      { s with
        loc := Function.update s.loc x
          { s.loc x with tally := insert v (s.loc x).tally } }
  /-- `x` has counted a majority. -/
  | elect (s : State ι Λ) (x : ι) (hc : (s.loc x).role = .candidate)
      (hm : Majority members (s.loc x).tally) (hx : x ∈ (s.loc x).tally) :
    Step members s
      { loc := Function.update s.loc x { s.loc x with role := .leader }
        past := { s.past with led := insert (x, (s.loc x).term, (s.loc x).pos) s.past.led } }
  /-- A leader makes itself known. -/
  | announce (s : State ι Λ) (l : ι) (hl : (s.loc l).role = .leader) :
    Step members s
      { s with
        past := { s.past with announced := insert (l, (s.loc l).term) s.past.announced } }
  /-- A leader extends its log. -/
  | append (s : State ι Λ) (l : ι) (p : Λ) (hl : (s.loc l).role = .leader) :
    Step members s { s with loc := Function.update s.loc l { s.loc l with pos := p } }
  /-- `i` loses its role and keeps its term, vote and log. -/
  | restart (s : State ι Λ) (i : ι) :
    Step members s
      { s with
        loc := Function.update s.loc i { s.loc i with role := .follower, tally := ∅ } }

end Protocol

/-! ## The invariant -/

/-- What ties one node `v`, in local state `l`, to the messages and the history. -/
structure NodeInv {ι Λ : Type} [LE Λ] (k : Past ι Λ) (v : ι) (l : Local ι Λ) : Prop where
  cast_le : ∀ x t p, (v, x, t, p) ∈ k.cast → t ≤ l.term
  /-- A node that voted for another in its present term follows and holds that vote. -/
  cast_now : ∀ x p, (v, x, l.term, p) ∈ k.cast → x ≠ v → l.role = .follower ∧ l.vote = some x
  vote_self : l.role ≠ .follower → l.vote = some v
  led_le : ∀ t p, (v, t, p) ∈ k.led → t ≤ l.term
  led_vote : ∀ p, (v, l.term, p) ∈ k.led → l.vote = some v
  asked_le : ∀ t p, (v, t, p) ∈ k.asked → t ≤ l.term
  asked_now : ∀ p, (v, l.term, p) ∈ k.asked → l.role = .candidate → p = l.pos
  tally_cast : ∀ w ∈ l.tally, l.role = .candidate → w ≠ v →
    ∃ q, (w, v, l.term, q) ∈ k.cast ∧ q ≤ l.pos
  leader_led : l.role = .leader → ∃ p, (v, l.term, p) ∈ k.led

/-- The invariant of the protocol. -/
structure Inv {ι Λ : Type} [LE Λ] (members : Finset ι) (s : State ι Λ) : Prop where
  node : ∀ v, NodeInv s.past v (s.loc v)
  cast_unique : ∀ v x y t p q, (v, x, t, p) ∈ s.past.cast → (v, y, t, q) ∈ s.past.cast →
    x ≠ v → y ≠ v → x = y
  /-- A node that voted for another in a term has not led it. -/
  cast_not_led : ∀ v x t p q, (v, x, t, p) ∈ s.past.cast → x ≠ v → (v, t, q) ∉ s.past.led
  /-- Behind a positive reply stands a vote that its request asked for. -/
  granted_cast : ∀ v x r, (v, x, r) ∈ s.past.granted → ∃ t p q, r ≤ t ∧
    (v, x, t, q) ∈ s.past.cast ∧ (x, t, p) ∈ s.past.asked ∧ q ≤ p
  /-- Every leader has its quorum. -/
  quorum : ∀ x t p, (x, t, p) ∈ s.past.led → ∃ Q, Majority members Q ∧ x ∈ Q ∧
    ∀ v ∈ Q, v ≠ x → ∃ q, (v, x, t, q) ∈ s.past.cast ∧ q ≤ p
  announced_led : ∀ l t, (l, t) ∈ s.past.announced → ∃ p, (l, t, p) ∈ s.past.led
  /-- A term has at most one leader. -/
  leader_unique : ∀ x y t p q, (x, t, p) ∈ s.past.led → (y, t, q) ∈ s.past.led → x = y

theorem inv_init {ι Λ : Type} [LE Λ] (members : Finset ι) {s : State ι Λ}
    (hloc : ∀ v, (s.loc v).role = .follower) (hpast : s.past = ⟨∅, ∅, ∅, ∅, ∅⟩) :
    Inv members s := by
  refine ⟨fun v => ⟨?_, ?_, ?_, ?_, ?_, ?_, ?_, ?_, ?_⟩, ?_, ?_, ?_, ?_, ?_, ?_⟩ <;>
    simp [hpast, hloc]

section Frame

variable {ι Λ : Type} [LE Λ] {k k' : Past ι Λ} {v : ι} {l : Local ι Λ}

theorem NodeInv.frame (h : NodeInv k v l)
    (hcast : ∀ x t p, (v, x, t, p) ∈ k'.cast → (v, x, t, p) ∈ k.cast)
    (hled : ∀ t p, (v, t, p) ∈ k'.led → (v, t, p) ∈ k.led)
    (hasked : ∀ t p, (v, t, p) ∈ k'.asked → (v, t, p) ∈ k.asked)
    (hcast' : k.cast ⊆ k'.cast) (hled' : k.led ⊆ k'.led) : NodeInv k' v l where
  cast_le x t p hm := h.cast_le x t p (hcast x t p hm)
  cast_now x p hm := h.cast_now x p (hcast x _ p hm)
  vote_self := h.vote_self
  led_le t p hm := h.led_le t p (hled t p hm)
  led_vote p hm := h.led_vote p (hled _ p hm)
  asked_le t p hm := h.asked_le t p (hasked t p hm)
  asked_now p hm := h.asked_now p (hasked _ p hm)
  tally_cast w hw hc hne := by
    obtain ⟨q, hq, hle⟩ := h.tally_cast w hw hc hne
    exact ⟨q, hcast' hq, hle⟩
  leader_led hl := by
    obtain ⟨p, hp⟩ := h.leader_led hl
    exact ⟨p, hled' hp⟩

theorem nodeInv_update [DecidableEq ι] {loc : ι → Local ι Λ} {i : ι}
    (hother : ∀ v, v ≠ i → NodeInv k v (loc v)) (hi : NodeInv k i l) (v : ι) :
    NodeInv k v (Function.update loc i l v) := by
  by_cases hv : v = i
  · subst hv; rwa [Function.update_self]
  · rw [Function.update_of_ne hv]; exact hother v hv

end Frame

namespace Inv

variable {ι Λ : Type} [Preorder Λ] {members : Finset ι} {s : State ι Λ}

/-- A counted reply stands for a vote at a position the candidate dominates. -/
theorem cast_of_granted (h : Inv members s) {v x : ι} (hc : (s.loc x).role = .candidate)
    (hg : (v, x, (s.loc x).term) ∈ s.past.granted) :
    ∃ q, (v, x, (s.loc x).term, q) ∈ s.past.cast ∧ q ≤ (s.loc x).pos := by
  obtain ⟨t, p, q, hr, hcast, hask, hqp⟩ := h.granted_cast _ _ _ hg
  obtain rfl : t = (s.loc x).term := le_antisymm ((h.node x).asked_le t p hask) hr
  exact ⟨q, hcast, (h.node x).asked_now p hask hc ▸ hqp⟩

theorem quorum_mono {k : Past ι Λ} (h : Inv members s) (hl : k.led = s.past.led)
    (hc : s.past.cast ⊆ k.cast) (x : ι) (t : ℕ) (p : Λ) (hm : (x, t, p) ∈ k.led) :
    ∃ Q, Majority members Q ∧ x ∈ Q ∧ ∀ v ∈ Q, v ≠ x → ∃ q, (v, x, t, q) ∈ k.cast ∧ q ≤ p := by
  obtain ⟨Q, hQ, hx, hcast⟩ := h.quorum x t p (hl ▸ hm)
  refine ⟨Q, hQ, hx, fun v hv hne => ?_⟩
  obtain ⟨q, hq, hqp⟩ := hcast v hv hne
  exact ⟨q, hc hq, hqp⟩

variable [DecidableEq ι]

/-- Only `x` can have led the term in which `x` is a candidate with a majority. -/
theorem led_of_majority (h : Inv members s) {x y : ι} {q : Λ}
    (hc : (s.loc x).role = .candidate) (hm : Majority members (s.loc x).tally)
    (hy : (y, (s.loc x).term, q) ∈ s.past.led) : y = x := by
  by_contra hne
  obtain ⟨Q, hQ, -, hcast⟩ := h.quorum _ _ _ hy
  obtain ⟨v, hv, hvQ⟩ := hm.inter hQ
  by_cases hvx : v = x
  · -- `x` itself voted for `y`: then it would be a follower
    subst hvx
    obtain ⟨_, hv', -⟩ := hcast v hvQ fun e => hne e.symm
    rw [((h.node v).cast_now _ _ hv' hne).1] at hc
    cases hc
  obtain ⟨_, hvc, -⟩ := (h.node x).tally_cast v hv hc hvx
  by_cases hvy : v = y
  · -- `y` voted for `x` in a term that `y` led
    subst hvy
    exact h.cast_not_led _ _ _ _ _ hvc (fun e => hvx e.symm) hy
  · obtain ⟨_, hv', -⟩ := hcast v hvQ hvy
    exact hne (h.cast_unique _ _ _ _ _ _ hv' hvc (fun e => hvy e.symm) fun e => hvx e.symm)

theorem update (h : Inv members s) {i : ι} {l : Local ι Λ} (hi : NodeInv s.past i l) :
    Inv members { s with loc := Function.update s.loc i l } :=
  { h with node := nodeInv_update (fun v _ => h.node v) hi }

theorem campaign (h : Inv members s) (i : ι) :
    Inv members
      { loc := Function.update s.loc i
          { term := (s.loc i).term + 1, role := .candidate, vote := some i,
            pos := (s.loc i).pos, tally := {i} }
        past := { s.past with
          asked := insert (i, (s.loc i).term + 1, (s.loc i).pos) s.past.asked
          cast := insert (i, i, (s.loc i).term + 1, (s.loc i).pos) s.past.cast } } where
  node := by
    refine nodeInv_update (fun v hv => (h.node v).frame ?_ (fun _ _ => id) ?_
      (Set.subset_insert _ _) (fun _ => id)) ?_
    · intro x t p hm; simpa [hv] using hm
    · intro t p hm; simpa [hv] using hm
    · have hn := h.node i
      constructor
      · rintro x t p (hm | hm)
        · cases hm; exact le_rfl
        · exact Nat.le_succ_of_le (hn.cast_le x t p hm)
      · rintro x p (hm | hm) hne
        · cases hm; exact absurd rfl hne
        · exact absurd (hn.cast_le _ _ _ hm) (Nat.not_succ_le_self _)
      · exact fun _ => rfl
      · exact fun t p hm => Nat.le_succ_of_le (hn.led_le t p hm)
      · exact fun _ _ => rfl
      · rintro t p (hm | hm)
        · cases hm; exact le_rfl
        · exact Nat.le_succ_of_le (hn.asked_le t p hm)
      · rintro p (hm | hm) -
        · cases hm; rfl
        · exact absurd (hn.asked_le _ _ hm) (Nat.not_succ_le_self _)
      · intro w hw _ hne
        exact absurd (Finset.mem_singleton.1 hw) hne
      · intro hl; cases hl
  cast_unique := by
    rintro v x y t p q (hx | hx) (hy | hy) hne hne'
    · cases hx; exact absurd rfl hne
    · cases hx; exact absurd rfl hne
    · cases hy; exact absurd rfl hne'
    · exact h.cast_unique _ _ _ _ _ _ hx hy hne hne'
  cast_not_led := by
    rintro v x t p q (hx | hx) hne
    · cases hx; exact absurd rfl hne
    · exact h.cast_not_led _ _ _ _ _ hx hne
  granted_cast := by
    intro v x r hm
    obtain ⟨t, p, q, hr, hc, ha, hq⟩ := h.granted_cast v x r hm
    exact ⟨t, p, q, hr, .inr hc, .inr ha, hq⟩
  quorum := h.quorum_mono rfl (Set.subset_insert _ _)
  announced_led := h.announced_led
  leader_unique := h.leader_unique

theorem demote (h : Inv members s) {i : ι} {l : Local ι Λ} (hrole : l.role = .follower)
    (hterm : (s.loc i).term ≤ l.term)
    (hcast : ∀ x p, (i, x, l.term, p) ∈ s.past.cast → x ≠ i → l.vote = some x)
    (hled : ∀ p, (i, l.term, p) ∈ s.past.led → l.vote = some i) :
    Inv members { s with loc := Function.update s.loc i l } := by
  have hn := h.node i
  refine h.update ⟨fun x t p hm => (hn.cast_le x t p hm).trans hterm,
    fun x p hm hne => ⟨hrole, hcast x p hm hne⟩, fun hr => absurd hrole hr,
    fun t p hm => (hn.led_le t p hm).trans hterm, hled,
    fun t p hm => (hn.asked_le t p hm).trans hterm, fun p _ hr => ?_, fun w _ hr => ?_,
    fun hr => ?_⟩
  all_goals rw [hrole] at hr; cases hr

theorem grant (h : Inv members s) {v x : ι} {p : Λ} {r : ℕ}
    (hask : (x, (s.loc v).term, p) ∈ s.past.asked)
    (hvote : (s.loc v).vote = none ∨ (s.loc v).vote = some x) (hpos : (s.loc v).pos ≤ p)
    (hr : r ≤ (s.loc v).term) (hne : x ≠ v) :
    Inv members
      { loc := Function.update s.loc v { s.loc v with vote := some x }
        past := { s.past with
          granted := insert (v, x, r) s.past.granted
          cast := insert (v, x, (s.loc v).term, (s.loc v).pos) s.past.cast } } := by
  have hn := h.node v
  have hself : (s.loc v).vote ≠ some v := by
    rcases hvote with e | e <;> rw [e] <;> simp [hne]
  have hrole : (s.loc v).role = .follower := by
    by_contra hc; exact hself (hn.vote_self hc)
  have hx : ∀ y q, (v, y, (s.loc v).term, q) ∈ s.past.cast → y ≠ v → y = x := by
    intro y q hm hy
    have e := (hn.cast_now y q hm hy).2
    rcases hvote with e' | e' <;> rw [e'] at e
    · cases e
    · exact (Option.some.inj e).symm
  exact
  { node := by
      refine nodeInv_update (fun w hw => (h.node w).frame ?_ (fun _ _ => id) (fun _ _ => id)
        (Set.subset_insert _ _) (fun _ => id)) ?_
      · intro y t q hm; simpa [hw] using hm
      · constructor
        · rintro y t q (hm | hm)
          · cases hm; exact le_rfl
          · exact hn.cast_le y t q hm
        · rintro y q (hm | hm) hy
          · cases hm; exact ⟨hrole, rfl⟩
          · rw [hx y q hm hy]; exact ⟨hrole, rfl⟩
        · exact fun hc => absurd hrole hc
        · exact hn.led_le
        · exact fun q hm => absurd (hn.led_vote q hm) hself
        · exact hn.asked_le
        · exact hn.asked_now
        · intro w hw hc; rw [hrole] at hc; cases hc
        · intro hl; rw [hrole] at hl; cases hl
    cast_unique := by
      rintro w y z t q q' (hy | hy) (hz | hz) hyw hzw
      · cases hy; cases hz; rfl
      · cases hy; exact (hx z q' hz hzw).symm
      · cases hz; exact hx y q hy hyw
      · exact h.cast_unique _ _ _ _ _ _ hy hz hyw hzw
    cast_not_led := by
      rintro w y t q q' (hy | hy) hyw
      · cases hy; exact fun hm => hself (hn.led_vote q' hm)
      · exact h.cast_not_led _ _ _ _ _ hy hyw
    granted_cast := by
      rintro w y r' (hm | hm)
      · cases hm; exact ⟨_, p, _, hr, .inl rfl, hask, hpos⟩
      · obtain ⟨t, p', q, hr', hc, ha, hq⟩ := h.granted_cast w y r' hm
        exact ⟨t, p', q, hr', .inr hc, ha, hq⟩
    quorum := h.quorum_mono rfl (Set.subset_insert _ _)
    announced_led := h.announced_led
    leader_unique := h.leader_unique }

theorem count (h : Inv members s) {x v : ι} (hc : (s.loc x).role = .candidate)
    (hg : (v, x, (s.loc x).term) ∈ s.past.granted) :
    Inv members
      { s with
        loc := Function.update s.loc x
          { s.loc x with tally := insert v (s.loc x).tally } } := by
  refine h.update { h.node x with tally_cast := fun w hw hr hne => ?_ }
  rcases Finset.mem_insert.1 hw with rfl | hw
  · exact h.cast_of_granted hc hg
  · exact (h.node x).tally_cast w hw hr hne

theorem elect (h : Inv members s) {x : ι} (hc : (s.loc x).role = .candidate)
    (hm : Majority members (s.loc x).tally) (hx : x ∈ (s.loc x).tally) :
    Inv members
      { loc := Function.update s.loc x { s.loc x with role := .leader }
        past := { s.past with led := insert (x, (s.loc x).term, (s.loc x).pos) s.past.led } } := by
  have hn := h.node x
  have hvote : (s.loc x).vote = some x := hn.vote_self (by rw [hc]; simp)
  have hno : ∀ y q, (x, y, (s.loc x).term, q) ∈ s.past.cast → y = x := by
    intro y q hy
    by_contra hne
    rw [(hn.cast_now y q hy hne).1] at hc; cases hc
  exact
  { node := by
      refine nodeInv_update (fun w hw => (h.node w).frame (fun _ _ _ => id) ?_ (fun _ _ => id)
        (fun _ => id) (Set.subset_insert _ _)) ?_
      · intro t q hm'; simpa [hw] using hm'
      · constructor
        · exact hn.cast_le
        · exact fun y q hy hne => absurd (hno y q hy) hne
        · exact fun _ => hvote
        · rintro t q (hm' | hm')
          · cases hm'; exact le_rfl
          · exact hn.led_le t q hm'
        · exact fun _ _ => hvote
        · exact hn.asked_le
        · intro q _ hr; cases hr
        · intro w _ hr; cases hr
        · exact fun _ => ⟨_, .inl rfl⟩
    cast_unique := h.cast_unique
    cast_not_led := by
      rintro v y t p q hy hne (hm' | hm')
      · cases hm'; exact hne (hno y p hy)
      · exact h.cast_not_led _ _ _ _ _ hy hne hm'
    granted_cast := h.granted_cast
    quorum := by
      rintro y t q (hm' | hm')
      · cases hm'
        exact ⟨_, hm, hx, fun v hv hne => hn.tally_cast v hv hc hne⟩
      · exact h.quorum _ _ _ hm'
    announced_led := fun l t hl => by
      obtain ⟨p, hp⟩ := h.announced_led l t hl
      exact ⟨p, .inr hp⟩
    leader_unique := by
      rintro y z t p q (hy | hy) (hz | hz)
      · cases hy; cases hz; rfl
      · cases hy; exact (h.led_of_majority hc hm hz).symm
      · cases hz; exact h.led_of_majority hc hm hy
      · exact h.leader_unique _ _ _ _ _ hy hz }

omit [DecidableEq ι] in
theorem announce (h : Inv members s) {l : ι} (hl : (s.loc l).role = .leader) :
    Inv members
      { s with
        past := { s.past with announced := insert (l, (s.loc l).term) s.past.announced } } where
  node v := (h.node v).frame (fun _ _ _ => id) (fun _ _ => id) (fun _ _ => id) (fun _ => id)
    (fun _ => id)
  cast_unique := h.cast_unique
  cast_not_led := h.cast_not_led
  granted_cast := h.granted_cast
  quorum := h.quorum
  announced_led := by
    rintro i t (hm | hm)
    · cases hm; exact (h.node l).leader_led hl
    · exact h.announced_led i t hm
  leader_unique := h.leader_unique

theorem append (h : Inv members s) {l : ι} (p : Λ) (hl : (s.loc l).role = .leader) :
    Inv members { s with loc := Function.update s.loc l { s.loc l with pos := p } } := by
  refine h.update { h.node l with asked_now := fun q _ hr => ?_, tally_cast := fun w _ hr => ?_ }
  all_goals rw [hl] at hr; cases hr

/-- **The invariant is preserved by every step.** -/
theorem step {s' : State ι Λ} (h : Inv members s) (hs : Step members s s') : Inv members s' := by
  cases hs with
  | campaign i => exact h.campaign i
  | advance i t ht =>
    refine h.demote rfl ht.le (fun x p hm _ => ?_) (fun p hm => ?_)
    · exact absurd ((h.node i).cast_le x t p hm) ht.not_ge
    · exact absurd ((h.node i).led_le t p hm) ht.not_ge
  | yield i l hl hne hrole =>
    obtain ⟨q, hq⟩ := h.announced_led _ _ hl
    refine h.demote rfl le_rfl (fun x p hm hx => ?_) (fun p hm => ?_)
    · exact absurd ((h.node i).cast_now x p hm hx).1 hrole
    · exact absurd (h.leader_unique _ _ _ _ _ hq hm) hne
  | grant v x p r hask hvote hpos hr hne => exact h.grant hask hvote hpos hr hne
  | count x v hc hg => exact h.count hc hg
  | elect x hc hm hx => exact h.elect hc hm hx
  | announce l hl => exact h.announce hl
  | append l p hl => exact h.append p hl
  | restart i =>
    refine h.demote rfl le_rfl (fun x p hm hne => ((h.node i).cast_now x p hm hne).2) ?_
    exact (h.node i).led_vote

theorem steps {s' : State ι Λ} (h : Inv members s)
    (hs : Relation.ReflTransGen (Step members) s s') : Inv members s' := by
  induction hs with
  | refl => exact h
  | tail _ hs ih => exact ih.step hs

end Inv

/-- `k'` holds every message and election of `k`. -/
structure Past.Le {ι Λ : Type} (k k' : Past ι Λ) : Prop where
  asked : k.asked ⊆ k'.asked
  granted : k.granted ⊆ k'.granted
  announced : k.announced ⊆ k'.announced
  led : k.led ⊆ k'.led

theorem Past.Le.refl {ι Λ : Type} (k : Past ι Λ) : k.Le k :=
  ⟨fun _ => id, fun _ => id, fun _ => id, fun _ => id⟩

theorem past_le {ι Λ : Type} [DecidableEq ι] [Preorder Λ] {members : Finset ι}
    {s s' : State ι Λ} (hs : Relation.ReflTransGen (Step members) s s') : s.past.Le s'.past := by
  induction hs with
  | refl => exact .refl _
  | tail _ hs ih =>
    obtain ⟨ha, hg, hn, hl⟩ := ih
    cases hs with
    | campaign => exact ⟨fun x hx => .inr (ha hx), hg, hn, hl⟩
    | grant => exact ⟨ha, fun x hx => .inr (hg hx), hn, hl⟩
    | announce => exact ⟨ha, hg, fun x hx => .inr (hn hx), hl⟩
    | elect => exact ⟨ha, hg, hn, fun x hx => .inr (hl hx)⟩
    | _ => exact ⟨ha, hg, hn, hl⟩

end Lib.Election
