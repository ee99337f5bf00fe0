import DRoole.Cluster.Simulation

/-!
# Elections of the cluster

The results of `Lib.Election`, read back through the simulation: over a whole
run a term has at most one leader, and a leader was elected by a majority whose
logs its own log dominates. Both hold although a node can forget the vote it
cast in a term, and although a reply may report an older term than its vote.
-/

namespace DRoole

open Lib Lib.Election

section

variable {cfg : Config} {now rand : CString → UInt64}

theorem Sim.led_of_leader {c : Cluster} {s : State CString Pos} (hsim : Sim cfg c s)
    (hinv : Inv cfg.members.toFinset s) {i : CString} (hi : i ∈ cfg.members)
    (hl : (c.nodes i).state = .leader) :
    ∃ p, (i, (c.nodes i).currentTerm.toNat, p) ∈ s.past.led := by
  have hloc := hsim.loc i hi
  have hrole : (s.loc i).role = .leader := by
    rw [hloc]
    simp [absNode, absState, hl]
  obtain ⟨p, hp⟩ := (hinv.node i).leader_led hrole
  rw [hloc] at hp
  exact ⟨p, hp⟩

/-- **Election safety.** Over a whole run, no two nodes are leaders of one term:
neither at one moment nor at two. -/
theorem election_safety {as bs : List Action} {c₁ c₂ : Cluster}
    (h₁ : run (step cfg) (initCluster cfg now rand) as = some c₁)
    (h₂ : run (step cfg) c₁ bs = some c₂) {i j : CString} (hi : i ∈ cfg.members)
    (hj : j ∈ cfg.members) (hli : (c₁.nodes i).state = .leader)
    (hlj : (c₂.nodes j).state = .leader)
    (ht : (c₁.nodes i).currentTerm = (c₂.nodes j).currentTerm) : i = j := by
  obtain ⟨s₀, hinv₀, hsim₀⟩ := sim_init cfg now rand
  obtain ⟨s₁, hs₁, hsim₁⟩ := hsim₀.run h₁
  obtain ⟨s₂, hs₂, hsim₂⟩ := hsim₁.run h₂
  have hinv₁ := hinv₀.steps hs₁
  have hinv₂ := hinv₁.steps hs₂
  obtain ⟨p, hp⟩ := hsim₁.led_of_leader hinv₁ hi hli
  obtain ⟨q, hq⟩ := hsim₂.led_of_leader hinv₂ hj hlj
  rw [ht] at hp
  exact hinv₂.leader_unique _ _ _ _ _ ((past_le hs₂).led hp) hq

/-- **Election restriction.** Whenever `i` has become leader in a term, a
majority with `i` in it voted for `i` in that term, each at a position at most
that of `i` just before its no-op. -/
theorem election_restriction {as : List Action} {c : Cluster}
    (hr : run (step cfg) (initCluster cfg now rand) as = some c) {i : CString} {st : Stamp}
    (hst : (i, st) ∈ c.hist) (he : st.call = .elect) :
    ∃ Q : Finset CString, Q ⊆ cfg.members.toFinset ∧ cfg.members.length < 2 * Q.card ∧ i ∈ Q ∧
      ∀ v ∈ Q, v ≠ i → ∃ sv, (v, sv) ∈ c.hist ∧ sv.call = .vote i ∧
        sv.node.currentTerm = st.node.currentTerm ∧ pos sv.node ≤ pos st.node := by
  obtain ⟨s₀, hinv₀, hsim₀⟩ := sim_init cfg now rand
  obtain ⟨s, hs, hsim⟩ := hsim₀.run hr
  obtain ⟨Q, ⟨hsub, hmaj⟩, hiQ, hcast⟩ := (hinv₀.steps hs).quorum _ _ _ (hsim.led i st hst he)
  rw [List.toFinset_card_of_nodup cfg.nodup] at hmaj
  refine ⟨Q, hsub, hmaj, hiQ, fun v hv hne => ?_⟩
  obtain ⟨q, hq, hle⟩ := hcast v hv hne
  obtain ⟨sv, hmem, hcall, hterm, rfl⟩ := hsim.cast _ _ _ _ hq
  exact ⟨sv, hmem, hcall, UInt64.toNat_inj.1 hterm, hle⟩

end

/-- After the first election `a` is the one leader of its term. -/
theorem election_safety_first_election :
    (firstElected.nodes idA).state = .leader ∧
    ∀ j ∈ threeNodes.members, (firstElected.nodes j).state = .leader →
      (firstElected.nodes idA).currentTerm = (firstElected.nodes j).currentTerm → idA = j := by
  have hlead : (firstElected.nodes idA).state = .leader := by decide +kernel
  have hstay : run (step threeNodes) firstElected [] = some firstElected := rfl
  exact ⟨hlead, fun j hj hl ht =>
    election_safety run_firstElection hstay (by decide) hj hlead hl ht⟩

/-- The majority that elected `a`. -/
theorem election_restriction_first_election :
    ∃ st, (idA, st) ∈ firstElected.hist ∧ st.call = .elect ∧
      ∃ Q : Finset CString, Q ⊆ threeNodes.members.toFinset ∧
        threeNodes.members.length < 2 * Q.card ∧ idA ∈ Q ∧
        ∀ v ∈ Q, v ≠ idA → ∃ sv, (v, sv) ∈ firstElected.hist ∧ sv.call = .vote idA ∧
          sv.node.currentTerm = st.node.currentTerm ∧ pos sv.node ≤ pos st.node := by
  have helect : ∃ p ∈ firstElected.hist, p.1 = idA ∧ p.2.call = .elect := by decide +kernel
  obtain ⟨⟨_, st⟩, hmem, rfl, he⟩ := helect
  exact ⟨st, hmem, he, election_restriction run_firstElection hmem he⟩

end DRoole
