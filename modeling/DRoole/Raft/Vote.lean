import DRoole.Raft.Moves

/-!
# Votes of one node

`voted_for` is documented as the candidate "that received vote in current
term". `become_follower` clears it even when the term stays, and a candidate or
leader that receives an AppendEntries request of its own term goes through
`become_follower`: the vote it cast in that term is forgotten and can be given
again. Besides that, only an election started in the last term `2^64 - 1` makes
a node return to an earlier term. Without these two calls a node casts all its
votes of one term for one candidate.
-/

namespace DRoole

open Lib

def votesCast (tr : List Stamp) : List (UInt64 × CString) :=
  tr.filterMap fun s =>
    match s.call with
    | .vote x => some (s.node.currentTerm, x)
    | _ => none

def OneVotePerTerm (tr : List Stamp) : Prop :=
  ∀ v ∈ votesCast tr, ∀ w ∈ votesCast tr, v.1 = w.1 → v.2 = w.2

instance (tr : List Stamp) : Decidable (OneVotePerTerm tr) := by
  unfold OneVotePerTerm; infer_instance

/-- The call makes the node forget a vote of its present term, or start the
terms over. -/
def ForgetsVote (nd : RaftNode) : ApiCall → Prop
  | .appendEntries _ req _ => nd.state ≠ .follower ∧ req.term = nd.currentTerm
  | .tick env => termOverflows nd env.now
  | _ => False

instance (nd : RaftNode) : (c : ApiCall) → Decidable (ForgetsVote nd c)
  | .appendEntries _ req _ =>
    inferInstanceAs (Decidable (nd.state ≠ .follower ∧ req.term = nd.currentTerm))
  | .tick env => inferInstanceAs (Decidable (termOverflows nd env.now))
  | .submit .. | .addPeer .. | .removePeer .. | .requestVote .. | .installSnapshot
  | .requestVoteResponse .. | .appendEntriesResponse .. => .isFalse id

/-- A vote is requested for a proper id: not empty, at most 36 characters. -/
def CandidateOk : ApiCall → Prop
  | .requestVote _ req => req.candidateId.bytes ≠ [] ∧ req.candidateId.bytes.length ≤ 36
  | _ => True

instance : (c : ApiCall) → Decidable (CandidateOk c)
  | .requestVote _ req =>
    inferInstanceAs (Decidable (req.candidateId.bytes ≠ [] ∧ req.candidateId.bytes.length ≤ 36))
  | .tick .. | .submit .. | .addPeer .. | .removePeer .. | .appendEntries .. | .installSnapshot
  | .requestVoteResponse .. | .appendEntriesResponse .. => .isTrue trivial

/-! ## The invariant -/

/-- The votes `vs` cast so far by the node `nd`. -/
structure VotesOk (nd : RaftNode) (vs : List (UInt64 × CString)) : Prop where
  id : nd.nodeId.bytes ≠ []
  /-- A vote is of an earlier term, or the node still holds it. -/
  held : ∀ v ∈ vs, v.1 < nd.currentTerm ∨
    (v.1 = nd.currentTerm ∧ nd.votedFor = v.2 ∧ v.2.bytes ≠ [])
  one : ∀ v ∈ vs, ∀ w ∈ vs, v.1 = w.1 → v.2 = w.2

namespace VotesOk

variable {nd nd' : RaftNode} {vs : List (UInt64 × CString)}

theorem frame (hv : VotesOk nd vs) (hid : nd'.nodeId = nd.nodeId)
    (hterm : nd.currentTerm < nd'.currentTerm ∨
      (nd'.currentTerm = nd.currentTerm ∧ nd'.votedFor = nd.votedFor)) : VotesOk nd' vs where
  id := hid ▸ hv.id
  held := by
    intro v hm
    have := hv.held v hm
    grind
  one := hv.one

theorem cast (hv : VotesOk nd vs) (hid : nd'.nodeId = nd.nodeId) (hne : nd'.votedFor.bytes ≠ [])
    (hterm : nd.currentTerm < nd'.currentTerm ∨ (nd'.currentTerm = nd.currentTerm ∧
      (nd.votedFor.bytes = [] ∨ nd.votedFor = nd'.votedFor))) :
    VotesOk nd' (vs ++ [(nd'.currentTerm, nd'.votedFor)]) := by
  have hold : ∀ v ∈ vs, v.1 < nd'.currentTerm ∨
      (v.1 = nd'.currentTerm ∧ nd'.votedFor = v.2 ∧ v.2.bytes ≠ []) := by
    intro v hm
    have := hv.held v hm
    grind
  refine ⟨hid ▸ hv.id, ?_, ?_⟩
  · intro v hm
    rcases List.mem_append.1 hm with hm | hm
    · exact hold v hm
    · cases List.mem_singleton.1 hm
      exact .inr ⟨rfl, rfl, hne⟩
  · intro v hm w hw e
    rcases List.mem_append.1 hm with hm | hm <;> rcases List.mem_append.1 hw with hw | hw
    · exact hv.one v hm w hw e
    · cases List.mem_singleton.1 hw
      have := hold v hm
      grind
    · cases List.mem_singleton.1 hm
      have := hold w hw
      grind
    · cases List.mem_singleton.1 hm
      cases List.mem_singleton.1 hw
      rfl

end VotesOk

/-! ## Votes along the moves -/

theorem votesCast_move {l : Label} {h h' : Host} (hm : Move l h h') (hc : l ≠ .campaign)
    (hg : ∀ req, l ≠ .grant req) : votesCast h'.trace = votesCast h.trace := by
  have hsnoc : ∀ (nd : RaftNode) (c : Call), (∀ x, c ≠ .vote x) →
      votesCast (h.trace ++ [⟨nd, c⟩]) = votesCast h.trace := by
    intro nd c hne
    cases c <;> simp_all [votesCast]
  cases hm with
  | campaign => exact absurd rfl hc
  | grant req => exact absurd rfl (hg req)
  | quiet | reconfigure | count | ack | backOff | skip => rfl
  | _ => exact hsnoc _ _ (by simp)

def KeepsVote (h : Host) : Label → Prop
  | .yield => False
  | .campaign => h.node.currentTerm + 1 ≠ 0
  | .grant req => req.candidateId.bytes ≠ [] ∧ req.candidateId.bytes.length ≤ 36
  | _ => True

theorem VotesOk.vote_persist {h : Host} {f : RaftNode → RaftNode}
    (hv : VotesOk (f h.node)
      (votesCast h.trace ++ [((f h.node).currentTerm, (f h.node).votedFor)])) :
    let h' := persistState ((h.modify f).emit (.vote (f h.node).votedFor))
    VotesOk h'.node (votesCast h'.trace) := by
  simpa [persistState, votesCast] using hv

theorem VotesOk.move {l : Label} {h h' : Host} (hv : VotesOk h.node (votesCast h.trace))
    (hk : KeepsVote h l) (hm : Move l h h') : VotesOk h'.node (votesCast h'.trace) := by
  have htr := votesCast_move hm
  cases hm with
  | yield hr => exact hk.elim
  | campaign now rand =>
    have hk : h.node.currentTerm + 1 ≠ 0 := hk
    have hlt : h.node.currentTerm < h.node.currentTerm + 1 := by grind
    have hself : (h.node.nodeId.strncpy 36).bytes ≠ [] := by
      simpa [CString.strncpy] using hv.id
    exact VotesOk.vote_persist (f := startElection now rand) (hv.cast rfl hself (.inl hlt))
  | grant req ht hvoted hl =>
    have hcopy : req.candidateId.strncpy 36 = req.candidateId := CString.strncpy_of_le hk.2
    have hfree := alreadyVoted_eq_false.1 hvoted
    refine VotesOk.vote_persist (f := fun nd => { nd with votedFor := req.candidateId.strncpy 36 })
      (hv.cast rfl ?_ (.inr ⟨rfl, ?_⟩))
    · rw [hcopy]; exact hk.1
    · rw [hcopy]; exact hfree
  | follow t ht =>
    rw [htr (by simp) (by simp)]
    exact hv.frame rfl (.inl ht)
  | _ =>
    rw [htr (by simp) (by simp)]
    exact hv.frame rfl (.inr ⟨rfl, rfl⟩)

theorem keepsVote_of_callLabel {h g : Host} {c : ApiCall} {l : Label} (hc : CandidateOk c)
    (hf : ¬ ForgetsVote h.node c) (hl : CallLabel h g l c) : KeepsVote g l := by
  cases l with
  | yield =>
    cases c with
    | tick env =>
      rcases hl with hl | ⟨-, _, _, -, hl⟩ | ⟨-, -, _, _, -, hl⟩
      all_goals exact hl.elim
    | appendEntries now req es => exact absurd ⟨hl.1, hl.2.1⟩ hf
    | addPeer | removePeer => simp [CallLabel] at hl
    | _ => exact hl.elim
  | campaign =>
    obtain ⟨env, rfl, rfl, hs, hd⟩ := callLabel_campaign hl
    exact fun h0 => hf ⟨hs, hd, h0⟩
  | grant req =>
    cases c with
    | tick env =>
      rcases hl with hl | ⟨-, _, _, -, hl⟩ | ⟨-, -, _, _, -, hl⟩
      all_goals exact hl.elim
    | requestVote now req' =>
      cases hl
      exact hc
    | addPeer | removePeer => simp [CallLabel] at hl
    | _ => exact hl.elim
  | _ => trivial

/-- **One vote per term.** From any node state, a sequence of public calls none
of which forgets a vote casts all votes of a term for one candidate. -/
theorem one_vote_per_term (nd : RaftNode) (cs : List ApiCall) (hid : nd.nodeId.bytes ≠ [])
    (hok : Host.CallsOk (fun nd c => CandidateOk c ∧ ¬ ForgetsVote nd c) nd.host cs) :
    OneVotePerTerm (nd.host.calls cs).trace := by
  have hall : VotesOk (nd.host.calls cs).node (votesCast (nd.host.calls cs).trace) := by
    refine Host.calls_induct (P := fun h => VotesOk h.node (votesCast h.trace)) ?_
      ⟨hid, by simp [RaftNode.host, votesCast], by simp [RaftNode.host, votesCast]⟩ hok
    intro h c hv hc
    exact (h.call_moves c).invariant (P := fun h => VotesOk h.node (votesCast h.trace)) hv
      fun x y l hx hl hm => hx.move (keepsVote_of_callLabel hc.1 hc.2 hl) hm
  exact hall.one

/-- A candidate votes for itself and grants the vote of another candidate in a later term. -/
theorem one_vote_per_term_two_terms :
    OneVotePerTerm ((raftInit idA 0).host.calls
      [plainTick 150, .requestVote 160 ⟨2, idB, 0, 0⟩, .requestVote 170 ⟨2, idC, 0, 0⟩]).trace ∧
    votesCast ((raftInit idA 0).host.calls
      [plainTick 150, .requestVote 160 ⟨2, idB, 0, 0⟩, .requestVote 170 ⟨2, idC, 0, 0⟩]).trace =
      [(1, idA), (2, idB)] :=
  ⟨one_vote_per_term _ _ (by decide) (by decide +kernel), by decide +kernel⟩

/-- A candidate votes for itself in term 1, hears of a leader of term 1 and then
votes for another candidate of term 1. -/
theorem two_votes_in_one_term :
    ¬ OneVotePerTerm ((raftInit idA 0).host.calls
      [plainTick 150, .appendEntries 160 ⟨1, idB, 0, 0, 0, 0⟩ [],
       .requestVote 170 ⟨1, idC, 0, 0⟩]).trace := by
  decide +kernel

end DRoole
