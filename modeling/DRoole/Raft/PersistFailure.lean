import DRoole.Raft.Reply

/-!
# Failed persists

`persist_state` drops the result of the persist callback. The results are
therefore no part of the node: `results i` is the result of the `i`-th persist
call of a trace. A call that would be acknowledged is acknowledged whatever
they are, so a failure stays unacknowledged only where the call is refused for
another reason (`persist_failure_iff`).
-/

namespace DRoole

open Lib

def persists (tr : List Stamp) : Nat := tr.countP fun s => s.call = .persist

/-- A persist call made between `h` and `h'` has failed. -/
def PersistFails (results : Nat → Int) (h h' : Host) : Prop :=
  ∃ i, persists h.trace ≤ i ∧ i < persists h'.trace ∧ results i ≠ 0

/-- Every one of `n` persist calls made from `h` on succeeds. -/
def PersistsOk (results : Nat → Int) (h : Host) (n : Nat) : Prop :=
  ∀ i < n, results (persists h.trace + i) = 0

@[simp] theorem persists_snoc (tr : List Stamp) (s : Stamp) :
    persists (tr ++ [s]) = persists tr + if s.call = .persist then 1 else 0 := by
  simp [persists, List.countP_append, List.countP_cons]

theorem persists_persistState (h : Host) :
    persists (persistState h).trace = persists h.trace + 1 := persists_snoc h.trace ⟨h.node, .persist⟩

/-- A call that is acknowledged under `A`, after `n` persists, hides a failure
of each of them. -/
theorem unacknowledged_iff {results : Nat → Int} {h h' : Host} {A acked : Prop} {n : Nat}
    (hyes : A → acked ∧ persists h'.trace = persists h.trace + n) (hno : ¬ A → ¬ acked) :
    (PersistFails results h h' → ¬ acked) ↔ ¬ A ∨ PersistsOk results h n := by
  by_cases hA : A
  · obtain ⟨hacked, hcount⟩ := hyes hA
    simp only [hA, not_true_eq_false, false_or, hacked, imp_false]
    constructor
    · intro hfine i hi
      by_contra hfail
      exact hfine ⟨_, Nat.le_add_right .., by omega, hfail⟩
    · rintro hok ⟨i, hle, hlt, hfail⟩
      have := hok (i - persists h.trace) (by omega)
      rw [Nat.add_sub_cancel' hle] at this
      exact hfail this
  · exact iff_of_true (fun _ => hno hA) (.inl hA)

/-! ## Votes -/

/-- The checks of `raft_handle_request_vote`; a later term clears the vote first. -/
def Grants (nd : RaftNode) (req : RaftRequestVoteReq) : Prop :=
  (nd.currentTerm < req.term ∨ (req.term = nd.currentTerm ∧ alreadyVoted nd req = false)) ∧
    logOk nd req = true

/-- The persists of a granted vote: the step-up, if there is one, and the vote. -/
def grantPersists (nd : RaftNode) (req : RaftRequestVoteReq) : Nat :=
  if nd.currentTerm < req.term then 2 else 1

instance (nd : RaftNode) (req : RaftRequestVoteReq) : Decidable (Grants nd req) :=
  inferInstanceAs (Decidable (_ ∧ _))

theorem raftHandleRequestVote_eq (h : Host) (now : UInt64) (req : RaftRequestVoteReq) :
    raftHandleRequestVote h now req =
      if Grants h.node req then
        ((castVote (stepDown h req.term) req.candidateId).modify (setHeartbeat now),
          ⟨h.node.currentTerm, 1⟩)
      else (stepDown h req.term, ⟨h.node.currentTerm, 0⟩) := by
  unfold raftHandleRequestVote Grants stepDown
  by_cases hlt : h.node.currentTerm < req.term
  · have hfree : alreadyVoted (becomeFollower h req.term).node req = false :=
      alreadyVoted_eq_false.2 (.inl rfl)
    have hlog : logOk (becomeFollower h req.term).node req = logOk h.node req := rfl
    have hstale : ¬ req.term < (becomeFollower h req.term).node.currentTerm := UInt64.lt_irrefl _
    simp only [gt_iff_lt, hlt, if_true, true_or, true_and, hfree, hlog, if_neg hstale]
    cases logOk h.node req <;> rfl
  · simp only [gt_iff_lt, hlt, if_false, false_or]
    by_cases hstale : req.term < h.node.currentTerm
    · have hne : req.term ≠ h.node.currentTerm := UInt64.ne_of_lt hstale
      simp only [hstale, if_true, hne, false_and, if_false]
    · have heq : req.term = h.node.currentTerm := by grind
      rw [if_neg hstale]
      simp only [heq, true_and]
      cases alreadyVoted h.node req <;> cases logOk h.node req <;> rfl

theorem persists_stepDown (h : Host) (t : UInt64) :
    persists (stepDown h t).trace = persists h.trace + if h.node.currentTerm < t then 1 else 0 := by
  unfold stepDown becomeFollower
  split
  · exact persists_persistState _
  · rfl

theorem raftHandleRequestVote_granted {h : Host} (now : UInt64) {req : RaftRequestVoteReq}
    (hyes : Grants h.node req) :
    (raftHandleRequestVote h now req).2.voteGranted = 1 ∧
      persists (raftHandleRequestVote h now req).1.trace =
        persists h.trace + grantPersists h.node req := by
  rw [raftHandleRequestVote_eq, if_pos hyes]
  refine ⟨rfl, ?_⟩
  unfold grantPersists castVote
  simp only [Host.modify_trace, Host.emit_trace, persists_persistState, persists_snoc,
    persists_stepDown]
  split
  · rfl
  · rfl

/-! ## Entries -/

/-- The persists of an accepted request: the step-down, if there is one, and the log. -/
def acceptPersists (nd : RaftNode) (req : RaftAppendEntriesReq) : Nat :=
  if nd.currentTerm < req.term ∨ nd.state ≠ .follower then 2 else 1

theorem persists_acceptLeader (h : Host) (now : UInt64) (req : RaftAppendEntriesReq) :
    persists (acceptLeader (stepDown h req.term) now req).trace = persists h.trace +
      if h.node.currentTerm < req.term ∨ h.node.state ≠ .follower then 1 else 0 := by
  unfold acceptLeader stepDown becomeFollower
  by_cases hlt : h.node.currentTerm < req.term
  · simp [hlt, persistState, heardLeader]
  · by_cases hs : h.node.state = .follower
    · simp [hlt, hs, heardLeader]
    · simp [hlt, hs, heardLeader, persistState]

theorem persists_accepted {h : Host} (now : UInt64) {req : RaftAppendEntriesReq}
    (es : List RaftLogEntry) (hyes : TakesEntries h.node req) :
    persists (raftHandleAppendEntries h now req es).1.trace =
      persists h.trace + acceptPersists h.node req := by
  have hprev : ¬ (!prevMatches h.node req) = true := by rw [hyes.2]; decide
  unfold raftHandleAppendEntries
  dsimp only
  rw [prevMatches_acceptLeader, if_neg (not_stale hyes.1), if_neg hprev]
  have hcommit : ∀ g lc, persists (followCommit g lc).trace = persists g.trace := by
    intro g lc
    unfold followCommit
    split
    · simp [setCommit]
    · rfl
  rw [hcommit, persists_persistState, Host.modify_trace, persists_acceptLeader, acceptPersists]
  split
  · rfl
  · rfl

/-! ## Submissions and candidacies -/

def Submits (nd : RaftNode) (alloc : Alloc) : Prop :=
  nd.state = .leader ∧ nd.log.length < (ensureLogCapacity nd alloc.realloc).logCapacity ∧
    alloc.malloc = true

theorem raftSubmit_submitted {h : Host} {alloc : Alloc} (data : Bytes)
    (hyes : Submits h.node alloc) :
    (raftSubmit h alloc data).2 = 0 ∧
      persists (raftSubmit h alloc data).1.trace = persists h.trace + 1 := by
  obtain ⟨hs, hcap, hmalloc⟩ := hyes
  have hroom : ¬ ((h.modify (ensureLogCapacity · alloc.realloc)).node.log.length ≥
      (h.modify (ensureLogCapacity · alloc.realloc)).node.logCapacity ∨ alloc.malloc = false) := by
    rw [Host.modify_node, ensureLogCapacity_log, hmalloc]
    simpa using hcap
  unfold raftSubmit
  rw [if_neg (not_not.2 hs), if_neg hroom]
  exact ⟨rfl, persists_persistState _⟩

theorem raftSubmit_refused {h : Host} {alloc : Alloc} (data : Bytes)
    (hno : ¬ Submits h.node alloc) : (raftSubmit h alloc data).2 ≠ 0 := by
  unfold raftSubmit
  split
  · exact fun e => absurd (show (-1 : Int) = 0 from e) (by decide)
  rename_i hs
  dsimp only
  split
  · exact fun e => absurd (show (-2 : Int) = 0 from e) (by decide)
  rename_i hroom
  rw [Host.modify_node, ensureLogCapacity_log] at hroom
  simp only [not_or, ge_iff_le, Nat.not_le, Bool.not_eq_false] at hroom
  exact absurd ⟨not_not.1 hs, hroom⟩ hno

/-- A RequestVote is sent between `h` and `h'`. -/
def SendsRequestVote (h h' : Host) : Prop :=
  ∃ s ∈ h'.trace.drop h.trace.length, ∃ id req, s.call = .sendRpc id (.requestVote req)

theorem sendRequestVote_trace (req : RaftRequestVoteReq) (p : RaftPeer) (reply : Option VoteReply)
    (h : Host) :
    (h.emit (.sendRpc p.nodeId (.requestVote req))).trace <+: (sendRequestVote req p reply h).trace := by
  unfold sendRequestVote
  cases reply with
  | none => exact List.prefix_refl _
  | some r => exact (raftHandleRequestVoteResponse_moves _ r.alloc p.nodeId r.resp).trace_extends

theorem forPeers_sendRequestVote_trace (req : RaftRequestVoteReq) (n i : Nat)
    (rs : List (Option VoteReply)) (h : Host) :
    h.trace <+: (forPeers (sendRequestVote req) n i rs h).trace := by
  refine forPeers_induct (P := fun g => h.trace <+: g.trace) rs (fun p r g _ _ hg => ?_) n i rs h
    (fun _ => id) (List.prefix_refl _)
  exact (hg.trans (List.prefix_append _ _)).trans (sendRequestVote_trace req p r g)

theorem voteSelf_trace (h : Host) (now rand : UInt64) :
    (voteSelf h now rand).trace = h.trace ++
      [⟨startElection now rand h.node, .vote (h.node.nodeId.strncpy 36)⟩,
        ⟨startElection now rand h.node, .persist⟩] :=
  List.append_assoc ..

/-- `become_candidate` sends requests if and only if there are peers. -/
theorem becomeCandidate_sends_iff (h : Host) (now rand : UInt64)
    (replies : List (Option VoteReply)) :
    SendsRequestVote h (becomeCandidate h now rand replies) ↔ h.node.peers ≠ [] := by
  unfold SendsRequestVote becomeCandidate
  dsimp only
  have hpeers : (voteSelf h now rand).node.peers =
      h.node.peers.map fun p => { p with voteGranted := false } := rfl
  cases hps : h.node.peers with
  | nil =>
    rw [hps, List.map_nil] at hpeers
    rw [hpeers, List.length_nil, forPeers, voteSelf_trace, List.drop_left]
    simp
  | cons p ps =>
    refine iff_of_true ?_ (List.cons_ne_nil p ps)
    rw [hps, List.map_cons] at hpeers
    rw [hpeers, List.length_cons, List.length_map, forPeers, hpeers]
    dsimp only [List.getElem?_cons_zero]
    generalize voteRequest (voteSelf h now rand).node = req
    have hsend := (sendRequestVote_trace req { p with voteGranted := false } replies.head?.join
      (voteSelf h now rand)).trans
      (forPeers_sendRequestVote_trace req ps.length (0 + 1) replies.tail _)
    obtain ⟨rest, hrest⟩ := hsend
    rw [Host.emit_trace, voteSelf_trace, List.append_assoc, List.append_assoc] at hrest
    refine ⟨⟨(voteSelf h now rand).node, .sendRpc p.nodeId (.requestVote req)⟩, ?_, _, _, rfl⟩
    rw [← hrest, List.drop_left]
    simp

/-! ## The four entry points -/

/-- **When a failed persist stays unacknowledged.** The four entry points drop
the result of `persist`: a vote is granted, entries are acknowledged, a
submission returns 0 and RequestVotes are sent after a failure unless the call
is refused by its own checks, or there is nobody to send to. -/
theorem persist_failure_iff (h : Host) (results : Nat → Int) :
    (∀ now req, (PersistFails results h (raftHandleRequestVote h now req).1 →
        (raftHandleRequestVote h now req).2.voteGranted ≠ 1) ↔
      ¬ Grants h.node req ∨ PersistsOk results h (grantPersists h.node req)) ∧
    (∀ now req es, (PersistFails results h (raftHandleAppendEntries h now req es).1 →
        (raftHandleAppendEntries h now req es).2.success ≠ 1) ↔
      ¬ TakesEntries h.node req ∨ PersistsOk results h (acceptPersists h.node req)) ∧
    (∀ alloc data, (PersistFails results h (raftSubmit h alloc data).1 →
        (raftSubmit h alloc data).2 ≠ 0) ↔
      ¬ Submits h.node alloc ∨ PersistsOk results h 1) ∧
    (∀ now rand replies, (PersistFails results h (voteSelf h now rand) →
        ¬ SendsRequestVote h (becomeCandidate h now rand replies)) ↔
      h.node.peers = [] ∨ PersistsOk results h 1) := by
  refine ⟨fun now req => ?_, fun now req es => ?_, fun alloc data => ?_,
    fun now rand replies => ?_⟩
  · refine unacknowledged_iff (raftHandleRequestVote_granted now) fun hno => ?_
    rw [raftHandleRequestVote_eq, if_neg hno]
    show ¬ (0 : UInt8) = 1
    decide
  · exact unacknowledged_iff
      (fun hyes => ⟨(success_iff now es).2 hyes, persists_accepted now es hyes⟩)
      fun hno hs => hno ((success_iff now es).1 hs)
  · exact unacknowledged_iff (raftSubmit_submitted data) (raftSubmit_refused data)
  · rw [becomeCandidate_sends_iff, unacknowledged_iff (A := h.node.peers ≠ []) (n := 1)
      (fun hyes => ⟨hyes, ?_⟩) id, not_not]
    simp [voteSelf_trace, persists]

/-- A leader of term 1 with one peer and one entry. -/
def leaderWithPeer : RaftNode :=
  { raftInit idA 0 with
    state := .leader, currentTerm := 1, log := [⟨1, 1, [7], 0⟩], logCapacity := 16
    peers := [⟨idB, CString.empty, 0, 2, 0, 0, false⟩] }

def diskFull : Nat → Int := fun _ => -1

/-- A vote that is refused for the log is refused after a failed step-up as well. -/
theorem persist_failure_refused :
    PersistFails diskFull leaderWithPeer.host
        (raftHandleRequestVote leaderWithPeer.host 10 ⟨2, idB, 0, 0⟩).1 ∧
      (raftHandleRequestVote leaderWithPeer.host 10 ⟨2, idB, 0, 0⟩).2.voteGranted ≠ 1 := by
  have hfails : PersistFails diskFull leaderWithPeer.host
      (raftHandleRequestVote leaderWithPeer.host 10 ⟨2, idB, 0, 0⟩).1 :=
    ⟨0, by decide, by decide, by decide⟩
  exact ⟨hfails, ((persist_failure_iff leaderWithPeer.host diskFull).1 10 ⟨2, idB, 0, 0⟩).2
    (.inl (by decide)) hfails⟩

/-- With a full disk the leader grants a vote, acknowledges a request, accepts
a submission and, as a candidate, asks for votes. -/
theorem failed_persist_acknowledged :
    let h := leaderWithPeer.host
    let vote := raftHandleRequestVote h 10 ⟨2, idB, 1, 1⟩
    let append := raftHandleAppendEntries h 10 ⟨2, idB, 1, 1, 0, 0⟩ []
    let submit := raftSubmit h Alloc.ok [8]
    (PersistFails diskFull h vote.1 ∧ vote.2.voteGranted = 1) ∧
      (PersistFails diskFull h append.1 ∧ append.2.success = 1) ∧
      (PersistFails diskFull h submit.1 ∧ submit.2 = 0) ∧
      (PersistFails diskFull h (voteSelf h 10 0) ∧ SendsRequestVote h (becomeCandidate h 10 0 [])) :=
  ⟨⟨⟨0, by decide, by decide, by decide⟩, by decide⟩,
    ⟨⟨0, by decide, by decide, by decide⟩, by decide⟩,
    ⟨⟨0, by decide, by decide, by decide⟩, by decide⟩,
    ⟨0, by decide, by decide, by decide⟩,
    (becomeCandidate_sends_iff _ _ _ _).2 (by decide)⟩

end DRoole
