import DRoole.Raft.LeaderHint

/-!
# The election timer

A tick starts an election when `election_timeout_ms` have passed since
`last_heartbeat_ms`. A granted vote and an accepted leader set that time;
`become_candidate` sets `last_election_ms` instead, which nothing reads, and
`become_leader` sets the time back to 0. So a node that has just started an
election starts the next one at its next tick. `Clocked` follows a node together
with the clock and the times from which its timeout ought to count.
-/

namespace DRoole

open Lib

/-- A node, the last reading of the clock, the times at which the node became a candidate, granted
a vote or heard from a valid leader, and its last election if it has done neither of these since. -/
structure Clocked where
  host : Host
  clock : UInt64
  contacts : List UInt64
  election : Option UInt64

def startsElection (nd : RaftNode) (now : UInt64) : Bool :=
  nd.state ≠ .leader ∧ electionDue nd now = true

def readings (h : Host) : ApiCall → List UInt64
  | .tick env => if startsElection h.node env.now then [env.now, env.electionNow] else [env.now]
  | .requestVote now req => if (raftHandleRequestVote h now req).2.voteGranted = 1 then [now] else []
  | .appendEntries now req _ => if req.term < h.node.currentTerm then [] else [now]
  | _ => []

/-- The times from which the timeout ought to count anew. -/
def contactsOf (h : Host) : ApiCall → List UInt64
  | .tick env => if startsElection h.node env.now then [env.electionNow] else []
  | .requestVote now req => if (raftHandleRequestVote h now req).2.voteGranted = 1 then [now] else []
  | .appendEntries now req _ => if req.term < h.node.currentTerm then [] else [now]
  | _ => []

namespace Clocked

def call (s : Clocked) (c : ApiCall) : Clocked where
  host := s.host.call c
  clock := (readings s.host c).getLastD s.clock
  contacts := s.contacts ++ contactsOf s.host c
  election := match c, contactsOf s.host c with
    | _, [] => s.election
    | .tick _, t :: _ => some t
    | _, _ :: _ => none

def step (s : Clocked) (c : ApiCall) : Option Clocked := some (s.call c)

def start (nd : RaftNode) (now : UInt64) : Clocked := ⟨(raftStart nd now).host, now, [], none⟩

end Clocked

/-- The clock does not go back. -/
def ClockOk (s : Clocked) (c : ApiCall) : Prop :=
  (s.clock :: readings s.host c).IsChain (· ≤ ·)

instance (s : Clocked) (c : ApiCall) : Decidable (ClockOk s c) :=
  inferInstanceAs (Decidable (List.IsChain _ _))

def raftElectionTimeoutMaxMs : UInt64 := 300

/-- After an election a node that does not lead is not ticked for the longest election timeout,
unless it grants a vote or accepts a leader first. A candidate does not vote again in its term. -/
def Waits (s : Clocked) : ApiCall → Prop
  | .tick env => s.host.node.state ≠ .leader → match s.election with
      | some t => t.toNat + raftElectionTimeoutMaxMs.toNat ≤ env.now.toNat
      | none => True
  | .requestVote _ req => s.host.node.state = .candidate → req.term = s.host.node.currentTerm →
      alreadyVoted s.host.node req = true
  | _ => True

instance (s : Clocked) : (c : ApiCall) → Decidable (Waits s c)
  | .tick env =>
    have : Decidable (match s.election with
        | some t => t.toNat + raftElectionTimeoutMaxMs.toNat ≤ env.now.toNat
        | none => True) :=
      match s.election with
      | some _ => Nat.decLe _ _
      | none => .isTrue trivial
    inferInstanceAs (Decidable (_ → _))
  | .requestVote .. => inferInstanceAs (Decidable (_ → _))
  | .submit .. | .addPeer .. | .removePeer .. | .appendEntries .. | .installSnapshot
  | .requestVoteResponse .. | .appendEntriesResponse .. => .isTrue trivial

/-! ## What the calls do to the timer -/

/-- The timer is kept, and nobody becomes a candidate. -/
structure SameTimer (a b : RaftNode) : Prop where
  heartbeat : b.lastHeartbeatMs = a.lastHeartbeatMs
  timeout : b.electionTimeoutMs = a.electionTimeoutMs
  candidate : b.state = .candidate → a.state = .candidate

theorem SameTimer.refl (nd : RaftNode) : SameTimer nd nd := ⟨rfl, rfl, id⟩

theorem SameTimer.trans {a b c : RaftNode} (hab : SameTimer a b) (hbc : SameTimer b c) :
    SameTimer a c :=
  ⟨hbc.heartbeat.trans hab.heartbeat, hbc.timeout.trans hab.timeout,
    fun hc => hab.candidate (hbc.candidate hc)⟩

theorem sameTimer_stepDown (h : Host) (t : UInt64) : SameTimer h.node (stepDown h t).node := by
  unfold stepDown
  split
  · exact ⟨rfl, rfl, nofun⟩
  · exact .refl _

theorem sameTimer_appendResponse (h : Host) (peer : CString) (resp : RaftAppendEntriesResp) :
    SameTimer h.node (raftHandleAppendEntriesResponse h peer resp).node := by
  unfold raftHandleAppendEntriesResponse
  split
  · exact ⟨rfl, rfl, nofun⟩
  split
  · exact .refl _
  split
  · exact .refl _
  split
  · exact ⟨rfl, rfl, id⟩
  split
  · exact ⟨rfl, rfl, id⟩
  · exact .refl _

/-- A reply to a vote request: the node that wins the election has its time set to 0. -/
theorem voteResponse_timer (h : Host) (alloc : Alloc) (peer : CString) (resp : RaftRequestVoteResp) :
    let nd := (raftHandleRequestVoteResponse h alloc peer resp).node
    SameTimer h.node nd ∨ (nd.lastHeartbeatMs = 0 ∧
      nd.electionTimeoutMs = h.node.electionTimeoutMs ∧ h.node.state = .candidate ∧
      nd.state = .leader) := by
  unfold raftHandleRequestVoteResponse
  split
  · exact .inl ⟨rfl, rfl, nofun⟩
  split
  · exact .inl (.refl _)
  rename_i hst
  split
  · exact .inl (.refl _)
  split
  · dsimp only
    split
    · rw [becomeLeader_node]
      exact .inr ⟨rfl, rfl, not_not.1 (not_or.1 hst).1, rfl⟩
    · exact .inl ⟨rfl, rfl, id⟩
  · exact .inl (.refl _)

theorem sameTimer_applyCommittedEntries (h : Host) :
    SameTimer h.node (applyCommittedEntries h).node := by
  obtain ⟨n, e⟩ := applyCommittedEntries_node h
  rw [e]
  exact ⟨rfl, rfl, id⟩

theorem leaderTick_timer {h : Host} (hs : h.node.state = .leader) (now : UInt64)
    (replies : List (Option RaftAppendEntriesResp)) :
    let nd := (leaderTick h now replies).node
    (nd.lastHeartbeatMs = h.node.lastHeartbeatMs ∨ nd.lastHeartbeatMs = now) ∧
      nd.electionTimeoutMs = h.node.electionTimeoutMs ∧ nd.state ≠ .candidate := by
  intro nd
  have hround : ∃ b, (b = h.node.lastHeartbeatMs ∨ b = now) ∧
      SameTimer { h.node with lastHeartbeatMs := b } (heartbeatRound h now replies).node := by
    unfold heartbeatRound
    split
    · refine ⟨now, .inr rfl, ?_⟩
      refine forPeers_induct (P := fun g : Host =>
        SameTimer { h.node with lastHeartbeatMs := now } g.node) replies
        (fun p r g _ _ hg => ?_) _ _ _ _ (fun _ => id) ⟨rfl, rfl, id⟩
      unfold sendHeartbeat
      dsimp only
      split
      · exact hg
      · exact hg.trans (sameTimer_appendResponse (g.emit _) _ _)
    · exact ⟨_, .inl rfl, .refl _⟩
  obtain ⟨b, hb, hround⟩ := hround
  have hall : SameTimer { h.node with lastHeartbeatMs := b } nd :=
    commitLoop_induct (P := fun g : Host => SameTimer { h.node with lastHeartbeatMs := b } g.node)
      (fun g n _ _ hg => hg.trans ⟨rfl, rfl, id⟩) _ _ _ hround
  refine ⟨?_, hall.timeout, fun hc => ?_⟩
  · rw [hall.heartbeat]
    exact hb
  · exact absurd (hs.symm.trans (hall.candidate hc)) nofun

theorem randomElectionTimeout_le (rand : UInt64) :
    randomElectionTimeout rand ≤ raftElectionTimeoutMaxMs := by
  have hlt := Nat.mod_lt rand.toNat (show 0 < 150 by decide)
  have hsum : (150 + rand % 150 : UInt64).toNat = 150 + rand.toNat % 150 := by
    rw [UInt64.toNat_add, UInt64.toNat_mod]
    exact Nat.mod_eq_of_lt (show 150 + rand.toNat % 150 < 2 ^ 64 by omega)
  rw [UInt64.le_iff_toNat_le, randomElectionTimeout, hsum]
  show 150 + rand.toNat % 150 ≤ 300
  omega

/-- An election: the time is kept, or set to 0 by a node that wins at once, and the timeout is
drawn anew. -/
theorem becomeCandidate_timer (h : Host) (now rand : UInt64) (replies : List (Option VoteReply)) :
    let nd := (becomeCandidate h now rand replies).node
    nd.electionTimeoutMs = randomElectionTimeout rand ∧
      (nd.lastHeartbeatMs = h.node.lastHeartbeatMs ∨ nd.lastHeartbeatMs = 0) := by
  unfold becomeCandidate
  refine forPeers_induct (P := fun g : Host =>
    g.node.electionTimeoutMs = randomElectionTimeout rand ∧
    (g.node.lastHeartbeatMs = h.node.lastHeartbeatMs ∨ g.node.lastHeartbeatMs = 0)) replies
    (fun p reply g _ _ hg => ?_) _ _ _ _ (fun _ => id) ⟨rfl, .inl rfl⟩
  cases reply with
  | none => exact hg
  | some r =>
    rcases voteResponse_timer (g.emit _) r.alloc p.nodeId r.resp with hsame | ⟨hzero, he, -⟩
    · exact ⟨hsame.timeout.trans hg.1, hg.2.imp hsame.heartbeat.trans hsame.heartbeat.trans⟩
    · exact ⟨he.trans hg.1, .inr hzero⟩

/-- A vote granted under the condition sets the time and leaves no candidate. -/
theorem requestVote_granted {h : Host} {now : UInt64} {req : RaftRequestVoteReq}
    (hwaits : h.node.state = .candidate → req.term = h.node.currentTerm →
      alreadyVoted h.node req = true)
    (hgrant : (raftHandleRequestVote h now req).2.voteGranted = 1) :
    let nd := (raftHandleRequestVote h now req).1.node
    nd.lastHeartbeatMs = now ∧ nd.electionTimeoutMs = h.node.electionTimeoutMs ∧
      nd.state ≠ .candidate := by
  revert hgrant
  unfold raftHandleRequestVote
  dsimp only
  split
  · exact nofun
  rename_i hterm
  split
  · exact nofun
  rename_i hvoted
  split
  · exact nofun
  refine fun _ => ⟨rfl, (sameTimer_stepDown h req.term).timeout, fun hc => ?_⟩
  have hc : (stepDown h req.term).node.state = .candidate := hc
  by_cases hup : req.term > h.node.currentTerm
  · rw [show stepDown h req.term = becomeFollower h req.term from if_pos hup] at hc
    exact absurd hc nofun
  · rw [show stepDown h req.term = h from if_neg hup] at hc hterm hvoted
    exact hvoted (hwaits hc (UInt64.le_antisymm (UInt64.not_lt.1 hup) (UInt64.not_lt.1 hterm)))

theorem requestVote_refused {h : Host} {now : UInt64} {req : RaftRequestVoteReq}
    (hgrant : (raftHandleRequestVote h now req).2.voteGranted ≠ 1) :
    SameTimer h.node (raftHandleRequestVote h now req).1.node := by
  revert hgrant
  unfold raftHandleRequestVote
  dsimp only
  split
  · exact fun _ => sameTimer_stepDown h req.term
  split
  · exact fun _ => sameTimer_stepDown h req.term
  split
  · exact fun _ => sameTimer_stepDown h req.term
  · exact fun hgrant => absurd rfl hgrant

/-! ## The invariant -/

/-- Nothing is ahead of the clock. Every contact is covered by the last election, or by
`last_heartbeat_ms` if the node has granted a vote or accepted a leader since. -/
structure TimerOk (s : Clocked) : Prop where
  heartbeat : s.host.node.lastHeartbeatMs ≤ s.clock
  contact : ∀ t ∈ s.contacts, t ≤ s.clock
  timeout : s.host.node.electionTimeoutMs ≤ raftElectionTimeoutMaxMs
  heard : s.election = none → (s.host.node.state = .candidate → s.contacts = []) ∧
    ∀ t ∈ s.contacts, t ≤ s.host.node.lastHeartbeatMs
  campaigned : ∀ e, s.election = some e → ∀ t ∈ s.contacts, t ≤ e

namespace TimerOk

variable {s : Clocked}

theorem keep (hok : TimerOk s) {h : Host} {clock : UInt64} (hsame : SameTimer s.host.node h.node)
    (hclock : s.clock ≤ clock) : TimerOk ⟨h, clock, s.contacts, s.election⟩ where
  heartbeat := by
    show h.node.lastHeartbeatMs ≤ clock
    rw [hsame.heartbeat]
    exact UInt64.le_trans hok.heartbeat hclock
  contact := fun t ht => UInt64.le_trans (hok.contact t ht) hclock
  timeout := by
    show h.node.electionTimeoutMs ≤ _
    rw [hsame.timeout]
    exact hok.timeout
  heard := by
    intro hnone
    show (h.node.state = .candidate → _) ∧ ∀ t ∈ s.contacts, t ≤ h.node.lastHeartbeatMs
    rw [hsame.heartbeat]
    obtain ⟨hcand, hle⟩ := hok.heard hnone
    exact ⟨fun hc => hcand (hsame.candidate hc), hle⟩
  campaigned := hok.campaigned

theorem reset (hok : TimerOk s) {h : Host} {now : UInt64} {new : List UInt64}
    {election : Option UInt64} (hclock : s.clock ≤ now) (hbeat : h.node.lastHeartbeatMs = now)
    (htimeout : h.node.electionTimeoutMs = s.host.node.electionTimeoutMs)
    (hs : h.node.state ≠ .candidate) (hnew : ∀ t ∈ new, t = now)
    (helection : election = none ∨ (election = s.election ∧ new = [])) :
    TimerOk ⟨h, now, s.contacts ++ new, election⟩ := by
  have hle : ∀ t ∈ s.contacts ++ new, t ≤ now := by
    intro t ht
    rcases List.mem_append.1 ht with ht | ht
    · exact UInt64.le_trans (hok.contact t ht) hclock
    · rw [hnew t ht]
      exact UInt64.le_refl _
  refine ⟨?_, hle, ?_, fun _ => ⟨fun hc => absurd hc hs, ?_⟩, fun e he => ?_⟩
  · show h.node.lastHeartbeatMs ≤ now
    rw [hbeat]
    exact UInt64.le_refl _
  · show h.node.electionTimeoutMs ≤ _
    rw [htimeout]
    exact hok.timeout
  · show ∀ t ∈ s.contacts ++ new, t ≤ h.node.lastHeartbeatMs
    rw [hbeat]
    exact hle
  · rcases helection with hnone | ⟨hsame, rfl⟩
    · exact absurd (hnone.symm.trans he) nofun
    · rw [List.append_nil]
      exact hok.campaigned e (hsame.symm.trans he)

theorem lead (hok : TimerOk s) {h : Host} (hbeat : h.node.lastHeartbeatMs = 0)
    (htimeout : h.node.electionTimeoutMs = s.host.node.electionTimeoutMs)
    (hc : s.host.node.state = .candidate) (hs : h.node.state = .leader) :
    TimerOk ⟨h, s.clock, s.contacts, s.election⟩ where
  heartbeat := by
    show h.node.lastHeartbeatMs ≤ s.clock
    rw [hbeat]
    exact UInt64.zero_le
  contact := hok.contact
  timeout := by
    show h.node.electionTimeoutMs ≤ _
    rw [htimeout]
    exact hok.timeout
  heard := by
    intro hnone
    refine ⟨fun hcand => absurd (hs.symm.trans hcand) nofun, ?_⟩
    show ∀ t ∈ s.contacts, _
    rw [(hok.heard hnone).1 hc]
    exact fun t ht => absurd ht List.not_mem_nil
  campaigned := hok.campaigned

theorem campaign (hok : TimerOk s) {h : Host} {now rand : UInt64} (hclock : s.clock ≤ now)
    (hbeat : h.node.lastHeartbeatMs = s.host.node.lastHeartbeatMs ∨ h.node.lastHeartbeatMs = 0)
    (htimeout : h.node.electionTimeoutMs = randomElectionTimeout rand) :
    TimerOk ⟨h, now, s.contacts ++ [now], some now⟩ := by
  have hcover : ∀ t ∈ s.contacts ++ [now], t ≤ now := by
    intro t ht
    rcases List.mem_append.1 ht with ht | ht
    · exact UInt64.le_trans (hok.contact t ht) hclock
    · rw [List.mem_singleton.1 ht]
      exact UInt64.le_refl _
  refine ⟨?_, hcover, ?_, nofun, fun e he => Option.some.inj he ▸ hcover⟩
  · show h.node.lastHeartbeatMs ≤ now
    rcases hbeat with e | e <;> rw [e]
    · exact UInt64.le_trans hok.heartbeat hclock
    · exact UInt64.zero_le
  · show h.node.electionTimeoutMs ≤ _
    rw [htimeout]
    exact randomElectionTimeout_le rand

/-! ### The calls -/

theorem turn (hok : TimerOk s) {env : TickEnv} (hclock : ClockOk s (.tick env)) :
    TimerOk ⟨if s.host.node.state = .leader then leaderTick s.host env.now env.appendReplies
        else followerCandidateTick s.host env,
      (s.call (.tick env)).clock, (s.call (.tick env)).contacts,
      (s.call (.tick env)).election⟩ := by
  simp only [ClockOk, readings, contactsOf, Clocked.call] at hclock ⊢
  by_cases hs : s.host.node.state = .leader
  · have hno : startsElection s.host.node env.now = false := by simp [startsElection, hs]
    simp only [hno, Bool.false_eq_true, if_false, List.isChain_pair] at hclock ⊢
    rw [if_pos hs]
    obtain ⟨hb, he, hc⟩ := leaderTick_timer hs env.now env.appendReplies
    rcases hb with hb | hb
    · rw [List.append_nil]
      exact hok.keep ⟨hb, he, fun h => absurd h hc⟩ hclock
    · exact hok.reset hclock hb he hc nofun (.inr ⟨rfl, rfl⟩)
  rw [if_neg hs]
  unfold followerCandidateTick
  by_cases hdue : electionDue s.host.node env.now = true
  · have hyes : startsElection s.host.node env.now = true := by simp [startsElection, hs, hdue]
    simp only [hyes, if_true, List.isChain_cons_cons, List.isChain_singleton, and_true] at hclock ⊢
    rw [if_pos hdue]
    obtain ⟨he, hb⟩ := becomeCandidate_timer s.host env.electionNow env.rand env.voteReplies
    exact hok.campaign (UInt64.le_trans hclock.1 hclock.2) hb he
  · have hno : startsElection s.host.node env.now = false := by simp [startsElection, hdue]
    simp only [hno, Bool.false_eq_true, if_false, List.isChain_pair] at hclock ⊢
    rw [if_neg hdue, List.append_nil]
    exact hok.keep (.refl _) hclock

theorem tick (hok : TimerOk s) {env : TickEnv} (hclock : ClockOk s (.tick env)) :
    TimerOk (s.call (.tick env)) :=
  (hok.turn hclock).keep (sameTimer_applyCommittedEntries _) (UInt64.le_refl _)

theorem requestVote (hok : TimerOk s) {now : UInt64} {req : RaftRequestVoteReq}
    (hclock : ClockOk s (.requestVote now req)) (hwaits : Waits s (.requestVote now req)) :
    TimerOk (s.call (.requestVote now req)) := by
  simp only [ClockOk, readings] at hclock
  simp only [Clocked.call, readings, contactsOf, Host.call]
  by_cases hgrant : (raftHandleRequestVote s.host now req).2.voteGranted = 1
  · obtain ⟨hb, he, hc⟩ := requestVote_granted hwaits hgrant
    simp only [hgrant, if_true, List.isChain_pair] at hclock ⊢
    exact hok.reset hclock hb he hc (fun _ => List.mem_singleton.1) (.inl rfl)
  · simp only [hgrant, if_false]
    rw [List.append_nil]
    exact hok.keep (requestVote_refused hgrant) (UInt64.le_refl _)

theorem appendEntries (hok : TimerOk s) {now : UInt64} {req : RaftAppendEntriesReq}
    {es : List RaftLogEntry} (hclock : ClockOk s (.appendEntries now req es)) :
    TimerOk (s.call (.appendEntries now req es)) := by
  simp only [ClockOk, readings] at hclock
  simp only [Clocked.call, readings, contactsOf, Host.call]
  by_cases hterm : req.term < s.host.node.currentTerm
  · simp only [hterm, if_true]
    rw [raftHandleAppendEntries_stale now es hterm, List.append_nil]
    exact hok.keep (.refl _) (UInt64.le_refl _)
  · simp only [hterm, if_false, List.isChain_pair] at hclock ⊢
    have hheard := raftHandleAppendEntries_heard now es hterm
    exact hok.reset hclock hheard.lastHeartbeat hheard.timeout
      (by rw [hheard.state]; exact nofun) (fun _ => List.mem_singleton.1) (.inl rfl)

theorem call (hok : TimerOk s) {c : ApiCall} (hclock : ClockOk s c) (hwaits : Waits s c) :
    TimerOk (s.call c) := by
  have hquiet {h : Host} (hsame : SameTimer s.host.node h.node) :
      TimerOk ⟨h, s.clock, s.contacts ++ [], s.election⟩ := by
    rw [List.append_nil]
    exact hok.keep hsame (UInt64.le_refl _)
  cases c with
  | tick env => exact hok.tick hclock
  | submit alloc data =>
    refine hquiet ?_
    show SameTimer _ (raftSubmit s.host alloc data).1.node
    rw [raftSubmit_withLog]
    exact ⟨rfl, rfl, id⟩
  | addPeer realloc peer ip port =>
    refine hquiet ?_
    show SameTimer _ (raftAddPeer s.host.node realloc peer ip port).1
    unfold raftAddPeer
    repeat' split
    all_goals exact ⟨rfl, rfl, id⟩
  | removePeer peer =>
    refine hquiet ?_
    show SameTimer _ (raftRemovePeer s.host.node peer).1
    unfold raftRemovePeer
    repeat' split
    all_goals exact ⟨rfl, rfl, id⟩
  | requestVote now req => exact hok.requestVote hclock hwaits
  | appendEntries now req es => exact hok.appendEntries hclock
  | installSnapshot => exact hquiet (.refl _)
  | requestVoteResponse alloc peer resp =>
    rcases voteResponse_timer s.host alloc peer resp with hsame | ⟨hb, he, hc, hs⟩
    · exact hquiet hsame
    · have hlead := hok.lead hb he hc hs
      rw [← List.append_nil s.contacts] at hlead
      exact hlead
  | appendEntriesResponse peer resp => exact hquiet (sameTimer_appendResponse ..)

end TimerOk

theorem timerOk_start {nd : RaftNode} (hmax : nd.electionTimeoutMs ≤ raftElectionTimeoutMaxMs)
    (now : UInt64) : TimerOk (.start nd now) :=
  ⟨UInt64.le_refl now, nofun, hmax, fun _ => ⟨fun _ => rfl, nofun⟩, nofun⟩

theorem timerOk_run {nd : RaftNode} {now : UInt64}
    (hmax : nd.electionTimeoutMs ≤ raftElectionTimeoutMaxMs) {cs : List ApiCall} {s : Clocked}
    (hal : Along Clocked.step (fun s c => ClockOk s c ∧ Waits s c) (.start nd now) cs)
    (hr : run Clocked.step (.start nd now) cs = some s) : TimerOk s := by
  refine run_induct (P := TimerOk) (fun s c s' hok hc hstep => ?_) (timerOk_start hmax now) hal hr
  cases hstep
  exact hok.call hc.1 hc.2

theorem elapsed_of_le {t last now timeout : UInt64} (ht : t ≤ last) (hlast : last ≤ now)
    (hdue : timeout ≤ now - last) : t.toNat + timeout.toNat ≤ now.toNat := by
  have hsub := UInt64.toNat_sub_of_le now last hlast
  rw [UInt64.le_iff_toNat_le] at ht hlast hdue
  omega

/-- Before an election the timeout has passed since every contact. -/
theorem TimerOk.elapsed {s : Clocked} (hok : TimerOk s) {env : TickEnv} (hclock : s.clock ≤ env.now)
    (helection : startsElection s.host.node env.now = true) (hwaits : Waits s (.tick env))
    {t : UInt64} (ht : t ∈ s.contacts) :
    t.toNat + s.host.node.electionTimeoutMs.toNat ≤ env.now.toNat := by
  simp only [startsElection, electionDue, decide_eq_true_eq] at helection
  have hwait := hwaits helection.1
  cases he : s.election with
  | none =>
    exact elapsed_of_le ((hok.heard he).2 t ht) (UInt64.le_trans hok.heartbeat hclock) helection.2
  | some e =>
    rw [he] at hwait
    have hte := UInt64.le_iff_toNat_le.1 (hok.campaigned e he t ht)
    have hmax := UInt64.le_iff_toNat_le.1 hok.timeout
    dsimp only at hwait
    omega

/-- **Elections are spaced.** An election starts at least `election_timeout_ms` after the last
one, the last granted vote and the last accepted leader, in every run in which a node that has
started an election and heard nothing since is not ticked for `RAFT_ELECTION_TIMEOUT_MAX_MS`, and
no candidate grants a vote in its own term. -/
theorem elections_spaced (nd : RaftNode) (start : UInt64)
    (hmax : nd.electionTimeoutMs ≤ raftElectionTimeoutMaxMs)
    (cs : List ApiCall) (env : TickEnv) {s : Clocked}
    (hal : Along Clocked.step (fun s c => ClockOk s c ∧ Waits s c)
      (.start nd start) (cs ++ [.tick env]))
    (hr : run Clocked.step (.start nd start) cs = some s)
    (helection : startsElection s.host.node env.now = true) :
    ∀ t ∈ s.contacts, t.toNat + s.host.node.electionTimeoutMs.toNat ≤ env.now.toNat := by
  obtain ⟨hal, hclock, hwaits⟩ := along_concat hal hr
  have hok := timerOk_run hmax hal hr
  have hnow : s.clock ≤ env.now := by
    simp only [ClockOk, readings, helection, if_true, List.isChain_cons_cons] at hclock
    exact hclock.1
  exact fun t ht => hok.elapsed hnow helection hwaits ht

/-- Two elections 310 ms apart, a vote for b of a later term, and a tick soon after it. -/
def spacedElections : List ApiCall :=
  [plainTick 150, plainTick 460, .requestVote 470 ⟨3, idB, 0, 0⟩, plainTick 500]

theorem elections_spaced_of_wait :
    ∃ s, run Clocked.step (.start (raftInit idA 0) 0) spacedElections = some s ∧
      s.contacts = [150, 460, 470] ∧
      ∀ t ∈ s.contacts, t.toNat + s.host.node.electionTimeoutMs.toNat ≤ 620 :=
  ⟨_, rfl, by decide +kernel, elections_spaced (raftInit idA 0) 0 (by decide) spacedElections
    { now := 620, electionNow := 620, rand := 0, voteReplies := [], appendReplies := [] }
    (by decide +kernel) rfl (by decide +kernel)⟩

/-- A candidate starts the next election at its next tick: here 1 ms later. -/
theorem candidate_campaigns_at_once :
    Along Clocked.step ClockOk (.start (raftInit idA 0) 0) [plainTick 150, plainTick 151] ∧
    ∃ s, run Clocked.step (.start (raftInit idA 0) 0) [plainTick 150] = some s ∧
      startsElection s.host.node 151 = true ∧
      150 ∈ s.contacts ∧ ¬ 150 + s.host.node.electionTimeoutMs.toNat ≤ 151 :=
  ⟨by decide +kernel, _, rfl, by decide +kernel, by decide +kernel, by decide +kernel⟩

end DRoole
