import DRoole.Raft.Heartbeat
import DRoole.Raft.LogIndex
import DRoole.Raft.Reply

/-!
# What a node applies

`apply_committed_entries` moves `last_applied` before it looks the entry up, so
an entry that is missing at that moment is skipped for good. It never is: on a
node without a snapshot `last_applied ≤ commit_index ≤ last_log_index` holds
throughout, and a request that agrees with the log up to `commit_index` leaves
that part in place. The apply callback therefore gets the log, entry by entry.
-/

namespace DRoole

open Lib

/-- The data passed to the apply callback, oldest first. -/
def appliedData (tr : List Stamp) : List Bytes :=
  tr.filterMap fun s =>
    match s.call with
    | .apply e => some e.data
    | _ => none

@[simp] theorem appliedData_append (tr tr' : List Stamp) :
    appliedData (tr ++ tr') = appliedData tr ++ appliedData tr' := List.filterMap_append ..

/-- The log array, of 40-byte entries, fits in the address space. -/
def Addressable (nd : RaftNode) : Prop := 40 * nd.log.length < 2 ^ 64

instance (nd : RaftNode) : Decidable (Addressable nd) := inferInstanceAs (Decidable (_ < _))

/-! ## Requests -/

/-- A leader's log: indexed from 1, with terms from 1 on. -/
structure LeaderLog (L : List RaftLogEntry) : Prop where
  numbered : NumberedFrom 0 L
  term : ∀ e ∈ L, 1 ≤ e.term

/-- The request and its entries are a slice of `L`. -/
structure SliceOf (L : List RaftLogEntry) (req : RaftAppendEntriesReq) (es : List RaftLogEntry) :
    Prop where
  prev_le : req.prevLogIndex.toNat ≤ L.length
  prevTerm : ∀ e, req.prevLogIndex ≠ 0 → L[req.prevLogIndex.toNat - 1]? = some e →
    req.prevLogTerm = e.term
  entries : es <+: L.drop req.prevLogIndex.toNat

/-- An AppendEntries request is a slice of a leader's log that agrees with the
node's up to its commit index. -/
def SliceCall (nd : RaftNode) : ApiCall → Prop
  | .appendEntries _ req es => ∃ L, LeaderLog L ∧ SliceOf L req es ∧
      ∀ k < nd.commitIndex.toNat, L[k]? = nd.log[k]?
  | _ => True

theorem LeaderLog.length_lt {L : List RaftLogEntry} (hL : LeaderLog L) : L.length < 2 ^ 64 := by
  have hfits := hL.numbered.fits
  rwa [UInt64.toNat_zero, Nat.zero_add] at hfits

theorem SliceOf.getElem? {L es : List RaftLogEntry} {req : RaftAppendEntriesReq}
    (hs : SliceOf L req es) {j : Nat} {e : RaftLogEntry} (he : es[j]? = some e) :
    L[req.prevLogIndex.toNat + j]? = some e := by
  obtain ⟨rest, hrest⟩ := hs.entries
  have hj : j < es.length := (List.getElem?_eq_some_iff.1 he).1
  rw [← List.getElem?_drop, ← hrest, List.getElem?_append_left hj, he]

/-! ## The invariant -/

/-- The node has applied its log up to `last_applied`. -/
structure AppliedOk (h : Host) : Prop where
  noSnapshot : h.node.lastSnapshotIndex = 0
  indexed : Indexed 0 h.node.log
  applied_le : h.node.lastApplied.toNat ≤ h.node.commitIndex.toNat
  commit_le : h.node.commitIndex.toNat ≤ h.node.log.length
  data : appliedData h.trace = (h.node.log.take h.node.lastApplied.toNat).map (·.data)

/-- What is committed at `a` is so at `b`, at its place. -/
structure Extends (a b : RaftNode) : Prop where
  commit : a.commitIndex ≤ b.commitIndex
  applied : a.lastApplied ≤ b.lastApplied
  log : b.log.take a.commitIndex.toNat = a.log.take a.commitIndex.toNat

namespace Extends

variable {a b c : RaftNode}

theorem refl (a : RaftNode) : Extends a a := ⟨UInt64.le_refl _, UInt64.le_refl _, rfl⟩

theorem trans (hab : Extends a b) (hbc : Extends b c) : Extends a c where
  commit := UInt64.le_trans hab.commit hbc.commit
  applied := UInt64.le_trans hab.applied hbc.applied
  log := by
    have hle := UInt64.le_iff_toNat_le.1 hab.commit
    rw [← Nat.min_eq_left hle, ← List.take_take, hbc.log, List.take_take, Nat.min_eq_left hle,
      hab.log]

end Extends

theorem AppliedOk.lastLogIndex_eq {h : Host} (hok : AppliedOk h) :
    lastLogIndex h.node = UInt64.ofNat h.node.log.length := by
  have hidx : Indexed h.node.lastSnapshotIndex h.node.log := hok.noSnapshot ▸ hok.indexed
  rw [DRoole.lastLogIndex_eq hidx, hok.noSnapshot, UInt64.zero_add]

/-- `h'` has done more than `h`, and nothing out of order. -/
structure Proceeds (h h' : Host) : Prop where
  ok : AppliedOk h'
  ext : Extends h.node h'.node

theorem Proceeds.trans {h₁ h₂ h₃ : Host} (h₁₂ : Proceeds h₁ h₂) (h₂₃ : Proceeds h₂ h₃) :
    Proceeds h₁ h₃ := ⟨h₂₃.ok, h₁₂.ext.trans h₂₃.ext⟩

namespace AppliedOk

variable {h h' : Host}

theorem refl (hok : AppliedOk h) : Proceeds h h := ⟨hok, .refl _⟩

theorem withLog (hok : AppliedOk h) {log : List RaftLogEntry} (hidx : Indexed 0 log)
    (hkeep : log.take h.node.commitIndex.toNat = h.node.log.take h.node.commitIndex.toNat)
    (hsnap : h'.node.lastSnapshotIndex = h.node.lastSnapshotIndex) (hlog : h'.node.log = log)
    (hcommit : h'.node.commitIndex = h.node.commitIndex)
    (happlied : h'.node.lastApplied = h.node.lastApplied)
    (htr : appliedData h'.trace = appliedData h.trace) : Proceeds h h' := by
  have hlen : h.node.commitIndex.toNat ≤ log.length := by
    have := congrArg List.length hkeep
    rw [List.length_take, List.length_take_of_le hok.commit_le] at this
    omega
  refine ⟨⟨hsnap.trans hok.noSnapshot, ?_, ?_, ?_, ?_⟩, ?_, ?_, ?_⟩
  · rw [hlog]; exact hidx
  · rw [happlied, hcommit]; exact hok.applied_le
  · rw [hcommit, hlog]; exact hlen
  · rw [htr, hok.data, hlog, happlied, ← Nat.min_eq_left hok.applied_le, ← List.take_take, ← hkeep,
      List.take_take]
  · rw [hcommit]; exact UInt64.le_refl _
  · rw [happlied]; exact UInt64.le_refl _
  · rw [hlog, hkeep]

theorem frame (hok : AppliedOk h) (hsnap : h'.node.lastSnapshotIndex = h.node.lastSnapshotIndex)
    (hlog : h'.node.log = h.node.log) (hcommit : h'.node.commitIndex = h.node.commitIndex)
    (happlied : h'.node.lastApplied = h.node.lastApplied)
    (htr : appliedData h'.trace = appliedData h.trace) : Proceeds h h' :=
  hok.withLog hok.indexed rfl hsnap hlog hcommit happlied htr

theorem commit (hok : AppliedOk h) {n : UInt64} (hle : h.node.commitIndex ≤ n)
    (hn : n.toNat ≤ h.node.log.length) : Proceeds h (setCommit h n) := by
  have hle' := UInt64.le_iff_toNat_le.1 hle
  refine ⟨⟨hok.noSnapshot, hok.indexed, Nat.le_trans hok.applied_le hle', hn, ?_⟩, hle,
    UInt64.le_refl _, rfl⟩
  show appliedData (h.trace ++ [_]) = _
  rw [appliedData_append, hok.data]
  exact List.append_nil _

theorem apply (hok : AppliedOk h) {e : RaftLogEntry} (hlt : h.node.lastApplied < h.node.commitIndex)
    (he : getLogEntry h.node (h.node.lastApplied + 1) = some e) :
    Proceeds h ((h.modify bumpApplied).emit (.apply e)) := by
  have hlt' := UInt64.lt_iff_toNat_lt.1 hlt
  have hmax := h.node.commitIndex.toNat_lt
  have hsucc : (h.node.lastApplied + 1).toNat = h.node.lastApplied.toNat + 1 :=
    toNat_succ (by grind)
  rw [getLogEntry_eq, hsucc, hok.noSnapshot] at he
  have hat : h.node.log[h.node.lastApplied.toNat]? = some e := by simpa using he
  refine ⟨⟨hok.noSnapshot, hok.indexed, ?_, hok.commit_le, ?_⟩, UInt64.le_refl _, ?_, rfl⟩
  · show (h.node.lastApplied + 1).toNat ≤ _
    rw [hsucc]
    exact hlt'
  · show appliedData (h.trace ++ [_]) = (h.node.log.take (h.node.lastApplied + 1).toNat).map _
    rw [appliedData_append, hok.data, hsucc, List.take_add_one, hat, List.map_append]
    rfl
  · show h.node.lastApplied ≤ h.node.lastApplied + 1
    rw [UInt64.le_iff_toNat_le, hsucc]
    exact Nat.le_succ _

/-- The entry to apply is never missing. -/
theorem not_skip (hok : AppliedOk h) (hlt : h.node.lastApplied < h.node.commitIndex) :
    getLogEntry h.node (h.node.lastApplied + 1) ≠ none := by
  have hlt' := UInt64.lt_iff_toNat_lt.1 hlt
  have hcommit := hok.commit_le
  have hsucc : (h.node.lastApplied + 1).toNat = h.node.lastApplied.toNat + 1 :=
    toNat_succ (by grind)
  rw [getLogEntry_eq, hsucc, hok.noSnapshot]
  simp
  omega

theorem move {l : Label} (hok : AppliedOk h) (hl : ∀ es, l ≠ .accept es) (hc : ∀ n, l ≠ .commit n)
    (hm : Move l h h') : Proceeds h h' := by
  cases hm with
  | quiet | reconfigure | count | ack | backOff => exact hok.frame rfl rfl rfl rfl rfl
  | send | follow | yield | campaign | grant | elect =>
    refine hok.frame rfl rfl rfl rfl ?_
    simp [appliedData, Host.emit, Host.modify, becomeFollower, voteSelf, castVote, persistState]
  | append data hs =>
    have hidx : Indexed 0 (h.node.log ++ [submitEntry h.node data]) := by
      have hlog : Indexed h.node.lastSnapshotIndex h.node.log := hok.noSnapshot ▸ hok.indexed
      have := indexed_submitEntry hlog data
      rwa [hok.noSnapshot] at this
    refine hok.withLog hidx (List.take_append_of_le_length hok.commit_le) rfl rfl rfl rfl ?_
    simp [appliedData, Host.emit, Host.modify, persistState]
  | accept es => exact absurd rfl (hl es)
  | commit n => exact absurd rfl (hc n)
  | apply e hlt he => exact hok.apply hlt he
  | skip hlt he => exact absurd he (hok.not_skip hlt)

theorem moves {K : Host → Label → Prop} (hok : AppliedOk h) (hm : h.Moves K h')
    (hK : ∀ x l, K x l → (∀ es, l ≠ .accept es) ∧ ∀ n, l ≠ .commit n) : Proceeds h h' :=
  Lib.Moves.invariant (P := Proceeds h) hm hok.refl fun x _ l hx hk hl =>
    hx.trans (hx.ok.move (hK x l hk).1 (hK x l hk).2 hl)

end AppliedOk

/-! ## AppendEntries -/

theorem appliedData_acceptLeader (h : Host) (now : UInt64) (req : RaftAppendEntriesReq) :
    appliedData (acceptLeader (stepDown h req.term) now req).trace = appliedData h.trace := by
  unfold acceptLeader stepDown
  dsimp only
  split <;> split <;> simp [appliedData, becomeFollower, persistState]

/-- An entry before the request's is in the node's log if the check passes. -/
theorem SliceOf.prev_le_length {L es : List RaftLogEntry} {req : RaftAppendEntriesReq}
    (hs : SliceOf L req es) (hL : LeaderLog L) {nd : RaftNode} (hsnap : nd.lastSnapshotIndex = 0)
    (hprev : prevMatches nd req = true) : req.prevLogIndex.toNat ≤ nd.log.length := by
  simp only [prevMatches, decide_eq_true_eq] at hprev
  by_cases h0 : req.prevLogIndex = 0
  · rw [h0]
    exact Nat.zero_le _
  have hpos : req.prevLogIndex.toNat ≠ 0 := fun e => h0 (UInt64.toNat_inj.1 e)
  have hlt : req.prevLogIndex.toNat - 1 < L.length := by
    have := hs.prev_le
    omega
  have hterm : 1 ≤ req.prevLogTerm := by
    rw [hs.prevTerm _ h0 (List.getElem?_eq_getElem hlt)]
    exact hL.term _ (List.getElem_mem hlt)
  have hat := hprev.resolve_left h0
  rw [termAtIndex, if_neg h0, if_neg (by rwa [hsnap]), getLogEntry_eq, hsnap] at hat
  by_contra hover
  rw [UInt64.toNat_zero, if_neg (by omega), List.getElem?_eq_none (by omega)] at hat
  rw [← hat] at hterm
  exact absurd hterm (by decide)

/-- A log that is indexed and has the committed part of `nd`'s. -/
structure LogKept (nd : RaftNode) (log : List RaftLogEntry) : Prop where
  indexed : Indexed 0 log
  length_lt : log.length < 2 ^ 64
  committed : log.take nd.commitIndex.toNat = nd.log.take nd.commitIndex.toNat

/-- The append loop keeps the committed part of the log if it starts within the
log and no entry conflicts with a committed one. -/
theorem AppliedOk.logKept {h : Host} (hok : AppliedOk h) (hfit : Addressable h.node) {k : Nat}
    {es : List RaftLogEntry} (hk : k ≤ h.node.log.length) (hlen : k + es.length < 2 ^ 64)
    (hindex : ∀ j e, es[j]? = some e → e.index.toNat = k + j + 1)
    (hagree : ∀ j e old, es[j]? = some e → k + j < h.node.commitIndex.toNat →
      h.node.log[k + j]? = some old → old.term = e.term) :
    LogKept h.node (es.foldl appendEntry h.node).log := by
  have hlog : (es.foldl appendEntry h.node).log = mergeLog k h.node.log es :=
    foldl_appendEntry_log fun j e he => by
      rw [hindex j e he, hok.noSnapshot, UInt64.toNat_zero, Nat.zero_add]
  rw [hlog]
  refine ⟨indexed_mergeLog hk hok.indexed fun j e he => ?_, ?_, take_mergeLog hok.commit_le ?_⟩
  · apply UInt64.toNat_inj.1
    rw [hindex j e he, UInt64.zero_add, ← UInt64.ofNat_add, ← UInt64.ofNat_one,
      ← UInt64.ofNat_add, UInt64.toNat_ofNat_of_lt']
    rw [← hindex j e he]
    exact e.index.toNat_lt
  · have hle := length_mergeLog_le es hk
    unfold Addressable at hfit
    omega
  · intro j e he hj
    have hat := List.getElem?_eq_getElem (Nat.lt_of_lt_of_le hj hok.commit_le)
    exact ⟨_, hat, hagree j e _ he hj hat⟩

theorem SliceOf.logKept {L es : List RaftLogEntry} {req : RaftAppendEntriesReq}
    (hs : SliceOf L req es) (hL : LeaderLog L) {h : Host} (hok : AppliedOk h)
    (hagree : ∀ k < h.node.commitIndex.toNat, L[k]? = h.node.log[k]?)
    (hprev : prevMatches h.node req = true) (hfit : Addressable h.node) :
    LogKept h.node (es.foldl appendEntry h.node).log := by
  refine hok.logKept hfit (hs.prev_le_length hL hok.noSnapshot hprev) ?_
    (fun j e he => hL.numbered.toNat_index_zero (hs.getElem? he)) fun j e old he hj hold => ?_
  · have hL' := hL.length_lt
    have hes := hs.entries.length_le
    have hprev_le := hs.prev_le
    rw [List.length_drop] at hes
    omega
  · rw [← hagree _ hj, hs.getElem? he] at hold
    cases hold
    rfl

theorem AppliedOk.followCommit {h : Host} (hok : AppliedOk h) (leaderCommit : UInt64)
    (hlen : h.node.log.length < 2 ^ 64) : Proceeds h (DRoole.followCommit h leaderCommit) := by
  have hlast : (lastLogIndex h.node).toNat = h.node.log.length := by
    rw [hok.lastLogIndex_eq]
    exact UInt64.toNat_ofNat_of_lt' hlen
  have hle := hok.commit_le
  unfold DRoole.followCommit
  split
  · rename_i hlc
    have hlc := UInt64.lt_iff_toNat_lt.1 hlc
    unfold clampCommit
    split
    · refine hok.commit (UInt64.le_iff_toNat_le.2 ?_) ?_ <;> omega
    · rename_i hnot
      rw [UInt64.lt_iff_toNat_lt] at hnot
      refine hok.commit (UInt64.le_iff_toNat_le.2 ?_) ?_ <;> omega
  · exact hok.refl

/-- **AppendEntries** that keeps what is committed. -/
theorem AppliedOk.appendEntries {h : Host} (hok : AppliedOk h) (now : UInt64)
    {req : RaftAppendEntriesReq} {es : List RaftLogEntry}
    (hkept : TakesEntries h.node req → LogKept h.node (es.foldl appendEntry h.node).log) :
    Proceeds h (raftHandleAppendEntries h now req es).1 := by
  obtain ⟨hlog, hsnap, -, hcommit, happlied⟩ := acceptLeader_log h now req
  have hdata := appliedData_acceptLeader h now req
  have hprevMatches := prevMatches_acceptLeader h now req
  unfold raftHandleAppendEntries
  dsimp only
  split
  · refine hok.moves (stepDown_moves h req.term) fun x l hl => ?_
    subst hl
    exact ⟨nofun, nofun⟩
  rename_i hstale
  have hterm := UInt64.not_lt.2 (le_of_stepDown_term (stepDown_term hstale))
  generalize acceptLeader (stepDown h req.term) now req = g at *
  have hlead : Proceeds h g := hok.frame hsnap hlog hcommit happlied hdata
  rw [hprevMatches]
  split
  · exact hlead
  rename_i hprev
  have hkept := hkept ⟨hterm, by simpa using hprev⟩
  rw [← foldl_appendEntry_congr es hlog hsnap] at hkept
  have hwith := foldl_appendEntry_withLog es g.node
  have hsnap' := congrArg RaftNode.lastSnapshotIndex hwith
  have hcommit' := congrArg RaftNode.commitIndex hwith
  have happlied' := congrArg RaftNode.lastApplied hwith
  have haccept : Proceeds g (persistState (g.modify fun nd => es.foldl appendEntry nd)) :=
    hlead.ok.withLog hkept.indexed (by rw [hcommit, hkept.committed, hlog]) hsnap' rfl hcommit'
      happlied' (by simp [appliedData, persistState])
  exact (hlead.trans haccept).trans (haccept.ok.followCommit req.leaderCommit hkept.length_lt)

/-! ## Ticks -/

/-- **Invariant rule** for the commit loop, which only moves the commit index up. -/
theorem commitLoop_induct_lt {P : Host → Prop}
    (hcommit : ∀ (h : Host) (n : UInt64), h.node.commitIndex < n → n ≤ lastLogIndex h.node →
      P h → P (setCommit h n)) :
    ∀ (fuel : Nat) (n : UInt64) (h : Host), (0 < fuel → h.node.commitIndex < n) →
      n.toNat + fuel ≤ 2 ^ 64 → P h → P (commitLoop fuel n h)
  | 0, _, _, _, _, hp => hp
  | fuel + 1, n, h, hlt, hfuel, hp => by
    have hn : 0 < fuel → n < n + 1 := fun hpos => by
      have hsucc : (n + 1).toNat = n.toNat + 1 := by
        rw [UInt64.toNat_add, UInt64.toNat_one]
        omega
      rw [UInt64.lt_iff_toNat_lt, hsucc]
      exact Nat.lt_succ_self _
    have hfuel' : (n + 1).toNat + fuel ≤ 2 ^ 64 := by
      rw [UInt64.toNat_add, UInt64.toNat_one]
      omega
    simp only [commitLoop]
    split
    · rename_i hle
      split
      · exact commitLoop_induct_lt hcommit fuel (n + 1) _ hn hfuel'
          (hcommit h n (hlt fuel.succ_pos) hle hp)
      · exact commitLoop_induct_lt hcommit fuel (n + 1) h
          (fun hpos => UInt64.lt_trans (hlt fuel.succ_pos) (hn hpos)) hfuel' hp
    · exact hp

/-- **A leader's tick**, but for the applications. -/
theorem AppliedOk.leaderTick {h : Host} (hok : AppliedOk h) (hfit : Addressable h.node)
    (now : UInt64) (replies : List (Option RaftAppendEntriesResp)) :
    Proceeds h (DRoole.leaderTick h now replies) := by
  have hround : Proceeds h (heartbeatRound h now replies) := by
    refine hok.moves (heartbeatRound_moves h now replies) fun x l hl => ?_
    refine ⟨fun es e => ?_, fun n e => ?_⟩
    all_goals
      subst e
      obtain ⟨_, _, -, hl⟩ := hl
      exact hl.elim
  obtain ⟨hcommit, hlog, -⟩ := heartbeatRound_frame h now replies
  unfold DRoole.leaderTick
  dsimp only
  generalize heartbeatRound h now replies = g at *
  have hle := hround.ok.commit_le
  have hsucc : (g.node.commitIndex + 1).toNat = g.node.commitIndex.toNat + 1 := by
    rw [UInt64.toNat_add, UInt64.toNat_one]
    unfold Addressable at hfit
    rw [hlog] at hle
    omega
  refine commitLoop_induct_lt (P := Proceeds h) (fun x n hlt hn hx => hx.trans ?_) _ _ _
    (fun _ => ?_) ?_ hround
  · refine hx.ok.commit (UInt64.le_of_lt hlt) ?_
    have hn := UInt64.le_iff_toNat_le.1 hn
    rw [hx.ok.lastLogIndex_eq] at hn
    exact Nat.le_trans hn (by rw [UInt64.toNat_ofNat']; exact Nat.mod_le ..)
  · rw [UInt64.lt_iff_toNat_lt, hsucc]
    exact Nat.lt_succ_self _
  · unfold commitTurns
    have := (lastLogIndex g.node).toNat_lt
    have := g.node.commitIndex.toNat_lt
    omega

theorem AppliedOk.tick {h : Host} (hok : AppliedOk h) (hfit : Addressable h.node) (env : TickEnv) :
    Proceeds h (raftTick h env) := by
  unfold raftTick applyCommittedEntries
  suffices hfirst : Proceeds h (if h.node.state = .leader then DRoole.leaderTick h env.now
      env.appendReplies else followerCandidateTick h env) by
    refine hfirst.trans (hfirst.ok.moves (applyLoop_moves _ _) fun x l hl => ?_)
    refine ⟨fun es e => ?_, fun n e => ?_⟩ <;> subst e <;> exact hl
  split
  · exact hok.leaderTick hfit env.now env.appendReplies
  unfold followerCandidateTick
  split
  · refine hok.moves (becomeCandidate_moves h env) fun x l hl => ?_
    refine ⟨fun es e => ?_, fun n e => ?_⟩
    all_goals
      subst e
      obtain ⟨_, _, -, hl⟩ := hl
      exact hl.elim
  · exact hok.refl

/-! ## Runs -/

/-- **Every public call** keeps what is committed and applies in order, if an
AppendEntries request does. -/
theorem AppliedOk.call {h : Host} (hok : AppliedOk h) (hfit : Addressable h.node) {c : ApiCall}
    (happend : ∀ now req es, c = .appendEntries now req es → TakesEntries h.node req →
      LogKept h.node (es.foldl appendEntry h.node).log) : Proceeds h (h.call c) := by
  cases c with
  | tick env => exact hok.tick hfit env
  | appendEntries now req es => exact hok.appendEntries now (happend now req es rfl)
  | _ =>
    refine hok.moves (h.call_moves _) fun x l hl => ⟨fun es e => ?_, fun n e => ?_⟩
    all_goals
      subst e
      simp [CallLabel, SubmitLabel, RequestVoteLabel, VoteRespLabel, AppendRespLabel] at hl

theorem AppliedOk.calls {ok : RaftNode → ApiCall → Prop}
    (hstep : ∀ h c, AppliedOk h → ok h.node c → Proceeds h (h.call c)) {cs : List ApiCall}
    {h : Host} (hok : AppliedOk h) (hcs : Host.CallsOk ok h cs) : Proceeds h (h.calls cs) := by
  induction cs generalizing h with
  | nil => exact hok.refl
  | cons c cs ih =>
    have hc := hstep h c hok hcs.1
    exact hc.trans (ih hc.ok hcs.2)

theorem AppliedOk.sliceCall (h : Host) (c : ApiCall) (hok : AppliedOk h)
    (hc : Addressable h.node ∧ SliceCall h.node c) : Proceeds h (h.call c) := by
  refine hok.call hc.1 fun now req es e hacc => ?_
  subst e
  obtain ⟨L, hL, hs, hagree⟩ := hc.2
  exact hs.logKept hL hok hagree hacc.2 hc.1

theorem appliedOk_init (nodeId : CString) (rand : UInt64) : AppliedOk (raftInit nodeId rand).host :=
  ⟨rfl, Indexed.nil 0, Nat.le_refl _, Nat.le_refl _, rfl⟩

theorem AppliedOk.commit_le_last {h : Host} (hok : AppliedOk h) (hfit : Addressable h.node) :
    h.node.commitIndex ≤ lastLogIndex h.node := by
  unfold Addressable at hfit
  rw [hok.lastLogIndex_eq, UInt64.le_iff_toNat_le, UInt64.toNat_ofNat_of_lt']
  · exact hok.commit_le
  · show h.node.log.length < 2 ^ 64
    omega

/-- What is committed is found at its index, and stays there. -/
theorem Proceeds.entry_kept {h h' : Host} (hp : Proceeds h h') (hok : AppliedOk h) {i : UInt64}
    (hpos : 1 ≤ i) (hi : i ≤ h.node.commitIndex) :
    getLogEntry h'.node i = getLogEntry h.node i ∧
      ∃ e, getLogEntry h.node i = some e ∧ e.index = i := by
  have hpos := UInt64.le_iff_toNat_le.1 hpos
  have hi := UInt64.le_iff_toNat_le.1 hi
  rw [UInt64.toNat_one] at hpos
  have hget : ∀ {g : Host}, AppliedOk g → getLogEntry g.node i = g.node.log[i.toNat - 1]? := by
    intro g hg
    rw [getLogEntry_eq, hg.noSnapshot, UInt64.toNat_zero, if_neg (by omega), Nat.sub_zero]
  have hlt : i.toNat - 1 < h.node.commitIndex.toNat := by omega
  refine ⟨?_, ?_⟩
  · rw [hget hok, hget hp.ok, ← List.getElem?_take_of_lt hlt, hp.ext.log,
      List.getElem?_take_of_lt hlt]
  · have hsome := List.getElem?_eq_getElem (Nat.lt_of_lt_of_le hlt hok.commit_le)
    rw [← hget hok] at hsome
    exact ⟨_, hsome, index_of_getLogEntry (hok.noSnapshot ▸ hok.indexed) hsome⟩

/-- **Committed entries are applied once, in order, and stay.** From
`raft_init`, under calls whose AppendEntries requests are slices of leader logs
that agree with the node's up to its commit index, the apply callback has got
the data of entries `1` to `last_applied`; later calls `ds` leave what was
committed in place and move neither index back. -/
theorem committed_entries_applied_in_order (nodeId : CString) (rand : UInt64)
    (cs ds : List ApiCall)
    (hok : Host.CallsOk (fun nd c => Addressable nd ∧ SliceCall nd c) (raftInit nodeId rand).host
      (cs ++ ds))
    (hfit : Addressable ((raftInit nodeId rand).host.calls cs).node) :
    let h := (raftInit nodeId rand).host.calls cs
    let later := (h.calls ds).node
    appliedData h.trace = (h.node.log.take h.node.lastApplied.toNat).map (·.data) ∧
      h.node.lastApplied ≤ h.node.commitIndex ∧ h.node.commitIndex ≤ lastLogIndex h.node ∧
      h.node.lastApplied ≤ later.lastApplied ∧ h.node.commitIndex ≤ later.commitIndex ∧
      ∀ i, 1 ≤ i → i ≤ h.node.commitIndex → getLogEntry later i = getLogEntry h.node i ∧
        ∃ e, getLogEntry h.node i = some e ∧ e.index = i := by
  intro h later
  obtain ⟨hcs, hds⟩ := Host.callsOk_append.1 hok
  have hnow : AppliedOk h := ((appliedOk_init nodeId rand).calls AppliedOk.sliceCall hcs).ok
  have hlater : Proceeds h (h.calls ds) := hnow.calls AppliedOk.sliceCall hds
  exact ⟨hnow.data, UInt64.le_iff_toNat_le.2 hnow.applied_le, hnow.commit_le_last hfit,
    hlater.ext.applied, hlater.ext.commit, fun i hpos hi => hlater.entry_kept hnow hpos hi⟩

def twoEntries : List RaftLogEntry := [⟨1, 1, [7], 0⟩, ⟨1, 2, [8], 0⟩]

/-- The entries arrive one by one, and the second request commits them. -/
def twoSlices : List ApiCall :=
  [.appendEntries 10 ⟨1, idB, 0, 0, 0, 1⟩ [⟨1, 1, [7], 0⟩],
   .appendEntries 20 ⟨1, idB, 1, 1, 2, 1⟩ [⟨1, 2, [8], 0⟩],
   plainTick 30]

theorem leaderLog_twoEntries : LeaderLog twoEntries := ⟨by decide, by decide⟩

/-- The callback gets the two entries. -/
theorem two_entries_applied :
    appliedData ((raftInit idA 0).host.calls twoSlices).trace = [[7], [8]] := by
  have hok : Host.CallsOk (fun nd c => Addressable nd ∧ SliceCall nd c) (raftInit idA 0).host
      (twoSlices ++ []) := by
    refine ⟨⟨by decide, twoEntries, leaderLog_twoEntries, ⟨by decide, by simp, ?_⟩, ?_⟩,
      ⟨by decide, twoEntries, leaderLog_twoEntries, ⟨by decide, ?_, ?_⟩, ?_⟩,
      ⟨by decide, trivial⟩, trivial⟩
    · exact ⟨[⟨1, 2, [8], 0⟩], rfl⟩
    · exact fun k hk => absurd hk (Nat.not_lt_zero k)
    · intro e _ he
      cases he
      rfl
    · exact ⟨[], rfl⟩
    · exact fun k hk => absurd hk (Nat.not_lt_zero k)
  rw [(committed_entries_applied_in_order idA 0 twoSlices [] hok (by decide)).1]
  decide

end DRoole
