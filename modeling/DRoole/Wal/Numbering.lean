import DRoole.Raft.LogIndex
import DRoole.Raft.Reply
import DRoole.Wal.Snapshot

/-!
# Positions and indices

`raft_submit`, the append loop of `raft_handle_append_entries` and the
compaction of `raft_save_snapshot` each write the log array, and none of them
checks that the entry at position `a` has index `last_snapshot_index + a + 1`.
An older snapshot, a request that starts inside the compacted part and one that
starts past the end all break it. Every run without these keeps it.
-/

namespace DRoole

open Lib

/-- The array position of every entry goes with its index, and `get_log_entry`
finds the entry it is asked for. -/
def PositionsOk (nd : RaftNode) : Prop :=
  (∀ a e, nd.log[a]? = some e → e.index = nd.lastSnapshotIndex + UInt64.ofNat a + 1) ∧
    ∀ i e, getLogEntry nd i = some e → e.index = i

theorem positionsOk_of_indexed {nd : RaftNode} (h : Indexed nd.lastSnapshotIndex nd.log) :
    PositionsOk nd := ⟨h, fun _ _ => index_of_getLogEntry h⟩

/-! ## Runs with snapshots -/

inductive LogAction where
  | call (c : ApiCall)
  | saveSnapshot (answer : Nat → Option Nat) (s : Snapshot)

/-- A node and its disk take a call, or save a snapshot with the answers of the system. -/
def logStep : Host × Disk → LogAction → Option (Host × Disk)
  | (h, disk), .call c => some (h.call c, disk)
  | (h, disk), .saveSnapshot answer s =>
    let r := raftSaveSnapshot answer h.node s disk
    some ({ h with node := r.1 }, r.2.1)

/-- Entries are numbered from the request's previous index on, which is in the
node's log or its snapshot; a snapshot is not older than the last one; and no
index passes `2^64 - 1`. -/
def KeepsNumbering (s : Host × Disk) : LogAction → Prop
  | .call (.appendEntries _ req es) =>
    Indexed req.prevLogIndex es ∧ (TakesEntries s.1.node req → es ≠ [] →
      s.1.node.lastSnapshotIndex.toNat ≤ req.prevLogIndex.toNat ∧
      req.prevLogIndex.toNat ≤ s.1.node.lastSnapshotIndex.toNat + s.1.node.log.length ∧
      req.prevLogIndex.toNat + es.length < 2 ^ 64)
  | .call _ => True
  | .saveSnapshot _ snap => s.1.node.log ≠ [] →
      s.1.node.lastSnapshotIndex ≤ snap.index ∧
      s.1.node.lastSnapshotIndex.toNat + s.1.node.log.length < 2 ^ 64

instance (s : Host × Disk) : (a : LogAction) → Decidable (KeepsNumbering s a)
  | .call (.appendEntries _ req es) =>
    inferInstanceAs (Decidable (Indexed req.prevLogIndex es ∧ (TakesEntries s.1.node req → es ≠ [] →
      s.1.node.lastSnapshotIndex.toNat ≤ req.prevLogIndex.toNat ∧
      req.prevLogIndex.toNat ≤ s.1.node.lastSnapshotIndex.toNat + s.1.node.log.length ∧
      req.prevLogIndex.toNat + es.length < 2 ^ 64)))
  | .saveSnapshot _ snap =>
    inferInstanceAs (Decidable (s.1.node.log ≠ [] →
      s.1.node.lastSnapshotIndex ≤ snap.index ∧
      s.1.node.lastSnapshotIndex.toNat + s.1.node.log.length < 2 ^ 64))
  | .call (.tick _) | .call (.submit ..) | .call (.addPeer ..) | .call (.removePeer _)
  | .call (.requestVote ..) | .call .installSnapshot | .call (.requestVoteResponse ..)
  | .call (.appendEntriesResponse ..) => .isTrue trivial

/-! ## The three writers -/

theorem Move.indexed {l : Label} {h h' : Host} (hm : Move l h h') (hl : ∀ es, l ≠ .accept es)
    (hidx : Indexed h.node.lastSnapshotIndex h.node.log) :
    Indexed h'.node.lastSnapshotIndex h'.node.log := by
  cases hm with
  | append data => exact indexed_submitEntry hidx data
  | accept es => exact absurd rfl (hl es)
  | _ => exact hidx

theorem indexed_foldl_appendEntry {nd : RaftNode} {es : List RaftLogEntry} {prev : UInt64}
    (hidx : Indexed nd.lastSnapshotIndex nd.log) (hes : Indexed prev es)
    (hlow : nd.lastSnapshotIndex.toNat ≤ prev.toNat)
    (hhigh : prev.toNat ≤ nd.lastSnapshotIndex.toNat + nd.log.length)
    (hlt : prev.toNat + es.length < 2 ^ 64) :
    Indexed nd.lastSnapshotIndex (es.foldl appendEntry nd).log := by
  have hprev : nd.lastSnapshotIndex + UInt64.ofNat (prev.toNat - nd.lastSnapshotIndex.toNat) = prev := by
    apply UInt64.toNat_inj.1
    rw [UInt64.toNat_add, UInt64.toNat_ofNat']
    have := prev.toNat_lt
    omega
  rw [foldl_appendEntry_log (k := prev.toNat - nd.lastSnapshotIndex.toNat) fun j e he => ?_]
  · exact indexed_mergeLog (by omega) hidx (by rwa [hprev])
  · rw [hes.toNat hlt he]
    omega

theorem compactLog_log {nd : RaftNode} {s : Snapshot} {d : Nat}
    (hlog : NumberedFrom nd.lastSnapshotIndex nd.log)
    (hd : s.index.toNat = nd.lastSnapshotIndex.toNat + d) :
    (compactLog s nd).log = nd.log.drop d := by
  have hfront : (nd.log.take d).filter (fun e => e.index > s.index) = [] := by
    refine List.filter_eq_nil_iff.2 fun e he => ?_
    obtain ⟨k, hk⟩ := List.getElem?_of_mem he
    have hkd : k < d := by
      have := (List.getElem?_eq_some_iff.1 hk).1
      rw [List.length_take] at this
      omega
    rw [List.getElem?_take_of_lt hkd] at hk
    have hidx := hlog.toNat_index hk
    simp only [gt_iff_lt, decide_eq_true_eq, UInt64.lt_iff_toNat_lt]
    omega
  have hback : (nd.log.drop d).filter (fun e => e.index > s.index) = nd.log.drop d := by
    refine List.filter_eq_self.2 fun e he => ?_
    obtain ⟨k, hk⟩ := List.getElem?_of_mem he
    rw [List.getElem?_drop] at hk
    have hidx := hlog.toNat_index hk
    simp only [gt_iff_lt, decide_eq_true_eq, UInt64.lt_iff_toNat_lt]
    omega
  show nd.log.filter _ = _
  nth_rewrite 1 [← List.take_append_drop d nd.log]
  rw [List.filter_append, hfront, hback, List.nil_append]

theorem numberedFrom_compactLog {nd : RaftNode} {s : Snapshot}
    (hlog : NumberedFrom nd.lastSnapshotIndex nd.log) (hle : nd.lastSnapshotIndex ≤ s.index) :
    NumberedFrom s.index (compactLog s nd).log := by
  obtain ⟨d, hd⟩ := Nat.exists_eq_add_of_le (UInt64.le_iff_toNat_le.1 hle)
  rw [compactLog_log hlog hd]
  refine .of_toNat_index fun k e he => ?_
  rw [List.getElem?_drop] at he
  have hidx := hlog.toNat_index he
  omega

theorem indexed_compactLog {nd : RaftNode} {s : Snapshot}
    (hidx : Indexed nd.lastSnapshotIndex nd.log) (hle : nd.lastSnapshotIndex ≤ s.index)
    (hlt : nd.lastSnapshotIndex.toNat + nd.log.length < 2 ^ 64) :
    Indexed s.index (compactLog s nd).log :=
  (numberedFrom_compactLog ⟨hidx, hlt⟩ hle).indexed

theorem indexed_appendEntries {h : Host} (hidx : Indexed h.node.lastSnapshotIndex h.node.log)
    (now : UInt64) {req : RaftAppendEntriesReq} {es : List RaftLogEntry}
    (hes : Indexed req.prevLogIndex es)
    (hrange : TakesEntries h.node req → es ≠ [] →
      h.node.lastSnapshotIndex.toNat ≤ req.prevLogIndex.toNat ∧
      req.prevLogIndex.toNat ≤ h.node.lastSnapshotIndex.toNat + h.node.log.length ∧
      req.prevLogIndex.toNat + es.length < 2 ^ 64) :
    let nd := (raftHandleAppendEntries h now req es).1.node
    Indexed nd.lastSnapshotIndex nd.log := by
  dsimp only
  by_cases htake : TakesEntries h.node req
  · obtain ⟨-, -, hlog, hsnap, -⟩ := raftHandleAppendEntries_accepted now es htake
    rw [hlog, hsnap]
    cases es with
    | nil => exact hidx
    | cons e es =>
      obtain ⟨hlow, hhigh, hlt⟩ := hrange htake (List.cons_ne_nil e es)
      exact indexed_foldl_appendEntry hidx hes hlow hhigh hlt
  · obtain ⟨-, hlog, hsnap, -⟩ := raftHandleAppendEntries_refused now es htake
    rwa [hlog, hsnap]

/-! ## The result -/

theorem indexed_logStep {s s' : Host × Disk} {a : LogAction}
    (hidx : Indexed s.1.node.lastSnapshotIndex s.1.node.log) (ha : KeepsNumbering s a)
    (hs : logStep s a = some s') : Indexed s'.1.node.lastSnapshotIndex s'.1.node.log := by
  obtain ⟨h, disk⟩ := s
  cases a with
  | call c =>
    cases hs
    show Indexed (h.call c).node.lastSnapshotIndex (h.call c).node.log
    by_cases hc : ∃ now req es, c = .appendEntries now req es
    · obtain ⟨now, req, es, rfl⟩ := hc
      exact indexed_appendEntries hidx now ha.1 ha.2
    · refine (h.call_moves c).invariant
        (P := fun g : Host => Indexed g.node.lastSnapshotIndex g.node.log) hidx
        fun x y l hx hk hl => ?_
      refine hl.indexed (fun es e => hc ?_) hx
      subst e
      obtain ⟨now, req, e⟩ := callLabel_accept hk
      exact ⟨now, req, es, e⟩
  | saveSnapshot answer snap =>
    cases hs
    show Indexed (raftSaveSnapshot answer h.node snap disk).1.lastSnapshotIndex
      (raftSaveSnapshot answer h.node snap disk).1.log
    unfold raftSaveSnapshot
    dsimp only
    split
    · exact hidx
    · show Indexed snap.index (compactLog snap h.node).log
      by_cases hnil : h.node.log = []
      · have hempty : (compactLog snap h.node).log = [] := by
          show h.node.log.filter _ = []
          rw [hnil, List.filter_nil]
        rw [hempty]
        exact Indexed.nil _
      · obtain ⟨hle, hlt⟩ := ha hnil
        exact indexed_compactLog hidx hle hlt

/-- **Positions go with indices** in every run from `raft_init` that keeps the numbering. -/
theorem log_positions {nodeId : CString} {rand : UInt64} {disk : Disk} {as : List LogAction}
    {s : Host × Disk}
    (hal : Along logStep KeepsNumbering ((raftInit nodeId rand).host, disk) as)
    (hr : run logStep ((raftInit nodeId rand).host, disk) as = some s) : PositionsOk s.1.node := by
  apply positionsOk_of_indexed
  exact run_induct (P := fun s : Host × Disk => Indexed s.1.node.lastSnapshotIndex s.1.node.log)
    (fun _ _ _ hidx ha hs => indexed_logStep hidx ha hs) (Indexed.nil _) hal hr

def firstEntries : LogAction :=
  .call (.appendEntries 10 ⟨1, idB, 0, 0, 0, 2⟩ [⟨1, 1, [7], 0⟩, ⟨1, 2, [8], 0⟩])

/-- Two entries arrive, the first is compacted, and a third follows. -/
def compactedRun : List LogAction :=
  [firstEntries, .saveSnapshot (fun _ => none) ⟨1, 1, [9]⟩,
   .call (.appendEntries 20 ⟨1, idB, 2, 1, 0, 1⟩ [⟨1, 3, [9], 0⟩])]

/-- Two entries arrive, the first is compacted, and they arrive again. -/
def repeatedRun : List LogAction :=
  [firstEntries, .saveSnapshot (fun _ => none) ⟨1, 1, [9]⟩, firstEntries]

/-- What a run from a fresh node and an empty disk leaves. -/
def logAfter (as : List LogAction) : Host × Disk :=
  (run logStep ((raftInit idA 0).host, fun _ => none) as).getD ((raftInit idA 0).host, fun _ => none)

theorem run_compactedRun : run logStep ((raftInit idA 0).host, fun _ => none) compactedRun =
    some (logAfter compactedRun) := rfl

theorem run_repeatedRun : run logStep ((raftInit idA 0).host, fun _ => none) repeatedRun =
    some (logAfter repeatedRun) := rfl

theorem repeatedRun_log :
    (logAfter repeatedRun).1.node.log = [⟨1, 2, [8], 0⟩, ⟨1, 1, [7], 0⟩] := rfl

theorem repeatedRun_marker : (logAfter repeatedRun).1.node.lastSnapshotIndex = 1 := rfl

theorem log_positions_compacted :
    ∃ s, run logStep ((raftInit idA 0).host, fun _ => none) compactedRun = some s ∧
      s.1.node.log.map (·.index) = [2, 3] ∧ PositionsOk s.1.node := by
  have hal : Along logStep KeepsNumbering ((raftInit idA 0).host, fun _ => none) compactedRun := by
    decide +kernel
  have hlog : (logAfter compactedRun).1.node.log.map (·.index) = [2, 3] := by decide +kernel
  exact ⟨_, run_compactedRun, hlog, log_positions hal run_compactedRun⟩

/-- The entry of index 1 ends up behind that of index 2, at the place of index 3. -/
theorem repeated_request_misplaces_entry :
    ∃ s, run logStep ((raftInit idA 0).host, fun _ => none) repeatedRun = some s ∧
      s.1.node.log.map (·.index) = [2, 1] ∧ ¬ PositionsOk s.1.node := by
  have hlog := repeatedRun_log
  have hmark := repeatedRun_marker
  have hrun := run_repeatedRun
  generalize logAfter repeatedRun = s at *
  refine ⟨s, hrun, by rw [hlog]; rfl, fun hpos => ?_⟩
  have hbad := hpos.1 1 ⟨1, 1, [7], 0⟩ (by rw [hlog]; rfl)
  rw [hmark] at hbad
  exact absurd hbad (by decide)

end DRoole
