import DRoole.Raft.Matching

/-!
# Progress markers

`current_term`, `commit_index` and `last_applied` go up, with `last_applied ≤
commit_index ≤ last_log_index`. The append loop of `raft_handle_append_entries`
does not look at `commit_index`: it cuts the log wherever an entry conflicts,
and it appends after a gap. `Retains` rules these requests out, and the
elections that overflow the term.
-/

namespace DRoole

open Lib

/-- The entries of a request follow its `prev_log_index`; `entry_count` is 32 bits wide. -/
def Consecutive : ApiCall → Prop
  | .appendEntries _ req es => es.length < 2 ^ 32 ∧ Indexed req.prevLogIndex es
  | _ => True

/-- No election overflows the term, and the entries of an accepted request
start within the log and conflict with no committed one. -/
def Retains (nd : RaftNode) : ApiCall → Prop
  | .tick env => ¬ termOverflows nd env.now
  | .appendEntries _ req es => TakesEntries nd req → es ≠ [] →
      req.prevLogIndex.toNat ≤ nd.log.length ∧
      ∀ j e old, es[j]? = some e → req.prevLogIndex.toNat + j < nd.commitIndex.toNat →
        nd.log[req.prevLogIndex.toNat + j]? = some old → old.term = e.term
  | _ => True

/-! ## Terms -/

theorem Move.term_le {l : Label} {h h' : Host} (hm : Move l h h')
    (hl : l = .campaign → h.node.currentTerm + 1 ≠ 0) :
    h.node.currentTerm ≤ h'.node.currentTerm := by
  cases hm with
  | follow t ht => exact UInt64.le_of_lt ht
  | campaign now rand =>
    show h.node.currentTerm ≤ h.node.currentTerm + 1
    have := hl rfl
    grind
  | _ => exact UInt64.le_refl _

/-- No call takes the node back to an earlier term, but for the overflow. -/
theorem Host.call_term_le {h : Host} {c : ApiCall}
    (hc : ∀ env, c = .tick env → ¬ termOverflows h.node env.now) :
    h.node.currentTerm ≤ (h.call c).node.currentTerm := by
  refine (h.call_moves c).invariant (P := fun g => h.node.currentTerm ≤ g.node.currentTerm)
    (UInt64.le_refl _) fun x y l hx hl hm => UInt64.le_trans hx (hm.term_le fun e => ?_)
  subst e
  obtain ⟨env, rfl, rfl, hs, hd⟩ := callLabel_campaign hl
  exact fun h0 => hc env rfl ⟨hs, hd, h0⟩

/-! ## Runs -/

theorem AppliedOk.retained {h : Host} (hok : AppliedOk h) (hfit : Addressable h.node)
    {now : UInt64} {req : RaftAppendEntriesReq} {es : List RaftLogEntry}
    (hnum : Consecutive (.appendEntries now req es))
    (hret : Retains h.node (.appendEntries now req es)) (hacc : TakesEntries h.node req) :
    LogKept h.node (es.foldl appendEntry h.node).log := by
  obtain ⟨hcount, hindex⟩ := hnum
  have hlen : 40 * h.node.log.length < 2 ^ 64 := hfit
  by_cases hes : es = []
  · subst hes
    exact ⟨hok.indexed, by show h.node.log.length < _; omega, rfl⟩
  obtain ⟨hprev, hagree⟩ := hret hacc hes
  exact hok.logKept hfit hprev (by omega) (fun j e he => hindex.toNat (by omega) he) hagree

def ProgressOk (nd : RaftNode) (c : ApiCall) : Prop :=
  Addressable nd ∧ Consecutive c ∧ Retains nd c

/-- **Every call makes progress.** -/
theorem AppliedOk.progress (h : Host) (c : ApiCall) (hok : AppliedOk h)
    (hc : ProgressOk h.node c) : Proceeds h (h.call c) := by
  refine hok.call hc.1 fun now req es e hacc => ?_
  subst e
  exact hok.retained hc.1 hc.2.1 hc.2.2 hacc

theorem Host.calls_term_le {cs : List ApiCall} {h : Host} (hcs : Host.CallsOk ProgressOk h cs) :
    h.node.currentTerm ≤ (h.calls cs).node.currentTerm := by
  induction cs generalizing h with
  | nil => exact UInt64.le_refl _
  | cons c cs ih =>
    refine UInt64.le_trans (Host.call_term_le fun env e => ?_) (ih hcs.2)
    subst e
    exact hcs.1.2.2

/-- **Progress markers never go back.** From `raft_init`, under calls that
retain what is committed, the three markers are in order after every sequence
of calls `cs`; further calls `ds` lower none of them, and leave every entry up
to `commit_index` in place. -/
theorem progress_never_goes_back (nodeId : CString) (rand : UInt64) (cs ds : List ApiCall)
    (hok : Host.CallsOk ProgressOk (raftInit nodeId rand).host (cs ++ ds))
    (hfit : Addressable ((raftInit nodeId rand).host.calls cs).node) :
    let h := (raftInit nodeId rand).host.calls cs
    let later := (h.calls ds).node
    h.node.lastApplied ≤ h.node.commitIndex ∧ h.node.commitIndex ≤ lastLogIndex h.node ∧
      h.node.currentTerm ≤ later.currentTerm ∧ h.node.commitIndex ≤ later.commitIndex ∧
      h.node.lastApplied ≤ later.lastApplied ∧
      ∀ i, 1 ≤ i → i ≤ h.node.commitIndex → getLogEntry later i = getLogEntry h.node i ∧
        ∃ e, getLogEntry h.node i = some e ∧ e.index = i := by
  intro h later
  obtain ⟨hcs, hds⟩ := Host.callsOk_append.1 hok
  have hnow : AppliedOk h := ((appliedOk_init nodeId rand).calls AppliedOk.progress hcs).ok
  have hlater : Proceeds h (h.calls ds) := hnow.calls AppliedOk.progress hds
  exact ⟨UInt64.le_iff_toNat_le.2 hnow.applied_le, hnow.commit_le_last hfit,
    Host.calls_term_le hds, hlater.ext.commit, hlater.ext.applied,
    fun i hpos hi => hlater.entry_kept hnow hpos hi⟩

theorem progress_two_slices :
    let h := (raftInit idA 0).host.calls twoSlices
    h.node.lastApplied ≤ h.node.commitIndex ∧ h.node.commitIndex ≤ lastLogIndex h.node ∧
      h.node.lastApplied = 2 := by
  have hok : Host.CallsOk ProgressOk (raftInit idA 0).host (twoSlices ++ []) := by
    refine ⟨⟨by decide, ⟨by decide, by decide⟩, fun _ _ => ⟨by decide, ?_⟩⟩,
      ⟨by decide, ⟨by decide, by decide⟩, fun _ _ => ⟨by decide, ?_⟩⟩,
      ⟨by decide, trivial, ?_⟩, trivial⟩
    · exact fun j e old _ hj => absurd hj (Nat.not_lt_zero _)
    · exact fun j e old _ hj => absurd hj (Nat.not_lt_zero _)
    · show ¬ termOverflows _ _
      decide
  obtain ⟨happlied, hcommit, -⟩ := progress_never_goes_back idA 0 twoSlices [] hok (by decide)
  exact ⟨happlied, hcommit, by decide⟩

/-- A leader of term 2 without the entries of `twoSlices`: its request replaces
a committed and applied entry, and the commit index falls below `last_applied`. -/
theorem progress_goes_back :
    let h := (raftInit idA 0).host.calls twoSlices
    let call : ApiCall := .appendEntries 40 ⟨2, idC, 0, 0, 3, 1⟩ [⟨2, 1, [9], 0⟩]
    (∀ c ∈ twoSlices ++ [call], Consecutive c) ∧
      (h.call call).node.commitIndex < h.node.commitIndex ∧
      (h.call call).node.commitIndex < (h.call call).node.lastApplied ∧
      getLogEntry (h.call call).node 1 ≠ getLogEntry h.node 1 := by
  refine ⟨?_, by decide +kernel, by decide +kernel, by decide +kernel⟩
  simp only [twoSlices, List.cons_append, List.nil_append, List.forall_mem_cons]
  exact ⟨⟨by decide, by decide⟩, ⟨by decide, by decide⟩, trivial, ⟨by decide, by decide⟩, nofun⟩

end DRoole
