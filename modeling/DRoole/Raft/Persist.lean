import DRoole.Raft.Moves

/-!
# Persist before speaking

`Spoken d tr`: in the trace `tr`, started with record `d` on disk, the record
is the node's own term, vote and log at every `send_rpc`. `Synced d h` adds
that it is so now. Every move keeps a host synced: a move that changes the term,
the vote or the log persists before it ends.
-/

namespace DRoole

open Lib

/-- At every `send_rpc` the record on disk is the node's. -/
def Spoken (d : Durable) (tr : List Stamp) : Prop :=
  ∀ pre s post, tr = pre ++ s :: post → (∃ p req, s.call = .sendRpc p req) →
    lastRecord d pre = s.node.durable

structure Synced (d : Durable) (h : Host) : Prop where
  record : lastRecord d h.trace = h.node.durable
  spoken : Spoken d h.trace

theorem spoken_nil (d : Durable) : Spoken d [] := by
  intro pre s post e
  cases pre <;> cases e

theorem Spoken.snoc {d : Durable} {tr : List Stamp} {s : Stamp} (h : Spoken d tr)
    (hs : (∃ p req, s.call = .sendRpc p req) → lastRecord d tr = s.node.durable) :
    Spoken d (tr ++ [s]) := by
  intro pre s' post e hsend
  rcases List.eq_nil_or_concat post with rfl | ⟨post, t, rfl⟩
  · obtain ⟨hpre, e⟩ := List.append_inj' e rfl
    obtain rfl : s = s' := (List.cons.inj e).1
    rw [← hpre]
    exact hs hsend
  · rw [List.concat_eq_append, ← List.cons_append, ← List.append_assoc] at e
    exact h pre s' post (List.append_inj' e rfl).1 hsend

theorem synced_persistState {d : Durable} {h : Host} (hs : Spoken d h.trace) :
    Synced d (persistState h) :=
  ⟨by simp [persistState], hs.snoc (by simp)⟩

namespace Synced

variable {d : Durable} {h h' : Host}

theorem modify (hs : Synced d h) {f : RaftNode → RaftNode}
    (hf : (f h.node).durable = h.node.durable) : Synced d (h.modify f) :=
  ⟨hs.record.trans hf.symm, hs.spoken⟩

theorem emit (hs : Synced d h) (c : Call) : Synced d (h.emit c) := by
  refine ⟨?_, hs.spoken.snoc fun _ => hs.record⟩
  simp only [Host.emit_trace, Host.emit_node, lastRecord_snoc]
  split
  · rfl
  · exact hs.record

/-- A vote is marked before it is persisted; nothing is sent in between. -/
theorem vote_persist (hs : Synced d h) (f : RaftNode → RaftNode) (x : CString) :
    Synced d (persistState ((h.modify f).emit (.vote x))) :=
  synced_persistState (hs.spoken.snoc (by simp))

theorem move {l : Label} (hs : Synced d h) (hm : Move l h h') : Synced d h' := by
  cases hm with
  | quiet b => exact hs.modify rfl
  | reconfigure ps => exact hs.modify rfl
  | send id req => exact hs.emit _
  | follow t ht => exact synced_persistState hs.spoken
  | yield hr => exact synced_persistState hs.spoken
  | campaign now rand => exact hs.vote_persist _ _
  | grant req ht hv hl => exact hs.vote_persist _ _
  | count id p hc hp hg => exact hs.modify rfl
  | elect hc hw => exact (hs.modify (f := takeLead) rfl).emit _
  | append data hl => exact synced_persistState hs.spoken
  | accept es hf => exact synced_persistState hs.spoken
  | ack id m hl => exact hs.modify rfl
  | backOff id p hl hp hn => exact hs.modify rfl
  | commit n => exact (hs.emit _).modify rfl
  | apply e hlt he => exact (hs.modify (f := bumpApplied) rfl).emit _
  | skip hlt he => exact hs.modify rfl

theorem call (hs : Synced d h) (c : ApiCall) : Synced d (h.call c) :=
  (h.call_moves c).invariant hs fun _ _ _ hx _ hm => hx.move hm

end Synced

/-- **Persist before speaking.** From `raft_init`, after any sequence of public
calls, the last record is the node's term, vote and log, and it was so at every
`send_rpc` on the way. -/
theorem persist_before_speaking (nodeId : CString) (rand : UInt64) (cs : List ApiCall) :
    let h := (raftInit nodeId rand).host.calls cs
    lastRecord Durable.empty h.trace = h.node.durable ∧ Spoken Durable.empty h.trace := by
  have hinit : Synced Durable.empty (raftInit nodeId rand).host := ⟨rfl, spoken_nil _⟩
  have hall : Synced Durable.empty ((raftInit nodeId rand).host.calls cs) :=
    Host.calls_induct (fun h c hs (_ : True) => hs.call c) hinit (Host.callsOk_true _ cs)
  exact ⟨hall.record, hall.spoken⟩

end DRoole
