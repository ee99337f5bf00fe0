import DRoole.Raft.Core

/-!
# Sequences of public calls

`Host.call` is one call of the public API at a node, with its arguments and
what it takes from outside; `Host.calls` is a sequence of them. `lastRecord` is
what the persist calls of a trace leave on disk.
-/

namespace DRoole

open Lib

inductive ApiCall where
  | tick (env : TickEnv)
  | submit (alloc : Alloc) (data : Bytes)
  | addPeer (realloc : Bool) (peerId ip : CString) (port : UInt16)
  | removePeer (peerId : CString)
  | requestVote (now : UInt64) (req : RaftRequestVoteReq)
  | appendEntries (now : UInt64) (req : RaftAppendEntriesReq) (entries : List RaftLogEntry)
  /-- `raft_handle_install_snapshot`, which only reports the term. -/
  | installSnapshot
  | requestVoteResponse (alloc : Alloc) (peerId : CString) (resp : RaftRequestVoteResp)
  | appendEntriesResponse (peerId : CString) (resp : RaftAppendEntriesResp)
  deriving DecidableEq, Repr

namespace Host

def call (h : Host) : ApiCall → Host
  | .tick env => raftTick h env
  | .submit alloc data => (raftSubmit h alloc data).1
  | .addPeer realloc peerId ip port => h.modify fun nd => (raftAddPeer nd realloc peerId ip port).1
  | .removePeer peerId => h.modify fun nd => (raftRemovePeer nd peerId).1
  | .requestVote now req => (raftHandleRequestVote h now req).1
  | .appendEntries now req entries => (raftHandleAppendEntries h now req entries).1
  | .installSnapshot => h
  | .requestVoteResponse alloc peerId resp => raftHandleRequestVoteResponse h alloc peerId resp
  | .appendEntriesResponse peerId resp => raftHandleAppendEntriesResponse h peerId resp

def calls (h : Host) (cs : List ApiCall) : Host := cs.foldl call h

/-- Every call of the sequence meets `ok` at the node it is made on. -/
def CallsOk (ok : RaftNode → ApiCall → Prop) : Host → List ApiCall → Prop
  | _, [] => True
  | h, c :: cs => ok h.node c ∧ CallsOk ok (h.call c) cs

instance decidableCallsOk {ok : RaftNode → ApiCall → Prop} [∀ nd c, Decidable (ok nd c)] :
    (h : Host) → (cs : List ApiCall) → Decidable (CallsOk ok h cs)
  | _, [] => .isTrue trivial
  | h, c :: cs =>
    have : Decidable (CallsOk ok (h.call c) cs) := decidableCallsOk (h.call c) cs
    inferInstanceAs (Decidable (ok h.node c ∧ CallsOk ok (h.call c) cs))

theorem callsOk_true (h : Host) (cs : List ApiCall) : CallsOk (fun _ _ => True) h cs := by
  induction cs generalizing h with
  | nil => trivial
  | cons c cs ih => exact ⟨trivial, ih _⟩

theorem callsOk_append {ok : RaftNode → ApiCall → Prop} {h : Host} {cs ds : List ApiCall} :
    CallsOk ok h (cs ++ ds) ↔ CallsOk ok h cs ∧ CallsOk ok (h.calls cs) ds := by
  induction cs generalizing h with
  | nil => simp [CallsOk, calls]
  | cons c cs ih =>
    simp only [List.cons_append, CallsOk, ih, and_assoc]
    rfl

/-- **Invariant rule** for sequences of calls. -/
theorem calls_induct {ok : RaftNode → ApiCall → Prop} {P : Host → Prop}
    (hstep : ∀ h c, P h → ok h.node c → P (h.call c)) :
    ∀ {cs : List ApiCall} {h : Host}, P h → CallsOk ok h cs → P (h.calls cs)
  | [], _, hp, _ => hp
  | c :: cs, h, hp, hok => by
    show P ((h.call c).calls cs)
    exact calls_induct hstep (hstep h c hp hok.1) hok.2

end Host

/-! ## The record on disk -/

/-- The record on disk after the persists of a trace. -/
def lastRecord (d : Durable) (tr : List Stamp) : Durable :=
  tr.foldl (fun d s => if s.call = .persist then s.node.durable else d) d

@[simp] theorem lastRecord_nil (d : Durable) : lastRecord d [] = d := rfl

@[simp] theorem lastRecord_snoc (d : Durable) (tr : List Stamp) (s : Stamp) :
    lastRecord d (tr ++ [s]) = if s.call = .persist then s.node.durable else lastRecord d tr := by
  simp only [lastRecord, List.foldl_append, List.foldl_cons, List.foldl_nil]

/-! ## Names for concrete runs -/

def idA : CString := ⟨[97], by decide⟩
def idB : CString := ⟨[98], by decide⟩
def idC : CString := ⟨[99], by decide⟩
def idD : CString := ⟨[100], by decide⟩

def plainTick (now : UInt64) : ApiCall :=
  .tick { now := now, electionNow := now, rand := 0, voteReplies := [], appendReplies := [] }

end DRoole
