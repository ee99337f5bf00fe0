import DRoole.Raft.PersistFailure
import DRoole.Wal.Recovery

/-!
# Allocation failure and the log

The three functions that write log slots, with every allocation they make:
`raft_submit`, `raft_handle_append_entries` and `raft_restore_state`. A call is
followed by its `MemEvent`s. `raft_submit` and `raft_restore_state` look at what
their allocations return before they write to the log. The append loop of
`raft_handle_append_entries` looks at nothing: when the log cannot grow it
writes behind the array, and when there is no memory for the data it keeps an
entry without a buffer and copies to NULL.
-/

namespace DRoole

open Lib

/-- What a call does to the memory of the log. -/
inductive MemEvent where
  /-- A `malloc` or `realloc`, and whether it succeeds. -/
  | alloc (ok : Bool)
  /-- A log slot is written when `log_count` and `log_capacity` are these. -/
  | slotWrite (count capacity : Nat)
  /-- An entry with this `data_len` is kept, with a buffer for it or with NULL. -/
  | store (buffer : Bool) (dataLen : Nat)
  deriving DecidableEq, Repr

/-- Slots are written within the array, and data has its buffer. -/
def MemEvent.Ok : MemEvent → Prop
  | .alloc _ => True
  | .slotWrite count capacity => count ≤ capacity
  | .store buffer dataLen => buffer = true ∨ dataLen = 0

instance : DecidablePred MemEvent.Ok
  | .alloc _ => .isTrue trivial
  | .slotWrite .. => inferInstanceAs (Decidable (_ ≤ _))
  | .store .. => inferInstanceAs (Decidable (_ ∨ _))

def growth (nd : RaftNode) (realloc : Bool) : List MemEvent :=
  if nd.log.length ≥ nd.logCapacity then [.alloc realloc] else []

/-! ## The calls -/

def submitEvents (h : Host) (alloc : Alloc) (data : Bytes) : List MemEvent :=
  if h.node.state ≠ .leader then []
  else
    let nd := ensureLogCapacity h.node alloc.realloc
    growth h.node alloc.realloc ++
      if nd.log.length ≥ nd.logCapacity then []
      else .slotWrite (nd.log.length + 1) nd.logCapacity :: .alloc alloc.malloc ::
        -- without memory `log_count` goes back
        if alloc.malloc then [.store true data.length] else []

/-- A new slot of the append loop; `none` where the process is lost. -/
def pushSlot (a : Alloc) (nd : RaftNode) (e : RaftLogEntry) : List MemEvent × Option RaftNode :=
  let grown := ensureLogCapacity nd a.realloc
  let write := growth nd a.realloc ++ [.slotWrite (grown.log.length + 1) grown.logCapacity]
  if grown.log.length ≥ grown.logCapacity then (write, none)
  else
    let events := write ++ [.alloc a.malloc, .store a.malloc e.data.length]
    if a.malloc = false ∧ 0 < e.data.length then (events, none)
    else (events, some { grown with log := grown.log ++ [e] })

def appendLoop : List (RaftLogEntry × Alloc) → RaftNode → List MemEvent × Option RaftNode
  | [], nd => ([], some nd)
  | (e, a) :: es, nd =>
    let nd := dropConflict nd e
    match getLogEntry nd e.index with
    | some _ => appendLoop es nd
    | none =>
      let r := pushSlot a nd e
      match r.2 with
      | none => r
      | some nd =>
        let rest := appendLoop es nd
        (r.1 ++ rest.1, rest.2)

def raftHandleAppendEntriesMem (h : Host) (now : UInt64) (req : RaftAppendEntriesReq)
    (entries : List (RaftLogEntry × Alloc)) :
    List MemEvent × Option (Host × RaftAppendEntriesResp) :=
  let resp : RaftAppendEntriesResp :=
    { term := h.node.currentTerm, success := 0, matchIndex := 0 }
  let h := stepDown h req.term
  if req.term < h.node.currentTerm then ([], some (h, resp))
  else
    let h := acceptLeader h now req
    if !prevMatches h.node req then
      ([], some (h, { resp with matchIndex := h.node.lastSnapshotIndex }))
    else
      let r := appendLoop entries h.node
      (r.1, r.2.map fun nd =>
        let h := persistState <| h.modify fun _ => nd
        let h := followCommit h req.leaderCommit
        (h, { resp with success := 1, matchIndex := lastLogIndex h.node }))

/-- The next bytes are an entry header of the right magic. -/
def headerOk (bs : Bytes) : Bool :=
  match readN walEntryHeaderSize bs with
  | none => false
  | some (hdr, _) => (WalEntryHeader.ofBytes hdr).magic = entryMagic

/-- The data and the checksum it announces follow. -/
def bodyOk (bs : Bytes) : Bool :=
  match readN walEntryHeaderSize bs with
  | none => false
  | some (hdr, bs) => (WalEntryHeader.ofBytes hdr).dataLen.toNat + 4 ≤ bs.length

/-- The read loop of `raft_restore_state`, with the buffer in which each checksum
is computed. That one is not looked at. -/
def restoreLoop (alloc : Nat → Alloc) (scratch : Nat → Bool) :
    Nat → RaftNode → Bytes → List MemEvent × Option RaftNode
  | 0, nd, _ => ([], some nd)
  | fuel + 1, nd, bs =>
    let a := alloc nd.log.length
    if !headerOk bs then ([], some nd)
    else if a.malloc = false then ([.alloc false], some nd)
    else if !bodyOk bs then ([.alloc true], some nd)
    else if scratch nd.log.length = false then ([.alloc true, .alloc false], none)
    else match readEntry bs with
      | none => ([.alloc true, .alloc true], some nd)
      | some (e, rest) =>
        if nd.log.length ≥ nd.logCapacity ∧ a.realloc = false then
          ([.alloc true, .alloc true, .alloc false], some nd)
        else
          let grown := ensureLogCapacity nd true
          let r := restoreLoop alloc scratch fuel (pushEntry nd e) rest
          ([.alloc true, .alloc true] ++ growth nd true ++
            [.slotWrite (grown.log.length + 1) grown.logCapacity, .store true e.data.length] ++ r.1,
            r.2)

def raftRestoreStateMem (env : ReadEnv) (scratch : Nat → Bool) (nd : RaftNode) (disk : Disk) :
    List MemEvent × Option (RaftNode × Int) :=
  match openRead env.denied (disk (.wal nd.nodeId)) with
  | .enoent => ([], some (nd, 0))
  | .error => ([], some (nd, -1))
  | .fd bs =>
    match readN walHeaderSize bs with
    | none => ([], some (nd, -1))
    | some (hdrBytes, bs) =>
      let hdr := WalHeader.ofBytes hdrBytes
      if hdr.magic ≠ walMagic then ([], some (nd, -1))
      else
        let r := restoreLoop env.alloc scratch bs.length
          { nd with currentTerm := hdr.currentTerm, votedFor := hdr.votedFor.strncpy 36 } bs
        (r.1, r.2.map fun nd => (nd, 0))

/-! ## One slot -/

/-- `log_count` never passes `log_capacity`. -/
def Fits (nd : RaftNode) : Prop := nd.log.length ≤ nd.logCapacity

instance (nd : RaftNode) : Decidable (Fits nd) := inferInstanceAs (Decidable (_ ≤ _))

section
variable {nd : RaftNode} {a : Alloc}

theorem mem_growth {realloc : Bool} {ev : MemEvent} (hev : ev ∈ growth nd realloc) :
    nd.log.length ≥ nd.logCapacity ∧ ev = .alloc realloc := by
  unfold growth at hev
  split at hev
  · rename_i hfull
    exact ⟨hfull, List.mem_singleton.1 hev⟩
  · cases hev

theorem fits_ensureLogCapacity (hfit : Fits nd) (realloc : Bool) :
    Fits (ensureLogCapacity nd realloc) := by
  unfold Fits at hfit ⊢
  unfold ensureLogCapacity
  split
  · split
    · dsimp only
      split <;> omega
    · exact hfit
  · exact hfit

theorem fits_dropConflict (hfit : Fits nd) (e : RaftLogEntry) : Fits (dropConflict nd e) := by
  unfold dropConflict
  split
  · split
    · exact le_trans (List.length_take_le' ..) hfit
    · exact hfit
  · exact hfit

theorem room_of_realloc (hfit : Fits nd) :
    nd.log.length < (ensureLogCapacity nd true).logCapacity := by
  unfold Fits at hfit
  unfold ensureLogCapacity
  split
  · rw [if_pos rfl]
    dsimp only
    split <;> omega
  · omega

theorem fits_pushEntry (hfit : Fits nd) (e : RaftLogEntry) : Fits (pushEntry nd e) := by
  have hroom := room_of_realloc hfit
  unfold Fits
  rw [pushEntry_log, List.length_append, List.length_singleton]
  exact hroom

/-- With the memory for it, the log grows as if `realloc` never failed. -/
theorem ensureLogCapacity_of_slotOk (hok : slotOk nd a = true) :
    ensureLogCapacity nd a.realloc = ensureLogCapacity nd true ∧
      ∀ ev ∈ growth nd a.realloc, ev = .alloc true := by
  simp only [slotOk, Bool.and_eq_true, Bool.or_eq_true, decide_eq_true_eq] at hok
  by_cases hfull : nd.log.length ≥ nd.logCapacity
  · have hr : a.realloc = true := hok.2.resolve_left (Nat.not_lt.2 hfull)
    rw [hr]
    exact ⟨rfl, fun ev hev => (mem_growth hev).2⟩
  · refine ⟨?_, fun ev hev => absurd (mem_growth hev).1 hfull⟩
    rw [ensureLogCapacity, if_neg hfull, ensureLogCapacity, if_neg hfull]

def AllWell (evs : List MemEvent) : Prop := ∀ ev ∈ evs, ev.Ok ∧ ev ≠ .alloc false

theorem AllWell.append {xs ys : List MemEvent} (hx : AllWell xs) (hy : AllWell ys) :
    AllWell (xs ++ ys) := fun ev hev => (List.mem_append.1 hev).elim (hx ev) (hy ev)

theorem allWell_of_allocs {evs : List MemEvent} (h : ∀ ev ∈ evs, ev = .alloc true) : AllWell evs :=
  fun ev hev => by
    rw [h ev hev]
    exact ⟨trivial, nofun⟩

theorem pushSlot_of_slotOk (hfit : Fits nd) (hok : slotOk nd a = true) (e : RaftLogEntry) :
    (pushSlot a nd e).2 = some (pushEntry nd e) ∧ AllWell (pushSlot a nd e).1 := by
  obtain ⟨hgrow, hevents⟩ := ensureLogCapacity_of_slotOk hok
  have hroom := room_of_realloc hfit
  have hlog := ensureLogCapacity_log nd true
  have hmalloc : a.malloc = true := by
    simp only [slotOk, Bool.and_eq_true] at hok
    exact hok.1
  unfold pushSlot
  dsimp only
  rw [hgrow, hmalloc, hlog, if_neg (by omega), if_neg (by simp)]
  refine ⟨?_, ((allWell_of_allocs hevents).append ?_).append ?_⟩
  · rw [← hlog]
    rfl
  · intro ev hev
    rw [List.mem_singleton.1 hev]
    exact ⟨hroom, nofun⟩
  · intro ev hev
    rcases List.mem_pair.1 hev with rfl | rfl
    · exact ⟨trivial, nofun⟩
    · exact ⟨.inl rfl, nofun⟩

theorem pushSlot_of_not_slotOk (hfit : Fits nd) (hno : slotOk nd a = false) (e : RaftLogEntry) :
    .alloc false ∈ (pushSlot a nd e).1 := by
  unfold Fits at hfit
  by_cases hfull : nd.log.length ≥ nd.logCapacity ∧ a.realloc = false
  · have hgrowth : .alloc false ∈ growth nd a.realloc := by
      rw [growth, if_pos hfull.1, hfull.2]
      exact List.mem_singleton_self _
    unfold pushSlot
    dsimp only
    split
    · exact List.mem_append_left _ hgrowth
    split
    all_goals exact List.mem_append_left _ (List.mem_append_left _ hgrowth)
  · have hmalloc : a.malloc = false := (slotOk_eq_false_iff.1 hno).resolve_right hfull
    have hroom : ¬ (ensureLogCapacity nd a.realloc).log.length ≥
        (ensureLogCapacity nd a.realloc).logCapacity := by
      rw [ensureLogCapacity_log]
      cases hr : a.realloc with
      | true => exact Nat.not_le.2 (room_of_realloc hfit)
      | false =>
        have hlt : ¬ nd.log.length ≥ nd.logCapacity := fun h => hfull ⟨h, hr⟩
        rwa [ensureLogCapacity, if_neg hlt]
    unfold pushSlot
    dsimp only
    rw [if_neg hroom, hmalloc]
    split
    all_goals exact List.mem_append_right _ List.mem_cons_self

theorem fits_pushSlot {nd' : RaftNode} {e : RaftLogEntry} (h : (pushSlot a nd e).2 = some nd') :
    Fits nd' := by
  unfold pushSlot at h
  dsimp only at h
  split at h
  · cases h
  rename_i hroom
  split at h
  · cases h
  · cases h
    unfold Fits
    rw [List.length_append, List.length_singleton]
    exact Nat.not_le.1 hroom

end

/-! ## The append loop -/

/-- Every allocation that the append loop makes succeeds. -/
def LoopAllocs : List (RaftLogEntry × Alloc) → RaftNode → Prop
  | [], _ => True
  | (e, a) :: es, nd =>
    match getLogEntry (dropConflict nd e) e.index with
    | some _ => LoopAllocs es (dropConflict nd e)
    | none => slotOk (dropConflict nd e) a = true ∧ LoopAllocs es (pushEntry (dropConflict nd e) e)

instance decidableLoopAllocs :
    (es : List (RaftLogEntry × Alloc)) → (nd : RaftNode) → Decidable (LoopAllocs es nd)
  | [], _ => .isTrue trivial
  | (e, a) :: es, nd =>
    match h : getLogEntry (dropConflict nd e) e.index with
    | some _ =>
      have := decidableLoopAllocs es (dropConflict nd e)
      decidable_of_iff (LoopAllocs es (dropConflict nd e)) (by rw [LoopAllocs, h])
    | none =>
      have := decidableLoopAllocs es (pushEntry (dropConflict nd e) e)
      decidable_of_iff (slotOk (dropConflict nd e) a = true ∧
        LoopAllocs es (pushEntry (dropConflict nd e) e)) (by rw [LoopAllocs, h])

/-- **The loop with memory** is the loop of the model, and all is well. -/
theorem appendLoop_of_loopAllocs {es : List (RaftLogEntry × Alloc)} {nd : RaftNode}
    (hfit : Fits nd) (hall : LoopAllocs es nd) :
    (appendLoop es nd).2 = some ((es.map Prod.fst).foldl appendEntry nd) ∧
      AllWell (appendLoop es nd).1 := by
  induction es generalizing nd with
  | nil => exact ⟨rfl, nofun⟩
  | cons p es ih =>
    obtain ⟨e, a⟩ := p
    have hdrop := fits_dropConflict hfit e
    unfold LoopAllocs at hall
    rw [appendLoop, List.map_cons, List.foldl_cons]
    dsimp only
    cases hget : getLogEntry (dropConflict nd e) e.index with
    | some old =>
      have happend : appendEntry nd e = dropConflict nd e := by
        unfold appendEntry
        dsimp only
        rw [hget]
      rw [hget] at hall
      rw [happend]
      exact ih hdrop hall
    | none =>
      have happend : appendEntry nd e = pushEntry (dropConflict nd e) e := by
        unfold appendEntry
        dsimp only
        rw [hget]
      rw [hget] at hall
      obtain ⟨hpush, hwell⟩ := pushSlot_of_slotOk hdrop hall.1 e
      obtain ⟨hrest, hwells⟩ := ih (fits_pushEntry hdrop e) hall.2
      dsimp only
      rw [happend, hpush]
      exact ⟨hrest, hwell.append hwells⟩

/-- **The loop without memory** makes an allocation that fails. -/
theorem appendLoop_of_not_loopAllocs {es : List (RaftLogEntry × Alloc)} {nd : RaftNode}
    (hfit : Fits nd) (hno : ¬ LoopAllocs es nd) : .alloc false ∈ (appendLoop es nd).1 := by
  induction es generalizing nd with
  | nil => exact absurd trivial hno
  | cons p es ih =>
    obtain ⟨e, a⟩ := p
    have hdrop := fits_dropConflict hfit e
    unfold LoopAllocs at hno
    rw [appendLoop]
    dsimp only
    cases hget : getLogEntry (dropConflict nd e) e.index with
    | some old =>
      rw [hget] at hno
      exact ih hdrop hno
    | none =>
      rw [hget] at hno
      dsimp only
      by_cases hok : slotOk (dropConflict nd e) a = true
      · rw [(pushSlot_of_slotOk hdrop hok e).1]
        exact List.mem_append_right _ (ih (fits_pushEntry hdrop e) fun h => hno ⟨hok, h⟩)
      · have hfail := pushSlot_of_not_slotOk hdrop (Bool.not_eq_true _ ▸ hok) e
        split
        · exact hfail
        · exact List.mem_append_left _ hfail

theorem fits_appendLoop {es : List (RaftLogEntry × Alloc)} {nd nd' : RaftNode} (hfit : Fits nd)
    (h : (appendLoop es nd).2 = some nd') : Fits nd' := by
  induction es generalizing nd with
  | nil =>
    cases h
    exact hfit
  | cons p es ih =>
    obtain ⟨e, a⟩ := p
    rw [appendLoop] at h
    dsimp only at h
    cases hget : getLogEntry (dropConflict nd e) e.index with
    | some old =>
      rw [hget] at h
      exact ih (fits_dropConflict hfit e) h
    | none =>
      rw [hget] at h
      dsimp only at h
      cases hpush : (pushSlot a (dropConflict nd e) e).2 with
      | none =>
        rw [hpush] at h
        dsimp only at h
        rw [hpush] at h
        cases h
      | some grown =>
        rw [hpush] at h
        exact ih (fits_pushSlot hpush) h

/-! ## The calls, with and without memory -/

def loopNode (h : Host) (now : UInt64) (req : RaftAppendEntriesReq) : RaftNode :=
  (acceptLeader (stepDown h req.term) now req).node

theorem fits_loopNode {h : Host} (hfit : Fits h.node) (now : UInt64) (req : RaftAppendEntriesReq) :
    Fits (loopNode h now req) := by
  unfold loopNode acceptLeader stepDown
  dsimp only
  split
  · split
    · exact hfit
    · exact hfit
  · split
    · exact hfit
    · exact hfit

section
variable {h : Host} (now : UInt64) {req : RaftAppendEntriesReq} (es : List (RaftLogEntry × Alloc))

/-- A request that fails a check allocates nothing. -/
theorem raftHandleAppendEntriesMem_refused (hno : ¬ TakesEntries h.node req) :
    raftHandleAppendEntriesMem h now req es =
      ([], some (raftHandleAppendEntries h now req (es.map Prod.fst))) := by
  unfold raftHandleAppendEntriesMem raftHandleAppendEntries
  dsimp only
  split
  · rfl
  rename_i hstale
  rw [prevMatches_acceptLeader]
  split
  · rfl
  · rename_i hprev
    have hterm := UInt64.not_lt.2 (le_of_stepDown_term (stepDown_term hstale))
    exact absurd ⟨hterm, by simpa using hprev⟩ hno

/-- One that passes them runs the loop, and reports success if the process survives. -/
theorem raftHandleAppendEntriesMem_accepted (hyes : TakesEntries h.node req) :
    (raftHandleAppendEntriesMem h now req es).1 = (appendLoop es (loopNode h now req)).1 ∧
      (∀ h' resp, (raftHandleAppendEntriesMem h now req es).2 = some (h', resp) → resp.success = 1) := by
  have hprev : ¬ (!prevMatches h.node req) = true := by rw [hyes.2]; decide
  unfold raftHandleAppendEntriesMem
  dsimp only
  rw [prevMatches_acceptLeader, if_neg (not_stale hyes.1), if_neg hprev]
  refine ⟨rfl, fun h' resp hr => ?_⟩
  obtain ⟨nd, -, hr⟩ := Option.map_eq_some_iff.1 hr
  rw [← (Prod.mk.inj hr).2]

/-- **With memory** the call is the one of the model. -/
theorem raftHandleAppendEntriesMem_of_loopAllocs (hfit : Fits h.node)
    (hall : TakesEntries h.node req → LoopAllocs es (loopNode h now req)) :
    (raftHandleAppendEntriesMem h now req es).2 =
        some (raftHandleAppendEntries h now req (es.map Prod.fst)) ∧
      AllWell (raftHandleAppendEntriesMem h now req es).1 := by
  by_cases hyes : TakesEntries h.node req
  · obtain ⟨hloop, hwell⟩ := appendLoop_of_loopAllocs (fits_loopNode hfit now req) (hall hyes)
    have hprev : ¬ (!prevMatches h.node req) = true := by rw [hyes.2]; decide
    unfold loopNode at hloop hwell
    unfold raftHandleAppendEntriesMem raftHandleAppendEntries
    dsimp only
    rw [prevMatches_acceptLeader, if_neg (not_stale hyes.1), if_neg hprev, if_neg (not_stale hyes.1),
      if_neg hprev, hloop]
    exact ⟨rfl, hwell⟩
  · rw [raftHandleAppendEntriesMem_refused now es hyes]
    exact ⟨rfl, nofun⟩

theorem fits_followCommit {g : Host} (hfit : Fits g.node) (commit : UInt64) :
    Fits (followCommit g commit).node := by
  unfold followCommit
  split
  · exact hfit
  · exact hfit

theorem fits_appendEntries (hfit : Fits h.node) {h' : Host} {resp : RaftAppendEntriesResp}
    (hr : (raftHandleAppendEntriesMem h now req es).2 = some (h', resp)) : Fits h'.node := by
  unfold raftHandleAppendEntriesMem at hr
  dsimp only at hr
  split at hr
  · cases hr
    unfold stepDown
    split
    · exact hfit
    · exact hfit
  split at hr
  · cases hr
    exact fits_loopNode hfit now req
  · obtain ⟨nd, hnd, hr⟩ := Option.map_eq_some_iff.1 hr
    rw [← (Prod.mk.inj hr).1]
    exact fits_followCommit (fits_appendLoop (fits_loopNode hfit now req) hnd) req.leaderCommit

end

/-- `raft_submit` writes only where there is room, and data only where there is a buffer. -/
theorem submitEvents_ok (h : Host) (alloc : Alloc) (data : Bytes) :
    ∀ ev ∈ submitEvents h alloc data, ev.Ok := by
  intro ev hev
  unfold submitEvents at hev
  split at hev
  · cases hev
  rcases List.mem_append.1 hev with hgrow | hrest
  · rw [(mem_growth hgrow).2]
    trivial
  split at hrest
  · cases hrest
  rename_i hroom
  rcases List.mem_cons.1 hrest with rfl | hrest
  · exact Nat.not_le.1 hroom
  rcases List.mem_cons.1 hrest with rfl | hrest
  · trivial
  split at hrest
  · rw [List.mem_singleton.1 hrest]
    exact .inl rfl
  · cases hrest

/-- It reports an allocation that fails, and leaves the log as it was. -/
theorem raftSubmit_alloc_failed {h : Host} {alloc : Alloc} {data : Bytes}
    (hfail : .alloc false ∈ submitEvents h alloc data) :
    (raftSubmit h alloc data).2 ≠ 0 ∧ (raftSubmit h alloc data).1.node.log = h.node.log := by
  unfold submitEvents at hfail
  unfold raftSubmit
  split at hfail
  · cases hfail
  rename_i hlead
  rw [if_neg hlead]
  dsimp only at hfail ⊢
  rw [Host.modify_node]
  have hno : (ensureLogCapacity h.node alloc.realloc).log.length ≥
      (ensureLogCapacity h.node alloc.realloc).logCapacity ∨ alloc.malloc = false := by
    rcases List.mem_append.1 hfail with hgrow | hrest
    · obtain ⟨hfull, halloc⟩ := mem_growth hgrow
      have hr : alloc.realloc = false := (MemEvent.alloc.inj halloc).symm
      rw [hr, ensureLogCapacity, if_pos hfull]
      exact .inl hfull
    · split at hrest
      · cases hrest
      · right
        cases hm : alloc.malloc with
        | true => simp [hm] at hrest
        | false => rfl
  rw [if_pos hno]
  exact ⟨show (-2 : Int) ≠ 0 by decide, ensureLogCapacity_log ..⟩

theorem fits_submit {h : Host} (hfit : Fits h.node) (alloc : Alloc) (data : Bytes) :
    Fits (raftSubmit h alloc data).1.node := by
  unfold raftSubmit
  split
  · exact hfit
  dsimp only
  split
  · exact fits_ensureLogCapacity hfit alloc.realloc
  · rename_i hno
    unfold Fits
    simp only [persistState, Host.emit_node, Host.modify_node, List.length_append,
      List.length_singleton] at hno ⊢
    omega

/-! ### Restoring -/

/-- What holds of the read loop: the log is written within its array, with buffers. -/
def RestoresWell (r : List MemEvent × Option RaftNode) : Prop :=
  (∀ ev ∈ r.1, ev.Ok) ∧ ∀ nd, r.2 = some nd → Fits nd

theorem restoresWell_last {nd : RaftNode} (hfit : Fits nd) {evs : List MemEvent}
    (hevs : ∀ ev ∈ evs, ∃ b, ev = .alloc b) {r : Option RaftNode} (hr : r = some nd ∨ r = none) :
    RestoresWell (evs, r) := by
  refine ⟨fun ev hev => ?_, fun nd' h => ?_⟩
  · obtain ⟨b, rfl⟩ := hevs ev hev
    trivial
  · rcases hr with rfl | rfl
    · cases h
      exact hfit
    · cases h

/-- The loop checks its allocations, the one for the checksum apart: there the
process is lost before the log is touched. -/
theorem restoresWell_restoreLoop (alloc : Nat → Alloc) (scratch : Nat → Bool) (fuel : Nat)
    {nd : RaftNode} (hfit : Fits nd) (bs : Bytes) :
    RestoresWell (restoreLoop alloc scratch fuel nd bs) := by
  induction fuel generalizing nd bs with
  | zero => exact restoresWell_last hfit (List.forall_mem_nil _) (.inl rfl)
  | succ fuel ih =>
    rw [restoreLoop]
    dsimp only
    split
    · exact restoresWell_last hfit (List.forall_mem_nil _) (.inl rfl)
    split
    · exact restoresWell_last hfit (by simp) (.inl rfl)
    split
    · exact restoresWell_last hfit (by simp) (.inl rfl)
    split
    · exact restoresWell_last hfit (by simp) (.inr rfl)
    split
    · exact restoresWell_last hfit (by simp) (.inl rfl)
    split
    · exact restoresWell_last hfit (by simp) (.inl rfl)
    · rename_i e rest _ _
      obtain ⟨hevents, hfits⟩ := ih (fits_pushEntry hfit e) rest
      refine ⟨fun ev hev => ?_, hfits⟩
      have hroom := room_of_realloc hfit
      rw [← ensureLogCapacity_log nd true] at hroom
      simp only [List.mem_append, List.mem_cons, List.not_mem_nil, or_false] at hev
      rcases hev with ((((rfl | rfl) | hev) | (rfl | rfl)) | hev)
      · trivial
      · trivial
      · rw [(mem_growth hev).2]
        trivial
      · exact hroom
      · exact .inl rfl
      · exact hevents ev hev

theorem ok_of_readEntry {bs rest : Bytes} {e : RaftLogEntry} (h : readEntry bs = some (e, rest)) :
    headerOk bs = true ∧ bodyOk bs = true := by
  obtain ⟨hdr, crc, ha⟩ := readEntry_eq_some_iff.1 h
  unfold headerOk bodyOk
  rw [ha.bytes_eq, readN_append ha.length_hdr]
  dsimp only
  rw [decide_eq_true_eq, decide_eq_true_eq, ← ha.dataLen]
  refine ⟨ha.magic, ?_⟩
  simp only [List.length_append, ha.length_crc]
  omega

theorem restoreLoop_of_scratch (alloc : Nat → Alloc) {scratch : Nat → Bool}
    (hscratch : ∀ n, scratch n = true) (fuel : Nat) (nd : RaftNode) (bs : Bytes) :
    (restoreLoop alloc scratch fuel nd bs).2 = some (restoreEntries alloc fuel nd bs) := by
  induction fuel generalizing nd bs with
  | zero => rfl
  | succ fuel ih =>
    have hmem : ¬ scratch nd.log.length = false := by rw [hscratch]; decide
    rw [restoreLoop, restoreEntries]
    dsimp only
    rw [if_neg hmem]
    cases hread : readEntry bs with
    | none =>
      dsimp only
      split
      · rfl
      split
      · rfl
      split
      · rfl
      · rfl
    | some p =>
      obtain ⟨hheader, hbody⟩ := ok_of_readEntry hread
      dsimp only
      rw [hheader, hbody, if_neg (by decide)]
      by_cases hmalloc : (alloc nd.log.length).malloc = false
      · rw [if_pos hmalloc, if_pos (.inl hmalloc)]
      rw [if_neg hmalloc, if_neg (by decide)]
      by_cases hgrow : nd.log.length ≥ nd.logCapacity ∧ (alloc nd.log.length).realloc = false
      · rw [if_pos hgrow, if_pos (.inr hgrow)]
      · rw [if_neg hgrow, if_neg (not_or.2 ⟨hmalloc, hgrow⟩)]
        exact ih (pushEntry nd p.1) p.2

/-- `raft_restore_state` is that of the model. -/
theorem raftRestoreStateMem_of_scratch (env : ReadEnv) {scratch : Nat → Bool}
    (hscratch : ∀ n, scratch n = true) (nd : RaftNode) (disk : Disk) :
    (raftRestoreStateMem env scratch nd disk).2 = some (raftRestoreState env nd disk) := by
  unfold raftRestoreStateMem raftRestoreState
  cases openRead env.denied (disk (.wal nd.nodeId)) with
  | enoent => rfl
  | error => rfl
  | fd bs =>
    dsimp only
    cases readN walHeaderSize bs with
    | none => rfl
    | some p =>
      dsimp only
      split
      · rfl
      · rw [restoreLoop_of_scratch env.alloc hscratch]
        rfl

theorem restoresWell_restoreState (env : ReadEnv) (scratch : Nat → Bool) {nd : RaftNode}
    (hfit : Fits nd) (disk : Disk) :
    (∀ ev ∈ (raftRestoreStateMem env scratch nd disk).1, ev.Ok) ∧
      ∀ r, (raftRestoreStateMem env scratch nd disk).2 = some r → Fits r.1 := by
  have hstop : ∀ c : Int, (∀ ev ∈ ([] : List MemEvent), ev.Ok) ∧
      ∀ r, some (nd, c) = some r → Fits r.1 := fun c =>
    ⟨by simp, fun r h => by cases h; exact hfit⟩
  unfold raftRestoreStateMem
  split
  · exact hstop 0
  · exact hstop (-1)
  split
  · exact hstop (-1)
  dsimp only
  split
  · exact hstop (-1)
  rename_i hdrBytes bs _ _
  have hfit' : Fits { nd with
      currentTerm := (WalHeader.ofBytes hdrBytes).currentTerm
      votedFor := (WalHeader.ofBytes hdrBytes).votedFor.strncpy 36 } := hfit
  obtain ⟨hevents, hfits⟩ := restoresWell_restoreLoop env.alloc scratch bs.length hfit' bs
  refine ⟨hevents, fun r hr => ?_⟩
  obtain ⟨nd', hnd', rfl⟩ := Option.map_eq_some_iff.1 hr
  exact hfits nd' hnd'

/-! ## Runs -/

inductive MemCall where
  | submit (alloc : Alloc) (data : Bytes)
  | appendEntries (now : UInt64) (req : RaftAppendEntriesReq) (entries : List (RaftLogEntry × Alloc))
  | restoreState (env : ReadEnv) (scratch : Nat → Bool) (disk : Disk)

/-- The node after a call, if the process survives it. -/
def memStep (h : Host) : MemCall → Option Host
  | .submit alloc data => some (raftSubmit h alloc data).1
  | .appendEntries now req entries => (raftHandleAppendEntriesMem h now req entries).2.map Prod.fst
  | .restoreState env scratch disk =>
    (raftRestoreStateMem env scratch h.node disk).2.map fun r => h.modify fun _ => r.1

/-- The call writes within the array and keeps no data without its buffer; a
`raft_submit` or `raft_handle_append_entries` in which an allocation fails says so. -/
def MemSafe (h : Host) : MemCall → Prop
  | .submit alloc data =>
    (∀ ev ∈ submitEvents h alloc data, ev.Ok) ∧
      (.alloc false ∈ submitEvents h alloc data →
        (raftSubmit h alloc data).2 ≠ 0 ∧ (raftSubmit h alloc data).1.node.log = h.node.log)
  | .appendEntries now req entries =>
    (∀ ev ∈ (raftHandleAppendEntriesMem h now req entries).1, ev.Ok) ∧
      (.alloc false ∈ (raftHandleAppendEntriesMem h now req entries).1 →
        ∃ h' resp, (raftHandleAppendEntriesMem h now req entries).2 = some (h', resp) ∧
          resp.success = 0)
  | .restoreState env scratch disk =>
    ∀ ev ∈ (raftRestoreStateMem env scratch h.node disk).1, ev.Ok

/-- No allocation fails in the append loop of `raft_handle_append_entries`. -/
def AppendAllocs (h : Host) : MemCall → Prop
  | .appendEntries now req entries =>
    TakesEntries h.node req → LoopAllocs entries (loopNode h now req)
  | _ => True

instance (h : Host) : (c : MemCall) → Decidable (AppendAllocs h c)
  | .appendEntries .. => inferInstanceAs (Decidable (_ → _))
  | .submit .. | .restoreState .. => .isTrue trivial

theorem fits_memStep {h h' : Host} {c : MemCall} (hfit : Fits h.node) (hs : memStep h c = some h') :
    Fits h'.node := by
  cases c with
  | submit alloc data =>
    cases hs
    exact fits_submit hfit alloc data
  | appendEntries now req entries =>
    obtain ⟨r, hr, rfl⟩ := Option.map_eq_some_iff.1 hs
    exact fits_appendEntries now entries hfit hr
  | restoreState env scratch disk =>
    obtain ⟨r, hr, rfl⟩ := Option.map_eq_some_iff.1 hs
    exact (restoresWell_restoreState env scratch hfit disk).2 r hr

/-- **Step lemma.** -/
theorem memSafe_iff {h : Host} (hfit : Fits h.node) (c : MemCall) : MemSafe h c ↔ AppendAllocs h c := by
  cases c with
  | submit alloc data =>
    exact iff_of_true ⟨submitEvents_ok h alloc data, raftSubmit_alloc_failed⟩ trivial
  | restoreState env scratch disk =>
    exact iff_of_true (restoresWell_restoreState env scratch hfit disk).1 trivial
  | appendEntries now req entries =>
    constructor
    · rintro ⟨-, hreports⟩ hyes
      obtain ⟨hevents, hsuccess⟩ := raftHandleAppendEntriesMem_accepted now entries hyes
      by_contra hno
      have hfail := appendLoop_of_not_loopAllocs (fits_loopNode hfit now req) hno
      rw [← hevents] at hfail
      obtain ⟨h', resp, hr, hzero⟩ := hreports hfail
      rw [hsuccess h' resp hr] at hzero
      exact absurd hzero (by decide)
    · intro hall
      obtain ⟨-, hwell⟩ := raftHandleAppendEntriesMem_of_loopAllocs now entries hfit hall
      exact ⟨fun ev hev => (hwell ev hev).1, fun hfail => absurd rfl (hwell _ hfail).2⟩

/-- **Allocation failure and the log.** Exactly in the runs in which no
allocation of an append loop fails is every write within the array, every stored
entry complete and every failed allocation reported. -/
theorem allocation_safe_iff {h : Host} (hfit : Fits h.node) (cs : List MemCall) :
    Along memStep MemSafe h cs ↔ Along memStep AppendAllocs h cs :=
  along_congr (P := fun g : Host => Fits g.node) (fun _ _ _ => fits_memStep)
    (fun _ c hg => memSafe_iff hg c) hfit

def oneEntry (a : Alloc) : MemCall :=
  .appendEntries 10 ⟨1, idB, 0, 0, 0, 1⟩ [(⟨1, 1, [7], 0⟩, a)]

theorem allocation_safe_with_memory :
    Along memStep MemSafe (raftInit idA 0).host [oneEntry .ok, oneEntry .ok] :=
  (allocation_safe_iff (by decide) _).2 (by decide +kernel)

/-- A log that cannot grow from 0 slots is written all the same. -/
theorem append_writes_past_array :
    ¬ Along memStep MemSafe (raftInit idA 0).host [oneEntry ⟨false, true⟩] := by
  rintro ⟨⟨hevents, -⟩, -⟩
  have hwrite : ¬ (MemEvent.slotWrite 1 0).Ok := by decide
  exact hwrite (hevents _ (by decide +kernel))

end DRoole
