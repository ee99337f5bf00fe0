import DRoole.Raft.Applied

/-!
# AppendEntries against the leader's log

A request is a slice of the leader's log `L`: the entry before it and the
entries themselves. The append loop makes the follower's log `l` agree with `L`
through the last entry of the slice, and removes nothing that agrees with it
(`append_entries_log`). What the handler reports and commits is another matter:
both are taken from the end of the follower's log, and not from the end of the
part that was compared. `ack_sound_iff` and `commit_verified_iff` say when that
is good enough.
-/

namespace DRoole

open Lib

/-! ## Logs -/

/-- **Log Matching**: entries of equal index and term end equal parts. -/
def LogsMatch (l L : List RaftLogEntry) : Prop :=
  ∀ (i j : Nat) (a b : RaftLogEntry), l[i]? = some a → L[j]? = some b → a.index = b.index →
    a.term = b.term → l.take (i + 1) = L.take (i + 1)

instance (l L : List RaftLogEntry) : Decidable (LogsMatch l L) :=
  decidable_of_iff (∀ (i : Fin l.length) (j : Fin L.length), (l.get i).index = (L.get j).index →
      (l.get i).term = (L.get j).term → l.take (i + 1) = L.take (i + 1))
    ⟨fun h i j a b ha hb => by
      obtain ⟨hi, rfl⟩ := List.getElem?_eq_some_iff.1 ha
      obtain ⟨hj, rfl⟩ := List.getElem?_eq_some_iff.1 hb
      exact h ⟨i, hi⟩ ⟨j, hj⟩, fun h i j => h i j _ _ (List.getElem?_eq_getElem i.isLt)
        (List.getElem?_eq_getElem j.isLt)⟩

section
variable {l L es : List RaftLogEntry} {p n : Nat}

theorem LogsMatch.take_eq (hmatch : LogsMatch l L) (hl : NumberedFrom 0 l) (hL : NumberedFrom 0 L) {k : Nat}
    {a b : RaftLogEntry} (ha : l[k]? = some a) (hb : L[k]? = some b) (hterm : a.term = b.term) :
    l.take (k + 1) = L.take (k + 1) := by
  refine hmatch k k a b ha hb ?_ hterm
  rw [← UInt64.toNat_inj, hl.toNat_index ha, hL.toNat_index hb]

theorem getElem?_of_take_eq {k : Nat} (htake : l.take n = L.take n) (hk : k < n) :
    l[k]? = L[k]? := by
  rw [← List.getElem?_take_of_lt hk, htake, List.getElem?_take_of_lt hk]

theorem toNat_lastLogIndex_uncompacted {nd : RaftNode} (hlog : NumberedFrom 0 nd.log)
    (hsnap : nd.lastSnapshotIndex = 0) : (lastLogIndex nd).toNat = nd.log.length := by
  rw [toNat_lastLogIndex (hsnap ▸ hlog), hsnap, UInt64.toNat_zero, Nat.zero_add]

/-! ## The append loop on a slice -/

theorem mergeLog_append (es : List RaftLogEntry) (hp : l.length ≤ p) :
    mergeLog p l es = l ++ es := by
  induction es generalizing p l with
  | nil => exact (List.append_nil l).symm
  | cons e es ih =>
    have hentry : mergeEntry p l e = l ++ [e] := by
      unfold mergeEntry
      rw [List.getElem?_eq_none hp]
    rw [mergeLog, hentry, ih (by simpa using hp), List.append_assoc, List.singleton_append]

theorem take_append_slice (hes : es <+: L.drop p) : L.take p ++ es = L.take (p + es.length) := by
  rw [List.take_add, ← List.prefix_iff_eq_take.1 hes]

theorem slice_head {e : RaftLogEntry} (hes : e :: es <+: L.drop p) :
    L[p]? = some e ∧ es <+: L.drop (p + 1) := by
  obtain ⟨rest, hrest⟩ := hes
  refine ⟨?_, rest, ?_⟩
  · rw [← List.head?_drop, ← hrest]
    rfl
  · rw [← List.drop_drop, ← hrest]
    rfl

/-- **The append loop on a slice of `L`** that starts where the two logs still
agree: nothing happens if they agree through the slice, and otherwise the log
becomes `L` through the slice. -/
theorem mergeLog_slice (hl : NumberedFrom 0 l) (hL : NumberedFrom 0 L) (hmatch : LogsMatch l L)
    (hes : es <+: L.drop p) (htake : l.take p = L.take p) :
    mergeLog p l es =
      if l.take (p + es.length) = L.take (p + es.length) then l else L.take (p + es.length) := by
  induction es generalizing p with
  | nil => rw [List.length_nil, Nat.add_zero, if_pos htake]; rfl
  | cons e es ih =>
    obtain ⟨hat, htail⟩ := slice_head hes
    have hdiffer : l[p]? ≠ some e → l.take (p + (e :: es).length) ≠ L.take (p + (e :: es).length) :=
      fun hne heq => hne ((getElem?_of_take_eq heq (by simp)).trans hat)
    -- the first conflict, or the end of the log: from here on `L` is written
    have hwrite : mergeLog (p + 1) (l.take p ++ [e]) es = L.take (p + (e :: es).length) := by
      rw [mergeLog_append es (by simp), List.append_assoc, List.singleton_append, htake,
        take_append_slice hes]
    rw [mergeLog, mergeEntry]
    cases hold : l[p]? with
    | none =>
      have hend : l.take p = l := List.take_of_length_le (List.getElem?_eq_none_iff.1 hold)
      rw [if_neg (hdiffer (by rw [hold]; exact (Option.some_ne_none e).symm)), ← hwrite, hend]
    | some old =>
      dsimp only
      by_cases hterm : old.term = e.term
      · rw [if_pos hterm, ih htail (hmatch.take_eq hl hL hold hat hterm), List.length_cons,
          Nat.add_assoc, Nat.add_comm 1]
      · have hne : l[p]? ≠ some e := by
          rw [hold]
          exact fun heq => hterm (congrArg RaftLogEntry.term (Option.some.inj heq))
        rw [if_neg hterm, if_neg (hdiffer hne), hwrite]

end

/-! ## Accepted slices -/

section
variable {h : Host} (now : UInt64) {req : RaftAppendEntriesReq} {L es : List RaftLogEntry}

theorem prevMatches_uncompacted {nd : RaftNode} (req : RaftAppendEntriesReq)
    (hsnap : nd.lastSnapshotIndex = 0) :
    prevMatches nd req = true ↔ req.prevLogIndex.toNat = 0 ∨
      ((nd.log[req.prevLogIndex.toNat - 1]?).map (·.term)).getD 0 = req.prevLogTerm := by
  have hzero : req.prevLogIndex = 0 ↔ req.prevLogIndex.toNat = 0 := by
    rw [← UInt64.toNat_inj, UInt64.toNat_zero]
  unfold prevMatches
  rw [decide_eq_true_iff, hzero]
  refine or_congr_right' fun hpos => ?_
  rw [termAtIndex, if_neg (hzero.not.2 hpos), if_neg (by rw [hsnap]; exact hzero.not.2 hpos),
    getLogEntry_eq, hsnap, UInt64.toNat_zero, if_neg (by omega), Nat.sub_zero]
  cases nd.log[req.prevLogIndex.toNat - 1]? <;> rfl

variable (hsnap : h.node.lastSnapshotIndex = 0) (hl : NumberedFrom 0 h.node.log) (hL : NumberedFrom 0 L)
  (hmatch : LogsMatch h.node.log L) (hslice : SliceOf L req es) (hacc : TakesEntries h.node req)

include hsnap hl hL hmatch hslice hacc

theorem take_prev_eq (hp : req.prevLogIndex.toNat ≤ h.node.log.length) :
    h.node.log.take req.prevLogIndex.toNat = L.take req.prevLogIndex.toNat := by
  rcases (prevMatches_uncompacted req hsnap).1 hacc.2 with hzero | hterm
  · rw [hzero]
    rfl
  by_cases hzero : req.prevLogIndex.toNat = 0
  · rw [hzero]
    rfl
  have hpL := hslice.prev_le
  have ha := List.getElem?_eq_getElem (show req.prevLogIndex.toNat - 1 < h.node.log.length by omega)
  have hb := List.getElem?_eq_getElem (show req.prevLogIndex.toNat - 1 < L.length by omega)
  have hne : req.prevLogIndex ≠ 0 := fun e => hzero (congrArg UInt64.toNat e)
  rw [ha, hslice.prevTerm _ hne hb] at hterm
  have htake := hmatch.take_eq hl hL ha hb hterm
  rwa [Nat.sub_add_cancel (by omega)] at htake

/-- **The log after an accepted slice.** One that starts past the end of the
log, which only an entry of term 0 lets through, is appended all the same. -/
theorem log_accepted :
    (raftHandleAppendEntries h now req es).1.node.log =
      if req.prevLogIndex.toNat ≤ h.node.log.length then
        if h.node.log.take (req.prevLogIndex.toNat + es.length) =
            L.take (req.prevLogIndex.toNat + es.length) then h.node.log
        else L.take (req.prevLogIndex.toNat + es.length)
      else h.node.log ++ es := by
  have hindex : ∀ j e, es[j]? = some e →
      e.index.toNat = h.node.lastSnapshotIndex.toNat + (req.prevLogIndex.toNat + j) + 1 := by
    intro j e he
    rw [hL.toNat_index (hslice.getElem? he), hsnap]
  rw [(raftHandleAppendEntries_accepted now es hacc).2.2.1, foldl_appendEntry_log hindex]
  split
  · rename_i hp
    exact mergeLog_slice hl hL hmatch hslice.entries
      (take_prev_eq hsnap hl hL hmatch hslice hacc hp)
  · exact mergeLog_append es (by omega)

theorem toNat_lastLogIndex_gap (hp : ¬ req.prevLogIndex.toNat ≤ h.node.log.length) (hes : es ≠ []) :
    (lastLogIndex (raftHandleAppendEntries h now req es).1.node).toNat =
      req.prevLogIndex.toNat + es.length := by
  have hpos := List.length_pos_iff.2 hes
  have hlast := List.getElem?_eq_getElem (show es.length - 1 < es.length by omega)
  have hget : (h.node.log ++ es).getLast? = some es[es.length - 1] := by
    rw [List.getLast?_append_of_ne_nil _ hes, List.getLast?_eq_getElem?, hlast]
  rw [lastLogIndex, log_accepted now hsnap hl hL hmatch hslice hacc, if_neg hp, hget]
  show es[es.length - 1].index.toNat = _
  rw [hL.toNat_index_zero (hslice.getElem? hlast)]
  omega

/-- **The three outcomes of an accepted slice**: the log is rewritten with `L`
through the slice, or stays, or gets the slice after a gap. -/
theorem accepted_cases :
    let l := h.node.log
    let p := req.prevLogIndex.toNat
    let n := p + es.length
    let nd := (raftHandleAppendEntries h now req es).1.node
    (p ≤ l.length ∧ l.take n ≠ L.take n ∧ nd.log = L.take n ∧ (lastLogIndex nd).toNat = n) ∨
    ((p ≤ l.length ∧ l.take n = L.take n ∨ ¬ p ≤ l.length ∧ es = []) ∧ nd.log = l ∧
      (lastLogIndex nd).toNat = l.length) ∨
    (¬ p ≤ l.length ∧ es ≠ [] ∧ nd.log = l ++ es ∧ (lastLogIndex nd).toNat = n) := by
  have hlog := log_accepted now hsnap hl hL hmatch hslice hacc
  have hgap := toNat_lastLogIndex_gap now hsnap hl hL hmatch hslice hacc
  have hsnap' := (raftHandleAppendEntries_accepted now es hacc).2.2.2.1.trans hsnap
  dsimp only
  generalize (raftHandleAppendEntries h now req es).1.node = nd at *
  have hlast : NumberedFrom 0 nd.log → (lastLogIndex nd).toNat = nd.log.length :=
    fun hnum => toNat_lastLogIndex_uncompacted hnum hsnap'
  split at hlog
  · rename_i hp
    split at hlog
    · rename_i heq
      exact .inr (.inl ⟨.inl ⟨hp, heq⟩, hlog, by rw [hlast (hlog ▸ hl), hlog]⟩)
    · rename_i hne
      refine .inl ⟨hp, hne, hlog, ?_⟩
      have hn := hslice.entries.length_le
      have hpL := hslice.prev_le
      rw [List.length_drop] at hn
      rw [hlast (hlog ▸ hL.take _), hlog, List.length_take_of_le (by omega)]
  · rename_i hp
    by_cases hes : es = []
    · rw [hes, List.append_nil] at hlog
      exact .inr (.inl ⟨.inr ⟨hp, hes⟩, hlog, by rw [hlast (hlog ▸ hl), hlog]⟩)
    · exact .inr (.inr ⟨hp, hes, hlog, hgap hp hes⟩)

end

/-! ## The effect on the log -/

theorem accepts_slice_iff {h : Host} {req : RaftAppendEntriesReq} {L es : List RaftLogEntry}
    (hsnap : h.node.lastSnapshotIndex = 0) (hL : LeaderLog L) (hslice : SliceOf L req es)
    (hterm : h.node.currentTerm ≤ req.term) :
    TakesEntries h.node req ↔ req.prevLogIndex.toNat = 0 ∨
      (req.prevLogIndex.toNat ≤ h.node.log.length ∧
        (h.node.log[req.prevLogIndex.toNat - 1]?).map (·.term) =
          (L[req.prevLogIndex.toNat - 1]?).map (·.term)) := by
  have hterm := UInt64.not_lt.2 hterm
  have hcheck := prevMatches_uncompacted req hsnap
  by_cases hp : req.prevLogIndex.toNat = 0
  · exact iff_of_true ⟨hterm, hcheck.2 (.inl hp)⟩ (.inl hp)
  have hpL := hslice.prev_le
  have hprev : (L[req.prevLogIndex.toNat - 1]?).map (·.term) = some req.prevLogTerm := by
    have hb := List.getElem?_eq_getElem (show req.prevLogIndex.toNat - 1 < L.length by omega)
    rw [hb, hslice.prevTerm _ (fun e => hp (congrArg UInt64.toNat e)) hb]
    rfl
  rw [hprev]
  constructor
  · intro hacc
    have hle := hslice.prev_le_length hL hsnap hacc.2
    have hat := (hcheck.1 hacc.2).resolve_left hp
    refine .inr ⟨hle, ?_⟩
    rw [← hat, List.getElem?_eq_getElem (by omega)]
    rfl
  · intro hin
    refine ⟨hterm, hcheck.2 (.inr ?_)⟩
    rw [(hin.resolve_left hp).2]
    rfl

/-- **Exact effect of a slice on a follower's log.** If the entry before it is
in the log, the log afterwards agrees with `L` through the slice, and is `l`
itself if it already did; otherwise nothing changes. No entry that agrees with
`L` is removed. -/
theorem append_entries_log (h : Host) (now : UInt64) (req : RaftAppendEntriesReq)
    (L es : List RaftLogEntry) (hsnap : h.node.lastSnapshotIndex = 0)
    (hl : NumberedFrom 0 h.node.log) (hL : LeaderLog L) (hmatch : LogsMatch h.node.log L)
    (hslice : SliceOf L req es) (hterm : h.node.currentTerm ≤ req.term) :
    let l := h.node.log
    let p := req.prevLogIndex.toNat
    let n := p + es.length
    let r := raftHandleAppendEntries h now req es
    (if p = 0 ∨ (p ≤ l.length ∧ (l[p - 1]?).map (·.term) = (L[p - 1]?).map (·.term)) then
        r.2.success = 1 ∧ r.1.node.log = if l.take n = L.take n then l else L.take n
      else r.2.success = 0 ∧ r.1.node.log = l) ∧
    ∀ (i : Nat) (e : RaftLogEntry), l[i]? = some e → L[i]? = some e → r.1.node.log[i]? = some e := by
  intro l p n r
  by_cases hacc : TakesEntries h.node req
  · have hle := hslice.prev_le_length hL hsnap hacc.2
    have hlog := log_accepted now hsnap hl hL.numbered hmatch hslice hacc
    rw [if_pos hle] at hlog
    rw [if_pos ((accepts_slice_iff hsnap hL hslice hterm).1 hacc)]
    refine ⟨⟨(success_iff now es).2 hacc, hlog⟩, fun i e hi hLi => ?_⟩
    show (raftHandleAppendEntries h now req es).1.node.log[i]? = some e
    rw [hlog]
    split
    · exact hi
    · rename_i hne
      have hin : i < n := by
        by_contra hge
        have htake := hmatch.take_eq hl hL.numbered hi hLi rfl
        apply hne
        have := congrArg (List.take n) htake
        rwa [List.take_take, List.take_take, Nat.min_eq_left (by omega)] at this
      rw [List.getElem?_take_of_lt hin, hLi]
  · obtain ⟨hfail, hlog, -⟩ := raftHandleAppendEntries_refused now es hacc
    rw [if_neg ((accepts_slice_iff hsnap hL hslice hterm).not.1 hacc)]
    refine ⟨⟨hfail, hlog⟩, fun i e hi _ => ?_⟩
    show (raftHandleAppendEntries h now req es).1.node.log[i]? = some e
    rw [hlog]
    exact hi

/-! ## A log with a stale tail -/

def leaderTwo : List RaftLogEntry := [⟨1, 1, [7], 0⟩, ⟨2, 2, [8], 0⟩]

/-- A follower left with an entry of term 1 that was never committed. -/
def staleTail : RaftNode :=
  { raftInit idA 0 with currentTerm := 2, log := [⟨1, 1, [7], 0⟩, ⟨1, 2, [9], 0⟩] }

/-- The second entry of the leader, and the heartbeat before it. -/
def afterFirst (leaderCommit : UInt64) (entryCount : UInt32) : RaftAppendEntriesReq :=
  ⟨2, idB, 1, 1, leaderCommit, entryCount⟩

theorem leaderLog_leaderTwo : LeaderLog leaderTwo := ⟨by decide, by decide⟩

theorem sliceOf_leaderTwo (lc : UInt64) (n : UInt32) {es : List RaftLogEntry}
    (hes : es <+: [⟨2, 2, [8], 0⟩]) : SliceOf leaderTwo (afterFirst lc n) es where
  prev_le := show 1 ≤ 2 by decide
  prevTerm := by
    intro e _ he
    cases he
    rfl
  entries := hes

theorem append_entries_log_stale :
    (raftHandleAppendEntries staleTail.host 10 (afterFirst 0 1) [⟨2, 2, [8], 0⟩]).1.node.log =
      leaderTwo := by
  have hlog := (append_entries_log staleTail.host 10 (afterFirst 0 1) leaderTwo [⟨2, 2, [8], 0⟩] rfl
    (by decide) leaderLog_leaderTwo (by decide) (sliceOf_leaderTwo 0 1 (List.prefix_refl _))
    (by decide)).1
  rw [if_pos (by decide)] at hlog
  exact hlog.2

/-! ## What a follower acknowledges -/

theorem agree_iff_prefix {l L : List RaftLogEntry} :
    (l.length ≤ L.length ∧ ∀ i < l.length, l[i]? = L[i]?) ↔ l <+: L := by
  rw [List.prefix_iff_getElem?]
  constructor
  · rintro ⟨-, hagree⟩ i hi
    rw [← hagree i hi, List.getElem?_eq_getElem hi]
  · intro hpre
    refine ⟨(List.prefix_iff_getElem?.2 hpre).length_le, fun i hi => ?_⟩
    rw [hpre i hi, List.getElem?_eq_getElem hi]

/-- **When an acknowledgement is sound.** A follower that answers success holds
the leader's entries up to `match_index` if and only if the request made it
write the leader's entries, or its log has none but the leader's. A request
without new entries leaves a stale tail in place, and reports it as matching. -/
theorem ack_sound_iff (h : Host) (now : UInt64) (req : RaftAppendEntriesReq)
    (L es : List RaftLogEntry) (hsnap : h.node.lastSnapshotIndex = 0)
    (hl : NumberedFrom 0 h.node.log) (hL : NumberedFrom 0 L) (hmatch : LogsMatch h.node.log L)
    (hslice : SliceOf L req es) :
    let l := h.node.log
    let p := req.prevLogIndex.toNat
    let n := p + es.length
    let r := raftHandleAppendEntries h now req es
    (r.2.success = 1 → r.2.matchIndex.toNat ≤ L.length ∧
        ∀ i < r.2.matchIndex.toNat, r.1.node.log[i]? = L[i]?) ↔
      ¬ TakesEntries h.node req ∨ (p ≤ l.length ∧ l.take n ≠ L.take n) ∨
        (l <+: L ∧ (p ≤ l.length ∨ es = [])) := by
  dsimp only
  rw [success_iff]
  by_cases hacc : TakesEntries h.node req
  · have hmatchIndex := (raftHandleAppendEntries_accepted now es hacc).2.1
    have hcases := accepted_cases now hsnap hl hL hmatch hslice hacc
    have hn := hslice.entries.length_le
    have hpL := hslice.prev_le
    rw [List.length_drop] at hn
    dsimp only at hmatchIndex hcases
    rw [hmatchIndex]
    simp only [hacc, not_true_eq_false, false_or, true_imp_iff]
    generalize (raftHandleAppendEntries h now req es).1.node = nd at *
    rcases hcases with ⟨hp, hne, hlog, hlast⟩ | ⟨hwhere, hlog, hlast⟩ | ⟨hp, hes, hlog, hlast⟩
    · rw [hlast, hlog]
      refine iff_of_true ⟨by omega, fun i hi => List.getElem?_take_of_lt hi⟩ (.inl ⟨hp, hne⟩)
    · rw [hlast, hlog, agree_iff_prefix]
      rcases hwhere with ⟨hp, heq⟩ | ⟨hp, hes⟩
      · simp [hp, heq]
      · simp [hp, hes]
    · rw [hlast, hlog]
      have hpos := List.length_pos_iff.2 hes
      refine iff_of_false (fun hsound => ?_) (by simp [hp, hes])
      have hend := hsound.2 (req.prevLogIndex.toNat + es.length - 1) (by omega)
      rw [List.getElem?_eq_none (by simp; omega), List.getElem?_eq_getElem (by omega)] at hend
      cases hend
  · exact iff_of_true (fun hyes => absurd hyes hacc) (.inl hacc)

theorem ack_sound_rewritten :
    let r := raftHandleAppendEntries staleTail.host 10 (afterFirst 0 1) [⟨2, 2, [8], 0⟩]
    r.2.success = 1 ∧ r.2.matchIndex.toNat ≤ leaderTwo.length ∧
      ∀ i < r.2.matchIndex.toNat, r.1.node.log[i]? = leaderTwo[i]? := by
  have hsuccess : (raftHandleAppendEntries staleTail.host 10 (afterFirst 0 1)
      [⟨2, 2, [8], 0⟩]).2.success = 1 := by decide
  exact ⟨hsuccess, (ack_sound_iff staleTail.host 10 (afterFirst 0 1) leaderTwo [⟨2, 2, [8], 0⟩] rfl
    (by decide) (by decide) (by decide) (sliceOf_leaderTwo 0 1 (List.prefix_refl _))).2
    (.inr (.inl (by decide))) hsuccess⟩

/-- The heartbeat before its second entry is answered with `match_index = 2`,
where the follower has an entry that the leader has not. -/
theorem ack_of_stale_tail :
    let r := raftHandleAppendEntries staleTail.host 10 (afterFirst 0 0) []
    NumberedFrom 0 staleTail.log ∧ LeaderLog leaderTwo ∧ LogsMatch staleTail.log leaderTwo ∧
      SliceOf leaderTwo (afterFirst 0 0) [] ∧
      r.2.success = 1 ∧ r.2.matchIndex = 2 ∧ r.1.node.log[1]? ≠ leaderTwo[1]? :=
  ⟨by decide, leaderLog_leaderTwo, by decide, sliceOf_leaderTwo 0 0 List.nil_prefix, by decide,
    by decide, by decide⟩

/-! ## What a follower commits -/

theorem le_commitIndex_iff {h : Host} (now : UInt64) {req : RaftAppendEntriesReq}
    (es : List RaftLogEntry) (hacc : TakesEntries h.node req) {i : Nat}
    (hi : h.node.commitIndex.toNat < i) :
    let nd := (raftHandleAppendEntries h now req es).1.node
    i ≤ nd.commitIndex.toNat ↔ i ≤ min req.leaderCommit.toNat (lastLogIndex nd).toNat := by
  have hnew := (raftHandleAppendEntries_accepted now es hacc).2.2.2.2
  dsimp only at hnew ⊢
  rw [hnew]
  split
  · unfold clampCommit
    split
    · rename_i hlast
      rw [UInt64.lt_iff_toNat_lt] at hlast
      omega
    · rename_i hlast
      rw [UInt64.lt_iff_toNat_lt] at hlast
      omega
  · rename_i hlc
    rw [gt_iff_lt, UInt64.lt_iff_toNat_lt] at hlc
    omega

/-- The last index of the log of a follower that keeps its entries. -/
def keptEnd (l : List RaftLogEntry) (p : Nat) (es : List RaftLogEntry) : Nat :=
  if p ≤ l.length ∨ es = [] then l.length else p + es.length

theorem agree_above_iff {l L : List RaftLogEntry} {old c : Nat} (hl : NumberedFrom 0 l) (hL : NumberedFrom 0 L)
    (hmatch : LogsMatch l L) (hcl : c ≤ l.length) :
    (∀ i, old < i → i ≤ c → ∃ e, l[i - 1]? = some e ∧ L[i - 1]? = some e) ↔
      c ≤ old ∨ l.take c = L.take c := by
  constructor
  · intro hagree
    by_cases hc : c ≤ old
    · exact .inl hc
    obtain ⟨e, hle, hLe⟩ := hagree c (by omega) (Nat.le_refl c)
    have htake := hmatch.take_eq hl hL hle hLe rfl
    rw [Nat.sub_add_cancel (by omega)] at htake
    exact .inr htake
  · rintro (hc | htake) i hold hi
    · omega
    · have hat := List.getElem?_eq_getElem (show i - 1 < l.length by omega)
      exact ⟨_, hat, (getElem?_of_take_eq htake (by omega)).symm.trans hat⟩

theorem not_held_after_gap {l L es : List RaftLogEntry} {req : RaftAppendEntriesReq}
    (hL : NumberedFrom 0 L) (hslice : SliceOf L req es) {c : Nat} {e : RaftLogEntry}
    (hp : l.length < req.prevLogIndex.toNat) (hc : l.length < c)
    (hget : (l ++ es)[c - 1]? = some e) (hLe : L[c - 1]? = some e) : False := by
  rw [List.getElem?_append_right (by omega)] at hget
  have hindex := hL.toNat_index (hslice.getElem? hget)
  have hindex' := hL.toNat_index hLe
  omega

/-- **When a follower commits only what the leader has.** It commits up to the
end of its log, so the part it has not compared must agree as well, unless the
request made it write the leader's entries. -/
theorem commit_verified_iff (h : Host) (now : UInt64) (req : RaftAppendEntriesReq)
    (L es : List RaftLogEntry) (hsnap : h.node.lastSnapshotIndex = 0)
    (hl : NumberedFrom 0 h.node.log) (hL : NumberedFrom 0 L) (hmatch : LogsMatch h.node.log L)
    (hslice : SliceOf L req es) (hcommit : req.leaderCommit.toNat ≤ L.length) :
    let l := h.node.log
    let p := req.prevLogIndex.toNat
    let n := p + es.length
    let c := min req.leaderCommit.toNat (keptEnd l p es)
    let r := raftHandleAppendEntries h now req es
    (r.2.success = 1 → ∀ i, h.node.commitIndex.toNat < i → i ≤ r.1.node.commitIndex.toNat →
        ∃ e, r.1.node.log[i - 1]? = some e ∧ L[i - 1]? = some e) ↔
      ¬ TakesEntries h.node req ∨ (p ≤ l.length ∧ l.take n ≠ L.take n) ∨
        c ≤ h.node.commitIndex.toNat ∨ (c ≤ l.length ∧ l.take c = L.take c) := by
  dsimp only
  rw [success_iff]
  by_cases hacc : TakesEntries h.node req
  · have hrange := fun i hi => le_commitIndex_iff (i := i) now es hacc hi
    have hcases := accepted_cases now hsnap hl hL hmatch hslice hacc
    dsimp only at hrange hcases
    simp only [hacc, not_true_eq_false, false_or, true_imp_iff]
    generalize (raftHandleAppendEntries h now req es).1.node = nd at *
    rw [forall₂_congr fun i hi => imp_congr_left (hrange i hi)]
    rcases hcases with ⟨hp, hne, hlog, hlast⟩ | ⟨hwhere, hlog, hlast⟩ | ⟨hp, hes, hlog, hlast⟩
    · rw [hlast, hlog]
      refine iff_of_true (fun i hi hle => ?_) (.inl ⟨hp, hne⟩)
      have hat := List.getElem?_eq_getElem (show i - 1 < L.length by omega)
      exact ⟨_, (List.getElem?_take_of_lt (by omega)).trans hat, hat⟩
    · have hkept : keptEnd h.node.log req.prevLogIndex.toNat es = h.node.log.length :=
        if_pos (hwhere.imp And.left And.right)
      have hcl : min req.leaderCommit.toNat h.node.log.length ≤ h.node.log.length :=
        Nat.min_le_right ..
      rw [hlast, hlog, hkept, agree_above_iff hl hL hmatch hcl]
      rcases hwhere with ⟨hp, heq⟩ | ⟨hp, hes⟩
      · simp [hp, heq]
      · simp [hp]
    · have hkept : keptEnd h.node.log req.prevLogIndex.toNat es =
          req.prevLogIndex.toNat + es.length := if_neg (by simp [hp, hes])
      rw [hlast, hlog, hkept]
      generalize hc : min req.leaderCommit.toNat (req.prevLogIndex.toNat + es.length) = c
      by_cases hcl : c ≤ h.node.log.length
      · rw [forall₂_congr fun i hi => imp_congr_right fun hle => by
          rw [List.getElem?_append_left (by omega)], agree_above_iff hl hL hmatch hcl]
        simp [hp, hcl]
      · by_cases hold : c ≤ h.node.commitIndex.toNat
        · exact iff_of_true (fun i hi hle => by omega) (.inr (.inl hold))
        · refine iff_of_false (fun hheld => ?_) (by simp [hp, hcl, hold])
          obtain ⟨e, hget, hLe⟩ := hheld c (by omega) (Nat.le_refl c)
          exact not_held_after_gap hL hslice (by omega) (by omega) hget hLe
  · exact iff_of_true (fun hyes => absurd hyes hacc) (.inl hacc)

theorem commit_verified_rewritten :
    let r := raftHandleAppendEntries staleTail.host 10 (afterFirst 2 1) [⟨2, 2, [8], 0⟩]
    r.1.node.commitIndex = 2 ∧ ∀ i, 0 < i → i ≤ r.1.node.commitIndex.toNat →
      ∃ e, r.1.node.log[i - 1]? = some e ∧ leaderTwo[i - 1]? = some e :=
  ⟨by decide, (commit_verified_iff staleTail.host 10 (afterFirst 2 1) leaderTwo [⟨2, 2, [8], 0⟩] rfl
    (by decide) (by decide) (by decide) (sliceOf_leaderTwo 2 1 (List.prefix_refl _)) (by decide)).2
    (.inr (.inl (by decide))) (by decide)⟩

/-- A heartbeat of a leader that has committed its second entry makes the
follower commit the stale one. -/
theorem commit_of_stale_tail :
    let r := raftHandleAppendEntries staleTail.host 10 (afterFirst 2 0) []
    NumberedFrom 0 staleTail.log ∧ LeaderLog leaderTwo ∧ LogsMatch staleTail.log leaderTwo ∧
      SliceOf leaderTwo (afterFirst 2 0) [] ∧ (afterFirst 2 0).leaderCommit.toNat ≤ leaderTwo.length ∧
      r.2.success = 1 ∧ staleTail.commitIndex = 0 ∧ r.1.node.commitIndex = 2 ∧
      r.1.node.log[1]? ≠ leaderTwo[1]? :=
  ⟨by decide, leaderLog_leaderTwo, by decide, sliceOf_leaderTwo 2 0 List.nil_prefix, by decide,
    by decide, by decide, by decide, by decide⟩

/-! ## The check of the entry before -/

/-- The entry before the request is the snapshot's last, or in the log. -/
def PrevHeld (nd : RaftNode) (req : RaftAppendEntriesReq) : Prop :=
  (req.prevLogIndex = nd.lastSnapshotIndex ∧ req.prevLogTerm = nd.lastSnapshotTerm) ∨
    ∃ e, getLogEntry nd req.prevLogIndex = some e ∧ e.term = req.prevLogTerm

/-- What the check lets through, index 0 apart: the entry is there, or it is
absent and its term is 0. -/
theorem accepts_iff_prevHeld {nd : RaftNode} {req : RaftAppendEntriesReq}
    (hterm : nd.currentTerm ≤ req.term) (hprev : req.prevLogIndex ≠ 0) :
    TakesEntries nd req ↔ PrevHeld nd req ∨ (req.prevLogTerm = 0 ∧
      req.prevLogIndex ≠ nd.lastSnapshotIndex ∧ getLogEntry nd req.prevLogIndex = none) := by
  have hcheck : TakesEntries nd req ↔ termAtIndex nd req.prevLogIndex = req.prevLogTerm := by
    simp [TakesEntries, prevMatches, UInt64.not_lt.2 hterm, hprev]
  rw [hcheck, termAtIndex, if_neg hprev, PrevHeld]
  by_cases hsnap : req.prevLogIndex = nd.lastSnapshotIndex
  · have hnone : getLogEntry nd req.prevLogIndex = none := by
      rw [getLogEntry, if_pos (hsnap ▸ UInt64.le_refl _)]
    rw [if_pos hsnap, hnone]
    simp [hsnap, eq_comm]
  · rw [if_neg hsnap]
    cases getLogEntry nd req.prevLogIndex with
    | none => simp [hsnap, eq_comm]
    | some e => simp [hsnap]

/-- **When the check admits no gap.** A request that follows no entry of the
node is refused, and changes nothing, if and only if its `prev_log_term` is not
0: that is the term of every index that is absent. -/
theorem prev_check_iff (h : Host) (now : UInt64) (req : RaftAppendEntriesReq)
    (es : List RaftLogEntry) (hterm : h.node.currentTerm ≤ req.term)
    (hprev : 0 < req.prevLogIndex) :
    let r := raftHandleAppendEntries h now req es
    ((r.2.success = 1 → PrevHeld h.node req) ∧
      (¬ PrevHeld h.node req → r.2.success = 0 ∧ r.1.node.log = h.node.log ∧
        r.1.node.commitIndex = h.node.commitIndex)) ↔
      req.prevLogTerm ≠ 0 ∨ req.prevLogIndex = h.node.lastSnapshotIndex ∨
        (getLogEntry h.node req.prevLogIndex).isSome := by
  have hne : req.prevLogIndex ≠ 0 := by
    rintro hzero
    rw [hzero] at hprev
    exact absurd hprev (by decide)
  have haccepts := accepts_iff_prevHeld hterm hne
  dsimp only
  rw [success_iff]
  constructor
  · rintro ⟨hheld, -⟩
    by_contra hgap
    simp only [not_or, ne_eq, not_not, Option.not_isSome_iff_eq_none] at hgap
    obtain ⟨hzero, hsnap, hnone⟩ := hgap
    rcases hheld (haccepts.2 (.inr ⟨hzero, hsnap, hnone⟩)) with ⟨hidx, -⟩ | ⟨e, he, -⟩
    · exact hsnap hidx
    · rw [hnone] at he
      cases he
  · intro hcond
    have hheld : TakesEntries h.node req → PrevHeld h.node req := fun hacc =>
      (haccepts.1 hacc).resolve_right fun ⟨hzero, hsnap, hnone⟩ => by
        simp [hzero, hsnap, hnone] at hcond
    refine ⟨hheld, fun hno => ?_⟩
    obtain ⟨hfail, hlog, -, hcommit⟩ :=
      raftHandleAppendEntries_refused now es fun hacc => hno (hheld hacc)
    exact ⟨hfail, hlog, hcommit⟩

theorem not_prevHeld_init (nodeId : CString) (rand : UInt64) {req : RaftAppendEntriesReq}
    (hprev : req.prevLogIndex ≠ 0) : ¬ PrevHeld (raftInit nodeId rand) req := by
  rintro (⟨hidx, -⟩ | ⟨e, he, -⟩)
  · exact hprev hidx
  · simp [getLogEntry, raftInit] at he

theorem prev_check_refuses :
    let r := raftHandleAppendEntries (raftInit idA 0).host 10 (afterFirst 0 0) []
    r.2.success = 0 ∧ r.1.node.log = [] ∧ r.1.node.commitIndex = 0 :=
  ((prev_check_iff (raftInit idA 0).host 10 (afterFirst 0 0) [] (by decide) (by decide)).2
    (.inl (by decide))).2 (not_prevHeld_init idA 0 (by decide))

/-- A leader of term 1 that has just added a peer, whose `next_index` is 0. -/
def leaderWithNewPeer : RaftNode :=
  (raftAddPeer { raftInit idB 0 with state := .leader, currentTerm := 1 } true idA idA 7000).1

/-- Its heartbeat to the new peer follows index `2^64 - 1`, which both sides
give term 0, and is accepted. -/
theorem prev_check_admits_gap :
    ∃ p ∈ leaderWithNewPeer.peers,
      let req := heartbeat leaderWithNewPeer p
      0 < req.prevLogIndex ∧
        (raftHandleAppendEntries (raftInit idA 0).host 10 req []).2.success = 1 ∧
        ¬ PrevHeld (raftInit idA 0) req := by
  exact ⟨_, List.mem_singleton_self _, by decide, by decide, not_prevHeld_init idA 0 (by decide)⟩

end DRoole
