import DRoole.Raft.Moves

/-!
# Log positions

`get_log_entry` finds an entry by its distance from `last_snapshot_index`, and
no code compares what it finds with the `index` field. `Indexed` says that the
two agree. `mergeLog` is what the append loop of `raft_handle_append_entries`
does to the array, as a function of positions.
-/

namespace DRoole

open Lib

/-- The entries carry the indices `b + 1`, `b + 2`, and so on. -/
def Indexed (b : UInt64) (es : List RaftLogEntry) : Prop :=
  ∀ k e, es[k]? = some e → e.index = b + UInt64.ofNat k + 1

instance (b : UInt64) (es : List RaftLogEntry) : Decidable (Indexed b es) :=
  decidable_of_iff (∀ k : Fin es.length, es[k].index = b + UInt64.ofNat k + 1)
    ⟨fun h k e he => by
      obtain ⟨hk, rfl⟩ := List.getElem?_eq_some_iff.1 he
      exact h ⟨k, hk⟩, fun h k => h k _ (List.getElem?_eq_getElem k.isLt)⟩

namespace Indexed

variable {b : UInt64} {xs ys : List RaftLogEntry}

theorem nil (b : UInt64) : Indexed b [] := nofun

theorem append_iff :
    Indexed b (xs ++ ys) ↔ Indexed b xs ∧ Indexed (b + UInt64.ofNat xs.length) ys := by
  have hshift : ∀ k, b + UInt64.ofNat (xs.length + k) + 1 =
      b + UInt64.ofNat xs.length + UInt64.ofNat k + 1 := fun k => by
    rw [UInt64.ofNat_add, ← UInt64.add_assoc b]
  constructor
  · intro h
    refine ⟨fun k e he => ?_, fun k e he => ?_⟩
    · have hk : k < xs.length := (List.getElem?_eq_some_iff.1 he).1
      exact h k e (by rw [List.getElem?_append_left hk, he])
    · rw [← hshift]
      refine h (xs.length + k) e ?_
      rw [List.getElem?_append_right (Nat.le_add_right ..), Nat.add_sub_cancel_left, he]
  · rintro ⟨hx, hy⟩ k e he
    by_cases hk : k < xs.length
    · rw [List.getElem?_append_left hk] at he
      exact hx k e he
    · rw [List.getElem?_append_right (by omega)] at he
      have := hy _ e he
      rwa [← hshift, Nat.add_sub_cancel' (by omega)] at this

theorem take (h : Indexed b xs) (n : Nat) : Indexed b (xs.take n) := by
  rw [← List.take_append_drop n xs, append_iff] at h
  exact h.1

theorem singleton_iff {e : RaftLogEntry} : Indexed b [e] ↔ e.index = b + 1 := by
  constructor
  · intro h
    have := h 0 e rfl
    rwa [show UInt64.ofNat 0 = 0 from rfl, UInt64.add_zero] at this
  · rintro he (_ | k) e' he'
    · cases he'
      rw [he, show UInt64.ofNat 0 = 0 from rfl, UInt64.add_zero]
    · cases he'

theorem toNat (h : Indexed b xs) (hlt : b.toNat + xs.length < 2 ^ 64) {k : Nat} {e : RaftLogEntry}
    (he : xs[k]? = some e) : e.index.toNat = b.toNat + k + 1 := by
  have hk : k < xs.length := (List.getElem?_eq_some_iff.1 he).1
  rw [h k e he, UInt64.toNat_add, UInt64.toNat_add, UInt64.toNat_ofNat', UInt64.toNat_one]
  omega

end Indexed

/-- The entries are indexed from `b` on without wrapping around. -/
structure NumberedFrom (b : UInt64) (es : List RaftLogEntry) : Prop where
  indexed : Indexed b es
  fits : b.toNat + es.length < 2 ^ 64

instance (b : UInt64) (es : List RaftLogEntry) : Decidable (NumberedFrom b es) :=
  decidable_of_iff (Indexed b es ∧ b.toNat + es.length < 2 ^ 64)
    ⟨fun h => ⟨h.1, h.2⟩, fun h => ⟨h.indexed, h.fits⟩⟩

namespace NumberedFrom

variable {b : UInt64} {es : List RaftLogEntry}

theorem toNat_index (h : NumberedFrom b es) {k : Nat} {e : RaftLogEntry} (he : es[k]? = some e) :
    e.index.toNat = b.toNat + k + 1 :=
  h.indexed.toNat h.fits he

theorem toNat_index_zero (h : NumberedFrom 0 es) {k : Nat} {e : RaftLogEntry}
    (he : es[k]? = some e) : e.index.toNat = k + 1 := by
  rw [h.toNat_index he, UInt64.toNat_zero, Nat.zero_add]

theorem of_toNat_index (h : ∀ k e, es[k]? = some e → e.index.toNat = b.toNat + k + 1) :
    NumberedFrom b es := by
  refine ⟨fun k e he => ?_, ?_⟩
  · have hidx := h k e he
    have hmax := e.index.toNat_lt
    apply UInt64.toNat_inj.1
    rw [UInt64.toNat_add, UInt64.toNat_add, UInt64.toNat_ofNat', UInt64.toNat_one]
    omega
  · have hb := b.toNat_lt
    cases hlast : es[es.length - 1]? with
    | none =>
      have := List.getElem?_eq_none_iff.1 hlast
      omega
    | some e =>
      have hidx := h _ e hlast
      have hmax := e.index.toNat_lt
      omega

theorem take (h : NumberedFrom b es) (n : Nat) : NumberedFrom b (es.take n) := by
  refine ⟨h.indexed.take n, ?_⟩
  have hfits := h.fits
  have hle := List.length_take_le' n es
  omega

end NumberedFrom

/-! ## The accessors -/

theorem toNat_position {i s : UInt64} (h : s.toNat < i.toNat) :
    (i - s - 1).toNat = i.toNat - s.toNat - 1 := by
  have hsub : (i - s).toNat = i.toNat - s.toNat :=
    UInt64.toNat_sub_of_le _ _ (UInt64.le_iff_toNat_le.2 h.le)
  have hone : 1 ≤ i - s := by
    rw [UInt64.le_iff_toNat_le, hsub, UInt64.toNat_one]
    omega
  rw [UInt64.toNat_sub_of_le _ _ hone, hsub, UInt64.toNat_one]

theorem getLogEntry_eq (nd : RaftNode) (i : UInt64) :
    getLogEntry nd i = if i.toNat ≤ nd.lastSnapshotIndex.toNat then none
      else nd.log[i.toNat - nd.lastSnapshotIndex.toNat - 1]? := by
  unfold getLogEntry
  by_cases hle : i.toNat ≤ nd.lastSnapshotIndex.toNat
  · rw [if_pos (UInt64.le_iff_toNat_le.2 hle), if_pos hle]
  · rw [if_neg fun h => hle (UInt64.le_iff_toNat_le.1 h), if_neg hle, toNat_position (by omega)]

section
variable {nd : RaftNode} (hidx : Indexed nd.lastSnapshotIndex nd.log)
include hidx

/-- What `get_log_entry` finds at `i` is the entry of index `i`. -/
theorem index_of_getLogEntry {i : UInt64} {e : RaftLogEntry} (he : getLogEntry nd i = some e) :
    e.index = i := by
  unfold getLogEntry at he
  split at he
  · cases he
  · rw [hidx _ e he, UInt64.ofNat_toNat]
    grind

theorem lastLogIndex_eq : lastLogIndex nd = nd.lastSnapshotIndex + UInt64.ofNat nd.log.length := by
  unfold lastLogIndex
  cases hlast : nd.log.getLast? with
  | none =>
    rw [List.getLast?_eq_none_iff.1 hlast]
    exact (UInt64.add_zero _).symm
  | some e =>
    have hpos : 0 < nd.log.length := by
      rw [List.length_pos_iff]
      rintro hnil
      rw [hnil] at hlast
      cases hlast
    rw [List.getLast?_eq_getElem?] at hlast
    show e.index = _
    rw [hidx _ e hlast, UInt64.add_assoc, ← UInt64.ofNat_one, ← UInt64.ofNat_add,
      Nat.sub_add_cancel hpos]

theorem indexed_submitEntry (data : Bytes) :
    Indexed nd.lastSnapshotIndex (nd.log ++ [submitEntry nd data]) := by
  refine Indexed.append_iff.2 ⟨hidx, Indexed.singleton_iff.2 ?_⟩
  rw [submitEntry, lastLogIndex_eq hidx]

end

theorem toNat_lastLogIndex {nd : RaftNode} (hlog : NumberedFrom nd.lastSnapshotIndex nd.log) :
    (lastLogIndex nd).toNat = nd.lastSnapshotIndex.toNat + nd.log.length := by
  have hfits := hlog.fits
  rw [lastLogIndex_eq hlog.indexed, UInt64.toNat_add, UInt64.toNat_ofNat']
  omega

/-! ## The append loop -/

/-- One turn of the append loop on the array, at an entry for position `k`. -/
def mergeEntry (k : Nat) (log : List RaftLogEntry) (e : RaftLogEntry) : List RaftLogEntry :=
  match log[k]? with
  | some old => if old.term = e.term then log else log.take k ++ [e]
  | none => log ++ [e]

/-- The append loop on the array, from position `k` on. -/
def mergeLog : Nat → List RaftLogEntry → List RaftLogEntry → List RaftLogEntry
  | _, log, [] => log
  | k, log, e :: es => mergeLog (k + 1) (mergeEntry k log e) es

theorem appendEntry_log {nd : RaftNode} {e : RaftLogEntry} {k : Nat}
    (he : e.index.toNat = nd.lastSnapshotIndex.toNat + k + 1) :
    (appendEntry nd e).log = mergeEntry k nd.log e := by
  have hpos : (e.index - nd.lastSnapshotIndex - 1).toNat = k := by
    rw [toNat_position (by omega)]
    omega
  have hget : ∀ log, getLogEntry { nd with log := log } e.index = log[k]? := by
    intro log
    have habove : ¬ e.index ≤ nd.lastSnapshotIndex := by
      rw [UInt64.le_iff_toNat_le]
      omega
    rw [getLogEntry, if_neg habove, hpos]
  have hself : getLogEntry nd e.index = nd.log[k]? := hget nd.log
  unfold appendEntry dropConflict mergeEntry
  rw [hself]
  cases hold : nd.log[k]? with
  | none =>
    dsimp only
    rw [hself, hold]
    exact pushEntry_log nd e
  | some old =>
    dsimp only
    by_cases hterm : old.term = e.term
    · rw [if_pos hterm, if_neg (not_not.2 hterm), hself, hold]
    · rw [if_neg hterm, if_pos hterm, hpos, hget, List.getElem?_eq_none (by simp)]
      exact pushEntry_log _ e

section
variable {k c : Nat} {b : UInt64} {log es : List RaftLogEntry} {e : RaftLogEntry}

theorem length_mergeEntry (e : RaftLogEntry) (hk : k ≤ log.length) :
    k + 1 ≤ (mergeEntry k log e).length := by
  unfold mergeEntry
  split
  · rename_i old hold
    split
    · exact (List.getElem?_eq_some_iff.1 hold).1
    · simp [hk]
  · simp [hk]

theorem length_mergeEntry_le (e : RaftLogEntry) (hk : k ≤ log.length) :
    (mergeEntry k log e).length ≤ max log.length (k + 1) := by
  unfold mergeEntry
  split
  · split
    · exact Nat.le_max_left ..
    · simp [hk]
  · rename_i hnone
    have hlen := List.getElem?_eq_none_iff.1 hnone
    simp [Nat.le_antisymm hlen hk]

theorem indexed_mergeEntry (hk : k ≤ log.length) (hlog : Indexed b log)
    (he : e.index = b + UInt64.ofNat k + 1) : Indexed b (mergeEntry k log e) := by
  unfold mergeEntry
  split
  · split
    · exact hlog
    · refine Indexed.append_iff.2 ⟨hlog.take k, Indexed.singleton_iff.2 ?_⟩
      rw [he, List.length_take_of_le hk]
  · rename_i hnone
    have hlen : log.length = k := Nat.le_antisymm (List.getElem?_eq_none_iff.1 hnone) hk
    exact Indexed.append_iff.2 ⟨hlog, Indexed.singleton_iff.2 (hlen ▸ he)⟩

theorem take_mergeEntry (hc : c ≤ log.length)
    (he : k < c → ∃ old, log[k]? = some old ∧ old.term = e.term) :
    (mergeEntry k log e).take c = log.take c := by
  unfold mergeEntry
  split
  · rename_i old hold
    split
    · rfl
    · rename_i hterm
      have hck : c ≤ k := by
        by_contra hlt
        obtain ⟨old', hold', hterm'⟩ := he (by omega)
        rw [hold] at hold'
        cases hold'
        exact hterm hterm'
      have hk : k ≤ log.length := (List.getElem?_eq_some_iff.1 hold).1.le
      rw [List.take_append_of_le_length (by rw [List.length_take_of_le hk]; exact hck),
        List.take_take, Nat.min_eq_left hck]
  · exact List.take_append_of_le_length hc

/-- **The append loop** writes the entries from position `k` on. -/
theorem foldl_appendEntry_log {nd : RaftNode}
    (hes : ∀ j e, es[j]? = some e → e.index.toNat = nd.lastSnapshotIndex.toNat + (k + j) + 1) :
    (es.foldl appendEntry nd).log = mergeLog k nd.log es := by
  induction es generalizing nd k with
  | nil => rfl
  | cons e es ih =>
    have hsnap : (appendEntry nd e).lastSnapshotIndex = nd.lastSnapshotIndex := by
      rw [show appendEntry nd e = _ from foldl_appendEntry_withLog [e] nd]
      rfl
    have he : e.index.toNat = nd.lastSnapshotIndex.toNat + k + 1 := hes 0 e rfl
    rw [mergeLog, ← appendEntry_log he, List.foldl_cons]
    refine ih fun j e' he' => ?_
    rw [hsnap, hes (j + 1) e' he']
    omega

theorem length_mergeLog_le (es : List RaftLogEntry) (hk : k ≤ log.length) :
    (mergeLog k log es).length ≤ max log.length (k + es.length) := by
  induction es generalizing k log with
  | nil => exact Nat.le_max_left ..
  | cons e es ih =>
    have htail := ih (length_mergeEntry e hk)
    have hhead := length_mergeEntry_le e hk
    rw [mergeLog, List.length_cons]
    omega

theorem indexed_mergeLog (hk : k ≤ log.length) (hlog : Indexed b log)
    (hes : Indexed (b + UInt64.ofNat k) es) : Indexed b (mergeLog k log es) := by
  induction es generalizing k log with
  | nil => exact hlog
  | cons e es ih =>
    rw [← List.singleton_append] at hes
    obtain ⟨he, hes⟩ := Indexed.append_iff.1 hes
    refine ih (length_mergeEntry e hk)
      (indexed_mergeEntry hk hlog (Indexed.singleton_iff.1 he)) ?_
    rw [UInt64.ofNat_add, ← UInt64.add_assoc]
    exact hes

theorem take_mergeLog (hc : c ≤ log.length)
    (hes : ∀ j e, es[j]? = some e → k + j < c → ∃ old, log[k + j]? = some old ∧ old.term = e.term) :
    (mergeLog k log es).take c = log.take c := by
  induction es generalizing k log with
  | nil => rfl
  | cons e es ih =>
    have hhead : (mergeEntry k log e).take c = log.take c := take_mergeEntry hc (hes 0 e rfl)
    have hlen : c ≤ (mergeEntry k log e).length := by
      have := congrArg List.length hhead
      rw [List.length_take, List.length_take_of_le hc] at this
      omega
    rw [mergeLog, ih hlen fun j e' he' hj => ?_, hhead]
    have hsame : (mergeEntry k log e)[k + 1 + j]? = log[k + 1 + j]? := by
      rw [← List.getElem?_take_of_lt hj, hhead, List.getElem?_take_of_lt hj]
    rw [hsame]
    have := hes (j + 1) e' he' (by omega)
    rwa [← Nat.add_assoc, Nat.add_right_comm] at this

end

end DRoole
