import DRoole.Logger.Ring

/-!
# What the log ring delivers

The entries accepted are numbered from 0; the entry `k` is at the index
`indexAt start k`. `Delivery start n s` says of a ring that has released `n`
entries where both threads stand. It holds in every schedule, and gives the
bound of the ring, the order and that no unread entry is overwritten.

That nothing is left behind when the worker exits is another matter: the worker
may find the ring empty, and `running` cleared only after one more entry has
been stored.
-/

namespace DRoole

open Lib

variable {μ : Type}

def slotAt (start : UInt64) (k : Nat) : Fin 4096 := maskIdx (indexAt start k)

/-- What `log_msg` knows of the ring where it is. -/
def ProducerOk (n : Nat) (s : LogRing μ) : Prop :=
  match s.producer with
  | .idle => True
  | .loadedWrite _ w => w = s.writeIdx
  | .room _ w => w = s.writeIdx ∧ s.accepted.length < n + 4096
  | .filled m w => w = s.writeIdx ∧ s.accepted.length < n + 4096 ∧ s.ringBuffer (maskIdx w) = m

/-- What `logger_worker` knows. `w` may be an old value of `write_idx`. -/
def WorkerOk (start : UInt64) (n : Nat) (s : LogRing μ) : Prop :=
  match s.worker with
  | .condition | .body => s.emitted.length = n
  | .stopping | .exited => s.emitted.length = n ∧ s.running = false
  | .stoppingAt r => s.emitted.length = n ∧ s.running = false ∧ r = s.readIdx
  | .loadedRead r => s.emitted.length = n ∧ r = s.readIdx
  | .empty r w => s.emitted.length = n ∧ r = s.readIdx ∧ r = w
  | .copying r w => r = indexAt start s.emitted.length ∧
      ∃ k, w = indexAt start k ∧ s.emitted.length ≤ k ∧ k ≤ s.accepted.length

theorem ProducerOk.mono {n n' : Nat} {s : LogRing μ} (h : ProducerOk n s) (hn : n ≤ n') :
    ProducerOk n' s := by
  unfold ProducerOk at h ⊢
  cases hp : s.producer with
  | idle => trivial
  | loadedWrite m w =>
    rw [hp] at h
    exact h
  | room m w =>
    rw [hp] at h
    exact ⟨h.1, by omega⟩
  | filled m w =>
    rw [hp] at h
    exact ⟨h.1, by omega, h.2.2⟩

theorem WorkerOk.frame {start : UInt64} {n : Nat} {s s' : LogRing μ} (h : WorkerOk start n s)
    (hworker : s'.worker = s.worker) (hemitted : s'.emitted = s.emitted)
    (hread : s'.readIdx = s.readIdx) (hrunning : s.running = false → s'.running = false)
    (haccepted : s.accepted.length ≤ s'.accepted.length) : WorkerOk start n s' := by
  unfold WorkerOk at h ⊢
  rw [hworker, hemitted, hread]
  cases hs : s.worker with
  | condition | body =>
    rw [hs] at h
    exact h
  | stopping | exited =>
    rw [hs] at h
    exact ⟨h.1, hrunning h.2⟩
  | stoppingAt r =>
    rw [hs] at h
    exact ⟨h.1, hrunning h.2.1, h.2.2⟩
  | loadedRead r =>
    rw [hs] at h
    exact h
  | empty r w =>
    rw [hs] at h
    exact h
  | copying r w =>
    rw [hs] at h
    obtain ⟨hr, k, hw, hle, hk⟩ := h
    exact ⟨hr, k, hw, hle, hk.trans haccepted⟩

structure Delivery (start : UInt64) (n : Nat) (s : LogRing μ) : Prop where
  write : s.writeIdx = indexAt start s.accepted.length
  read : s.readIdx = indexAt start n
  released : n ≤ s.emitted.length
  bounded : s.accepted.length ≤ n + 4096
  ordered : s.emitted <+: s.accepted
  held : Holds (slotAt start) s.ringBuffer s.accepted s.emitted.length
  producer : ProducerOk n s
  worker : WorkerOk start n s

theorem delivery_loggerInit (start : UInt64) (ringBuffer : Fin 4096 → μ) :
    Delivery start 0 (loggerInit start ringBuffer) where
  write := (indexAt_zero start).symm
  read := (indexAt_zero start).symm
  released := le_rfl
  bounded := Nat.zero_le _
  ordered := List.prefix_rfl
  held := holds_nil
  producer := trivial
  worker := rfl

namespace Delivery

variable {start : UInt64} {n : Nat} {s : LogRing μ}

/-! ## The producer -/

/-- `w - r < LOG_BUFFER_SIZE` counts what has not been released. -/
theorem room_iff (h : Delivery start n s) :
    ¬s.writeIdx - s.readIdx ≥ 4096 ↔ s.accepted.length < n + 4096 := by
  have hle : n ≤ s.accepted.length := h.released.trans h.ordered.length_le
  have hsub := toNat_indexAt_sub start hle (by have := h.bounded; omega)
  rw [← h.write, ← h.read] at hsub
  rw [ge_iff_le, UInt64.le_iff_toNat_le, hsub]
  show ¬4096 ≤ _ ↔ _
  omega

theorem logMsg (h : Delivery start n s) (m : μ) : Delivery start n (logMsg m s) := by
  have hprod := h.producer
  unfold ProducerOk at hprod
  unfold DRoole.logMsg
  cases hp : s.producer with
  | idle => exact { h with producer := rfl }
  | loadedWrite m w =>
    rw [hp] at hprod
    dsimp only at hprod ⊢
    subst hprod
    split
    · exact { h with producer := trivial }
    · rename_i hroom
      exact { h with producer := ⟨rfl, h.room_iff.1 hroom⟩ }
  | room m w =>
    rw [hp] at hprod
    obtain ⟨hw, hroom⟩ := hprod
    have hslot : maskIdx w = slotAt start s.accepted.length := by rw [hw, h.write, slotAt]
    refine { h with held := ?_, producer := ⟨hw, hroom, Function.update_self _ _ _⟩ }
    show Holds _ (Function.update s.ringBuffer (maskIdx w) m) _ _
    rw [hslot]
    exact h.held.fill (apart_maskIdx start) (by have := h.released; omega)
  | filled m w =>
    rw [hp] at hprod
    obtain ⟨hw, hroom, hm⟩ := hprod
    have hslot : s.ringBuffer (slotAt start s.accepted.length) = m := by
      rw [slotAt, ← h.write, ← hw, hm]
    have hlen : (s.accepted ++ [m]).length = s.accepted.length + 1 := List.length_append
    exact { h with
      write := by
        show w + 1 = indexAt start (s.accepted ++ [m]).length
        rw [hlen, hw, h.write, indexAt_succ]
      bounded := hlen.le.trans hroom
      ordered := h.ordered.trans (List.prefix_append _ _)
      held := h.held.append hslot
      producer := trivial
      worker := h.worker.frame rfl rfl rfl id (hlen ▸ Nat.le_succ _) }

/-! ## The worker -/

theorem emit (h : Delivery start n s) {r w : UInt64} (hr : r = indexAt start s.emitted.length)
    {k : Nat} (hw : w = indexAt start k) (hlt : s.emitted.length < k)
    (hk : k ≤ s.accepted.length) :
    Delivery start n { s with
      worker := .copying (r + 1) w, emitted := s.emitted ++ [s.ringBuffer (maskIdx r)] } := by
  have hlen : (s.emitted ++ [s.ringBuffer (maskIdx r)]).length = s.emitted.length + 1 :=
    List.length_append
  have hnext : s.emitted ++ [s.ringBuffer (maskIdx r)] = s.accepted.take (s.emitted.length + 1) := by
    have htake := h.held.take_succ (hlt.trans_le hk)
    rwa [← List.prefix_iff_eq_take.1 h.ordered, slotAt, ← hr] at htake
  exact { h with
    released := h.released.trans (hlen ▸ Nat.le_succ _)
    ordered := by
      show s.emitted ++ [s.ringBuffer (maskIdx r)] <+: s.accepted
      rw [hnext]
      exact List.take_prefix _ _
    held := h.held.mono (hlen ▸ Nat.le_succ _)
    worker := by
      refine ⟨?_, k, hw, hlen.le.trans hlt, hk⟩
      show r + 1 = indexAt start (s.emitted ++ [s.ringBuffer (maskIdx r)]).length
      rw [hlen, hr, indexAt_succ] }

theorem release (h : Delivery start n s) :
    Delivery start s.emitted.length
      { s with worker := .condition, readIdx := indexAt start s.emitted.length } :=
  { h with
    read := rfl
    released := le_rfl
    bounded := h.bounded.trans (Nat.add_le_add_right h.released _)
    producer := h.producer.mono h.released
    worker := rfl }

theorem move (h : Delivery start n s) {p : Worker} (hp : WorkerOk start n { s with worker := p }) :
    ∃ n', Delivery start n' { s with worker := p } :=
  ⟨n, { h with worker := hp }⟩

theorem loggerWorker (h : Delivery start n s) : ∃ n', Delivery start n' (loggerWorker s) := by
  have hwork := h.worker
  unfold WorkerOk at hwork
  unfold DRoole.loggerWorker
  cases hs : s.worker with
  | condition =>
    rw [hs] at hwork
    dsimp only
    split
    · exact h.move hwork
    · rename_i hrun
      exact h.move ⟨hwork, by simpa using hrun⟩
  | stopping =>
    rw [hs] at hwork
    exact h.move ⟨hwork.1, hwork.2, rfl⟩
  | stoppingAt r =>
    rw [hs] at hwork
    dsimp only
    split
    · exact h.move hwork.1
    · exact h.move ⟨hwork.1, hwork.2.1⟩
  | body =>
    rw [hs] at hwork
    exact h.move ⟨hwork, rfl⟩
  | loadedRead r =>
    rw [hs] at hwork
    dsimp only
    split
    · rename_i hempty
      exact h.move ⟨hwork.1, hwork.2, hempty⟩
    · have hr : r = indexAt start s.emitted.length := by rw [hwork.1, hwork.2, h.read]
      exact h.move ⟨hr, s.accepted.length, h.write, h.ordered.length_le, le_rfl⟩
  | empty r w =>
    rw [hs] at hwork
    dsimp only
    split
    · rename_i hrun
      exact h.move ⟨hwork.1, by simpa using hrun.1⟩
    · exact h.move hwork.1
  | copying r w =>
    rw [hs] at hwork
    obtain ⟨hr, k, hw, hle, hk⟩ := hwork
    dsimp only
    split
    · rename_i hne
      have hne : s.emitted.length ≠ k := fun e => hne (by rw [hr, hw, e])
      exact ⟨n, h.emit hr hw (by omega) hk⟩
    · rw [hr]
      exact ⟨_, h.release⟩
  | exited => exact ⟨n, h⟩

theorem loggerShutdown (h : Delivery start n s) : Delivery start n (loggerShutdown s) :=
  { h with worker := h.worker.frame rfl rfl rfl (fun _ => rfl) le_rfl }

theorem tick (h : Delivery start n s) (t : LogTick μ) : ∃ n', Delivery start n' (s.tick t) := by
  cases t with
  | producer m => exact ⟨n, h.logMsg m⟩
  | worker => exact h.loggerWorker
  | shutdown => exact ⟨n, h.loggerShutdown⟩

/-! ## The exit -/

/-- With nothing emitted ahead of `read_idx`, all is emitted if the indices are equal. -/
theorem emitted_iff (h : Delivery start n s) (hn : s.emitted.length = n) :
    s.emitted = s.accepted ↔ s.readIdx = s.writeIdx := by
  have hle : n ≤ s.accepted.length := h.released.trans h.ordered.length_le
  rw [h.read, h.write, indexAt_eq_iff start hle (by have := h.bounded; omega), ← hn]
  exact ⟨congrArg List.length, h.ordered.eq_of_length⟩

end Delivery

/-- The worker has exited, and no `log_msg` began after `running` was cleared: then all that was
accepted has been emitted. -/
def Drained (s : LogRing μ) : Prop :=
  s.worker = .exited → s.late = false → s.emitted = s.accepted

/-- The ring neither overflows nor loses or reorders what it holds. -/
structure RingSafe (start : UInt64) (s : LogRing μ) : Prop where
  /-- at most 4096 entries are in the ring -/
  bounded : s.writeIdx - s.readIdx ≤ 4096
  /-- every unread entry is in its slot -/
  held : ∀ k m, s.emitted.length ≤ k → s.accepted[k]? = some m → s.ringBuffer (slotAt start k) = m
  /-- the slot that `log_msg` is about to fill is not the slot of an unread entry -/
  free : ∀ m w, s.producer = .room m w → ∀ k, s.emitted.length ≤ k → k < s.accepted.length →
    slotAt start k ≠ maskIdx w
  /-- what is emitted are the first of the entries accepted -/
  ordered : s.emitted <+: s.accepted

/-- No entry is stored after the worker's last load of `write_idx`: neither while it goes from
there to the check of `running` that ends it, nor after it has exited. -/
def StoredInTime (s : LogRing μ) : LogTick μ → Prop
  | .producer _ => ∀ m w, s.producer = .filled m w → s.worker = .exited → s.late = true
  | .worker => ∀ r w, s.worker = .empty r w → s.running = false → s.late = false → w = s.writeIdx
  | .shutdown => True

theorem storedInTime_producer {s : LogRing μ} {m : μ} (hne : ∀ m w, s.producer ≠ .filled m w) :
    StoredInTime s (.producer m) :=
  fun m w hfilled => absurd hfilled (hne m w)

theorem storedInTime_worker {s : LogRing μ} (hne : ∀ r w, s.worker ≠ .empty r w) :
    StoredInTime s .worker :=
  fun r w hempty => absurd hempty (hne r w)

theorem drained_of_ne {s : LogRing μ} (hne : s.worker ≠ .exited) : Drained s :=
  fun hexit => absurd hexit hne

namespace Delivery

variable {start : UInt64} {n : Nat} {s : LogRing μ}

theorem ringSafe (h : Delivery start n s) : RingSafe start s where
  bounded := by
    have hle : n ≤ s.accepted.length := h.released.trans h.ordered.length_le
    rw [h.write, h.read, UInt64.le_iff_toNat_le,
      toNat_indexAt_sub start hle (by have := h.bounded; omega)]
    exact Nat.sub_le_iff_le_add'.2 h.bounded
  held := h.held
  free := by
    intro m w hp k hlo hk
    have hprod := h.producer
    unfold ProducerOk at hprod
    rw [hp] at hprod
    rw [hprod.1, h.write]
    exact apart_maskIdx start k s.accepted.length hk
      (hprod.2.trans_le (Nat.add_le_add_right (h.released.trans hlo) _))
  ordered := h.ordered

/-- An entry that is stored after the exit stays behind. -/
theorem drained_logMsg_iff (h : Delivery start n s) (hd : Drained s) (m : μ) :
    Drained (DRoole.logMsg m s) ↔ StoredInTime s (.producer m) := by
  unfold DRoole.logMsg
  cases hp : s.producer with
  | idle =>
    exact iff_of_true (fun hexit hlate => hd hexit (Bool.or_eq_false_iff.1 hlate).1)
      (storedInTime_producer (by simp [hp]))
  | loadedWrite m w =>
    refine iff_of_true ?_ (storedInTime_producer (by simp [hp]))
    dsimp only
    split
    · exact hd
    · exact hd
  | room m w => exact iff_of_true hd (storedInTime_producer (by simp [hp]))
  | filled m w =>
    have hbehind : s.emitted ≠ s.accepted ++ [m] := fun e => by
      have hle := h.ordered.length_le
      rw [e, List.length_append, List.length_singleton] at hle
      omega
    constructor
    · intro hdrained _ _ _ hexit
      by_contra hlate
      exact hbehind (hdrained hexit (by simpa using hlate))
    · intro htime hexit hlate
      exact absurd (htime m w hp hexit) (by rw [show s.late = false from hlate]; decide)

/-- The worker leaves an entry behind if it ends on an old value of `write_idx`. -/
theorem drained_loggerWorker_iff (h : Delivery start n s) (hd : Drained s) :
    Drained (DRoole.loggerWorker s) ↔ StoredInTime s .worker := by
  have hwork := h.worker
  unfold WorkerOk at hwork
  unfold DRoole.loggerWorker
  cases hs : s.worker with
  | condition =>
    refine iff_of_true (drained_of_ne ?_) (storedInTime_worker (by simp [hs]))
    dsimp only
    split
    · exact Worker.noConfusion
    · exact Worker.noConfusion
  | stopping => exact iff_of_true (drained_of_ne nofun) (storedInTime_worker (by simp [hs]))
  | stoppingAt r =>
    rw [hs] at hwork
    refine iff_of_true ?_ (storedInTime_worker (by simp [hs]))
    dsimp only
    split
    · exact drained_of_ne nofun
    · rename_i hequal
      exact fun _ _ => (h.emitted_iff hwork.1).2 (hwork.2.2 ▸ not_not.1 hequal)
  | body => exact iff_of_true (drained_of_ne nofun) (storedInTime_worker (by simp [hs]))
  | loadedRead r =>
    refine iff_of_true (drained_of_ne ?_) (storedInTime_worker (by simp [hs]))
    dsimp only
    split
    · exact Worker.noConfusion
    · exact Worker.noConfusion
  | empty r w =>
    rw [hs] at hwork
    obtain ⟨hn, hr, rfl⟩ := hwork
    dsimp only
    split
    · rename_i hrun
      have hrun : s.running = false := by simpa using hrun.1
      constructor
      · rintro hdrained _ _ hempty - hlate
        rw [hs] at hempty
        cases hempty
        exact hr.trans ((h.emitted_iff hn).1 (hdrained rfl hlate))
      · intro htime _ hlate
        exact (h.emitted_iff hn).2 (hr.symm.trans (htime r r hs hrun hlate))
    · rename_i hrun
      refine iff_of_true (drained_of_ne nofun) fun _ _ _ hstop => ?_
      exact absurd ⟨by rw [hstop]; rfl, rfl⟩ hrun
  | copying r w =>
    refine iff_of_true (drained_of_ne ?_) (storedInTime_worker (by simp [hs]))
    dsimp only
    split
    · exact Worker.noConfusion
    · exact Worker.noConfusion
  | exited => exact iff_of_true hd (storedInTime_worker (by simp [hs]))

theorem drained_tick_iff (h : Delivery start n s) (hd : Drained s) (t : LogTick μ) :
    Drained (s.tick t) ↔ StoredInTime s t := by
  cases t with
  | producer m => exact h.drained_logMsg_iff hd m
  | worker => exact h.drained_loggerWorker_iff hd
  | shutdown => exact iff_of_true hd trivial

end Delivery

/-! ## Schedules -/

theorem delivery_run {start : UInt64} {ringBuffer : Fin 4096 → μ} {ticks : List (LogTick μ)}
    {s : LogRing μ} (hrun : run LogRing.step (loggerInit start ringBuffer) ticks = some s) :
    ∃ n, Delivery start n s := by
  refine run_induct (P := fun s => ∃ n, Delivery start n s) ?_
    ⟨0, delivery_loggerInit start ringBuffer⟩ along_true hrun
  rintro s t s' ⟨n, h⟩ - hstep
  cases hstep
  exact h.tick t

/-- **The log ring** is safe in every schedule, and drained at the exit of the worker exactly in
those in which every entry is stored in time. -/
theorem log_ring_delivers_iff (start : UInt64) (ringBuffer : Fin 4096 → μ)
    (ticks : List (LogTick μ)) :
    (∀ s, run LogRing.step (loggerInit start ringBuffer) ticks = some s → RingSafe start s) ∧
    ((∀ past s, past <+: ticks → run LogRing.step (loggerInit start ringBuffer) past = some s →
        RingSafe start s ∧ Drained s) ↔
      Along LogRing.step StoredInTime (loggerInit start ringBuffer) ticks) := by
  refine ⟨fun s hrun => ?_, ?_⟩
  · obtain ⟨n, h⟩ := delivery_run hrun
    exact h.ringSafe
  have hexact : (∀ past s, past <+: ticks →
        run LogRing.step (loggerInit start ringBuffer) past = some s →
          (∃ n, Delivery start n s) ∧ Drained s) ↔
      Along LogRing.step StoredInTime (loggerInit start ringBuffer) ticks := by
    refine forall_run_iff_along_of_total (P := fun s => (∃ n, Delivery start n s) ∧ Drained s)
      (fun s t => ⟨s.tick t, rfl⟩) ?_
      ⟨⟨0, delivery_loggerInit start ringBuffer⟩, drained_of_ne nofun⟩
    rintro s t s' ⟨⟨n, h⟩, hd⟩ hstep
    cases hstep
    exact (and_iff_right (h.tick t)).trans (h.drained_tick_iff hd t)
  rw [← hexact]
  refine forall₄_congr fun past s _ hrun => ?_
  obtain ⟨n, h⟩ := delivery_run hrun
  exact and_congr_left' (iff_of_true h.ringSafe ⟨n, h⟩)

/-- The worker finds the ring empty; an entry is stored and `running` cleared before it looks. -/
def lostSchedule : List (LogTick Nat) :=
  [.worker, .worker, .worker, .producer 7, .producer 7, .producer 7, .producer 7, .shutdown,
    .worker]

theorem log_ring_loses_entry :
    (run LogRing.step (loggerInit 0 fun _ => 0) lostSchedule).map
        (fun s => (s.worker, s.late, s.emitted, s.accepted)) = some (.exited, false, [], [7]) ∧
    ¬∀ s, run LogRing.step (loggerInit 0 fun _ => 0) lostSchedule = some s →
      RingSafe 0 s ∧ Drained s := by
  refine ⟨by decide, fun hall => ?_⟩
  have hdrained := (hall _ rfl).2 (by decide) (by decide)
  exact absurd hdrained (by decide)

end DRoole
