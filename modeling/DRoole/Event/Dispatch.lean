import DRoole.Event.Heap

/-!
# Dispatch

`loop_run` waits for events and calls the callback of each in turn. `epoll_wait`
hands over `data.ptr` as it was then; the record is read when the turn of the event
comes. Between the two, the callbacks of earlier events can register and remove fds.

`Reactor` is the loop without pointers: an event is for an fd, and its callback is
looked up in the table when its turn comes. `loop_run` is this loop as long as no
callback removes an fd whose event is still to come.
-/

namespace DRoole

open Lib Lib.Linked

def triggeredEvents (events : UInt32) : UInt32 :=
  (if events &&& 0x001 ≠ 0 then 1 else 0) ||| (if events &&& 0x004 ≠ 0 then 2 else 0) |||
    (if events &&& (0x008 ||| 0x010) ≠ 0 then 4 else 0)

/-- A callback with the arguments it is called with. -/
structure Invocation (β γ : Type) where
  callback : β
  context : γ
  fd : Int32
  events : UInt32
deriving DecidableEq, Repr

/-- An element of `loop->events`. The code has its bits and its pointer; `fd` is the fd the
kernel reports. -/
structure EpollEvent (π : Type) where
  fd : Int32
  events : UInt32
  ptr : π
deriving DecidableEq, Repr

/-- The loop inside `loop_run`: `pending` is what is left of `events[i..n)`. -/
structure LoopState (π β γ : Type) where
  mem : LoopMemory π β γ
  running : Bool
  pending : List (EpollEvent π)
  invoked : List (Invocation β γ)

/-- What happens next: a registration call of the callback that runs, `loop_stop`, the return of
`epoll_wait`, or the turn of the next event. -/
inductive LoopTick (π β γ : Type) where
  | call (c : LoopCall β γ) (block : π)
  | stop
  | wait (ready : List (Int32 × UInt32))
  | dispatch

variable {π β γ : Type} [DecidableEq π]

/-- `epoll_wait` reports fds that are registered. An interrupted wait reports none. -/
def epollWait (interest : Int32 → Option (UInt32 × π)) (ready : List (Int32 × UInt32)) :
    List (EpollEvent π) :=
  ready.filterMap fun r => (interest r.1).map fun e => ⟨r.1, r.2, e.2⟩

/-- There is no next state if a pointer to a freed record is followed. A pointer in `data.ptr` is
not NULL and the callback of a record is not NULL, so the check before the call never fails. -/
def loopTick (fuel : Nat) (s : LoopState π β γ) : LoopTick π β γ → Option (LoopState π β γ)
  | .call c block => (c.runMem fuel block s.mem).map fun r => { s with mem := r.1 }
  | .stop => some { s with running := false }
  | .wait ready =>
    if s.running ∧ s.pending.isEmpty then
      some { s with pending := epollWait s.mem.interest ready }
    else none
  | .dispatch =>
    match s.pending with
    | [] => none
    | e :: rest => (s.mem.table.val e.ptr).map fun fc =>
        { s with
          pending := rest
          invoked := s.invoked ++ [⟨fc.callback, fc.context, fc.fd, triggeredEvents e.events⟩] }

def loopRunStart : LoopState π β γ := ⟨loopCreateMem, true, [], []⟩

/-! ## The loop without pointers -/

structure Reactor (β γ : Type) where
  loop : EventLoop β γ
  running : Bool
  pending : List (Int32 × UInt32)
  invoked : List (Invocation β γ)

def Reactor.start : Reactor β γ := ⟨loopCreate, true, [], []⟩

/-- The callback registered for the fd of an event, if there is one. -/
def lookupInvocation (loop : EventLoop β γ) (r : Int32 × UInt32) : Option (Invocation β γ) :=
  (registered loop r.1).map fun b => ⟨b.1, b.2, r.1, triggeredEvents r.2⟩

def Reactor.tick (a : Reactor β γ) : LoopTick π β γ → Option (Reactor β γ)
  | .call c _ => some { a with loop := (c.run a.loop).1 }
  | .stop => some { a with running := false }
  | .wait ready =>
    if a.running ∧ a.pending.isEmpty then
      some { a with pending := ready.filter fun r => (a.loop.interest r.1).isSome }
    else none
  | .dispatch =>
    match a.pending with
    | [] => none
    | r :: rest => some
        { a with
          pending := rest
          invoked := a.invoked ++ (lookupInvocation a.loop r).toList }

/-! ## The two loops agree -/

/-- `malloc` hands out free blocks, epoll refuses no removal, and no fd is removed whose event is
still to come. -/
def RemovesNoPending (s : LoopState π β γ) : LoopTick π β γ → Prop
  | .call c block => FreshBlock s.mem (c, block) ∧ c.delSucceeds ∧
      ∀ e ∈ s.pending, ∀ ctl, c ≠ .delFd e.fd ctl
  | _ => True

instance [DecidableEq β] [DecidableEq γ] (s : LoopState π β γ) :
    (l : LoopTick π β γ) → Decidable (RemovesNoPending s l)
  | .call .. => inferInstanceAs (Decidable (_ ∧ _ ∧ ∀ e ∈ _, ∀ _ : Bool, _))
  | .stop => inferInstanceAs (Decidable True)
  | .wait _ => inferInstanceAs (Decidable True)
  | .dispatch => inferInstanceAs (Decidable True)

/-- The memory is the table, and the pending events point to the records of their fds. There is
room for `n` more records. -/
structure Dispatches (fuel : Nat) (t : Placement π β γ) (n : Nat) (s : LoopState π β γ)
    (a : Reactor β γ) : Prop where
  stored : Stored s.mem t a.loop
  points : PointsToRecords s.mem.interest t
  live : ∀ e ∈ s.pending, (recordAt t e.fd).map Prod.fst = some e.ptr
  pending : a.pending = s.pending.map fun e => (e.fd, e.events)
  running : a.running = s.running
  invoked : a.invoked = s.invoked
  room : ∀ i, (t i).length + n < fuel

variable {fuel : Nat} {t : Placement π β γ} {n : Nat} {s : LoopState π β γ} {a : Reactor β γ}

omit [DecidableEq π] in
theorem Dispatches.record (h : Dispatches fuel t n s a) {e : EpollEvent π} (he : e ∈ s.pending) :
    ∃ fc, s.mem.table.val e.ptr = some fc ∧ fc.fd = e.fd ∧
      registered a.loop e.fd = some (fc.callback, fc.context) := by
  obtain ⟨⟨ptr, fc⟩, hrecord, hptr⟩ := Option.map_eq_some_iff.1 (h.live e he)
  obtain ⟨hmem, hfd⟩ := recordAt_eq_some hrecord
  have hval := (h.stored.holds.chain _).val_eq hmem
  refine ⟨fc, ?_, hfd, ?_⟩
  · rw [← hptr]
    exact hval
  · rw [registered, h.stored.find_eq_some hrecord]
    rfl

omit [DecidableEq π] in
theorem Dispatches.weaken (h : Dispatches fuel t (n + 1) s a) : Dispatches fuel t n s a :=
  { h with room := fun i => Nat.lt_of_succ_lt (h.room i) }

omit [DecidableEq π] in
theorem epollWait_eq {interest : Int32 → Option (UInt32 × π)} {loop : EventLoop β γ}
    (hinterest : loop.interest = fun fd => (interest fd).map Prod.fst)
    (ready : List (Int32 × UInt32)) :
    ready.filter (fun r => (loop.interest r.1).isSome)
      = (epollWait interest ready).map fun e => (e.fd, e.events) := by
  rw [hinterest, epollWait]
  induction ready with
  | nil => rfl
  | cons r ready ih =>
    cases hr : interest r.1 with
    | none =>
      rw [List.filter_cons_of_neg (by simp [hr]), List.filterMap_cons_none (by simp [hr]), ih]
    | some e =>
      rw [List.filter_cons_of_pos (by simp [hr]), List.filterMap_cons, hr, ih]
      rfl

omit [DecidableEq π] in
theorem mem_epollWait {interest : Int32 → Option (UInt32 × π)} {ready : List (Int32 × UInt32)}
    {e : EpollEvent π} (he : e ∈ epollWait interest ready) :
    ∃ events, interest e.fd = some (events, e.ptr) := by
  obtain ⟨r, -, hr⟩ := List.mem_filterMap.1 he
  obtain ⟨i, hi, rfl⟩ := Option.map_eq_some_iff.1 hr
  exact ⟨i.1, hi⟩

/-- What a step leaves is again one of the memories that are the table. -/
def Agree (fuel n : Nat) (s : LoopState π β γ) (a : Reactor β γ) : Prop :=
  ∃ t, Dispatches fuel t n s a

theorem Agree.call (h : Agree fuel (n + 1) s a) {c : LoopCall β γ} {block : π}
    (hok : RemovesNoPending s (.call c block)) :
    Option.Rel (Agree fuel n) (loopTick fuel s (.call c block)) (a.tick (.call c block : LoopTick π β γ)) := by
  obtain ⟨t, h⟩ := h
  obtain ⟨hblock, hdel, hpending⟩ := hok
  have hroom : ∀ i, (t i).length + 1 < fuel := fun i => by
    have := h.room i
    omega
  obtain ⟨mem, t', hrun, hstored, hstep⟩ := h.stored.call hroom (c, block) hblock
  have htick : loopTick fuel s (.call c block) = some { s with mem := mem } := by
    rw [loopTick, hrun]
    rfl
  rw [htick]
  refine .some ⟨t', hstored, hstep.pointsToRecords hdel h.points, fun e he => ?_, h.pending,
    h.running, h.invoked, fun i => ?_⟩
  · exact hstep.address (hpending e he) (h.live e he)
  · have h₁ := hstep.length_le i
    have h₂ := h.room i
    omega

theorem Agree.tick (h : Agree fuel (n + 1) s a) {l : LoopTick π β γ}
    (hok : RemovesNoPending s l) : Option.Rel (Agree fuel n) (loopTick fuel s l) (a.tick l) := by
  cases l with
  | call c block => exact h.call hok
  | stop =>
    obtain ⟨t, h⟩ := h
    exact .some ⟨t, { h.weaken with running := rfl }⟩
  | wait ready =>
    obtain ⟨t, h⟩ := h
    have hempty : a.pending.isEmpty = s.pending.isEmpty := by
      rw [h.pending, List.isEmpty_map]
    rw [loopTick, Reactor.tick, h.running, hempty]
    split
    · refine .some ⟨t, { h.weaken with live := fun e he => ?_, pending := ?_, running := rfl }⟩
      · obtain ⟨events, hptr⟩ := mem_epollWait he
        exact h.points e.fd _ hptr
      · exact epollWait_eq h.stored.interest ready
    · exact .none
  | dispatch =>
    obtain ⟨t, h⟩ := h
    have hpending := h.pending
    rw [loopTick, Reactor.tick]
    cases hs : s.pending with
    | nil =>
      rw [hs] at hpending
      rw [hpending]
      exact .none
    | cons e rest =>
      rw [hs] at hpending
      rw [hpending]
      have he : e ∈ s.pending := hs ▸ List.mem_cons_self
      obtain ⟨fc, hval, hfd, hreg⟩ := h.record he
      dsimp only
      rw [hval]
      refine .some ⟨t, { h.weaken with live := fun e' he' => ?_, pending := rfl, invoked := ?_ }⟩
      · exact h.live e' (hs ▸ List.mem_cons_of_mem _ he')
      · show a.invoked ++ (lookupInvocation a.loop (e.fd, e.events)).toList =
          s.invoked ++ [⟨fc.callback, fc.context, fc.fd, triggeredEvents e.events⟩]
        rw [lookupInvocation, hreg, h.invoked, hfd]
        rfl

omit [DecidableEq π] in
theorem agree_start (hroom : n < fuel) :
    Agree fuel n (loopRunStart : LoopState π β γ) Reactor.start := by
  refine ⟨fun _ => [], stored_loopCreate, fun _ _ he => ?_, fun _ he => ?_, rfl, rfl, rfl,
    fun _ => ?_⟩
  · cases he
  · cases he
  · rwa [List.length_nil, Nat.zero_add]

theorem agree_run {ticks : List (LoopTick π β γ)} (k : Nat) (hfuel : ticks.length + k < fuel)
    (hok : Along (loopTick fuel) RemovesNoPending loopRunStart ticks) :
    Option.Rel (Agree fuel k) (run (loopTick fuel) loopRunStart ticks)
      (run Reactor.tick Reactor.start ticks) := by
  have hstep : ∀ n s a l, Agree fuel (n + 1 + k) s a → RemovesNoPending s l →
      Option.Rel (Agree fuel (n + k)) (loopTick (π := π) (β := β) (γ := γ) fuel s l) (a.tick l) := by
    intro n s a l h hok
    rw [Nat.add_right_comm] at h
    exact h.tick hok
  have hrun := run_rel (R := fun n => Agree fuel (n + k)) hstep (agree_start hfuel) hok
  rwa [Nat.zero_add] at hrun

/-- **`loop_run` dispatches by fd.** As long as no callback removes an fd whose event is still to
come, every step of the loop can be taken, and each event calls the callback that is registered
for its fd when its turn comes. -/
theorem loop_run_dispatches (ticks : List (LoopTick π β γ)) (hfuel : ticks.length < fuel)
    (hok : Along (loopTick fuel) RemovesNoPending loopRunStart ticks) :
    Option.Rel (fun s a => s.invoked = a.invoked ∧ s.running = a.running ∧
        (s.pending.map fun e => (e.fd, e.events)) = a.pending ∧ ∃ t, Stored s.mem t a.loop)
      (run (loopTick fuel) loopRunStart ticks) (run Reactor.tick Reactor.start ticks) := by
  have hrun := agree_run 0 hfuel hok
  generalize run (loopTick fuel) loopRunStart ticks = s at hrun ⊢
  generalize run Reactor.tick Reactor.start ticks = a at hrun ⊢
  cases hrun with
  | none => exact .none
  | some h =>
    obtain ⟨t, h⟩ := h
    exact .some ⟨h.invoked.symm, h.running.symm, h.pending.symm, t, h.stored⟩

/-- Two fds of one bucket are ready; the callback of the first removes its own fd. -/
def twoReady : List (LoopTick Nat Nat Nat) :=
  [.call (.addFd 5 1 (some 1) 10 true true) 100, .call (.addFd 261 1 (some 2) 20 true true) 200,
    .wait [(5, 1), (261, 1)], .dispatch, .call (.delFd 5 true) 0, .dispatch]

theorem loop_run_dispatches_two :
    (twoReady.length < 7 ∧ Along (loopTick 7) RemovesNoPending loopRunStart twoReady) ∧
    Option.Rel (fun s a => s.invoked = a.invoked ∧ s.running = a.running ∧
        (s.pending.map fun e => (e.fd, e.events)) = a.pending ∧ ∃ t, Stored s.mem t a.loop)
      (run (loopTick 7) loopRunStart twoReady) (run Reactor.tick Reactor.start twoReady) ∧
    ((run Reactor.tick Reactor.start twoReady).map fun a => a.invoked)
      = some [⟨1, 10, 5, 1⟩, ⟨2, 20, 261, 1⟩] :=
  have hok : Along (loopTick 7) RemovesNoPending loopRunStart twoReady := by decide
  ⟨⟨by decide, hok⟩, loop_run_dispatches twoReady (by decide) hok, by decide⟩

/-! ## An fd removed while its event is pending -/

omit [DecidableEq π] in
theorem PlacedStep.mem_addrs {interest interest' : Int32 → Option (UInt32 × π)}
    {t t' : Placement π β γ} {block : π} {c : LoopCall β γ}
    (h : PlacedStep interest t block c interest' t') {p : π} {i : Fin 256} (hp : p ∈ addrs (t' i)) :
    p = block ∨ ∃ j, p ∈ addrs (t j) := by
  have hupdate : ∀ (j : Fin 256) (l : List (π × FileContext β γ)),
      (∀ p ∈ addrs l, p = block ∨ p ∈ addrs (t j)) → p ∈ addrs (Function.update t j l i) →
      p = block ∨ ∃ j, p ∈ addrs (t j) := by
    intro j l hl hp
    by_cases hi : i = j
    · rw [hi, Function.update_self] at hp
      exact (hl p hp).imp_right fun hp => ⟨j, hp⟩
    · rw [Function.update_of_ne hi] at hp
      exact .inr ⟨i, hp⟩
  cases h with
  | same => exact .inr ⟨i, hp⟩
  | @added fd events callback context hnew =>
    exact hupdate (fdHash fd) ((block, ⟨fd, callback, context⟩) :: t (fdHash fd))
      (fun p hp => List.mem_cons.1 hp) hp
  | @changed fd events callback context r hold ctl =>
    refine hupdate _ _ (fun p hp => .inr ?_) hp
    have hsame := map_modifyFirst (g := Prod.fst)
      (f := fun c : π × FileContext β γ => (c.1, c.2.rebind callback context)) (fun _ => rfl)
      (fun c => decide (c.2.fd = fd)) (t (fdHash fd))
    rwa [addrs, hsame] at hp
  | removed hold ctl =>
    exact hupdate _ _ (fun p hp => .inr ((List.eraseP_sublist.map _).subset hp)) hp

theorem loopDelFdMem_frees {mem mem' : LoopMemory π β γ} {loop : EventLoop β γ}
    (h : Stored mem t loop) (hfuel : ∀ i, (t i).length < fuel) {fd : Int32} {ctl : Bool}
    {c : π × FileContext β γ} (hold : recordAt t fd = some c)
    (hdel : loopDelFdMem fuel mem fd ctl = some (mem', 0)) : mem'.table.val c.1 = none := by
  obtain ⟨table, freed, hunlink, hfree, -⟩ := h.holds.unlink_free
    (q := fun fc : FileContext β γ => decide (fc.fd = fd)) (hfuel (fdHash fd)) (a := c.1)
    (x := c.2) hold
  have hremove : removeFileContextMem fuel mem.table fd = some (table, some c.1) := hunlink
  unfold loopDelFdMem at hdel
  split at hdel
  · cases hdel
  · rw [hremove] at hdel
    simp only [Option.bind_eq_bind, Option.bind_some, hfree, Option.some.injEq, Prod.mk.injEq,
      and_true] at hdel
    rw [← hdel]
    unfold Memory.free at hfree
    split at hfree
    · cases hfree
      exact Function.update_self ..
    · cases hfree

/-- `malloc` hands out free blocks, and not the block at `ptr`. -/
def KeepsFreed (ptr : π) (s : LoopState π β γ) : LoopTick π β γ → Prop
  | .call c block => FreshBlock s.mem (c, block) ∧ block ≠ ptr
  | _ => True

instance (ptr : π) (s : LoopState π β γ) : (l : LoopTick π β γ) → Decidable (KeepsFreed ptr s l)
  | .call .. => inferInstanceAs (Decidable (_ ∧ _ ≠ _))
  | .stop => inferInstanceAs (Decidable True)
  | .wait _ => inferInstanceAs (Decidable True)
  | .dispatch => inferInstanceAs (Decidable True)

def Freed (fuel : Nat) (ptr : π) (n : Nat) (s : LoopState π β γ) : Prop :=
  ∃ t loop, Stored s.mem t loop ∧ s.mem.table.val ptr = none ∧ ∀ i, (t i).length + n < fuel

theorem Freed.tick {ptr : π} (h : Freed fuel ptr (n + 1) s) {l : LoopTick π β γ}
    (hok : KeepsFreed ptr s l) {s' : LoopState π β γ} (hs' : loopTick fuel s l = some s') :
    Freed fuel ptr n s' := by
  obtain ⟨t, loop, hstored, hfree, hroom⟩ := h
  have hroom' : ∀ i, (t i).length + n < fuel := fun i => Nat.lt_of_succ_lt (hroom i)
  cases l with
  | call c block =>
    obtain ⟨hblock, hne⟩ := hok
    have hone : ∀ i, (t i).length + 1 < fuel := fun i => by
      have := hroom i
      omega
    obtain ⟨mem, t', hrun, hstored', hstep⟩ := hstored.call hone (c, block) hblock
    rw [loopTick, hrun] at hs'
    cases hs'
    refine ⟨t', _, hstored', ?_, fun i => ?_⟩
    · by_contra hlive
      obtain ⟨i, hi⟩ := hstored'.holds.covers ptr (Option.isSome_iff_ne_none.2 hlive)
      rcases hstep.mem_addrs hi with rfl | ⟨j, hj⟩
      · exact hne rfl
      · have hsome := (hstored.holds.chain j).live hj
        rw [hfree] at hsome
        exact Bool.false_ne_true hsome
    · have h₁ := hstep.length_le i
      have h₂ := hroom i
      omega
  | stop =>
    cases hs'
    exact ⟨t, loop, hstored, hfree, hroom'⟩
  | wait ready =>
    rw [loopTick] at hs'
    split at hs'
    · cases hs'
      exact ⟨t, loop, hstored, hfree, hroom'⟩
    · cases hs'
  | dispatch =>
    rw [loopTick] at hs'
    split at hs'
    · cases hs'
    · obtain ⟨fc, -, rfl⟩ := Option.map_eq_some_iff.1 hs'
      exact ⟨t, loop, hstored, hfree, hroom'⟩

/-- **An fd removed while its event is pending.** Once a callback has removed an fd whose event is
still to come, the turn of that event reads the freed record, unless `malloc` has handed out its
block again. -/
theorem removed_pending_reads_freed {before after : List (LoopTick π β γ)} {s' : LoopState π β γ}
    {e : EpollEvent π} {mem : LoopMemory π β γ} {ctl : Bool}
    (hfuel : before.length + (after.length + 1) < fuel)
    (hbefore : Along (loopTick fuel) RemovesNoPending loopRunStart before)
    (hs : run (loopTick fuel) loopRunStart before = some s) (he : e ∈ s.pending)
    (hdel : loopDelFdMem fuel s.mem e.fd ctl = some (mem, 0))
    (hafter : Along (loopTick fuel) (KeepsFreed e.ptr) { s with mem := mem } after)
    (hs' : run (loopTick fuel) { s with mem := mem } after = some s')
    (hturn : s'.pending.head? = some e) :
    loopTick fuel s' .dispatch = none := by
  have hrun := agree_run (after.length + 1) hfuel hbefore
  rw [hs] at hrun
  generalize run Reactor.tick Reactor.start before = a at hrun
  obtain ⟨a, t, h⟩ : ∃ a t, Dispatches fuel t (after.length + 1) s a := by
    cases hrun with
    | some h => exact ⟨_, h⟩
  have hroom : ∀ i, (t i).length + 1 < fuel := fun i => by
    have := h.room i
    omega
  obtain ⟨c, hrecord, hptr⟩ := Option.map_eq_some_iff.1 (h.live e he)
  have hfree : mem.table.val e.ptr = none := by
    rw [← hptr]
    exact loopDelFdMem_frees h.stored (fun i => Nat.lt_of_succ_lt (hroom i)) hrecord hdel
  obtain ⟨mem', t', hmem', hstored, hstep⟩ := h.stored.call hroom (.delFd e.fd ctl, e.ptr) trivial
  obtain rfl : mem = mem' := congrArg Prod.fst (Option.some.inj (hdel.symm.trans hmem'))
  have hfreed : Freed fuel e.ptr after.length { s with mem := mem } := by
    refine ⟨t', _, hstored, hfree, fun i => ?_⟩
    have h₁ := hstep.length_le i
    have h₂ := h.room i
    omega
  obtain ⟨-, -, -, hnone, -⟩ := run_countdown (P := Freed fuel e.ptr)
    (fun _ _ _ _ hs hok htick => hs.tick hok htick) hfreed hafter hs'
  rw [loopTick]
  obtain ⟨rest, hpending⟩ := List.head?_eq_some_iff.1 hturn
  rw [hpending]
  dsimp only
  rw [hnone]
  rfl

/-- The callback of fd 5 runs, and the event of fd 261 is still to come. -/
def firstOfTwo : LoopState Nat Nat Nat :=
  (run (loopTick 7) loopRunStart (twoReady.take 4)).getD loopRunStart

/-- The memory after that callback has removed fd 261. -/
def otherRemoved : LoopMemory Nat Nat Nat :=
  ((loopDelFdMem 7 firstOfTwo.mem 261 true).map Prod.fst).getD loopCreateMem

theorem removed_pending_reads_freed_two :
    ((⟨261, 1, 200⟩ : EpollEvent Nat) ∈ firstOfTwo.pending ∧
      loopDelFdMem 7 firstOfTwo.mem 261 true = some (otherRemoved, 0)) ∧
    loopTick 7 { firstOfTwo with mem := otherRemoved } .dispatch = none :=
  have hbefore : Along (loopTick 7) RemovesNoPending loopRunStart (twoReady.take 4) := by decide
  have hpending : (⟨261, 1, 200⟩ : EpollEvent Nat) ∈ firstOfTwo.pending := by decide
  have hdel : loopDelFdMem 7 firstOfTwo.mem 261 true = some (otherRemoved, 0) := rfl
  have hs : run (loopTick 7) loopRunStart (twoReady.take 4) = some firstOfTwo := rfl
  have hafter : Along (loopTick 7) (KeepsFreed 200) { firstOfTwo with mem := otherRemoved } [] :=
    trivial
  have hturn : firstOfTwo.pending.head? = some ⟨261, 1, 200⟩ := by decide
  ⟨⟨hpending, hdel⟩,
    removed_pending_reads_freed (by decide) hbefore hs hpending hdel hafter rfl hturn⟩

end DRoole
