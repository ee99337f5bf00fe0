import DRoole.Event.Heap

/-!
# Taking the event loop down

`loop_free` walks every chain, removes each fd from epoll and frees its record;
`loop_emergency_close_all` walks the same chains and closes the fds. Both reach
every registered fd exactly once, and after `loop_free` no record is left.
-/

namespace DRoole

open Lib Lib.Linked

variable {π β γ : Type} [DecidableEq π]

/-- The inner loop of `loop_free` from `fc`, and the fds it removes from epoll; `ctl` tells whether
epoll complies. -/
def freeChain (ctl : Int32 → Bool) :
    (fuel : Nat) → Option π → LoopMemory π β γ → Option (LoopMemory π β γ × List Int32)
  | 0, _, _ => none
  | _ + 1, none, s => some (s, [])
  | n + 1, some a, s => do
    let fc ← s.table.val a
    -- `next` is read before the record is freed
    let next := s.table.link (.next a)
    let interest := if ctl fc.fd then Function.update s.interest fc.fd none else s.interest
    let table ← s.table.free a
    let rest ← freeChain ctl n next ⟨table, interest⟩
    some (rest.1, fc.fd :: rest.2)

/-- `loop_free` over the buckets `is`. -/
def freeBuckets (ctl : Int32 → Bool) (fuel : Nat) :
    List (Fin 256) → LoopMemory π β γ → Option (LoopMemory π β γ × List Int32)
  | [], s => some (s, [])
  | i :: is, s => do
    let chain ← freeChain ctl fuel (s.table.link (.head i)) s
    let table ← chain.1.table.store (.head i) none
    let rest ← freeBuckets ctl fuel is { chain.1 with table := table }
    some (rest.1, chain.2 ++ rest.2)

def loopFree (ctl : Int32 → Bool) (fuel : Nat) (s : LoopMemory π β γ) :
    Option (LoopMemory π β γ × List Int32) :=
  freeBuckets ctl fuel (List.finRange 256) s

/-- The inner loop of `loop_emergency_close_all` from `fc`, and the fds it closes. -/
def closeChain (s : LoopMemory π β γ) (excludeFds : List Int32) :
    (fuel : Nat) → Option π → Option (List Int32)
  | 0, _ => none
  | _ + 1, none => some []
  | n + 1, some a => do
    let fc ← s.table.val a
    let rest ← closeChain s excludeFds n (s.table.link (.next a))
    some (if fc.fd ∉ excludeFds ∧ fc.fd ≥ 0 then fc.fd :: rest else rest)

def loopEmergencyCloseAll (fuel : Nat) (s : LoopMemory π β γ) (excludeFds : List Int32) :
    Option (List Int32) :=
  (List.finRange 256).foldlM (fun closed i =>
    (closeChain s excludeFds fuel (s.table.link (.head i))).map (closed ++ ·)) []

/-! ## Freeing -/

/-- What is left when the records at `as` have been freed and `fds` removed from epoll. -/
structure Released (ctl : Int32 → Bool) (as : List π) (fds : List Int32)
    (s s' : LoopMemory π β γ) : Prop where
  freed : ∀ a ∈ as, s'.table.val a = none
  kept : ∀ a, a ∉ as → s'.table.val a = s.table.val a
  next : ∀ a, s'.table.link (.next a) = s.table.link (.next a)
  removed : ∀ fd ∈ fds, ctl fd → s'.interest fd = none
  absent : ∀ fd, s.interest fd = none → s'.interest fd = none

omit [DecidableEq π] in
theorem Released.trans {ctl : Int32 → Bool} {as as' : List π} {fds fds' : List Int32}
    {s s' s'' : LoopMemory π β γ} (h : Released ctl as fds s s')
    (h' : Released ctl as' fds' s' s'') : Released ctl (as ++ as') (fds ++ fds') s s'' where
  freed a ha := by
    by_cases ha' : a ∈ as'
    · exact h'.freed a ha'
    · rw [h'.kept a ha']
      exact h.freed a ((List.mem_append.1 ha).resolve_right ha')
  kept a ha := by
    rw [List.mem_append, not_or] at ha
    rw [h'.kept a ha.2, h.kept a ha.1]
  next a := by rw [h'.next, h.next]
  removed fd hfd hctl := by
    rcases List.mem_append.1 hfd with hfd | hfd
    · exact h'.absent fd (h.removed fd hfd hctl)
    · exact h'.removed fd hfd hctl
  absent fd hfd := h'.absent fd (h.absent fd hfd)

theorem released_one (ctl : Int32 → Bool) (s : LoopMemory π β γ) (a : π) (fd : Int32) :
    Released ctl [a] [fd] s
      ⟨{ s.table with val := Function.update s.table.val a none },
        if ctl fd then Function.update s.interest fd none else s.interest⟩ where
  freed b hb := by
    rw [List.mem_singleton.1 hb]
    exact Function.update_self ..
  kept b hb := Function.update_of_ne (fun e => hb (List.mem_singleton.2 e)) _ _
  next _ := rfl
  removed fd' hfd' hctl := by
    obtain rfl := List.mem_singleton.1 hfd'
    rw [if_pos hctl]
    exact Function.update_self ..
  absent fd' hnone := by
    dsimp only
    split
    · by_cases hfd : fd' = fd
      · rw [hfd, Function.update_self]
      · rw [Function.update_of_ne hfd, hnone]
    · exact hnone

theorem exists_freeChain (ctl : Int32 → Bool) {l : List (π × FileContext β γ)} :
    ∀ {n : Nat} {s : LoopMemory π β γ} {p : Option π}, Chain s.table p l → (addrs l).Nodup →
      l.length < n →
      ∃ s', freeChain ctl n p s = some (s', l.map (·.2.fd)) ∧
        Released ctl (addrs l) (l.map (·.2.fd)) s s' ∧ s'.table.link = s.table.link := by
  induction l with
  | nil =>
    intro n s p hl _ hn
    obtain ⟨n, rfl⟩ := Nat.exists_eq_succ_of_ne_zero (Nat.ne_zero_of_lt hn)
    obtain rfl : p = none := hl
    exact ⟨s, rfl, ⟨fun _ ha => absurd ha List.not_mem_nil, fun _ _ => rfl, fun _ => rfl,
      fun _ hfd => absurd hfd List.not_mem_nil, fun _ h => h⟩, rfl⟩
  | cons c l ih =>
    intro n s p hl hnodup hn
    obtain ⟨a, fc⟩ := c
    obtain ⟨n, rfl⟩ := Nat.exists_eq_succ_of_ne_zero (Nat.ne_zero_of_lt hn)
    obtain ⟨rfl, hval, htail⟩ := hl
    obtain ⟨hal, hnodup⟩ := List.nodup_cons.1 hnodup
    have hone := released_one ctl s a fc.fd
    have hfree : s.table.free a
        = some { s.table with val := Function.update s.table.val a none } :=
      if_pos (by rw [hval]; rfl)
    have htail' : Chain ({ s.table with val := Function.update s.table.val a none } :
        Memory (Fin 256) π (FileContext β γ)) (s.table.link (.next a)) l := by
      refine htail.frame (fun b hb => ?_) fun _ _ => rfl
      refine hone.kept b fun hba => hal ?_
      exact List.mem_singleton.1 hba ▸ hb
    obtain ⟨s', hrest, hreleased, hlink⟩ := ih (s := ⟨_, if ctl fc.fd then
      Function.update s.interest fc.fd none else s.interest⟩) htail' hnodup
      (Nat.lt_of_succ_lt_succ hn)
    refine ⟨s', ?_, hone.trans hreleased, hlink⟩
    rw [freeChain, hval]
    simp only [Option.bind_eq_bind, Option.bind_some, hfree, hrest, List.map_cons]

def bucketFds (t : Placement π β γ) (is : List (Fin 256)) : List Int32 :=
  is.flatMap fun i => (t i).map (·.2.fd)

def bucketAddrs (t : Placement π β γ) (is : List (Fin 256)) : List π :=
  is.flatMap fun i => addrs (t i)

section
variable {t : Placement π β γ} {fuel : Nat} (hnodup : ∀ i, (addrs (t i)).Nodup)
  (hapart : ∀ i j a, a ∈ addrs (t i) → a ∈ addrs (t j) → i = j)
  (hfuel : ∀ i, (t i).length < fuel)
include hnodup hapart hfuel

theorem exists_freeBuckets (ctl : Int32 → Bool) {is : List (Fin 256)} :
    ∀ {s : LoopMemory π β γ}, is.Nodup →
      (∀ i ∈ is, Chain s.table (s.table.link (.head i)) (t i)) →
      ∃ s', freeBuckets ctl fuel is s = some (s', bucketFds t is) ∧
        Released ctl (bucketAddrs t is) (bucketFds t is) s s' ∧
        (∀ i ∈ is, s'.table.link (.head i) = none) ∧
        ∀ i ∉ is, s'.table.link (.head i) = s.table.link (.head i) := by
  induction is with
  | nil =>
    intro s _ _
    exact ⟨s, rfl, ⟨fun _ ha => absurd ha List.not_mem_nil, fun _ _ => rfl, fun _ => rfl,
      fun _ hfd => absurd hfd List.not_mem_nil, fun _ h => h⟩,
      fun _ hi => absurd hi List.not_mem_nil, fun _ _ => rfl⟩
  | cons i is ih =>
    intro s his hchains
    obtain ⟨hi, his⟩ := List.nodup_cons.1 his
    rw [List.forall_mem_cons] at hchains
    obtain ⟨s₁, hchain, hreleased, hlink⟩ :=
      exists_freeChain ctl hchains.1 (hnodup i) (hfuel i)
    let s₂ : LoopMemory π β γ :=
      { s₁ with table := { s₁.table with link := Function.update s₁.table.link (.head i) none } }
    have hreleased₂ : Released ctl (addrs (t i)) ((t i).map (·.2.fd)) s s₂ :=
      { hreleased with
        next := fun a => (Function.update_of_ne (Slot.next_ne_head a i) none s₁.table.link).trans
          (hreleased.next a) }
    have hhead₂ : ∀ j, j ≠ i → s₂.table.link (.head j) = s.table.link (.head j) := fun j hj =>
      (Function.update_of_ne (fun e => hj (Slot.head.inj e)) none s₁.table.link).trans
        (congrFun hlink _)
    have hchains₂ : ∀ j ∈ is, Chain s₂.table (s₂.table.link (.head j)) (t j) := by
      intro j hj
      have hji : j ≠ i := fun e => hi (e ▸ hj)
      rw [hhead₂ j hji]
      refine (hchains.2 j hj).frame (fun a ha => ?_) fun a _ => hreleased₂.next a
      exact hreleased₂.kept a fun hai => hji (hapart j i a ha hai)
    obtain ⟨s', hrest, hreleased', hheads, hothers⟩ := ih his hchains₂
    refine ⟨s', ?_, hreleased₂.trans hreleased', fun j hj => ?_, fun j hj => ?_⟩
    · rw [freeBuckets, hchain]
      simp only [Option.bind_eq_bind, Option.bind_some, Memory.store, Memory.valid, if_true]
      rw [hrest]
      rfl
    · by_cases hjis : j ∈ is
      · exact hheads j hjis
      · rw [hothers j hjis, (List.mem_cons.1 hj).resolve_right hjis]
        exact Function.update_self ..
    · rw [List.mem_cons, not_or] at hj
      rw [hothers j hj.2, hhead₂ j hj.1]

end

/-! ## Closing -/

omit [DecidableEq π] in
theorem closeChain_eq {s : LoopMemory π β γ} {excludeFds : List Int32}
    {l : List (π × FileContext β γ)} {p : Option π} (h : Chain s.table p l) {n : Nat}
    (hn : l.length < n) :
    closeChain s excludeFds n p
      = some ((l.map (·.2.fd)).filter fun fd => fd ∉ excludeFds ∧ fd ≥ 0) := by
  induction l generalizing p n with
  | nil =>
    obtain ⟨n, rfl⟩ := Nat.exists_eq_succ_of_ne_zero (Nat.ne_zero_of_lt hn)
    obtain rfl : p = none := h
    rfl
  | cons c l ih =>
    obtain ⟨n, rfl⟩ := Nat.exists_eq_succ_of_ne_zero (Nat.ne_zero_of_lt hn)
    obtain ⟨rfl, hval, htail⟩ := h
    rw [closeChain, hval]
    simp only [Option.bind_eq_bind, Option.bind_some, ih htail (Nat.lt_of_succ_lt_succ hn),
      List.map_cons, List.filter_cons, decide_eq_true_eq]

omit [DecidableEq π] in
theorem emergencyClose_eq {s : LoopMemory π β γ} {t : Placement π β γ} {excludeFds : List Int32}
    {fuel : Nat} (hholds : Holds s.table t) (hfuel : ∀ i, (t i).length < fuel)
    (is : List (Fin 256)) (closed : List Int32) :
    is.foldlM (fun closed i =>
        (closeChain s excludeFds fuel (s.table.link (.head i))).map (closed ++ ·)) closed
      = some (closed ++ (bucketFds t is).filter fun fd => fd ∉ excludeFds ∧ fd ≥ 0) := by
  induction is generalizing closed with
  | nil =>
    rw [bucketFds, List.flatMap_nil, List.filter_nil, List.append_nil]
    rfl
  | cons i is ih =>
    rw [List.foldlM_cons, closeChain_eq (hholds.chain i) (hfuel i)]
    simp only [Option.map_some, Option.bind_eq_bind, Option.bind_some]
    have hfds : bucketFds t (i :: is) = (t i).map (·.2.fd) ++ bucketFds t is := List.flatMap_cons
    rw [ih, hfds, List.filter_append, List.append_assoc]

/-! ## Every registered fd, once -/

section
variable {s : LoopMemory π β γ} {t : Placement π β γ} {loop : EventLoop β γ}
  (h : Stored s t loop) (hsound : loop.Sound)
include h hsound

omit [DecidableEq π]

theorem fdHash_of_mem {i : Fin 256} {fd : Int32} (hfd : fd ∈ (t i).map (·.2.fd)) :
    fdHash fd = i := by
  obtain ⟨c, hc, rfl⟩ := List.mem_map.1 hfd
  refine hsound.placed i c.2 ?_
  rw [h.table]
  exact List.mem_map_of_mem hc

theorem nodup_bucketFds {is : List (Fin 256)} (his : is.Nodup) : (bucketFds t is).Nodup := by
  refine List.nodup_flatMap.2 ⟨fun i _ => ?_, ?_⟩
  · have hnodup := hsound.nodup i
    rw [h.table, List.map_map] at hnodup
    exact hnodup
  · refine his.imp fun {i j} hij fd hi hj => hij ?_
    rw [← fdHash_of_mem h hsound hi, ← fdHash_of_mem h hsound hj]

theorem mem_bucketFds (fd : Int32) :
    fd ∈ bucketFds t (List.finRange 256) ↔ (registered loop fd).isSome := by
  have hfind : (registered loop fd).isSome = (recordAt t fd).isSome := by
    rw [registered, h.find, Option.isSome_map, Option.isSome_map]
  rw [hfind, bucketFds, List.mem_flatMap]
  constructor
  · rintro ⟨i, -, hi⟩
    obtain ⟨c, hc, hfd⟩ := List.mem_map.1 hi
    obtain rfl := fdHash_of_mem h hsound hi
    rw [recordAt, Buckets.find, List.find?_isSome]
    exact ⟨c, hc, decide_eq_true hfd⟩
  · intro hsome
    obtain ⟨c, hc⟩ := Option.isSome_iff_exists.1 hsome
    obtain ⟨hmem, hfd⟩ := recordAt_eq_some hc
    exact ⟨fdHash fd, List.mem_finRange _, List.mem_map.2 ⟨c, hmem, hfd⟩⟩

end

/-- **Taking the loop down.** After any run of registration calls `loop_free` ends without
touching a freed record, frees every record there is and removes every registered fd from epoll
exactly once; `loop_emergency_close_all` closes these fds, the excluded ones apart. None of them
is negative. -/
theorem loop_teardown (calls : List (LoopCall β γ × π)) (fuel : Nat) (hfuel : calls.length < fuel)
    (hmalloc : Along (stepMem fuel) (fun s => FreshBlock s.1) (loopCreateMem, []) calls)
    (ctl : Int32 → Bool) (excludeFds : List Int32) :
    ∃ s s' fds, run (stepMem fuel) (loopCreateMem, []) calls
        = some (s, (runCalls (calls.map Prod.fst)).2) ∧
      loopFree ctl fuel s = some (s', fds) ∧
      (∀ a, s'.table.val a = none) ∧ (∀ i, s'.table.link (.head i) = none) ∧
      fds.Nodup ∧
      (∀ fd, fd ∈ fds ↔ (registered (runCalls (calls.map Prod.fst)).1 fd).isSome) ∧
      (∀ fd ∈ fds, fd ≥ 0) ∧ (∀ fd ∈ fds, ctl fd → s'.interest fd = none) ∧
      loopEmergencyCloseAll fuel s excludeFds = some (fds.filter fun fd => fd ∉ excludeFds) := by
  have hroom : ∀ i : Fin 256, ([] : List (π × FileContext β γ)).length + calls.length < fuel := by
    intro i
    rwa [List.length_nil, Nat.zero_add]
  obtain ⟨s, t, hrun, hs, hplaced⟩ := Stored.calls calls stored_loopCreate hroom hmalloc
  have hsound := runCalls_sound (calls.map Prod.fst)
  have hlength : ∀ i, (t i).length < fuel := fun i => by
    have := hplaced.length_le i
    rw [List.length_nil, List.length_map] at this
    omega
  obtain ⟨s', hfree, hreleased, hheads, -⟩ := exists_freeBuckets hs.holds.nodup hs.holds.apart
    hlength ctl (List.nodup_finRange 256) fun i _ => hs.holds.chain i
  have hpos : ∀ fd ∈ bucketFds t (List.finRange 256), fd ≥ 0 := fun fd hfd =>
    nonneg_runCalls _ ((mem_bucketFds hs hsound fd).1 hfd)
  refine ⟨s, s', _, hrun, hfree, fun a => ?_, fun i => hheads i (List.mem_finRange i),
    nodup_bucketFds hs hsound (List.nodup_finRange 256), mem_bucketFds hs hsound, hpos,
    hreleased.removed, ?_⟩
  · by_cases ha : a ∈ bucketAddrs t (List.finRange 256)
    · exact hreleased.freed a ha
    · rw [hreleased.kept a ha]
      by_contra hlive
      obtain ⟨i, hi⟩ := hs.holds.covers a (Option.isSome_iff_ne_none.2 hlive)
      exact ha (List.mem_flatMap.2 ⟨i, List.mem_finRange i, hi⟩)
  · refine (emergencyClose_eq hs.holds hlength (List.finRange 256) []).trans (congrArg some ?_)
    rw [List.nil_append]
    refine List.filter_congr fun fd hfd => ?_
    rw [decide_eq_decide, and_iff_left (hpos fd hfd)]

/-- fd 5 is the one of `collidingCalls` that stays registered. -/
theorem loop_teardown_colliding :
    (collidingBlocks.length < 6 ∧
      Along (stepMem 6) (fun s => FreshBlock s.1) (loopCreateMem, []) collidingBlocks) ∧
    ∃ s s' fds, run (stepMem 6) (loopCreateMem, []) collidingBlocks
        = some (s, (runCalls (collidingBlocks.map Prod.fst)).2) ∧
      loopFree (fun _ => true) 6 s = some (s', fds) ∧ (∀ a, s'.table.val a = none) ∧
      5 ∈ fds ∧ 261 ∉ fds ∧ 517 ∉ fds := by
  have hmalloc : Along (stepMem 6) (fun s => FreshBlock s.1) (loopCreateMem, []) collidingBlocks :=
    by decide
  refine ⟨⟨by decide, hmalloc⟩, ?_⟩
  obtain ⟨s, s', fds, hrun, hfree, hnone, -, -, hfds, -⟩ :=
    loop_teardown collidingBlocks 6 (by decide) hmalloc (fun _ => true) []
  refine ⟨s, s', fds, hrun, hfree, hnone, (hfds 5).2 (by decide), fun h => ?_, fun h => ?_⟩
  · exact absurd ((hfds 261).1 h) (by decide)
  · exact absurd ((hfds 517).1 h) (by decide)

end DRoole
