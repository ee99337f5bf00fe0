import DRoole.Lib.Linked
import DRoole.Lib.Runs
import DRoole.Event.Table

/-!
# The fd table in memory

In `Event.Loop` the chains are lists. Here they are what `event_loop.c` has:
`FileContext` records from `malloc`, linked by `next`; epoll keeps in `ev.data.ptr`
the address of the record of every fd it knows. A call has no result if it
follows a pointer to a record that has been freed.

Whatever blocks `malloc` hands out, a run of registration calls does to this memory
what it does to the lists, and every record that is not in a chain has been freed.
-/

namespace DRoole

open Lib Lib.Linked

/-- The records of `struct EventLoop`, and epoll's `ev.events` and `ev.data.ptr` for every fd. -/
structure LoopMemory (π β γ : Type) where
  table : Memory (Fin 256) π (FileContext β γ)
  interest : Int32 → Option (UInt32 × π)

variable {π β γ : Type} [DecidableEq π]

def loopCreateMem : LoopMemory π β γ where
  table := ⟨fun _ => none, fun _ => none⟩
  interest := fun _ => none

def findFileContextMem (fuel : Nat) (table : Memory (Fin 256) π (FileContext β γ)) (fd : Int32) :
    Option (Option π) :=
  table.find (·.fd = fd) fuel (table.link (.head (fdHash fd)))

/-- `fc` is the address of a record for `fd` that is in no chain. -/
def insertFileContextMem (fuel : Nat) (table : Memory (Fin 256) π (FileContext β γ)) (fc : π)
    (fd : Int32) : Option (Memory (Fin 256) π (FileContext β γ) × Int) := do
  match ← findFileContextMem fuel table fd with
  | some _ => some (table, -1)
  | none =>
    let table ← table.push (.head (fdHash fd)) fc
    some (table, 0)

def removeFileContextMem (fuel : Nat) (table : Memory (Fin 256) π (FileContext β γ)) (fd : Int32) :
    Option (Memory (Fin 256) π (FileContext β γ) × Option π) :=
  table.unlink (·.fd = fd) fuel (.head (fdHash fd))

/-- `malloc` is the block it returns. -/
def loopAddFdMem (fuel : Nat) (s : LoopMemory π β γ) (fd : Int32) (events : UInt32)
    (cb : Option β) (context : γ) (malloc : Option π) (ctl : Bool) :
    Option (LoopMemory π β γ × Int) :=
  match cb with
  | none => some (s, -1)
  | some callback =>
    if fd < 0 then some (s, -1)
    else
      match malloc with
      | none => some (s, -1)
      | some fc => do
        let table := s.table.alloc fc ⟨fd, callback, context⟩
        let inserted ← insertFileContextMem fuel table fc fd
        if inserted.2 ≠ 0 then
          let table ← table.free fc
          some ({ s with table := table }, -1)
        else if ctl then
          some (⟨inserted.1, Function.update s.interest fd (some (epollEvents events, fc))⟩, 0)
        else
          let removed ← removeFileContextMem fuel inserted.1 fd
          let table ← removed.1.free fc
          some ({ s with table := table }, -1)

def loopModFdMem (fuel : Nat) (s : LoopMemory π β γ) (fd : Int32) (events : UInt32)
    (cb : Option β) (context : γ) (ctl : Bool) : Option (LoopMemory π β γ × Int) :=
  match cb with
  | none => some (s, -1)
  | some callback =>
    if fd < 0 then some (s, -1)
    else do
      match ← findFileContextMem fuel s.table fd with
      | none => some (s, -1)
      | some fc =>
        let table ← s.table.modify (FileContext.rebind callback context) fc
        if ctl then
          some (⟨table, Function.update s.interest fd (some (epollEvents events, fc))⟩, 0)
        else some ({ s with table := table }, -1)

def loopDelFdMem (fuel : Nat) (s : LoopMemory π β γ) (fd : Int32) (ctl : Bool) :
    Option (LoopMemory π β γ × Int) :=
  if fd < 0 then some (s, -1)
  else do
    let removed ← removeFileContextMem fuel s.table fd
    match removed.2 with
    | none => some ({ s with table := removed.1 }, -1)
    | some fc =>
      let table ← removed.1.free fc
      some (⟨table, if ctl then Function.update s.interest fd none else s.interest⟩, 0)

def LoopCall.runMem (fuel : Nat) (c : LoopCall β γ) (block : π) (s : LoopMemory π β γ) :
    Option (LoopMemory π β γ × Int) :=
  match c with
  | addFd fd events cb context malloc ctl =>
    loopAddFdMem fuel s fd events cb context (if malloc then some block else none) ctl
  | modFd fd events cb context ctl => loopModFdMem fuel s fd events cb context ctl
  | delFd fd ctl => loopDelFdMem fuel s fd ctl

/-! ## Records at addresses -/

abbrev Placement (π β γ : Type) := Fin 256 → List (π × FileContext β γ)

def recordAt (t : Placement π β γ) (fd : Int32) : Option (π × FileContext β γ) :=
  Buckets.find fdHash (fun c => c.2.fd) t fd

omit [DecidableEq π] in
theorem recordAt_eq_some {t : Placement π β γ} {fd : Int32} {c : π × FileContext β γ}
    (h : recordAt t fd = some c) : c ∈ t (fdHash fd) ∧ c.2.fd = fd :=
  ⟨List.mem_of_find?_eq_some h, of_decide_eq_true
    (List.find?_some (p := fun c : π × FileContext β γ => decide (c.2.fd = fd)) h)⟩

/-- The memory has the records `t` and no others, and they are the table of `loop`. -/
structure Stored (s : LoopMemory π β γ) (t : Placement π β γ) (loop : EventLoop β γ) : Prop where
  holds : Holds s.table t
  table : loop.fdTable = fun i => (t i).map Prod.snd
  interest : loop.interest = fun fd => (s.interest fd).map Prod.fst

/-- What a call can do to the records and to epoll's side; `block` is what `malloc` returns. -/
inductive PlacedStep (interest : Int32 → Option (UInt32 × π)) (t : Placement π β γ) (block : π) :
    LoopCall β γ → (Int32 → Option (UInt32 × π)) → Placement π β γ → Prop
  | same (c : LoopCall β γ) : PlacedStep interest t block c interest t
  | added {fd : Int32} {events : UInt32} {callback : β} {context : γ}
      (hnew : recordAt t fd = none) :
      PlacedStep interest t block (.addFd fd events (some callback) context true true)
        (Function.update interest fd (some (epollEvents events, block)))
        (Buckets.push fdHash (fun c => c.2.fd) t (block, ⟨fd, callback, context⟩))
  | changed {fd : Int32} {events : UInt32} {callback : β} {context : γ}
      {c : π × FileContext β γ} (hold : recordAt t fd = some c) (ctl : Bool) :
      PlacedStep interest t block (.modFd fd events (some callback) context ctl)
        (if ctl then Function.update interest fd (some (epollEvents events, c.1)) else interest)
        (Buckets.modify fdHash (fun c => c.2.fd)
          (fun c => (c.1, c.2.rebind callback context)) t fd)
  | removed {fd : Int32} {c : π × FileContext β γ} (hold : recordAt t fd = some c) (ctl : Bool) :
      PlacedStep interest t block (.delFd fd ctl)
        (if ctl then Function.update interest fd none else interest)
        (Buckets.erase fdHash (fun c => c.2.fd) t fd)

/-! ## One call -/

section
variable {loop : EventLoop β γ} {fd : Int32} {events : UInt32} {callback : β} {context : γ}
  (hfd : ¬fd < 0)
include hfd

theorem loopAddFd_of_some {fc : FileContext β γ} (hfind : findFileContext loop fd = some fc)
    (ctl : Bool) : loopAddFd loop fd events (some callback) context true ctl = (loop, -1) := by
  rw [loopAddFd]
  dsimp only
  rw [if_neg hfd, insertFileContext, hfind]
  rfl

theorem loopAddFd_of_none (hfind : findFileContext loop fd = none) (ctl : Bool) :
    loopAddFd loop fd events (some callback) context true ctl =
      if ctl then
        (⟨Buckets.push fdHash FileContext.fd loop.fdTable ⟨fd, callback, context⟩,
          Function.update loop.interest fd (some (epollEvents events))⟩, 0)
      else (loop, -1) := by
  have hback : Buckets.erase fdHash FileContext.fd
      (Buckets.push fdHash FileContext.fd loop.fdTable ⟨fd, callback, context⟩) fd
      = loop.fdTable := Buckets.erase_push
  have hinsert : insertFileContext loop ⟨fd, callback, context⟩ =
      ({ loop with fdTable :=
          Buckets.push fdHash FileContext.fd loop.fdTable ⟨fd, callback, context⟩ }, 0) :=
    if_neg (by rw [hfind]; exact Bool.false_ne_true)
  rw [loopAddFd]
  dsimp only
  rw [if_neg hfd, hinsert]
  cases ctl with
  | true => rfl
  | false =>
    show ((⟨Buckets.erase _ _ _ _, loop.interest⟩ : EventLoop β γ), (-1 : Int)) = _
    rw [hback]
    rfl

end

section
variable {s : LoopMemory π β γ} {t : Placement π β γ} {loop : EventLoop β γ}

omit [DecidableEq π] in
theorem Stored.find (h : Stored s t loop) (fd : Int32) :
    findFileContext loop fd = (recordAt t fd).map Prod.snd := by
  rw [findFileContext, h.table]
  exact Buckets.find_map Prod.snd t fd

omit [DecidableEq π] in
theorem Stored.find_eq_some (h : Stored s t loop) {fd : Int32} {c : π × FileContext β γ}
    (hold : recordAt t fd = some c) : findFileContext loop fd = some c.2 := by
  rw [h.find, hold]
  rfl

omit [DecidableEq π] in
theorem Stored.find_eq_none (h : Stored s t loop) {fd : Int32} (hold : recordAt t fd = none) :
    findFileContext loop fd = none := by
  rw [h.find, hold]
  rfl

/-- Where the memory and the lists are after a call, and what it returns. -/
def CallStores (s : LoopMemory π β γ) (t : Placement π β γ) (block : π) (c : LoopCall β γ)
    (r : EventLoop β γ × Int) (result : Option (LoopMemory π β γ × Int)) : Prop :=
  ∃ s' t', result = some (s', r.2) ∧ Stored s' t' r.1 ∧
    PlacedStep s.interest t block c s'.interest t'

omit [DecidableEq π] in
theorem Stored.refused (h : Stored s t loop) (block : π) (c : LoopCall β γ) :
    CallStores s t block c (loop, -1) (some (s, -1)) :=
  ⟨s, t, rfl, h, .same c⟩

theorem Stored.roll_back (h : Stored s t loop) {block : π} (hblock : s.table.val block = none)
    {fuel : Nat} (hfuel : ∀ i, (t i).length + 1 < fuel) (fc : FileContext β γ) :
    ∃ table removed freed,
      (s.table.alloc block fc).push (.head (fdHash fc.fd)) block = some table ∧
      removeFileContextMem fuel table fc.fd = some (removed, some block) ∧
      removed.free block = some freed ∧ Holds freed t := by
  obtain ⟨table, hpush, hholds⟩ := h.holds.push_alloc hblock fc (fdHash fc.fd)
  have hchain : Function.update t (fdHash fc.fd) ((block, fc) :: t (fdHash fc.fd)) (fdHash fc.fd)
      = (block, fc) :: t (fdHash fc.fd) := Function.update_self ..
  have hfirst : decide (fc.fd = fc.fd) = true := decide_eq_true rfl
  have herase : ((block, fc) :: t (fdHash fc.fd)).eraseP (fun c => decide (c.2.fd = fc.fd))
      = t (fdHash fc.fd) := List.eraseP_cons_of_pos hfirst
  obtain ⟨removed, freed, hremove, hfree, hholds⟩ := hholds.unlink_free
    (q := fun c => decide (c.fd = fc.fd)) (i := fdHash fc.fd) (n := fuel) (a := block) (x := fc)
    (by rw [hchain]; exact hfuel _) (by rw [hchain]; exact List.find?_cons_of_pos hfirst)
  rw [hchain, herase, Function.update_idem, Function.update_eq_self] at hholds
  exact ⟨table, removed, freed, hpush, hremove, hfree, hholds⟩

theorem loopAddFdMem_stores (h : Stored s t loop) {block : π} (hblock : s.table.val block = none)
    {fuel : Nat} (hfuel : ∀ i, (t i).length + 1 < fuel) (fd : Int32) (events : UInt32)
    (cb : Option β) (context : γ) (malloc ctl : Bool) :
    CallStores s t block (.addFd fd events cb context malloc ctl)
      (loopAddFd loop fd events cb context malloc ctl)
      (loopAddFdMem fuel s fd events cb context (if malloc then some block else none) ctl) := by
  cases cb with
  | none => exact h.refused ..
  | some callback =>
    by_cases hfd : fd < 0
    · unfold loopAddFd loopAddFdMem
      dsimp only
      rw [if_pos hfd, if_pos hfd]
      exact h.refused ..
    cases malloc with
    | false =>
      unfold loopAddFd loopAddFdMem
      dsimp only
      rw [if_neg hfd, if_neg hfd]
      exact h.refused ..
    | true =>
      have hfind : findFileContextMem fuel (s.table.alloc block ⟨fd, callback, context⟩) fd
          = some ((recordAt t fd).map Prod.fst) :=
        (h.holds.alloc hblock _ _).find_eq (Nat.lt_of_succ_lt (hfuel _))
      rw [if_pos rfl]
      unfold loopAddFdMem
      dsimp only
      rw [if_neg hfd, insertFileContextMem, hfind]
      cases hold : recordAt t fd with
      | some c =>
        rw [loopAddFd_of_some hfd (h.find_eq_some hold)]
        obtain ⟨table, hfree, hholds⟩ := h.holds.free_alloc hblock ⟨fd, callback, context⟩
        refine ⟨{ s with table := table }, t, ?_, ⟨hholds, h.table, h.interest⟩, .same _⟩
        simp [hfree]
      | none =>
        rw [loopAddFd_of_none hfd (h.find_eq_none hold)]
        cases ctl with
        | true =>
          obtain ⟨table, hpush, hholds⟩ :=
            h.holds.push_alloc hblock ⟨fd, callback, context⟩ (fdHash fd)
          refine ⟨⟨table, Function.update s.interest fd (some (epollEvents events, block))⟩, _, ?_,
            ⟨hholds, ?_, ?_⟩, .added hold⟩
          · simp [hpush]
          · rw [if_pos rfl, h.table]
            exact Buckets.push_map Prod.snd t (block, ⟨fd, callback, context⟩)
          · rw [if_pos rfl, h.interest]
            exact (Function.comp_update (Option.map Prod.fst) s.interest fd
              (some (epollEvents events, block))).symm
        | false =>
          obtain ⟨table, removed, freed, hpush, hremove, hfree, hholds⟩ :=
            h.roll_back hblock hfuel ⟨fd, callback, context⟩
          refine ⟨{ s with table := freed }, t, ?_, ⟨hholds, h.table, h.interest⟩, .same _⟩
          simp [hpush, hremove, hfree]

theorem loopModFdMem_stores (h : Stored s t loop) (block : π) {fuel : Nat}
    (hfuel : ∀ i, (t i).length < fuel) (fd : Int32) (events : UInt32) (cb : Option β)
    (context : γ) (ctl : Bool) :
    CallStores s t block (.modFd fd events cb context ctl)
      (loopModFd loop fd events cb context ctl)
      (loopModFdMem fuel s fd events cb context ctl) := by
  unfold loopModFd loopModFdMem
  cases cb with
  | none => exact h.refused ..
  | some callback =>
    dsimp only
    split
    · exact h.refused ..
    have hfind : findFileContextMem fuel s.table fd = some ((recordAt t fd).map Prod.fst) :=
      (h.holds.chain _).find_eq (hfuel _)
    rw [hfind]
    cases hold : recordAt t fd with
    | none =>
      rw [h.find_eq_none hold]
      exact h.refused ..
    | some c =>
      obtain ⟨table, hmodify, hholds⟩ := h.holds.modify
        (q := fun fc : FileContext β γ => decide (fc.fd = fd)) (i := fdHash fd)
        (f := FileContext.rebind callback context) (a := c.1) (x := c.2) hold
      have htable : Buckets.modify fdHash FileContext.fd (FileContext.rebind callback context)
          loop.fdTable fd = fun i => (Buckets.modify fdHash (fun c => c.2.fd)
            (fun c => (c.1, c.2.rebind callback context)) t fd i).map Prod.snd := by
        rw [h.table]
        exact Buckets.modify_map Prod.snd t (fun _ => rfl) fd
      rw [h.find_eq_some hold, if_neg (by simp)]
      refine ⟨⟨table, if ctl then Function.update s.interest fd (some (epollEvents events, c.1))
        else s.interest⟩, _, ?_, ⟨hholds, ?_, ?_⟩, .changed hold ctl⟩
      · cases ctl with
        | true => simp [hmodify]
        | false => simp [hmodify]
      · cases ctl with
        | true => exact htable
        | false => exact htable
      · cases ctl with
        | true =>
          rw [if_pos rfl, if_pos rfl, h.interest]
          exact (Function.comp_update (Option.map Prod.fst) s.interest fd
            (some (epollEvents events, c.1))).symm
        | false => exact h.interest

theorem loopDelFdMem_stores (h : Stored s t loop) (block : π) {fuel : Nat}
    (hfuel : ∀ i, (t i).length < fuel) (fd : Int32) (ctl : Bool) :
    CallStores s t block (.delFd fd ctl) (loopDelFd loop fd ctl) (loopDelFdMem fuel s fd ctl) := by
  unfold loopDelFd loopDelFdMem removeFileContext
  dsimp only
  split
  · exact h.refused ..
  cases hold : recordAt t fd with
  | none =>
    obtain ⟨table, hunlink, hholds⟩ := h.holds.unlink_none
      (q := fun fc : FileContext β γ => decide (fc.fd = fd)) (hfuel (fdHash fd)) hold
    have hremove : removeFileContextMem fuel s.table fd = some (table, none) := hunlink
    rw [h.find_eq_none hold, hremove]
    exact ⟨{ s with table := table }, t, rfl, ⟨hholds, h.table, h.interest⟩, .same _⟩
  | some c =>
    obtain ⟨table, freed, hunlink, hfree, hholds⟩ := h.holds.unlink_free
      (q := fun fc : FileContext β γ => decide (fc.fd = fd)) (hfuel (fdHash fd)) (a := c.1)
      (x := c.2) hold
    have hremove : removeFileContextMem fuel s.table fd = some (table, some c.1) := hunlink
    have htable : Buckets.erase fdHash FileContext.fd loop.fdTable fd =
        fun i => (Buckets.erase fdHash (fun c => c.2.fd) t fd i).map Prod.snd := by
      rw [h.table]
      exact Buckets.erase_map Prod.snd t fd
    rw [h.find_eq_some hold, if_neg (by simp), hremove]
    refine ⟨⟨freed, if ctl then Function.update s.interest fd none else s.interest⟩, _, ?_,
      ⟨hholds, ?_, ?_⟩, .removed hold ctl⟩
    · cases ctl with
      | true => simp [hfree]
      | false => simp [hfree]
    · cases ctl with
      | true => exact htable
      | false => exact htable
    · cases ctl with
      | true =>
        rw [if_pos rfl, if_pos rfl, h.interest]
        exact (Function.comp_update (Option.map Prod.fst) s.interest fd none).symm
      | false => exact h.interest

/-- `malloc` hands out a block that is not in use. -/
def FreshBlock (s : LoopMemory π β γ) : LoopCall β γ × π → Prop
  | (.addFd .., block) => (s.table.val block).isNone
  | _ => True

instance (s : LoopMemory π β γ) : (a : LoopCall β γ × π) → Decidable (FreshBlock s a)
  | (.addFd .., block) => inferInstanceAs (Decidable ((s.table.val block).isNone = true))
  | (.modFd .., _) => inferInstanceAs (Decidable True)
  | (.delFd .., _) => inferInstanceAs (Decidable True)

/-- **One call** does to the memory what it does to the lists. -/
theorem Stored.call (h : Stored s t loop) {fuel : Nat} (hfuel : ∀ i, (t i).length + 1 < fuel)
    (a : LoopCall β γ × π) (hblock : FreshBlock s a) :
    CallStores s t a.2 a.1 (a.1.run loop) (a.1.runMem fuel a.2 s) := by
  have hfuel' : ∀ i, (t i).length < fuel := fun i => Nat.lt_of_succ_lt (hfuel i)
  obtain ⟨c, block⟩ := a
  cases c with
  | addFd fd events cb context malloc ctl =>
    exact loopAddFdMem_stores h (Option.isNone_iff_eq_none.1 hblock) hfuel fd events cb context
      malloc ctl
  | modFd fd events cb context ctl =>
    exact loopModFdMem_stores h block hfuel' fd events cb context ctl
  | delFd fd ctl => exact loopDelFdMem_stores h block hfuel' fd ctl

end

/-! ## What a call keeps -/

def LoopCall.delSucceeds : LoopCall β γ → Bool
  | delFd _ ctl => ctl
  | _ => true

/-- epoll's pointers are the addresses of the records of their fds. -/
def PointsToRecords (interest : Int32 → Option (UInt32 × π)) (t : Placement π β γ) : Prop :=
  ∀ fd e, interest fd = some e → (recordAt t fd).map Prod.fst = some e.2

namespace PlacedStep

variable {interest interest' : Int32 → Option (UInt32 × π)} {t t' : Placement π β γ} {block : π}
  {c : LoopCall β γ}

omit [DecidableEq π] in
theorem length_le (h : PlacedStep interest t block c interest' t') (i : Fin 256) :
    (t' i).length ≤ (t i).length + 1 := by
  have hupdate : ∀ (j : Fin 256) (l : List (π × FileContext β γ)), l.length ≤ (t j).length + 1 →
      (Function.update t j l i).length ≤ (t i).length + 1 := by
    intro j l hl
    by_cases hi : i = j
    · rw [hi, Function.update_self]
      exact hl
    · rw [Function.update_of_ne hi]
      exact Nat.le_succ _
  cases h with
  | same => exact Nat.le_succ _
  | added hnew => exact hupdate _ _ Nat.le.refl
  | changed hold ctl => exact hupdate _ _ (by rw [length_modifyFirst]; exact Nat.le_succ _)
  | removed hold ctl => exact hupdate _ _ (List.length_eraseP_le.trans (Nat.le_succ _))

omit [DecidableEq π] in
theorem address (h : PlacedStep interest t block c interest' t') {fd : Int32}
    (hdel : ∀ ctl, c ≠ .delFd fd ctl) {p : π} (hp : (recordAt t fd).map Prod.fst = some p) :
    (recordAt t' fd).map Prod.fst = some p := by
  cases h with
  | same => exact hp
  | @added fd' events callback context hnew =>
    have hne : fd ≠ fd' := by
      rintro rfl
      rw [hnew] at hp
      cases hp
    rw [recordAt, Buckets.find_push_of_ne hne]
    exact hp
  | @changed fd' events callback context c hold ctl =>
    have hkey : ∀ c : π × FileContext β γ, (c.2.rebind callback context).fd = c.2.fd :=
      fun _ => rfl
    by_cases hne : fd = fd'
    · subst hne
      rw [recordAt, Buckets.find_modify_self hkey, Option.map_map]
      exact hp
    · rw [recordAt, Buckets.find_modify_of_ne hkey hne]
      exact hp
  | @removed fd' c hold ctl =>
    have hne : fd ≠ fd' := by
      rintro rfl
      exact hdel ctl rfl
    rw [recordAt, Buckets.find_erase_of_ne hne]
    exact hp

omit [DecidableEq π] in
theorem pointsToRecords (h : PlacedStep interest t block c interest' t') (hdel : c.delSucceeds)
    (hp : PointsToRecords interest t) : PointsToRecords interest' t' := by
  have hkeep : ∀ fd p, (∀ ctl, c ≠ .delFd fd ctl) → (recordAt t fd).map Prod.fst = some p →
      (recordAt t' fd).map Prod.fst = some p := fun fd p hdel => h.address hdel
  have hother : ∀ fd, fd ≠ c.fd → ∀ e, interest fd = some e →
      (recordAt t' fd).map Prod.fst = some e.2 := by
    intro fd hfd e he
    refine hkeep fd e.2 (fun ctl hc => hfd ?_) (hp fd e he)
    rw [hc]
    rfl
  intro fd e he
  cases h with
  | same => exact hp fd e he
  | @added fd' events callback context hnew =>
    by_cases hfd : fd = fd'
    · subst hfd
      rw [Function.update_self] at he
      cases he
      exact congrArg (Option.map Prod.fst) Buckets.find_push_self
    · rw [Function.update_of_ne hfd] at he
      exact hother fd hfd e he
  | @changed fd' events callback context r hold ctl =>
    by_cases hfd : fd = fd'
    · subst hfd
      refine hkeep fd e.2 (fun _ hc => by cases hc) ?_
      cases ctl with
      | true =>
        rw [if_pos rfl, Function.update_self] at he
        cases he
        rw [hold]
        rfl
      | false => exact hp fd e he
    · refine hother fd hfd e ?_
      cases ctl with
      | true => rwa [if_pos rfl, Function.update_of_ne hfd] at he
      | false => exact he
  | @removed fd' r hold ctl =>
    obtain rfl : ctl = true := hdel
    rw [if_pos rfl] at he
    by_cases hfd : fd = fd'
    · rw [hfd, Function.update_self] at he
      cases he
    · rw [Function.update_of_ne hfd] at he
      exact hother fd hfd e he

end PlacedStep

/-! ## Runs -/

def stepMem (fuel : Nat) (s : LoopMemory π β γ × List (LoopCall β γ × Int))
    (a : LoopCall β γ × π) : Option (LoopMemory π β γ × List (LoopCall β γ × Int)) :=
  (a.1.runMem fuel a.2 s.1).map fun r => (r.1, s.2 ++ [(a.1, r.2)])

omit [DecidableEq π] in
theorem stored_loopCreate :
    Stored (loopCreateMem : LoopMemory π β γ) (fun _ => []) loopCreate where
  holds := holds_empty
  table := rfl
  interest := rfl

def callsFrom (s : EventLoop β γ × List (LoopCall β γ × Int)) (calls : List (LoopCall β γ)) :
    EventLoop β γ × List (LoopCall β γ × Int) :=
  calls.foldl (fun s c => ((c.run s.1).1, s.2 ++ [(c, (c.run s.1).2)])) s

/-- What a run of calls keeps of the records and of epoll's side. -/
structure PlacedRun (calls : List (LoopCall β γ)) (interest : Int32 → Option (UInt32 × π))
    (t : Placement π β γ) (interest' : Int32 → Option (UInt32 × π)) (t' : Placement π β γ) :
    Prop where
  length_le : ∀ i, (t' i).length ≤ (t i).length + calls.length
  address : ∀ fd p, (∀ ctl, .delFd fd ctl ∉ calls) → (recordAt t fd).map Prod.fst = some p →
    (recordAt t' fd).map Prod.fst = some p
  pointsToRecords : (∀ c ∈ calls, c.delSucceeds) → PointsToRecords interest t →
    PointsToRecords interest' t'

omit [DecidableEq π] in
theorem PlacedStep.run {interest interest' interest'' : Int32 → Option (UInt32 × π)}
    {t t' t'' : Placement π β γ} {block : π} {c : LoopCall β γ} {calls : List (LoopCall β γ)}
    (h : PlacedStep interest t block c interest' t')
    (hrun : PlacedRun calls interest' t' interest'' t'') :
    PlacedRun (c :: calls) interest t interest'' t'' where
  length_le i := by
    have hone := h.length_le i
    have hrest := hrun.length_le i
    rw [List.length_cons]
    omega
  address fd p hdel hp := by
    refine hrun.address fd p (fun ctl hmem => hdel ctl (List.mem_cons_of_mem _ hmem)) ?_
    refine h.address (fun ctl hc => hdel ctl ?_) hp
    exact hc ▸ List.mem_cons_self
  pointsToRecords hdel hp := by
    rw [List.forall_mem_cons] at hdel
    exact hrun.pointsToRecords hdel.2 (h.pointsToRecords hdel.1 hp)

theorem Stored.calls {fuel : Nat} (calls : List (LoopCall β γ × π)) :
    ∀ {s : LoopMemory π β γ} {t : Placement π β γ} {loop : EventLoop β γ}
      {history : List (LoopCall β γ × Int)}, Stored s t loop →
      (∀ i, (t i).length + calls.length < fuel) →
      Along (stepMem fuel) (fun s => FreshBlock s.1) (s, history) calls →
      ∃ s' t', run (stepMem fuel) (s, history) calls
          = some (s', (callsFrom (loop, history) (calls.map Prod.fst)).2) ∧
        Stored s' t' (callsFrom (loop, history) (calls.map Prod.fst)).1 ∧
        PlacedRun (calls.map Prod.fst) s.interest t s'.interest t' := by
  induction calls with
  | nil =>
    intro s t loop history h _ _
    exact ⟨s, t, rfl, h, fun _ => Nat.le.refl, fun _ _ _ hp => hp, fun _ hp => hp⟩
  | cons a calls ih =>
    intro s t loop history h hfuel hmalloc
    have hone : ∀ i, (t i).length + 1 < fuel := fun i => by
      have := hfuel i
      rw [List.length_cons] at this
      omega
    obtain ⟨s₁, t₁, hrun, hs₁, hstep⟩ := h.call hone a hmalloc.1
    have hmem : stepMem fuel (s, history) a
        = some (s₁, history ++ [(a.1, (a.1.run loop).2)]) := by
      rw [stepMem, hrun]
      rfl
    have hrest : ∀ i, (t₁ i).length + calls.length < fuel := fun i => by
      have h₁ := hstep.length_le i
      have h₂ := hfuel i
      rw [List.length_cons] at h₂
      omega
    obtain ⟨s', t', hrun', hs', hplaced⟩ := ih hs₁ hrest (hmalloc.2 _ hmem)
    exact ⟨s', t', run_cons.2 ⟨_, hmem, hrun'⟩, hs', hstep.run hplaced⟩

/-- **The fd table in memory.** Whatever free blocks `malloc` hands out, a run of registration
calls ends, follows no pointer to a freed record, returns what it returns on the lists, and has
exactly the records of the lists in memory. If epoll refused no removal, every registration points
to the record of its fd. -/
theorem fd_table_in_memory (calls : List (LoopCall β γ × π)) (fuel : Nat)
    (hfuel : calls.length < fuel)
    (hmalloc : Along (stepMem fuel) (fun s => FreshBlock s.1) (loopCreateMem, []) calls) :
    ∃ s t, run (stepMem fuel) (loopCreateMem, []) calls
        = some (s, (runCalls (calls.map Prod.fst)).2) ∧
      Stored s t (runCalls (calls.map Prod.fst)).1 ∧
      (∀ a, (s.table.val a).isSome ↔ ∃ i, a ∈ addrs (t i)) ∧
      ((∀ c ∈ calls.map Prod.fst, c.delSucceeds) → PointsToRecords s.interest t) := by
  have hroom : ∀ i : Fin 256, ([] : List (π × FileContext β γ)).length + calls.length < fuel := by
    intro i
    rwa [List.length_nil, Nat.zero_add]
  obtain ⟨s, t, hrun, hs, hplaced⟩ := Stored.calls calls stored_loopCreate hroom hmalloc
  refine ⟨s, t, hrun, hs, fun a => ⟨hs.holds.covers a, ?_⟩, fun hdel => ?_⟩
  · rintro ⟨i, ha⟩
    exact (hs.holds.chain i).live ha
  · exact hplaced.pointsToRecords hdel fun fd e he => nomatch he

/-- The calls of `collidingCalls`; the record that is rolled back gets the block of no other. -/
def collidingBlocks : List (LoopCall Nat Nat × Nat) := collidingCalls.zip [100, 200, 0, 300, 0]

theorem fd_table_in_memory_colliding :
    (collidingBlocks.length < 6 ∧
      Along (stepMem 6) (fun s => FreshBlock s.1) (loopCreateMem, []) collidingBlocks) ∧
    ∃ s t, run (stepMem 6) (loopCreateMem, []) collidingBlocks
        = some (s, (runCalls (collidingBlocks.map Prod.fst)).2) ∧
      Stored s t (runCalls (collidingBlocks.map Prod.fst)).1 ∧
      (∀ a, (s.table.val a).isSome ↔ ∃ i, a ∈ addrs (t i)) ∧
      ((∀ c ∈ collidingBlocks.map Prod.fst, c.delSucceeds) → PointsToRecords s.interest t) :=
  have hmalloc : Along (stepMem 6) (fun s => FreshBlock s.1) (loopCreateMem, []) collidingBlocks :=
    by decide
  ⟨⟨by decide, hmalloc⟩, fd_table_in_memory collidingBlocks 6 (by decide) hmalloc⟩

end DRoole
