import DRoole.Event.Loop

/-!
# The fd table as a finite map

A run of registration calls leaves a history: every call with the value it
returned. The chains are sound after every run, and as long as every
`EPOLL_CTL_MOD` succeeds the table gives for an fd what the last successful call
on it says.
-/

namespace DRoole

open Lib

variable {β γ : Type}

namespace LoopCall

/-- What a call that returned 0 leaves registered for its fd. -/
def binding : LoopCall β γ → Option (β × γ)
  | addFd _ _ cb context _ _ => cb.map fun callback => (callback, context)
  | modFd _ _ cb context _ => cb.map fun callback => (callback, context)
  | delFd _ _ => none

def modSucceeds : LoopCall β γ → Bool
  | modFd _ _ _ _ ctl => ctl
  | _ => true

end LoopCall

def runCalls (calls : List (LoopCall β γ)) : EventLoop β γ × List (LoopCall β γ × Int) :=
  calls.foldl (fun s c => ((c.run s.1).1, s.2 ++ [(c, (c.run s.1).2)])) (loopCreate, [])

/-- The binding of the last call on `fd` that returned 0. -/
def lastBinding (history : List (LoopCall β γ × Int)) (fd : Int32) : Option (β × γ) :=
  (history.filter fun e => e.2 = 0 ∧ e.1.fd = fd).getLast?.bind fun e => e.1.binding

theorem runCalls_concat (calls : List (LoopCall β γ)) (c : LoopCall β γ) :
    runCalls (calls ++ [c])
      = ((c.run (runCalls calls).1).1,
          (runCalls calls).2 ++ [(c, (c.run (runCalls calls).1).2)]) := by
  rw [runCalls, List.foldl_append]
  rfl

theorem lastBinding_concat (history : List (LoopCall β γ × Int)) (e : LoopCall β γ × Int)
    (fd : Int32) :
    lastBinding (history ++ [e]) fd
      = if e.2 = 0 ∧ e.1.fd = fd then e.1.binding else lastBinding history fd := by
  unfold lastBinding
  rw [List.filter_append]
  split
  · rename_i he
    rw [List.filter_cons_of_pos (by simpa using he), List.filter_nil, List.getLast?_concat]
    rfl
  · rename_i he
    rw [List.filter_cons_of_neg (by simpa using he), List.filter_nil, List.append_nil]

/-! ## One call -/

variable {loop : EventLoop β γ}

theorem LoopStep.registered_eq {c : LoopCall β γ} {r : EventLoop β γ × Int}
    (h : LoopStep loop c r) (hsound : loop.Sound) (hmod : c.modSucceeds) (fd : Int32) :
    registered r.1 fd = if r.2 = 0 ∧ c.fd = fd then c.binding else registered loop fd := by
  by_cases hfd : fd = c.fd
  · subst hfd
    cases h with
    | refused => rw [if_neg (by simp)]
    | added _ hnew =>
      exact (registered_push _ _ _ _ _).trans (if_pos ⟨rfl, rfl⟩).symm
    | changed _ hold ctl =>
      obtain rfl : ctl = true := hmod
      exact (registered_modify _ _ _ hold).trans (if_pos ⟨rfl, rfl⟩).symm
    | removed _ hold ctl =>
      exact (registered_erase _ _ hsound).trans (if_pos ⟨rfl, rfl⟩).symm
  · rw [h.registered_of_ne hfd, if_neg fun he => hfd he.2.symm]

theorem LoopStep.find_of_added {fd : Int32} {events : UInt32} {cb : Option β} {context : γ}
    {malloc ctl : Bool} {r : EventLoop β γ × Int}
    (h : LoopStep loop (.addFd fd events cb context malloc ctl) r) (hcode : r.2 = 0) :
    findFileContext loop fd = none := by
  cases h with
  | refused => exact absurd hcode (by simp)
  | added _ hnew => exact hnew

theorem LoopStep.nonneg {c : LoopCall β γ} {r : EventLoop β γ × Int} (h : LoopStep loop c r)
    (hfds : ∀ fd, (registered loop fd).isSome → fd ≥ 0) {fd : Int32}
    (hfd : (registered r.1 fd).isSome) : fd ≥ 0 := by
  by_cases hown : fd = c.fd
  · subst hown
    cases h with
    | refused => exact hfds _ hfd
    | added hpos hnew => exact Int32.not_lt.1 hpos
    | changed hpos hold ctl => exact Int32.not_lt.1 hpos
    | removed hpos hold ctl => exact Int32.not_lt.1 hpos
  · rw [h.registered_of_ne hown] at hfd
    exact hfds fd hfd

/-! ## Runs -/

theorem runCalls_sound (calls : List (LoopCall β γ)) : (runCalls calls).1.Sound := by
  induction calls using List.reverseRecOn with
  | nil => exact Buckets.sound_empty
  | append_singleton calls c ih =>
    rw [runCalls_concat]
    exact (c.run_step _).sound ih

theorem registered_runCalls (calls : List (LoopCall β γ)) (hmod : ∀ c ∈ calls, c.modSucceeds)
    (fd : Int32) : registered (runCalls calls).1 fd = lastBinding (runCalls calls).2 fd := by
  induction calls using List.reverseRecOn with
  | nil => rfl
  | append_singleton calls c ih =>
    rw [List.forall_mem_append, List.forall_mem_singleton] at hmod
    rw [runCalls_concat, lastBinding_concat,
      (c.run_step _).registered_eq (runCalls_sound calls) hmod.2, ih hmod.1]

theorem nonneg_runCalls (calls : List (LoopCall β γ)) {fd : Int32}
    (hfd : (registered (runCalls calls).1 fd).isSome) : fd ≥ 0 := by
  induction calls using List.reverseRecOn generalizing fd with
  | nil => exact absurd hfd Bool.false_ne_true
  | append_singleton calls c ih =>
    rw [runCalls_concat] at hfd
    exact (c.run_step _).nonneg (fun _ => ih) hfd

theorem fd_table_refines_map (calls : List (LoopCall β γ)) (hmod : ∀ c ∈ calls, c.modSucceeds) :
    (∀ i, ∀ fc ∈ (runCalls calls).1.fdTable i, fdHash fc.fd = i) ∧
    (∀ i, (((runCalls calls).1.fdTable i).map FileContext.fd).Nodup) ∧
    (∀ fd, registered (runCalls calls).1 fd = lastBinding (runCalls calls).2 fd) ∧
    (∀ (c : LoopCall β γ) (i : Fin 256),
      ((c.run (runCalls calls).1).1.fdTable i).filter (fun fc => fc.fd ≠ c.fd)
        = ((runCalls calls).1.fdTable i).filter (fun fc => fc.fd ≠ c.fd)) ∧
    (∀ fd events cb context malloc ctl,
      (loopAddFd (runCalls calls).1 fd events cb context malloc ctl).2 = 0 →
        findFileContext (runCalls calls).1 fd = none) :=
  ⟨(runCalls_sound calls).placed, (runCalls_sound calls).nodup, registered_runCalls calls hmod,
    fun c => (c.run_step _).others,
    fun _ _ _ _ _ _ hcode => (loopAddFd_step _ _ _ _ _ _).find_of_added hcode⟩

/-- Three fds of one bucket: a change, a rolled back addition, and a removal that epoll refuses. -/
def collidingCalls : List (LoopCall Nat Nat) :=
  [.addFd 5 1 (some 1) 10 true true, .addFd 261 1 (some 2) 20 true true,
    .modFd 5 2 (some 3) 30 true, .addFd 517 1 (some 4) 40 true false, .delFd 261 false]

theorem fd_table_refines_map_colliding :
    (fdHash 5 = fdHash 261 ∧ fdHash 5 = fdHash 517 ∧ ∀ c ∈ collidingCalls, c.modSucceeds) ∧
    registered (runCalls collidingCalls).1 5 = some (3, 30) ∧
    registered (runCalls collidingCalls).1 261 = none ∧
    registered (runCalls collidingCalls).1 517 = none :=
  have hmod : ∀ c ∈ collidingCalls, c.modSucceeds := by decide
  have hmap := (fd_table_refines_map collidingCalls hmod).2.2.1
  ⟨⟨by decide, by decide, hmod⟩, (hmap 5).trans (by decide), (hmap 261).trans (by decide),
    (hmap 517).trans (by decide)⟩

end DRoole
