import DRoole.Lib.Buckets

/-!
# The fd table of the event loop (`event_loop.c`)

Registered fds are kept in a hash table of 256 chains, beside the kernel's own
copy of the registrations: `interest` has for every fd that epoll knows its
`ev.events`. Whether `malloc` and `epoll_ctl` succeed is an argument of each
call. Callbacks and contexts are of arbitrary types; a callback that is `none`
is a NULL pointer.
-/

namespace DRoole

open Lib

structure FileContext (β γ : Type) where
  fd : Int32
  callback : β
  context : γ
deriving DecidableEq, Repr

def FileContext.rebind {β γ : Type} (callback : β) (context : γ) (fc : FileContext β γ) :
    FileContext β γ :=
  { fc with callback := callback, context := context }

theorem FileContext.rebind_fd {β γ : Type} (callback : β) (context : γ) (fc : FileContext β γ) :
    (fc.rebind callback context).fd = fc.fd := rfl

/-- What the registration calls read and write of `struct EventLoop`, and epoll's side. -/
structure EventLoop (β γ : Type) where
  fdTable : Fin 256 → List (FileContext β γ)
  interest : Int32 → Option UInt32

def fdHash (fd : Int32) : Fin 256 :=
  ⟨((fd.toUInt32 * 2654435761) &&& 255).toNat, by
    rw [UInt32.toNat_and]
    exact Nat.lt_succ_of_le Nat.and_le_right⟩

variable {β γ : Type}

def loopCreate : EventLoop β γ where
  fdTable := fun _ => []
  interest := fun _ => none

def findFileContext (loop : EventLoop β γ) (fd : Int32) : Option (FileContext β γ) :=
  Buckets.find fdHash FileContext.fd loop.fdTable fd

def insertFileContext (loop : EventLoop β γ) (fc : FileContext β γ) : EventLoop β γ × Int :=
  if (findFileContext loop fc.fd).isSome then (loop, -1)
  else ({ loop with fdTable := Buckets.push fdHash FileContext.fd loop.fdTable fc }, 0)

def removeFileContext (loop : EventLoop β γ) (fd : Int32) :
    EventLoop β γ × Option (FileContext β γ) :=
  ({ loop with fdTable := Buckets.erase fdHash FileContext.fd loop.fdTable fd },
    findFileContext loop fd)

/-- `EVENT_READ` asks for `EPOLLIN`, `EVENT_WRITE` for `EPOLLOUT`. -/
def epollEvents (events : UInt32) : UInt32 :=
  (if events &&& 1 ≠ 0 then 0x001 else 0) ||| (if events &&& 2 ≠ 0 then 0x004 else 0)

def loopAddFd (loop : EventLoop β γ) (fd : Int32) (events : UInt32) (cb : Option β) (context : γ)
    (malloc ctl : Bool) : EventLoop β γ × Int :=
  match cb with
  | none => (loop, -1)
  | some callback =>
    if fd < 0 then (loop, -1)
    else if !malloc then (loop, -1)
    else
      let inserted := insertFileContext loop ⟨fd, callback, context⟩
      if inserted.2 ≠ 0 then (loop, -1)
      else if ctl then
        ({ inserted.1 with
            interest := Function.update loop.interest fd (some (epollEvents events)) }, 0)
      else ((removeFileContext inserted.1 fd).1, -1)

def loopModFd (loop : EventLoop β γ) (fd : Int32) (events : UInt32) (cb : Option β) (context : γ)
    (ctl : Bool) : EventLoop β γ × Int :=
  match cb with
  | none => (loop, -1)
  | some callback =>
    if fd < 0 then (loop, -1)
    else if (findFileContext loop fd).isNone then (loop, -1)
    else
      -- the callback and the context are replaced before epoll is asked
      let updated := { loop with
        fdTable := Buckets.modify fdHash FileContext.fd (FileContext.rebind callback context)
          loop.fdTable fd }
      if ctl then
        ({ updated with
            interest := Function.update loop.interest fd (some (epollEvents events)) }, 0)
      else (updated, -1)

def loopDelFd (loop : EventLoop β γ) (fd : Int32) (ctl : Bool) : EventLoop β γ × Int :=
  if fd < 0 then (loop, -1)
  else
    let removed := removeFileContext loop fd
    if removed.2.isNone then (loop, -1)
    -- a failed `EPOLL_CTL_DEL` is only logged
    else if ctl then ({ removed.1 with interest := Function.update loop.interest fd none }, 0)
    else (removed.1, 0)

/-- The callback and the context that `find_file_context` gives for `fd`. -/
def registered (loop : EventLoop β γ) (fd : Int32) : Option (β × γ) :=
  (findFileContext loop fd).map fun fc => (fc.callback, fc.context)

def EventLoop.Sound (loop : EventLoop β γ) : Prop :=
  Buckets.Sound fdHash FileContext.fd loop.fdTable

/-! ## Calls -/

/-- A registration call with its arguments and the outcomes of `malloc` and `epoll_ctl`. -/
inductive LoopCall (β γ : Type) where
  | addFd (fd : Int32) (events : UInt32) (cb : Option β) (context : γ) (malloc ctl : Bool)
  | modFd (fd : Int32) (events : UInt32) (cb : Option β) (context : γ) (ctl : Bool)
  | delFd (fd : Int32) (ctl : Bool)
deriving DecidableEq, Repr

namespace LoopCall

def fd : LoopCall β γ → Int32
  | addFd fd .. => fd
  | modFd fd .. => fd
  | delFd fd _ => fd

def run (c : LoopCall β γ) (loop : EventLoop β γ) : EventLoop β γ × Int :=
  match c with
  | addFd fd events cb context malloc ctl => loopAddFd loop fd events cb context malloc ctl
  | modFd fd events cb context ctl => loopModFd loop fd events cb context ctl
  | delFd fd ctl => loopDelFd loop fd ctl

end LoopCall

/-- What a call can do to a loop, with the value it returns. -/
inductive LoopStep (loop : EventLoop β γ) : LoopCall β γ → EventLoop β γ × Int → Prop
  | refused (c : LoopCall β γ) : LoopStep loop c (loop, -1)
  | added {fd : Int32} {events : UInt32} {callback : β} {context : γ} (hfd : ¬fd < 0)
      (hnew : findFileContext loop fd = none) :
      LoopStep loop (.addFd fd events (some callback) context true true)
        (⟨Buckets.push fdHash FileContext.fd loop.fdTable ⟨fd, callback, context⟩,
          Function.update loop.interest fd (some (epollEvents events))⟩, 0)
  | changed {fd : Int32} {events : UInt32} {callback : β} {context : γ} (hfd : ¬fd < 0)
      (hold : (findFileContext loop fd).isSome) (ctl : Bool) :
      LoopStep loop (.modFd fd events (some callback) context ctl)
        (⟨Buckets.modify fdHash FileContext.fd (FileContext.rebind callback context) loop.fdTable fd,
          if ctl then Function.update loop.interest fd (some (epollEvents events))
          else loop.interest⟩, if ctl then 0 else -1)
  | removed {fd : Int32} (hfd : ¬fd < 0) (hold : (findFileContext loop fd).isSome) (ctl : Bool) :
      LoopStep loop (.delFd fd ctl)
        (⟨Buckets.erase fdHash FileContext.fd loop.fdTable fd,
          if ctl then Function.update loop.interest fd none else loop.interest⟩, 0)

variable {loop : EventLoop β γ}

/-- The rollback of a refused `EPOLL_CTL_ADD` gives back the loop as it was. -/
theorem loopAddFd_step (fd : Int32) (events : UInt32) (cb : Option β) (context : γ)
    (malloc ctl : Bool) :
    LoopStep loop (.addFd fd events cb context malloc ctl)
      (loopAddFd loop fd events cb context malloc ctl) := by
  unfold loopAddFd
  cases cb with
  | none => exact .refused _
  | some callback =>
    dsimp only
    split
    · exact .refused _
    split
    · exact .refused _
    rename_i hfd hmalloc
    obtain rfl : malloc = true := by simpa using hmalloc
    by_cases hfind : (findFileContext loop fd).isSome
    · rw [insertFileContext, if_pos hfind]
      exact .refused _
    · rw [insertFileContext, if_neg hfind]
      cases ctl with
      | true => exact .added hfd (by simpa using hfind)
      | false =>
        have hback : Buckets.erase fdHash FileContext.fd
            (Buckets.push fdHash FileContext.fd loop.fdTable ⟨fd, callback, context⟩) fd
            = loop.fdTable := Buckets.erase_push
        show LoopStep loop _ (⟨Buckets.erase _ _ _ _, loop.interest⟩, -1)
        rw [hback]
        exact .refused _

theorem loopModFd_step (fd : Int32) (events : UInt32) (cb : Option β) (context : γ) (ctl : Bool) :
    LoopStep loop (.modFd fd events cb context ctl) (loopModFd loop fd events cb context ctl) := by
  unfold loopModFd
  cases cb with
  | none => exact .refused _
  | some callback =>
    dsimp only
    split
    · exact .refused _
    split
    · exact .refused _
    rename_i hfd hfind
    have hold : (findFileContext loop fd).isSome := by simpa [Option.isSome_iff_ne_none] using hfind
    cases ctl with
    | true => exact .changed hfd hold true
    | false => exact .changed hfd hold false

theorem loopDelFd_step (fd : Int32) (ctl : Bool) :
    LoopStep loop (.delFd fd ctl) (loopDelFd loop fd ctl) := by
  unfold loopDelFd removeFileContext
  dsimp only
  split
  · exact .refused _
  split
  · exact .refused _
  rename_i hfd hfind
  have hold : (findFileContext loop fd).isSome := by simpa [Option.isSome_iff_ne_none] using hfind
  cases ctl with
  | true => exact .removed hfd hold true
  | false => exact .removed hfd hold false

theorem LoopCall.run_step (c : LoopCall β γ) (loop : EventLoop β γ) :
    LoopStep loop c (c.run loop) := by
  cases c with
  | addFd fd events cb context malloc ctl => exact loopAddFd_step fd events cb context malloc ctl
  | modFd fd events cb context ctl => exact loopModFd_step fd events cb context ctl
  | delFd fd ctl => exact loopDelFd_step fd ctl

/-! ## What a call leaves for its own fd -/

section Own
variable (fd : Int32) (callback : β) (context : γ) (interest : Int32 → Option UInt32)

theorem registered_push (t : Fin 256 → List (FileContext β γ)) :
    registered ⟨Buckets.push fdHash FileContext.fd t ⟨fd, callback, context⟩, interest⟩ fd
      = some (callback, context) :=
  congrArg (Option.map _) Buckets.find_push_self

variable {fd} in
theorem registered_modify (hold : (findFileContext loop fd).isSome) :
    registered ⟨Buckets.modify fdHash FileContext.fd (FileContext.rebind callback context)
      loop.fdTable fd, interest⟩ fd = some (callback, context) := by
  obtain ⟨fc, hfc⟩ := Option.isSome_iff_exists.1 hold
  have hfind := (Buckets.find_modify_self (FileContext.rebind_fd callback context)).trans
    (congrArg _ hfc)
  exact congrArg (Option.map _) hfind

theorem registered_erase (hsound : loop.Sound) :
    registered ⟨Buckets.erase fdHash FileContext.fd loop.fdTable fd, interest⟩ fd = none :=
  congrArg (Option.map _) (Buckets.find_erase_self hsound)

end Own

/-! ## What every call keeps -/

theorem LoopStep.sound {c : LoopCall β γ} {r : EventLoop β γ × Int} (h : LoopStep loop c r)
    (hsound : loop.Sound) : r.1.Sound := by
  cases h with
  | refused => exact hsound
  | added _ hnew => exact Buckets.Sound.push hsound hnew
  | changed hfd hold ctl => exact Buckets.Sound.modify (FileContext.rebind_fd _ _) hsound _
  | removed hfd hold ctl => exact Buckets.Sound.erase hsound _

theorem LoopStep.others {c : LoopCall β γ} {r : EventLoop β γ × Int} (h : LoopStep loop c r)
    (i : Fin 256) :
    (r.1.fdTable i).filter (fun fc => fc.fd ≠ c.fd)
      = (loop.fdTable i).filter (fun fc => fc.fd ≠ c.fd) := by
  cases h with
  | refused => rfl
  | added _ hnew => exact Buckets.filter_push (⟨_, _, _⟩ : FileContext β γ) i
  | changed hfd hold ctl => exact Buckets.filter_modify (FileContext.rebind_fd _ _) i
  | removed hfd hold ctl => exact Buckets.filter_erase i

theorem LoopStep.registered_of_ne {c : LoopCall β γ} {r : EventLoop β γ × Int}
    (h : LoopStep loop c r) {fd : Int32} (hfd : fd ≠ c.fd) :
    registered r.1 fd = registered loop fd := by
  have hfind : findFileContext r.1 fd = findFileContext loop fd := by
    cases h with
    | refused => rfl
    | added _ hnew => exact Buckets.find_push_of_ne hfd
    | changed _ hold ctl => exact Buckets.find_modify_of_ne (FileContext.rebind_fd _ _) hfd
    | removed _ hold ctl => exact Buckets.find_erase_of_ne hfd
  rw [registered, registered, hfind]

end DRoole
