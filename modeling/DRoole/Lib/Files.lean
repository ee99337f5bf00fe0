import DRoole.Lib.Bytes

/-!
# Rewriting a file

A function that rewrites a file is the list of the system calls it makes, in
order. `perform` runs the list with the answers of the system and returns -1
at the first checked call that fails. `crash n k` is the file when the process
dies in call `n` after `k` bytes of it. Once the file is truncated a crash
leaves a cut of what was to be written (`crash_create`).
-/

namespace Lib

/-- A file by its content, `none` if it does not exist. -/
abbrev File := Option Bytes

/-- What `open(path, O_RDONLY)` returns. -/
inductive Opened where
  | fd (bs : Bytes)
  | enoent
  | error
  deriving DecidableEq, Repr

/-- `denied` stands for every failure but a missing file. -/
def openRead (denied : Bool) (f : File) : Opened :=
  if denied then .error
  else match f with
    | none => .enoent
    | some bs => .fd bs

theorem openRead_some (bs : Bytes) : openRead false (some bs) = .fd bs := rfl

/-- A call of a function that rewrites a file. -/
inductive FileCall where
  /-- `open` with `O_CREAT | O_TRUNC`. -/
  | create
  | malloc
  | write (bs : Bytes)
  | fsync
  | close
  deriving DecidableEq, Repr

namespace FileCall

def done : FileCall → File → File
  | create, _ => some []
  | write bs, f => f.map (· ++ bs)
  | malloc, f | fsync, f | close, f => f

/-- The file if the call ends after `k` bytes. -/
def stopped (k : Nat) : FileCall → File → File
  | write bs, f => f.map (· ++ bs.take k)
  | create, f | malloc, f | fsync, f | close, f => f

def checked : FileCall → Bool
  | create | malloc | write _ => true
  | fsync | close => false

def payload : FileCall → Bytes
  | write bs => bs
  | create | malloc | fsync | close => []

end FileCall

/-- The calls in order: `answer n` is `none` if call `n` succeeds and `some k`
if it fails after `k` bytes. -/
def perform (answer : Nat → Option Nat) : Nat → List FileCall → File → File × Int
  | _, [], f => (f, 0)
  | n, c :: cs, f =>
    match answer n with
    | none => perform answer (n + 1) cs (c.done f)
    | some k => if c.checked then (c.stopped k f, -1) else perform answer (n + 1) cs f

/-- The file if the process dies in call `n`, after `k` bytes of it. -/
def crash : List FileCall → Nat → Nat → File → File
  | [], _, _, f => f
  | c :: _, 0, k, f => c.stopped k f
  | c :: cs, n + 1, k, f => crash cs n k (c.done f)

def written (cs : List FileCall) : Bytes := cs.flatMap FileCall.payload

/-- How much of it is written when the process dies in call `n`, after `k` bytes of it. -/
def reached : List FileCall → Nat → Nat → Nat
  | [], _, _ => 0
  | c :: _, 0, k => min k c.payload.length
  | c :: cs, n + 1, k => c.payload.length + reached cs n k

theorem written_cons (c : FileCall) (cs : List FileCall) :
    written (c :: cs) = c.payload ++ written cs := List.flatMap_cons

@[simp] theorem written_append (cs ds : List FileCall) :
    written (cs ++ ds) = written cs ++ written ds := List.flatMap_append

theorem reached_le (cs : List FileCall) (n k : Nat) : reached cs n k ≤ (written cs).length := by
  induction cs generalizing n with
  | nil => exact Nat.le_refl _
  | cons c cs ih =>
    rw [written_cons, List.length_append]
    cases n with
    | zero => exact le_trans (Nat.min_le_right ..) (Nat.le_add_right ..)
    | succ n => exact Nat.add_le_add_left (ih n) _

namespace FileCall

variable {c : FileCall}

/-- Only `create` forgets what the file held. -/
theorem done_of_ne (h : c ≠ create) (bs : Bytes) : c.done (some bs) = some (bs ++ c.payload) := by
  cases c with
  | create => exact absurd rfl h
  | write _ => rfl
  | malloc | fsync | close => simp [done, payload]

theorem stopped_some (k : Nat) (bs : Bytes) :
    c.stopped k (some bs) = some (bs ++ c.payload.take k) := by
  cases c with
  | write _ => rfl
  | create | malloc | fsync | close => simp [stopped, payload]

end FileCall

theorem perform_of_ok {answer : Nat → Option Nat} (hok : ∀ n, answer n = none)
    {cs : List FileCall} (hcs : .create ∉ cs) (n : Nat) (bs : Bytes) :
    perform answer n cs (some bs) = (some (bs ++ written cs), 0) := by
  induction cs generalizing n bs with
  | nil => simp [perform, written]
  | cons c cs ih =>
    obtain ⟨hc, hcs⟩ := not_or.1 (mt List.mem_cons.2 hcs)
    rw [perform, hok]
    dsimp only
    rw [FileCall.done_of_ne (Ne.symm hc), ih hcs, written_cons, List.append_assoc]

theorem perform_create {answer : Nat → Option Nat} (hok : ∀ n, answer n = none)
    {cs : List FileCall} (hcs : .create ∉ cs) (f : File) :
    perform answer 0 (.create :: cs) f = (some (written cs), 0) := by
  rw [perform, hok]
  exact perform_of_ok hok hcs 1 []

theorem FileCall.payload_of_not_checked {c : FileCall} (h : c.checked = false) :
    c.payload = [] := by
  cases c with
  | create | malloc | write _ => cases h
  | fsync | close => rfl

/-- A run of the calls that returns 0: every checked call was answered, and all is written. -/
theorem perform_eq_zero {answer : Nat → Option Nat} {cs : List FileCall} (hcs : .create ∉ cs)
    {n : Nat} {bs : Bytes} {f : File} (h : perform answer n cs (some bs) = (f, 0)) :
    f = some (bs ++ written cs) ∧ ∀ i c, cs[i]? = some c → c.checked = true → answer (n + i) = none := by
  induction cs generalizing n bs with
  | nil =>
    cases h
    exact ⟨by simp [written], nofun⟩
  | cons c cs ih =>
    obtain ⟨hc, hcs⟩ := not_or.1 (mt List.mem_cons.2 hcs)
    rw [written_cons]
    rw [perform] at h
    have hstep : perform answer (n + 1) cs (some (bs ++ c.payload)) = (f, 0) ∧
        (c.checked = true → answer n = none) := by
      cases hans : answer n with
      | none =>
        rw [hans] at h
        dsimp only at h
        rw [FileCall.done_of_ne (Ne.symm hc)] at h
        exact ⟨h, fun _ => rfl⟩
      | some k =>
        rw [hans] at h
        dsimp only at h
        split at h
        · cases h
        · rename_i hno
          rw [Bool.not_eq_true] at hno
          rw [FileCall.payload_of_not_checked hno, List.append_nil]
          exact ⟨h, fun hyes => absurd hyes (by simp [hno])⟩
    obtain ⟨hf, hrest⟩ := ih hcs hstep.1
    refine ⟨by rw [hf, List.append_assoc], fun i d hd hcheck => ?_⟩
    cases i with
    | zero =>
      cases hd
      exact hstep.2 hcheck
    | succ i =>
      rw [show n + (i + 1) = n + 1 + i by omega]
      exact hrest i d hd hcheck

theorem perform_create_eq_zero {answer : Nat → Option Nat} {cs : List FileCall}
    (hcs : .create ∉ cs) {f f' : File} (h : perform answer 0 (.create :: cs) f = (f', 0)) :
    f' = some (written cs) ∧
      ∀ i c, cs[i]? = some c → c.checked = true → answer (i + 1) = none := by
  rw [perform] at h
  split at h
  · obtain ⟨hf, hok⟩ := perform_eq_zero hcs h
    refine ⟨hf, fun i c hc hcheck => ?_⟩
    rw [Nat.add_comm]
    exact hok i c hc hcheck
  · cases h

theorem crash_of_some {cs : List FileCall} (hcs : .create ∉ cs) (n k : Nat) (bs : Bytes) :
    crash cs n k (some bs) = some (bs ++ (written cs).take (reached cs n k)) := by
  induction cs generalizing n bs with
  | nil => simp [crash, written]
  | cons c cs ih =>
    obtain ⟨hc, hcs⟩ := not_or.1 (mt List.mem_cons.2 hcs)
    rw [written_cons]
    cases n with
    | zero =>
      rw [crash, reached, FileCall.stopped_some,
        List.take_append_of_le_length (Nat.min_le_right ..), ← List.take_eq_take_min]
    | succ n =>
      rw [crash, reached, FileCall.done_of_ne (Ne.symm hc), ih hcs, List.append_assoc,
        List.take_length_add_append]

/-- **What a crash leaves.** The old file before the truncation, then a cut of the new one. -/
theorem crash_create {cs : List FileCall} (hcs : .create ∉ cs) (n k : Nat) (f : File) :
    crash (.create :: cs) n k f =
      if n = 0 then f else some ((written cs).take (reached cs (n - 1) k)) := by
  cases n with
  | zero => rfl
  | succ n => rw [if_neg (Nat.succ_ne_zero n), crash]; exact crash_of_some hcs n k []

end Lib
