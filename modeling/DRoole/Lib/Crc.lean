import Mathlib.Data.List.Basic

/-!
# Table-driven checksums

A checksum register of `w` bits takes in a byte by `step`: it looks the low
byte, combined with the new one, up in a table and shifts the rest down. Where
the top bytes of the table are distinct (`TopsDistinct`) the end of a run tells
the table indices of its last `w / 8` steps. So two inputs that differ in at
most that many consecutive bytes never have the same checksum (`run_window`).

`bitRun` is the definition of a reflected CRC: the register takes in one bit at
a time and combines with the polynomial when a one drops out. It is linear, so
eight bits at once are a look-up in the table of `byteRegister` (`bitRun_eq_run`).
-/

namespace Lib.Crc

variable {w : Nat} (T : BitVec 8 → BitVec w)

def step (s : BitVec w) (b : BitVec 8) : BitVec w := T (s.setWidth 8 ^^^ b) ^^^ s >>> 8

def run (s : BitVec w) (bs : List (BitVec 8)) : BitVec w := bs.foldl (step T) s

/-- No two entries of the table share their top byte. -/
def TopsDistinct : Prop := ∀ i j, T i >>> (w - 8) = T j >>> (w - 8) → i = j

variable {T}

theorem run_append (s : BitVec w) (xs ys : List (BitVec 8)) :
    run T s (xs ++ ys) = run T (run T s xs) ys := List.foldl_append

theorem step_top (hw : 8 ≤ w) (s : BitVec w) (b : BitVec 8) :
    step T s b >>> (w - 8) = T (s.setWidth 8 ^^^ b) >>> (w - 8) := by
  rw [step, BitVec.ushiftRight_xor_distrib, ← BitVec.shiftRight_add,
    BitVec.ushiftRight_eq_zero (x := s) (show w ≤ 8 + (w - 8) by omega), BitVec.xor_zero]

section Bursts
variable (hT : TopsDistinct T)
include hT

/-- **One step back.** Registers that agree above their low `m` bytes come from
the same table entry, and from registers that agree above `m + 1` bytes. -/
theorem step_back {m : Nat} (hm : 8 * (m + 1) ≤ w) {s s' : BitVec w} {b b' : BitVec 8}
    (h : step T s b >>> (8 * m) = step T s' b' >>> (8 * m)) :
    s.setWidth 8 ^^^ b = s'.setWidth 8 ^^^ b' ∧ s >>> (8 * (m + 1)) = s' >>> (8 * (m + 1)) := by
  have htop : step T s b >>> (w - 8) = step T s' b' >>> (w - 8) := by
    rw [show w - 8 = 8 * m + (w - 8 - 8 * m) by omega, BitVec.shiftRight_add, h,
      BitVec.shiftRight_add]
  rw [step_top (by omega), step_top (by omega)] at htop
  have hindex := hT _ _ htop
  refine ⟨hindex, ?_⟩
  rw [step, step, hindex, BitVec.ushiftRight_xor_distrib, BitVec.ushiftRight_xor_distrib,
    BitVec.xor_right_inj, ← BitVec.shiftRight_add, ← BitVec.shiftRight_add] at h
  rwa [Nat.mul_add_one, Nat.add_comm]

/-- **A run back.** -/
theorem run_back {xs ys : List (BitVec 8)} (hlen : xs.length = ys.length)
    (hw : 8 * xs.length ≤ w) {s s' : BitVec w} (h : run T s xs = run T s' ys) :
    s >>> (8 * xs.length) = s' >>> (8 * xs.length) := by
  induction xs generalizing ys s s' with
  | nil =>
    obtain rfl := List.length_eq_zero_iff.1 hlen.symm
    rw [show s = s' from h]
  | cons b xs ih =>
    obtain ⟨b', ys, rfl⟩ := List.exists_cons_of_length_eq_add_one hlen.symm
    rw [List.length_cons] at hw
    have hnext := ih (Nat.succ.inj hlen) (by omega) h
    exact (step_back hT hw hnext).2

/-- **Bursts.** From one register, two inputs of at most `w / 8` bytes end differently. -/
theorem run_burst {xs ys : List (BitVec 8)} (hlen : xs.length = ys.length)
    (hw : 8 * xs.length ≤ w) {s : BitVec w} (h : run T s xs = run T s ys) : xs = ys := by
  induction xs generalizing ys s with
  | nil => exact (List.length_eq_zero_iff.1 hlen.symm).symm
  | cons b xs ih =>
    obtain ⟨b', ys, rfl⟩ := List.exists_cons_of_length_eq_add_one hlen.symm
    rw [List.length_cons] at hw
    have hrest := Nat.succ.inj hlen
    -- the first bytes meet the same register, so the same index means the same byte
    have hnext := run_back hT hrest (by omega) (h : run T (step T s b) xs = run T (step T s b') ys)
    have hb : b = b' := (BitVec.xor_right_inj _).1 (step_back hT hw hnext).1
    subst hb
    rw [ih hrest (by omega) h]

theorem step_injective (hw : 8 ≤ w) {s s' : BitVec w} {b : BitVec 8}
    (h : step T s b = step T s' b) : s = s' := by
  have hshift : step T s b >>> (8 * 0) = step T s' b >>> (8 * 0) := by rw [h]
  obtain ⟨hlow, hhigh⟩ := step_back hT hw hshift
  have hlow : s.setWidth 8 = s'.setWidth 8 := (BitVec.xor_left_inj _).1 hlow
  apply BitVec.eq_of_getLsbD_eq
  intro i hi
  by_cases hi8 : i < 8
  · have hbit := congrArg (·.getLsbD i) hlow
    simpa [hi8] using hbit
  · have hbit : (s >>> 8).getLsbD (i - 8) = (s' >>> 8).getLsbD (i - 8) :=
      congrArg (·.getLsbD (i - 8)) hhigh
    rwa [BitVec.getLsbD_ushiftRight, BitVec.getLsbD_ushiftRight, Nat.add_sub_cancel' (by omega)]
      at hbit

theorem run_injective (hw : 8 ≤ w) {xs : List (BitVec 8)} {s s' : BitVec w}
    (h : run T s xs = run T s' xs) : s = s' := by
  induction xs generalizing s s' with
  | nil => exact h
  | cons b xs ih => exact step_injective hT hw (ih h)

/-- **Windows.** Inputs that differ in at most `n` consecutive bytes, and have the
same checksum, are equal. -/
theorem run_window {n p : Nat} (hn : 8 * n ≤ w) {s : BitVec w} {xs ys : List (BitVec 8)}
    (hlen : xs.length = ys.length) (hfront : xs.take p = ys.take p)
    (hback : xs.drop (p + n) = ys.drop (p + n)) (h : run T s xs = run T s ys) : xs = ys := by
  have hsplit : ∀ zs : List (BitVec 8), zs = zs.take p ++ ((zs.drop p).take n ++ zs.drop (p + n)) :=
    fun zs => by rw [← List.drop_drop, List.take_append_drop, List.take_append_drop]
  have hmid : ((xs.drop p).take n).length = ((ys.drop p).take n).length := by
    simp only [List.length_take, List.length_drop, hlen]
  have hle : ((xs.drop p).take n).length ≤ n := List.length_take_le ..
  rcases Nat.eq_zero_or_pos n with rfl | hpos
  · rw [hsplit xs, hsplit ys, hfront, hback, List.take_zero, List.take_zero]
  · rw [hsplit xs, hsplit ys, hfront, hback, run_append, run_append, run_append, run_append] at h
    have hmid := run_burst hT hmid (by omega) (run_injective hT (by omega) h)
    rw [hsplit xs, hsplit ys, hfront, hback, hmid]

end Bursts

/-! ## Bit by bit -/

section Bitwise
variable (P : BitVec w)

def bitStep (s : BitVec w) (b : Bool) : BitVec w :=
  if s.getLsbD 0 ^^ b then s >>> 1 ^^^ P else s >>> 1

/-- The bits of a byte, the lowest first. -/
def bits (b : BitVec 8) : List Bool := (List.range 8).map b.getLsbD

def bitRun (s : BitVec w) (bs : List (BitVec 8)) : BitVec w := (bs.flatMap bits).foldl (bitStep P) s

def shiftIn (s : BitVec w) (b : BitVec 8) (n : Nat) : BitVec w :=
  (List.range n).foldl (fun t i => bitStep P t (b.getLsbD i)) s

/-- The table entry of a byte: the register it leaves when it starts from zero. -/
def byteRegister (b : BitVec 8) : BitVec w := shiftIn P 0#w b 8

variable {P}

theorem bitStep_eq (s : BitVec w) (b : Bool) :
    bitStep P s b = s >>> 1 ^^^ if s.getLsbD 0 ^^ b then P else 0#w := by
  unfold bitStep
  split
  · rfl
  · rw [BitVec.xor_zero]

/-- **The step is linear.** -/
theorem bitStep_xor (s t : BitVec w) (a b : Bool) :
    bitStep P (s ^^^ t) (a ^^ b) = bitStep P s a ^^^ bitStep P t b := by
  have hbit : ((s ^^^ t).getLsbD 0 ^^ (a ^^ b)) = ((s.getLsbD 0 ^^ a) ^^ (t.getLsbD 0 ^^ b)) := by
    rw [BitVec.getLsbD_xor]
    cases s.getLsbD 0 <;> cases t.getLsbD 0 <;> cases a <;> cases b <;> rfl
  rw [bitStep_eq, bitStep_eq, bitStep_eq, hbit, BitVec.ushiftRight_xor_distrib]
  generalize (s.getLsbD 0 ^^ a) = p
  generalize (t.getLsbD 0 ^^ b) = q
  have hadd : (if p ^^ q then P else 0#w) = (if p then P else 0#w) ^^^ (if q then P else 0#w) := by
    cases p <;> cases q <;> simp
  rw [hadd, BitVec.xor_assoc, BitVec.xor_assoc]
  congr 1
  rw [← BitVec.xor_assoc, ← BitVec.xor_assoc, BitVec.xor_comm (t >>> 1)]

theorem shiftIn_succ (s : BitVec w) (b : BitVec 8) (n : Nat) :
    shiftIn P s b (n + 1) = bitStep P (shiftIn P s b n) (b.getLsbD n) := by
  rw [shiftIn, List.range_succ, List.foldl_append]
  rfl

theorem bitStep_own (s : BitVec w) (n : Nat) :
    bitStep P (s >>> n) (s.getLsbD n) = s >>> (n + 1) := by
  unfold bitStep
  rw [BitVec.getLsbD_ushiftRight, Nat.add_zero, Bool.xor_self, if_neg Bool.false_ne_true,
    BitVec.shiftRight_add]

/-- **Bits against the register.** What the bits of a byte do to a register, they
do together with its low bits to zero, and the rest is shifted. -/
theorem shiftIn_eq (s : BitVec w) (b : BitVec 8) {n : Nat} (hn : n ≤ 8) :
    shiftIn P s b n = shiftIn P 0#w (s.setWidth 8 ^^^ b) n ^^^ s >>> n := by
  induction n with
  | zero => simp [shiftIn]
  | succ n ih =>
    have hbit : b.getLsbD n = ((s.setWidth 8 ^^^ b).getLsbD n ^^ s.getLsbD n) := by
      have hlow : (s.setWidth 8).getLsbD n = s.getLsbD n := by
        rw [BitVec.getLsbD_setWidth, decide_eq_true (by omega : n < 8), Bool.true_and]
      rw [BitVec.getLsbD_xor, hlow]
      cases s.getLsbD n <;> cases b.getLsbD n <;> rfl
    rw [shiftIn_succ, ih (by omega), hbit, bitStep_xor, bitStep_own, ← shiftIn_succ]

theorem foldl_bits (s : BitVec w) (b : BitVec 8) :
    (bits b).foldl (bitStep P) s = step (byteRegister P) s b := by
  rw [bits, List.foldl_map]
  exact shiftIn_eq s b (Nat.le_refl 8)

/-- **Tables.** With the table of the polynomial, a byte at a time comes to the
same as a bit at a time. -/
theorem bitRun_eq_run (s : BitVec w) (bs : List (BitVec 8)) :
    bitRun P s bs = run (byteRegister P) s bs := by
  induction bs generalizing s with
  | nil => rfl
  | cons b bs ih =>
    rw [bitRun, List.flatMap_cons, List.foldl_append, foldl_bits]
    exact ih _

/-- A register that starts from zero and whose top `n` bits are zero after the low `n`
bits of a byte has seen zeros only: each one would show at the top. -/
theorem zeros_of_shiftIn (hP : P.msb = true) (b : BitVec 8) {n : Nat} (hn : n ≤ w)
    (h : shiftIn P 0#w b n >>> (w - n) = 0#w) :
    shiftIn P 0#w b n = 0#w ∧ ∀ i < n, b.getLsbD i = false := by
  induction n with
  | zero => exact ⟨rfl, nofun⟩
  | succ n ih =>
    rw [shiftIn_succ] at h ⊢
    cases hdrop : (shiftIn P 0#w b n).getLsbD 0 ^^ b.getLsbD n with
    | true =>
      have htop : (bitStep P (shiftIn P 0#w b n) (b.getLsbD n) >>> (w - (n + 1))).getLsbD n = true := by
        rw [BitVec.msb_eq_getLsbD_last] at hP
        rw [bitStep, if_pos hdrop, BitVec.getLsbD_ushiftRight, show w - (n + 1) + n = w - 1 by omega,
          BitVec.getLsbD_xor, hP, BitVec.getLsbD_ushiftRight, BitVec.getLsbD_of_ge _ _ (by omega)]
        rfl
      rw [h, BitVec.getLsbD_zero] at htop
      cases htop
    | false =>
      have hshift : bitStep P (shiftIn P 0#w b n) (b.getLsbD n) = shiftIn P 0#w b n >>> 1 := by
        rw [bitStep, hdrop]
        rfl
      rw [hshift, ← BitVec.shiftRight_add, show 1 + (w - (n + 1)) = w - n by omega] at h
      obtain ⟨hzero, hlow⟩ := ih (by omega) h
      rw [hzero, BitVec.getLsbD_zero, Bool.false_xor] at hdrop
      refine ⟨by rw [hshift, hzero, BitVec.zero_ushiftRight], fun i hi => ?_⟩
      rcases Nat.lt_succ_iff_lt_or_eq.1 hi with hi | rfl
      · exact hlow i hi
      · exact hdrop

theorem shiftIn_xor (a b : BitVec 8) (n : Nat) :
    shiftIn P 0#w (a ^^^ b) n = shiftIn P 0#w a n ^^^ shiftIn P 0#w b n := by
  induction n with
  | zero => simp [shiftIn]
  | succ n ih =>
    rw [shiftIn_succ, shiftIn_succ, shiftIn_succ, ih, BitVec.getLsbD_xor, bitStep_xor]

/-- The table of a polynomial of full degree has distinct top bytes. -/
theorem topsDistinct_byteRegister (hP : P.msb = true) (hw : 8 ≤ w) :
    TopsDistinct (byteRegister P) := by
  intro i j h
  have hxor : shiftIn P 0#w (i ^^^ j) 8 >>> (w - 8) = 0#w := by
    rw [shiftIn_xor, BitVec.ushiftRight_xor_distrib]
    exact BitVec.xor_eq_zero_iff.2 h
  have hzero := (zeros_of_shiftIn hP (i ^^^ j) hw hxor).2
  apply BitVec.eq_of_getLsbD_eq
  intro k hk
  have hbit := hzero k hk
  rw [BitVec.getLsbD_xor] at hbit
  simpa using hbit

end Bitwise

end Lib.Crc
