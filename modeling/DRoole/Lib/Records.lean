import DRoole.Lib.Bytes

/-!
# Streams of records

A `RecordFormat` writes a record as bytes that a reader can take off the front
of a stream: a whole record is read back whatever follows, a torn one is
refused. `scan` reads records until one is refused. What it finds in a stream
cut after `k` bytes is `whole rs k`, the records that lie entirely before the
cut (`scan_take`).
-/

namespace Lib

/-- A format of self-delimiting records. -/
structure RecordFormat (ρ : Type) where
  /-- The records the format can hold. -/
  Storable : ρ → Prop
  enc : ρ → Bytes
  next : Bytes → Option (ρ × Bytes)
  next_enc : ∀ {r : ρ}, Storable r → ∀ rest, next (enc r ++ rest) = some (r, rest)
  next_torn : ∀ {r : ρ}, Storable r → ∀ {k : Nat}, k < (enc r).length → next ((enc r).take k) = none
  next_shorter : ∀ {bs rest : Bytes} {r : ρ}, next bs = some (r, rest) → rest.length < bs.length

namespace RecordFormat

variable {ρ : Type} (F : RecordFormat ρ)

/-- The records at the front of a stream; `fuel` bounds their number. -/
def scan : Nat → Bytes → List ρ
  | 0, _ => []
  | fuel + 1, bs =>
    match F.next bs with
    | none => []
    | some (r, rest) => r :: scan fuel rest

def stream (rs : List ρ) : Bytes := rs.flatMap F.enc

/-- The records that lie entirely within the first `k` bytes of the stream. -/
def whole : List ρ → Nat → List ρ
  | [], _ => []
  | r :: rs, k => if (F.enc r).length ≤ k then r :: whole rs (k - (F.enc r).length) else []

variable {F}

theorem scan_of_next_eq_none {bs : Bytes} (h : F.next bs = none) (fuel : Nat) :
    F.scan fuel bs = [] := by
  cases fuel with
  | zero => rfl
  | succ fuel => rw [scan, h]

theorem next_nil : F.next [] = none := by
  cases h : F.next [] with
  | none => rfl
  | some p => exact absurd (F.next_shorter h) (Nat.not_lt_zero _)

theorem length_enc_pos {r : ρ} (h : F.Storable r) : 0 < (F.enc r).length := by
  have hlt := F.next_shorter (F.next_enc h [])
  simpa using hlt

/-- **Recovery of a cut stream.** The scan finds the records before the cut. -/
theorem scan_take {rs : List ρ} (hrs : ∀ r ∈ rs, F.Storable r) {k fuel : Nat}
    (hf : ((F.stream rs).take k).length ≤ fuel) :
    F.scan fuel ((F.stream rs).take k) = F.whole rs k := by
  induction rs generalizing k fuel with
  | nil => simp [stream, whole, scan_of_next_eq_none next_nil]
  | cons r rs ih =>
    have hr := hrs r List.mem_cons_self
    have hpos := length_enc_pos hr
    have hstream : F.stream (r :: rs) = F.enc r ++ F.stream rs := List.flatMap_cons
    rw [hstream] at hf ⊢
    unfold whole
    by_cases hk : (F.enc r).length ≤ k
    · rw [List.take_append, List.take_of_length_le hk] at hf ⊢
      rw [List.length_append] at hf
      obtain ⟨fuel, rfl⟩ : ∃ n, fuel = n + 1 := ⟨fuel - 1, by omega⟩
      rw [if_pos hk, scan, F.next_enc hr]
      exact congrArg (r :: ·) (ih (fun q hq => hrs q (List.mem_cons_of_mem _ hq)) (by omega))
    · have hk' : k < (F.enc r).length := by omega
      rw [if_neg hk, List.take_append_of_le_length hk'.le]
      exact scan_of_next_eq_none (F.next_torn hr hk') fuel

/-- **Recovery of a damaged stream.** Whatever follows the first `k` bytes, the
scan finds the records within them. -/
theorem whole_isPrefix_scan {rs : List ρ} (hrs : ∀ r ∈ rs, F.Storable r) {bs : Bytes} {k fuel : Nat}
    (hbs : bs.take k = (F.stream rs).take k) (hf : bs.length ≤ fuel) :
    F.whole rs k <+: F.scan fuel bs := by
  induction rs generalizing bs k fuel with
  | nil => exact List.nil_prefix
  | cons r rs ih =>
    have hr := hrs r List.mem_cons_self
    have hpos := length_enc_pos hr
    have hstream : F.stream (r :: rs) = F.enc r ++ F.stream rs := List.flatMap_cons
    unfold whole
    by_cases hk : (F.enc r).length ≤ k
    · rw [hstream, List.take_append, List.take_of_length_le hk] at hbs
      have hhead : bs.take (F.enc r).length = F.enc r := by
        rw [← Nat.min_eq_left hk, ← List.take_take, hbs, List.take_left]
      have hsplit : bs = F.enc r ++ bs.drop (F.enc r).length := by
        nth_rewrite 1 [← List.take_append_drop (F.enc r).length bs]
        rw [hhead]
      have htail : (bs.drop (F.enc r).length).take (k - (F.enc r).length) =
          (F.stream rs).take (k - (F.enc r).length) := by
        rw [← List.drop_take, hbs, List.drop_left]
      have hlen := congrArg List.length hsplit
      rw [List.length_append] at hlen
      obtain ⟨fuel, rfl⟩ : ∃ n, fuel = n + 1 := ⟨fuel - 1, by omega⟩
      rw [if_pos hk, hsplit, scan, F.next_enc hr]
      exact (List.prefix_cons_inj r).2
        (ih (fun q hq => hrs q (List.mem_cons_of_mem _ hq)) htail (by omega))
    · rw [if_neg hk]
      exact List.nil_prefix

theorem scan_append_refused {rs : List ρ} (hrs : ∀ r ∈ rs, F.Storable r) {bad : Bytes}
    (hbad : F.next bad = none) {fuel : Nat} (hf : (F.stream rs ++ bad).length ≤ fuel) :
    F.scan fuel (F.stream rs ++ bad) = rs := by
  induction rs generalizing fuel with
  | nil => exact scan_of_next_eq_none hbad fuel
  | cons r rs ih =>
    have hr := hrs r List.mem_cons_self
    have hpos := length_enc_pos hr
    have hstream : F.stream (r :: rs) ++ bad = F.enc r ++ (F.stream rs ++ bad) := by
      rw [stream, List.flatMap_cons, List.append_assoc]
      rfl
    rw [hstream, List.length_append] at hf
    obtain ⟨fuel, rfl⟩ : ∃ n, fuel = n + 1 := ⟨fuel - 1, by omega⟩
    rw [hstream, scan, F.next_enc hr]
    exact congrArg (r :: ·) (ih (fun q hq => hrs q (List.mem_cons_of_mem _ hq)) (by omega))

theorem whole_eq_self_iff {rs : List ρ} {k : Nat} :
    F.whole rs k = rs ↔ (F.stream rs).length ≤ k := by
  induction rs generalizing k with
  | nil => simp [whole, stream]
  | cons r rs ih =>
    have hstream : (F.stream (r :: rs)).length = (F.enc r).length + (F.stream rs).length := by
      rw [stream, List.flatMap_cons, List.length_append]
      rfl
    unfold whole
    by_cases hk : (F.enc r).length ≤ k
    · rw [if_pos hk, List.cons_inj_right, ih]
      omega
    · rw [if_neg hk]
      exact ⟨nofun, fun h => by omega⟩

end RecordFormat

end Lib
