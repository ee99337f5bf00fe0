import Mathlib

/-!
# Once around a list

`circuit start n` lists the positions of a list of length `n` as a loop meets
them that starts somewhere and goes around once.
-/

namespace Lib

/-- The positions below `n` in the order of a walk that starts at `start`. -/
def circuit (start n : Nat) : List Nat := (List.range n).map fun i => (start + i) % n

theorem circuit_eq_rotate (start n : Nat) : circuit start n = (List.range n).rotate start := by
  apply List.ext_getElem
  · simp [circuit]
  · intro i hi hi'
    simp only [circuit, List.getElem_map, List.getElem_range, List.getElem_rotate, List.length_range]
    rw [Nat.add_comm]

theorem circuit_perm (start n : Nat) : (circuit start n).Perm (List.range n) := by
  rw [circuit_eq_rotate]
  exact List.rotate_perm _ _

theorem nodup_circuit (start n : Nat) : (circuit start n).Nodup :=
  (circuit_perm start n).nodup_iff.2 List.nodup_range

theorem countP_range_getElem? {α : Type} (l : List α) (p : α → Bool) :
    (List.range l.length).countP (fun i => l[i]?.any p) = l.countP p := by
  have hmap : (List.range l.length).map (fun i => l[i]?) = l.map some := by
    apply List.ext_getElem
    · simp
    · intro i hi hi'
      simp
  calc (List.range l.length).countP (fun i => l[i]?.any p)
      = ((List.range l.length).map fun i => l[i]?).countP (fun o => o.any p) := by
        rw [List.countP_map]
        rfl
    _ = (l.map some).countP (fun o => o.any p) := by rw [hmap]
    _ = l.countP p := by
        rw [List.countP_map]
        rfl

theorem countP_circuit {α : Type} (start : Nat) (l : List α) (p : α → Bool) :
    (circuit start l.length).countP (fun i => l[i]?.any p) = l.countP p := by
  rw [(circuit_perm start l.length).countP_eq, countP_range_getElem?]

end Lib
