import Mathlib

/-!
# A ring of slots

A ring keeps the unread end of a stream in finitely many slots. The entry with
number `k` is in the slot `slot k`; all that is asked of `slot` is that entries
less than `cap` apart have different slots. Slots without an unread entry hold
anything.
-/

namespace Lib

/-- Entries less than `cap` apart have different slots. -/
def Apart {ι : Type} (slot : Nat → ι) (cap : Nat) : Prop :=
  ∀ j k, j < k → k < j + cap → slot j ≠ slot k

/-- The entries of `stream` from number `lo` on are in their slots. -/
def Holds {ι α : Type} (slot : Nat → ι) (slots : ι → α) (stream : List α) (lo : Nat) : Prop :=
  ∀ k a, lo ≤ k → stream[k]? = some a → slots (slot k) = a

section
variable {ι α : Type} {slot : Nat → ι} {slots : ι → α} {stream : List α} {lo : Nat} {a : α}

theorem holds_nil : Holds slot slots [] lo := fun _ _ _ hk => nomatch hk

/-- A slot is filled for the next entry: no unread entry was there. -/
theorem Holds.fill [DecidableEq ι] {cap : Nat} (h : Holds slot slots stream lo)
    (hslot : Apart slot cap) (hroom : stream.length < lo + cap) :
    Holds slot (Function.update slots (slot stream.length) a) stream lo := by
  intro k b hlo hk
  have hlt : k < stream.length := (List.getElem?_eq_some_iff.1 hk).1
  rw [Function.update_of_ne (hslot k stream.length hlt (by omega))]
  exact h k b hlo hk

theorem Holds.append (h : Holds slot slots stream lo) (ha : slots (slot stream.length) = a) :
    Holds slot slots (stream ++ [a]) lo := by
  intro k b hlo hk
  rcases Nat.lt_trichotomy k stream.length with hlt | rfl | hgt
  · rw [List.getElem?_append_left hlt] at hk
    exact h k b hlo hk
  · rw [List.getElem?_concat_length] at hk
    exact ha.trans (Option.some.inj hk)
  · rw [List.getElem?_eq_none (by simpa using hgt)] at hk
    exact nomatch hk

theorem Holds.mono (h : Holds slot slots stream lo) {lo' : Nat} (hle : lo ≤ lo') :
    Holds slot slots stream lo' :=
  fun k b hlo => h k b (hle.trans hlo)

theorem Holds.take_succ (h : Holds slot slots stream lo) (hlo : lo < stream.length) :
    stream.take lo ++ [slots (slot lo)] = stream.take (lo + 1) := by
  rw [h lo _ le_rfl (List.getElem?_eq_getElem hlo), List.take_append_getElem]

end

end Lib
