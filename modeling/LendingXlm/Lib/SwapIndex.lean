import Mathlib.Order.Nat
import Mathlib.Tactic.Common

/-!
# Swap-remove indexes

A collection kept as numbered slots with a reverse lookup from element to slot and a count of
populated slots. Removal moves the last element into the freed slot, so slots stay contiguous.

- **Shape** (`SwapIndex.WellFormed`): the slots below the count, and only those, are filled, and
  the reverse lookup is the inverse of the slots. Distinctness of the elements follows
  (`WellFormed.slot_injective`).
- **Operations**: `insert_wellFormed`, `remove_wellFormed`, with `mem_insert` and `mem_remove` for
  what they hold; on a well-formed index a removal never finds the count too small
  (`WellFormed.remove_ne_none`).
-/

/-- Elements at contiguous slots, with the slot of each element. -/
structure SwapIndex (α : Type) where
  slotAt : Nat → Option α
  indexOf : α → Option Nat
  count : Nat

namespace SwapIndex

variable {α : Type} {s s' : SwapIndex α} {a b : α}

/-- No slot filled. -/
def empty : SwapIndex α := ⟨fun _ => none, fun _ => none, 0⟩

def contains (s : SwapIndex α) (a : α) : Bool := (s.indexOf a).isSome

/-- Stores `a` at the next free slot. -/
def insert [DecidableEq α] (s : SwapIndex α) (a : α) : SwapIndex α where
  slotAt := Function.update s.slotAt s.count (some a)
  indexOf := Function.update s.indexOf a (some s.count)
  count := s.count + 1

/-- Removes `a` if it is indexed, moving the last element into its slot; `none` when the count is
zero although `a` is indexed. -/
def remove [DecidableEq α] (s : SwapIndex α) (a : α) : Option (SwapIndex α) :=
  match s.indexOf a with
  | none => some s
  | some removedAt =>
    let cleared := Function.update s.indexOf a none
    if s.count = 0 then none
    else
      let lastAt := s.count - 1
      match (if removedAt = lastAt then none else s.slotAt lastAt) with
      | none =>
        some { slotAt := Function.update s.slotAt lastAt none, indexOf := cleared, count := lastAt }
      | some moved =>
        some
          { slotAt := Function.update (Function.update s.slotAt removedAt (some moved)) lastAt none
            indexOf := Function.update cleared moved (some removedAt)
            count := lastAt }

/-- The filled slots are those below the count, and the lookup is their inverse. -/
structure WellFormed (s : SwapIndex α) : Prop where
  filled : ∀ i, (s.slotAt i).isSome ↔ i < s.count
  inverse : ∀ i a, s.slotAt i = some a ↔ s.indexOf a = some i

theorem contains_iff : s.contains a = true ↔ ∃ i, s.indexOf a = some i :=
  Option.isSome_iff_exists

theorem empty_wellFormed : (empty : SwapIndex α).WellFormed :=
  ⟨fun i => by simp [empty], fun i a => by simp [empty]⟩

@[simp] theorem contains_empty : (empty : SwapIndex α).contains a = false := rfl

namespace WellFormed

/-- Different slots hold different elements. -/
theorem slot_injective (hs : s.WellFormed) {i j : Nat} (hi : s.slotAt i = some a)
    (hj : s.slotAt j = some a) : i = j := by
  rw [hs.inverse] at hi hj
  exact Option.some.inj (hi.symm.trans hj)

theorem index_lt (hs : s.WellFormed) {i : Nat} (hi : s.indexOf a = some i) : i < s.count := by
  rw [← hs.inverse] at hi
  exact (hs.filled i).mp (by simp [hi])

theorem index_injective (hs : s.WellFormed) {i : Nat} (ha : s.indexOf a = some i)
    (hb : s.indexOf b = some i) : a = b := by
  rw [← hs.inverse] at ha hb
  exact Option.some.inj (ha.symm.trans hb)

end WellFormed

variable [DecidableEq α]

theorem insert_wellFormed (hs : s.WellFormed) (ha : s.contains a = false) :
    (s.insert a).WellFormed := by
  have hnone : s.indexOf a = none := by simpa [contains] using ha
  refine ⟨fun i => ?_, fun i b => ?_⟩
  · have hfilled := hs.filled i
    by_cases hi : i = s.count
    · simp [insert, hi]
    · simp only [insert, Function.update_of_ne hi, hfilled]
      omega
  · have hinv := hs.inverse i b
    have hlt : s.indexOf b = some i → i < s.count := hs.index_lt
    by_cases hi : i = s.count <;> by_cases hb : b = a
    · simp [insert, hi, hb]
    · subst hi
      have hne : s.indexOf b ≠ some s.count := fun h => absurd (hlt h) (lt_irrefl _)
      simpa [insert, Function.update_of_ne hb, hne] using Ne.symm hb
    · subst hb
      have hne : s.slotAt i ≠ some b := by simp [hinv, hnone]
      simpa [insert, Function.update_of_ne hi, hne] using Ne.symm hi
    · simpa [insert, Function.update_of_ne hi, Function.update_of_ne hb] using hinv

theorem contains_insert : (s.insert a).contains b = true ↔ b = a ∨ s.contains b = true := by
  by_cases hb : b = a
  · simp [insert, contains, hb]
  · simp [insert, contains, hb]

/-- What a removal from a well-formed index does. -/
theorem remove_cases (hs : s.WellFormed) :
    (s.indexOf a = none ∧ s.remove a = some s) ∨
    (∃ i, s.indexOf a = some i ∧ i + 1 = s.count ∧
      s.remove a = some ⟨Function.update s.slotAt i none, Function.update s.indexOf a none, i⟩) ∨
    ∃ i last moved, s.indexOf a = some i ∧ i < last ∧ last + 1 = s.count ∧
      s.slotAt last = some moved ∧ moved ≠ a ∧
      s.remove a = some ⟨Function.update (Function.update s.slotAt i (some moved)) last none,
        Function.update (Function.update s.indexOf a none) moved (some i), last⟩ := by
  cases hidx : s.indexOf a with
  | none => exact .inl ⟨rfl, by simp [remove, hidx]⟩
  | some i =>
    have hlt := hs.index_lt hidx
    have hcount : s.count ≠ 0 := by omega
    by_cases hlast : i = s.count - 1
    · refine .inr (.inl ⟨i, rfl, by omega, ?_⟩)
      simp [remove, hidx, hcount, ← hlast]
    · obtain ⟨moved, hmoved⟩ := Option.isSome_iff_exists.mp
        ((hs.filled (s.count - 1)).mpr (by omega))
      refine .inr (.inr ⟨i, s.count - 1, moved, rfl, by omega, by omega, hmoved, ?_, ?_⟩)
      · rintro rfl
        exact hlast (hs.slot_injective ((hs.inverse i moved).mpr hidx) hmoved)
      · simp [remove, hidx, hcount, hlast, hmoved]

/-- A well-formed index always covers what it holds. -/
theorem WellFormed.remove_ne_none (hs : s.WellFormed) : s.remove a ≠ none := by
  rcases remove_cases (a := a) hs with ⟨-, h⟩ | ⟨_, -, -, h⟩ | ⟨_, _, _, -, -, -, -, -, h⟩
  all_goals
    rw [h]
    exact Option.some_ne_none _

theorem remove_wellFormed (hs : s.WellFormed) (h : s.remove a = some s') : s'.WellFormed := by
  rcases remove_cases (a := a) hs with ⟨-, hr⟩ | ⟨i, hi, hcount, hr⟩ |
    ⟨i, last, moved, hi, hlt, hcount, hmoved, hne, hr⟩
  · obtain rfl := Option.some.inj (hr.symm.trans h)
    exact hs
  · obtain rfl := Option.some.inj (hr.symm.trans h)
    refine ⟨fun j => ?_, fun j b => ?_⟩
    · have hfilled := hs.filled j
      by_cases hj : j = i
      · simp [hj]
      · simp only [Function.update_of_ne hj, hfilled]
        omega
    · have hinv := hs.inverse j b
      have hslot := (hs.inverse i a).mpr hi
      by_cases hj : j = i <;> by_cases hb : b = a
      · simp [hj, hb]
      · subst hj
        have hidx : s.indexOf b ≠ some j := fun h => hb (hs.index_injective h hi)
        simp [Function.update_of_ne hb, hidx]
      · subst hb
        have hidx : s.slotAt j ≠ some b := fun h => hj (hs.slot_injective h hslot)
        simp [Function.update_of_ne hj, hidx]
      · simpa [Function.update_of_ne hj, Function.update_of_ne hb] using hinv
  · obtain rfl := Option.some.inj (hr.symm.trans h)
    have hlast := (hs.inverse last moved).mp hmoved
    have hslot := (hs.inverse i a).mpr hi
    refine ⟨fun j => ?_, fun j b => ?_⟩
    · have hfilled := hs.filled j
      by_cases hj : j = last
      · simp [hj]
      · by_cases hji : j = i
        · simp [hji, hlt, hlt.ne]
        · simp only [Function.update_of_ne hj, Function.update_of_ne hji, hfilled]
          omega
    · -- The moved element now answers at the freed slot, and nothing at the last one.
      have hinv := hs.inverse j b
      have hjlast : s.slotAt j = some moved → j = last := fun h => hs.slot_injective h hmoved
      have hja : s.slotAt j = some a → j = i := fun h => hs.slot_injective h hslot
      have hbi : s.indexOf b = some i → b = a := fun h => hs.index_injective h hi
      have hbl : s.indexOf b = some last → b = moved := fun h => hs.index_injective h hlast
      simp only [Function.update_apply]
      grind

theorem contains_remove (hs : s.WellFormed) (h : s.remove a = some s') :
    s'.contains b = true ↔ b ≠ a ∧ s.contains b = true := by
  rcases remove_cases (a := a) hs with ⟨hi, hr⟩ | ⟨i, hi, hcount, hr⟩ |
    ⟨i, last, moved, hi, hlt, hcount, hmoved, hne, hr⟩
  · obtain rfl := Option.some.inj (hr.symm.trans h)
    by_cases hb : b = a
    · simp [contains, hb, hi]
    · simp [hb]
  · obtain rfl := Option.some.inj (hr.symm.trans h)
    by_cases hb : b = a
    · simp [contains, hb]
    · simp [contains, hb]
  · obtain rfl := Option.some.inj (hr.symm.trans h)
    have hlast := (hs.inverse last moved).mp hmoved
    by_cases hm : b = moved
    · subst hm
      simp [contains, hne, hlast]
    · by_cases hb : b = a
      · subst hb
        simp [contains, hm]
      · simp [contains, hm, hb]

/-- An element found at or above the freed slot was above it before. -/
theorem indexOf_remove_of_le (hs : s.WellFormed) {i j : Nat} (hi : s.indexOf a = some i)
    (h : s.remove a = some s') (hj : s'.indexOf b = some j) (hij : i ≤ j) :
    ∃ k, i < k ∧ s.indexOf b = some k := by
  rcases remove_cases (a := a) hs with ⟨hnone, -⟩ | ⟨i', hi', hcount, hr⟩ |
    ⟨i', last, moved, hi', hlt, hcount, hmoved, hne, hr⟩
  · rw [hi] at hnone
    cases hnone
  · obtain rfl : i = i' := Option.some.inj (hi.symm.trans hi')
    obtain rfl := Option.some.inj (hr.symm.trans h)
    by_cases hb : b = a
    · subst hb
      simp at hj
    · -- The last element was removed, so nothing sits at or above its slot.
      have hold : s.indexOf b = some j := by simpa [Function.update_of_ne hb] using hj
      have hlt := hs.index_lt hold
      obtain rfl : j = i := by omega
      exact absurd (hs.index_injective hold hi) hb
  · obtain rfl : i = i' := Option.some.inj (hi.symm.trans hi')
    obtain rfl := Option.some.inj (hr.symm.trans h)
    by_cases hm : b = moved
    · subst hm
      exact ⟨last, hlt, (hs.inverse last b).mp hmoved⟩
    · by_cases hb : b = a
      · subst hb
        simp [Function.update_of_ne hm] at hj
      · have hold : s.indexOf b = some j := by
          simpa [Function.update_of_ne hm, Function.update_of_ne hb] using hj
        refine ⟨j, lt_of_le_of_ne hij ?_, hold⟩
        rintro rfl
        exact hb (hs.index_injective hold hi)

end SwapIndex
