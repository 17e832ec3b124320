import Mathlib.Order.Defs.LinearOrder
import Mathlib.Order.Basic
import Mathlib.Data.List.Basic
import Mathlib.Algebra.BigOperators.Group.List.Basic
import Mathlib.Algebra.Order.BigOperators.Group.List
import Mathlib.Algebra.Order.Group.Unbundled.Basic
import Mathlib.Tactic.Abel

/-!
# Finite maps in key order

A map is the list of its entries in increasing key order, so that equal maps are equal lists and
iteration has one order.

* `get?_set`, `get?_erase`: what a map holds after a write;
* `mem_entries`: the entries are exactly what lookups return;
* `sumBy_set`, `sumBy_erase`: a total over the entries moves by the contribution of the key that
  was written, and by nothing else.
-/

/-- A finite map: its entries in increasing key order. -/
structure SortedMap (K V : Type*) [LinearOrder K] where
  entries : List (K × V)
  sorted : entries.Pairwise fun a b => a.1 < b.1

namespace SortedMap

variable {K V : Type*} [LinearOrder K]

/-! ## Entry lists -/

/-- Puts `v` under `k` in a sorted list of entries. -/
def setEntries (k : K) (v : V) : List (K × V) → List (K × V)
  | [] => [(k, v)]
  | e :: l =>
    if k < e.1 then (k, v) :: e :: l
    else if k = e.1 then (k, v) :: l
    else e :: setEntries k v l

theorem mem_setEntries {k : K} {v : V} {l : List (K × V)} {e : K × V}
    (h : e ∈ setEntries k v l) : e = (k, v) ∨ e ∈ l := by
  induction l with
  | nil => simpa [setEntries] using h
  | cons d l ih =>
    unfold setEntries at h
    split at h
    · simpa using h
    · split at h
      · rcases List.mem_cons.mp h with rfl | h
        · exact .inl rfl
        · exact .inr (List.mem_cons_of_mem _ h)
      · rcases List.mem_cons.mp h with rfl | h
        · exact .inr List.mem_cons_self
        · exact (ih h).imp id (List.mem_cons_of_mem _)

theorem setEntries_sorted {k : K} {v : V} {l : List (K × V)}
    (h : l.Pairwise fun a b => a.1 < b.1) :
    (setEntries k v l).Pairwise fun a b => a.1 < b.1 := by
  induction l with
  | nil => simp [setEntries]
  | cons e l ih =>
    obtain ⟨hhead, htail⟩ := List.pairwise_cons.mp h
    unfold setEntries
    split
    · rename_i hlt
      refine List.pairwise_cons.mpr ⟨fun d hd => ?_, h⟩
      rcases List.mem_cons.mp hd with rfl | hd
      · exact hlt
      · exact hlt.trans (hhead d hd)
    · split
      · rename_i hge heq
        subst heq
        exact List.pairwise_cons.mpr ⟨hhead, htail⟩
      · rename_i hge hne
        refine List.pairwise_cons.mpr ⟨fun d hd => ?_, ih htail⟩
        rcases mem_setEntries hd with rfl | hd
        · exact lt_of_le_of_ne (not_lt.mp hge) (Ne.symm hne)
        · exact hhead d hd

/-! ## Maps -/

instance [DecidableEq V] : DecidableEq (SortedMap K V) := fun m n =>
  decidable_of_iff (m.entries = n.entries)
    ⟨fun h => by cases m; cases n; cases h; rfl, fun h => h ▸ rfl⟩

instance [Repr K] [Repr V] : Repr (SortedMap K V) := ⟨fun m n => reprPrec m.entries n⟩

def empty : SortedMap K V := ⟨[], List.Pairwise.nil⟩

instance : Inhabited (SortedMap K V) := ⟨empty⟩

/-- What the map holds for `k`. -/
def get? (m : SortedMap K V) (k : K) : Option V := m.entries.lookup k

def contains (m : SortedMap K V) (k : K) : Bool := (m.get? k).isSome

def set (m : SortedMap K V) (k : K) (v : V) : SortedMap K V :=
  ⟨setEntries k v m.entries, setEntries_sorted m.sorted⟩

def erase (m : SortedMap K V) (k : K) : SortedMap K V :=
  ⟨m.entries.filter fun e => e.1 ≠ k, m.sorted.filter _⟩

def keys (m : SortedMap K V) : List K := m.entries.map Prod.fst

def size (m : SortedMap K V) : Nat := m.entries.length

def isEmpty (m : SortedMap K V) : Bool := m.entries.isEmpty

/-- The total of `f` over the entries. -/
def sumBy {M : Type*} [AddCommMonoid M] (m : SortedMap K V) (f : K → V → M) : M :=
  (m.entries.map fun e => f e.1 e.2).sum

/-! ## Lookups -/

@[simp] theorem get?_empty (k : K) : (empty : SortedMap K V).get? k = none := rfl

theorem lookup_eq_none_of_lt {k : K} {l : List (K × V)} (h : ∀ e ∈ l, k < e.1) :
    l.lookup k = none := by
  rw [List.lookup_eq_none_iff]
  intro e he
  simpa using (h e he).ne

theorem lookup_setEntries {k k' : K} {v : V} {l : List (K × V)} :
    (setEntries k v l).lookup k' = if k' = k then some v else l.lookup k' := by
  induction l with
  | nil =>
    simp only [setEntries, List.lookup_cons, List.lookup_nil]
    by_cases h : k' = k
    · simp [h]
    · have hb : (k' == k) = false := by simpa using h
      rw [hb, if_neg h]
  | cons e l ih =>
    unfold setEntries
    by_cases h : k' = k
    · subst h
      split
      · simp
      · split
        · simp
        · rename_i hne
          have hb : (k' == e.1) = false := by simpa using hne
          rw [List.lookup_cons, hb]
          simpa using ih
    · rw [if_neg h]
      have hb : (k' == k) = false := by simpa using h
      split
      · rw [List.lookup_cons, hb]
      · split
        · rename_i heq
          rw [List.lookup_cons, List.lookup_cons, ← heq, hb]
        · rw [List.lookup_cons, List.lookup_cons, ih, if_neg h]

theorem get?_set (m : SortedMap K V) (k k' : K) (v : V) :
    (m.set k v).get? k' = if k' = k then some v else m.get? k' :=
  lookup_setEntries

@[simp] theorem get?_set_self (m : SortedMap K V) (k : K) (v : V) :
    (m.set k v).get? k = some v := by
  rw [get?_set, if_pos rfl]

theorem get?_set_ne (m : SortedMap K V) {k k' : K} (v : V) (h : k' ≠ k) :
    (m.set k v).get? k' = m.get? k' := by
  rw [get?_set, if_neg h]

/-- The entries of a map are exactly what its lookups return. -/
theorem mem_entries {m : SortedMap K V} {k : K} {v : V} :
    (k, v) ∈ m.entries ↔ m.get? k = some v := by
  obtain ⟨l, hl⟩ := m
  show (k, v) ∈ l ↔ l.lookup k = some v
  induction l with
  | nil => simp
  | cons e l ih =>
    obtain ⟨hhead, htail⟩ := List.pairwise_cons.mp hl
    obtain ⟨k', v'⟩ := e
    by_cases h : k = k'
    · subst h
      rw [List.lookup_cons_self, List.mem_cons]
      constructor
      · rintro (h | h)
        · cases h
          rfl
        · exact absurd (hhead _ h) (lt_irrefl _)
      · intro h
        cases h
        exact .inl rfl
    · have hb : (k == k') = false := by simpa using h
      rw [List.lookup_cons, hb, List.mem_cons]
      simp only [Prod.mk.injEq, h, false_and, false_or]
      exact ih htail

theorem get?_erase (m : SortedMap K V) (k k' : K) :
    (m.erase k).get? k' = if k' = k then none else m.get? k' := by
  by_cases h : k' = k
  · rw [if_pos h]
    cases hg : (m.erase k).get? k' with
    | none => rfl
    | some v =>
      have hmem := mem_entries.mpr hg
      simp [erase, h] at hmem
  · rw [if_neg h]
    cases hg : m.get? k' with
    | none =>
      cases hg' : (m.erase k).get? k' with
      | none => rfl
      | some v =>
        have hmem : (k', v) ∈ m.entries :=
          List.mem_of_mem_filter (mem_entries.mpr hg')
        rw [mem_entries, hg] at hmem
        cases hmem
    | some v =>
      refine mem_entries.mp (List.mem_filter.mpr ⟨mem_entries.mpr hg, ?_⟩)
      simpa using h

@[simp] theorem get?_erase_self (m : SortedMap K V) (k : K) : (m.erase k).get? k = none := by
  rw [get?_erase, if_pos rfl]

theorem get?_erase_ne (m : SortedMap K V) {k k' : K} (h : k' ≠ k) :
    (m.erase k).get? k' = m.get? k' := by
  rw [get?_erase, if_neg h]

/-- Looking up in a map with a first entry. -/
theorem get?_cons {e : K × V} {l : List (K × V)} (hl : (e :: l).Pairwise fun a b => a.1 < b.1)
    (k : K) :
    get? ⟨e :: l, hl⟩ k = if k = e.1 then some e.2 else get? ⟨l, (List.pairwise_cons.mp hl).2⟩ k := by
  unfold get?
  rw [List.lookup_cons]
  by_cases hk : k = e.1
  · simp [hk]
  · have hb : (k == e.1) = false := by simpa using hk
    rw [hb, if_neg hk]

/-- A key below every entry is not there. -/
theorem get?_eq_none_of_lt {l : List (K × V)} {hl : l.Pairwise fun a b => a.1 < b.1} {k : K}
    (h : ∀ e ∈ l, k < e.1) : get? ⟨l, hl⟩ k = none :=
  lookup_eq_none_of_lt h

theorem contains_iff {m : SortedMap K V} {k : K} : m.contains k = true ↔ ∃ v, m.get? k = some v :=
  Option.isSome_iff_exists

/-! ## Totals -/

section Sum

variable {M : Type*} [AddCommGroup M] (f : K → V → M)

/-- What `k` contributes to the total of `f`. -/
def weight (m : SortedMap K V) (k : K) : M := (m.get? k).elim 0 (f k)

@[simp] theorem sumBy_empty : (empty : SortedMap K V).sumBy f = 0 := rfl

theorem sum_setEntries {k : K} {v : V} {l : List (K × V)}
    (h : l.Pairwise fun a b => a.1 < b.1) :
    ((setEntries k v l).map fun e => f e.1 e.2).sum =
      (l.map fun e => f e.1 e.2).sum - (l.lookup k).elim 0 (f k) + f k v := by
  induction l with
  | nil => simp [setEntries]
  | cons e l ih =>
    obtain ⟨hhead, htail⟩ := List.pairwise_cons.mp h
    unfold setEntries
    split
    · rename_i hlt
      have hnone : (e :: l).lookup k = none := by
        refine lookup_eq_none_of_lt fun d hd => ?_
        rcases List.mem_cons.mp hd with rfl | hd
        · exact hlt
        · exact hlt.trans (hhead d hd)
      rw [hnone, List.map_cons, List.sum_cons, Option.elim_none]
      abel
    · split
      · rename_i heq
        obtain ⟨k', v'⟩ := e
        cases heq
        simp only [List.map_cons, List.sum_cons, List.lookup_cons_self, Option.elim_some]
        abel
      · rename_i hne
        have hb : (k == e.1) = false := by simpa using hne
        rw [List.map_cons, List.sum_cons, ih htail, List.map_cons, List.sum_cons,
          List.lookup_cons, hb]
        abel

/-- A write moves the total by what the key contributes. -/
theorem sumBy_set (m : SortedMap K V) (k : K) (v : V) :
    (m.set k v).sumBy f = m.sumBy f - m.weight f k + f k v :=
  sum_setEntries f m.sorted

/-- Removing a key removes its contribution. -/
theorem sumBy_erase (m : SortedMap K V) (k : K) :
    (m.erase k).sumBy f = m.sumBy f - m.weight f k := by
  obtain ⟨l, hl⟩ := m
  show ((l.filter fun e => e.1 ≠ k).map fun e => f e.1 e.2).sum =
    (l.map fun e => f e.1 e.2).sum - (l.lookup k).elim 0 (f k)
  induction l with
  | nil => simp
  | cons e l ih =>
    obtain ⟨hhead, htail⟩ := List.pairwise_cons.mp hl
    obtain ⟨k', v'⟩ := e
    by_cases h : k' = k
    · subst h
      have hnone : l.lookup k' = none := lookup_eq_none_of_lt hhead
      have htl := ih htail
      rw [hnone, Option.elim_none, sub_zero] at htl
      simp only [List.filter_cons, ne_eq, not_true_eq_false, decide_false, Bool.false_eq_true,
        if_false, List.lookup_cons_self, Option.elim_some, List.map_cons, List.sum_cons] at htl ⊢
      rw [htl]
      abel
    · have hb : (k == k') = false := by simpa using fun he => h he.symm
      have htl := ih htail
      simp only [List.filter_cons, ne_eq, h, not_false_eq_true, decide_true, if_true,
        List.map_cons, List.sum_cons, List.lookup_cons, hb] at htl ⊢
      rw [htl]
      abel

theorem weight_of_get? {m : SortedMap K V} {k : K} {v : V} (h : m.get? k = some v) :
    m.weight f k = f k v := by
  rw [weight, h, Option.elim_some]

theorem weight_of_none {m : SortedMap K V} {k : K} (h : m.get? k = none) : m.weight f k = 0 := by
  rw [weight, h, Option.elim_none]

end Sum

/-- Two totals that agree entry by entry are equal. -/
theorem sumBy_congr {M : Type*} [AddCommMonoid M] {m : SortedMap K V} {f g : K → V → M}
    (h : ∀ k v, m.get? k = some v → f k v = g k v) : m.sumBy f = m.sumBy g := by
  unfold sumBy
  congr 1
  refine List.map_congr_left fun e he => ?_
  exact h e.1 e.2 (mem_entries.mp he)

/-- A total splits into what `k` contributes and a total that skips it. -/
theorem sumBy_skip {M : Type*} [AddCommGroup M] {m : SortedMap K V} {f g : K → V → M} {k : K}
    {v : V} (hget : m.get? k = some v) (hk : g k v = 0)
    (hne : ∀ k' v', k' ≠ k → m.get? k' = some v' → g k' v' = f k' v') :
    m.sumBy f = m.sumBy g + f k v := by
  have hf := sumBy_erase f m k
  have hg := sumBy_erase g m k
  rw [weight_of_get? f hget] at hf
  rw [weight_of_get? g hget, hk, sub_zero] at hg
  have hfg : (m.erase k).sumBy f = (m.erase k).sumBy g := by
    refine sumBy_congr fun k' v' hget' => ?_
    rw [get?_erase] at hget'
    split at hget'
    · cases hget'
    · rename_i hkk
      exact (hne k' v' hkk hget').symm
  rw [← hg, ← hfg, hf, sub_add_cancel]

/-- A total to which one key alone contributes. -/
theorem sumBy_at {M : Type*} [AddCommGroup M] {m : SortedMap K V} {f : K → V → M} {k : K}
    (h : ∀ k' v, k' ≠ k → f k' v = 0) : m.sumBy f = m.weight f k := by
  have hrest : (m.erase k).sumBy f = 0 := by
    have hzero : (m.erase k).sumBy f = (m.erase k).sumBy fun _ _ => (0 : M) := by
      refine sumBy_congr fun k' v hget => ?_
      rw [get?_erase] at hget
      split at hget
      · cases hget
      · exact h k' v ‹_›
    rw [hzero]
    simp [sumBy]
  rw [sumBy_erase, sub_eq_zero] at hrest
  exact hrest

theorem sumBy_apply {I : Type*} {m : SortedMap K V} {f : K → V → I → Int} (i : I) :
    m.sumBy f i = m.sumBy fun k v => f k v i := by
  unfold sumBy
  induction m.entries with
  | nil => rfl
  | cons e l ih => rw [List.map_cons, List.sum_cons, Pi.add_apply, ih, List.map_cons, List.sum_cons]

section Ordered

variable {M : Type*} [AddCommGroup M] [PartialOrder M] [IsOrderedAddMonoid M] {m : SortedMap K V}
  {f : K → V → M}

theorem sumBy_nonneg (h : ∀ k v, m.get? k = some v → 0 ≤ f k v) : 0 ≤ m.sumBy f := by
  refine List.sum_nonneg fun x hx => ?_
  obtain ⟨e, he, rfl⟩ := List.mem_map.mp hx
  exact h e.1 e.2 (mem_entries.mp he)

/-- In a total of non-negative contributions, none is above the total. -/
theorem le_sumBy (h : ∀ k v, m.get? k = some v → 0 ≤ f k v) {k : K} {v : V}
    (hget : m.get? k = some v) : f k v ≤ m.sumBy f := by
  have herase := sumBy_erase f m k
  rw [weight_of_get? f hget] at herase
  have hrest : 0 ≤ (m.erase k).sumBy f := by
    refine sumBy_nonneg fun k' v' hget' => ?_
    rw [get?_erase] at hget'
    split at hget'
    · cases hget'
    · exact h k' v' hget'
  rw [herase, sub_nonneg] at hrest
  exact hrest

end Ordered

theorem isEmpty_iff {m : SortedMap K V} : m.isEmpty = true ↔ m = empty := by
  obtain ⟨l, hl⟩ := m
  cases l with
  | nil => exact iff_of_true rfl rfl
  | cons e l => exact iff_of_false (by simp [isEmpty]) (by simp [empty])

/-! ## Keys -/

theorem eq_empty {m : SortedMap K V} (h : ∀ k, m.get? k = none) : m = empty := by
  obtain ⟨l, hl⟩ := m
  cases l with
  | nil => rfl
  | cons e l =>
    have hget : get? ⟨e :: l, hl⟩ e.1 = some e.2 := mem_entries.mp List.mem_cons_self
    rw [h e.1] at hget
    cases hget

theorem mem_keys {m : SortedMap K V} {k : K} : k ∈ m.keys ↔ ∃ v, m.get? k = some v := by
  unfold keys
  rw [List.mem_map]
  constructor
  · rintro ⟨⟨k', v⟩, he, rfl⟩
    exact ⟨v, mem_entries.mp he⟩
  · rintro ⟨v, hget⟩
    exact ⟨(k, v), mem_entries.mpr hget, rfl⟩

theorem nodup_keys (m : SortedMap K V) : m.keys.Nodup := by
  unfold keys
  rw [List.nodup_iff_pairwise_ne, List.pairwise_map]
  exact m.sorted.imp fun h => h.ne

theorem length_keys (m : SortedMap K V) : m.keys.length = m.size :=
  List.length_map _

end SortedMap
