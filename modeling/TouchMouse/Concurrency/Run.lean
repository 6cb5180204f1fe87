import Mathlib.Data.List.Basic

/-!
# Labelled runs

A step relation takes a state, under a label, to a state; a run collects the
labels of its steps in order. `Run.invariant` is the induction behind every
statement about the states that runs reach and the labels they show.
-/

namespace Labelled

variable {σ α : Type} {step : σ → α → σ → Prop} {start : σ}

inductive Run (step : σ → α → σ → Prop) (start : σ) : List α → σ → Prop where
  | start : Run step start [] start
  | next {labels : List α} {s s' : σ} {a : α} (before : Run step start labels s) (moves : step s a s') :
      Run step start (labels ++ [a]) s'

/-- What a further label shows. -/
theorem filterMap_snoc {β : Type} (f : α → Option β) (labels : List α) (a : α) :
    (labels ++ [a]).filterMap f = labels.filterMap f ++ (f a).toList := by
  rw [List.filterMap_append]
  cases h : f a <;> simp [h]

namespace Run

/-- What holds at the start and is preserved by every step holds of every
run, with its labels. -/
theorem invariant {I : List α → σ → Prop} (hstart : I [] start)
    (hstep : ∀ labels s a s', I labels s → step s a s' → I (labels ++ [a]) s') {labels : List α} {s : σ}
    (h : Run step start labels s) : I labels s := by
  induction h with
  | start => exact hstart
  | next _ moves ih => exact hstep _ _ _ _ ih moves

/-- The same for what does not depend on the labels. -/
theorem invariant_state {I : σ → Prop} (hstart : I start) (hstep : ∀ s a s', I s → step s a s' → I s')
    {labels : List α} {s : σ} (h : Run step start labels s) : I s :=
  invariant (I := fun _ s => I s) hstart (fun _ => hstep) h

theorem single {a : α} {s : σ} (h : step start a s) : Run step start [a] s := next .start h

theorem append {labels labels' : List α} {s s' : σ} (h : Run step start labels s) (h' : Run step s labels' s') :
    Run step start (labels ++ labels') s' := by
  induction h' with
  | start => rwa [List.append_nil]
  | next _ moves ih =>
    rw [← List.append_assoc]
    exact next ih moves

/-- Two steps one after the other, and so on from the front. -/
theorem cons {a : α} {labels : List α} {s s' : σ} (moves : step start a s) (h : Run step s labels s') :
    Run step start (a :: labels) s' :=
  append (single moves) h

/-- A run passes through a state wherever its labels are cut. -/
theorem split {labels labels' : List α} {s : σ} (h : Run step start (labels ++ labels') s) :
    ∃ mid, Run step start labels mid ∧ Run step mid labels' s := by
  generalize hall : labels ++ labels' = all at h
  induction h generalizing labels' with
  | start =>
    obtain ⟨rfl, rfl⟩ := List.append_eq_nil_iff.1 hall
    exact ⟨start, .start, .start⟩
  | @next before s s' a hbefore moves ih =>
    rcases List.eq_nil_or_concat' labels' with rfl | ⟨init, b, rfl⟩
    · rw [List.append_nil] at hall
      exact ⟨s', hall ▸ next hbefore moves, .start⟩
    · rw [← List.append_assoc] at hall
      obtain ⟨hinit, hlast⟩ := List.append_inj' hall rfl
      obtain rfl := (List.cons.inj hlast).1
      obtain ⟨mid, hmid, hrest⟩ := ih hinit
      exact ⟨mid, hmid, next hrest moves⟩

/-- The first step of a run. -/
theorem head {a : α} {labels : List α} {s : σ} (h : Run step start (a :: labels) s) :
    ∃ mid, step start a mid ∧ Run step mid labels s := by
  have hsplit : Run step start ([a] ++ labels) s := h
  obtain ⟨mid, hone, hrest⟩ := split hsplit
  generalize hlabels : [a] = one at hone
  cases hone with
  | start => cases hlabels
  | @next before s s' b hbefore moves =>
    rw [← List.nil_append [a]] at hlabels
    obtain ⟨rfl, hlast⟩ := List.append_inj' hlabels rfl
    obtain rfl := (List.cons.inj hlast).1
    generalize hnil : ([] : List α) = none at hbefore
    cases hbefore with
    | start => exact ⟨mid, moves, hrest⟩
    | next => simp at hnil

end Run

end Labelled
