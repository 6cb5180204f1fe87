import Mathlib.Data.List.Basic

/-!
# Transducers

A step function takes a state and an input to a state and the outputs it
makes. `after` and `outputs` run it over a list of inputs. `after_invariant`
is the induction behind every statement about all runs, and `simulates` the
one behind every statement that one transducer does what another does.
-/

namespace Transducer

variable {σ ι ο : Type}

/-- The state after a list of inputs. -/
def after (step : σ → ι → σ × List ο) : σ → List ι → σ
  | s, [] => s
  | s, i :: is => after step (step s i).1 is

/-- The outputs over a list of inputs, in order. -/
def outputs (step : σ → ι → σ × List ο) : σ → List ι → List ο
  | _, [] => []
  | s, i :: is => (step s i).2 ++ outputs step (step s i).1 is

variable (step : σ → ι → σ × List ο)

@[simp] theorem after_nil (s : σ) : after step s [] = s := rfl
@[simp] theorem after_cons (s : σ) (i : ι) (is : List ι) :
    after step s (i :: is) = after step (step s i).1 is := rfl
@[simp] theorem outputs_nil (s : σ) : outputs step s [] = [] := rfl
@[simp] theorem outputs_cons (s : σ) (i : ι) (is : List ι) :
    outputs step s (i :: is) = (step s i).2 ++ outputs step (step s i).1 is := rfl

theorem after_append (s : σ) (is js : List ι) :
    after step s (is ++ js) = after step (after step s is) js := by
  induction is generalizing s with
  | nil => rfl
  | cons i is ih => exact ih _

theorem outputs_append (s : σ) (is js : List ι) :
    outputs step s (is ++ js) = outputs step s is ++ outputs step (after step s is) js := by
  induction is generalizing s with
  | nil => rfl
  | cons i is ih => simp [ih]

/-- What every step preserves holds after every run. -/
theorem after_invariant {I : σ → Prop} (hstep : ∀ s i, I s → I (step s i).1) {s : σ} (hs : I s)
    (is : List ι) : I (after step s is) := by
  induction is generalizing s with
  | nil => exact hs
  | cons i is ih => exact ih (hstep s i hs)

/-- Outputs and conditions. Where a step's outputs are good exactly if it is
allowed in its state, and an allowed step keeps the invariant, the outputs of
a run are good exactly if each of its steps is allowed in the state it is
taken in. -/
theorem outputs_forall_iff {I : σ → Prop} {P : ο → Prop} {ok : σ → ι → Prop}
    (hout : ∀ s i, I s → ((∀ o ∈ (step s i).2, P o) ↔ ok s i)) (hstep : ∀ s i, I s → ok s i → I (step s i).1)
    {s : σ} (hs : I s) (is : List ι) :
    (∀ o ∈ outputs step s is, P o) ↔
      ∀ before i later, is = before ++ i :: later → ok (after step s before) i := by
  induction is generalizing s with
  | nil => simp
  | cons i is ih =>
    rw [outputs_cons, List.forall_mem_append, hout s i hs]
    constructor
    · rintro ⟨hok, hrest⟩ before j later he
      cases before with
      | nil =>
        obtain ⟨rfl, -⟩ := List.cons.inj he
        exact hok
      | cons b before =>
        obtain ⟨rfl, htail⟩ := List.cons.inj he
        exact (ih (hstep s i hs hok)).1 hrest before j later htail
    · intro hall
      have hok : ok s i := hall [] i is rfl
      exact ⟨hok, (ih (hstep s i hs hok)).2 fun before j later he => hall (i :: before) j later (by rw [he]; rfl)⟩

/-- Simulation. Each step of the first transducer is matched by the second on
the inputs `g` makes of its input, and its outputs are those `f` makes of the
second's; so it is over whole runs. -/
theorem simulates {σ' ι' ο' : Type} (step' : σ' → ι' → σ' × List ο') (g : ι → List ι') (f : ο' → List ο)
    (Rel : σ → σ' → Prop) (ok : ι → Prop)
    (hstep : ∀ s s' i, ok i → Rel s s' → Rel (step s i).1 (after step' s' (g i)) ∧
      (step s i).2 = (outputs step' s' (g i)).flatMap f)
    {s : σ} {s' : σ'} (h : Rel s s') {is : List ι} (his : ∀ i ∈ is, ok i) :
    Rel (after step s is) (after step' s' (is.flatMap g)) ∧
      outputs step s is = (outputs step' s' (is.flatMap g)).flatMap f := by
  induction is generalizing s s' with
  | nil => exact ⟨h, rfl⟩
  | cons i is ih =>
    obtain ⟨hrel, hout⟩ := hstep s s' i (his i (by simp)) h
    obtain ⟨hrel', hout'⟩ := ih hrel fun j hj => his j (by simp [hj])
    rw [List.flatMap_cons, after_append, outputs_append, List.flatMap_append]
    exact ⟨hrel', by rw [outputs_cons, hout, hout']⟩

end Transducer
