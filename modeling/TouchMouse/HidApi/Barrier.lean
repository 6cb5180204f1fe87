import TouchMouse.Model.Barrier

/-!
# What the barrier keeps together

Where waits return only when they are signalled, no thread returns from the
barrier for the k-th time before all have come to it k times, and threads that
have come equally often are not asleep. A wait that returns by itself breaks
this at once: its thread can go on before the last one comes.
-/

namespace TouchMouse.Mac
open Labelled

variable {ι : Type} [DecidableEq ι]

/-! ## What a run shows of a thread -/

def BarrierLabel.enters (i : ι) : BarrierLabel ι → Bool
  | .waits j | .trips j => j = i
  | .returns _ | .spurious _ => false

def BarrierLabel.leaves (i : ι) : BarrierLabel ι → Bool
  | .trips j | .returns j => j = i
  | .waits _ | .spurious _ => false

/-- How often a thread came to the barrier, and how often it returned. -/
def entered (i : ι) (labels : List (BarrierLabel ι)) : Nat := labels.countP (·.enters i)
def returned (i : ι) (labels : List (BarrierLabel ι)) : Nat := labels.countP (·.leaves i)

theorem entered_snoc (i : ι) (labels : List (BarrierLabel ι)) (a : BarrierLabel ι) :
    entered i (labels ++ [a]) = entered i labels + if a.enters i then 1 else 0 := by
  rw [entered, List.countP_append, List.countP_singleton]
  rfl

theorem returned_snoc (i : ι) (labels : List (BarrierLabel ι)) (a : BarrierLabel ι) :
    returned i (labels ++ [a]) = returned i labels + if a.leaves i then 1 else 0 := by
  rw [returned, List.countP_append, List.countP_singleton]
  rfl

/-- No thread has returned more often than any thread came. -/
def InStep (labels : List (BarrierLabel ι)) : Prop := ∀ i j, returned i labels ≤ entered j labels

/-- Waits return only when they are signalled. -/
def Signalled (labels : List (BarrierLabel ι)) : Prop := ∀ i, .spurious i ∉ labels

/-! ## The rounds -/

/-- Where a thread is in a round: it came to it and sleeps, or it came to the
one before and has returned, or is about to. -/
def InRound (round : Nat) : BarrierThread → (entered returned : Nat) → Prop
  | .outside, entered, returned => entered = round ∧ returned = round
  | .asleep, entered, returned => entered = round + 1 ∧ returned = round
  | .roused, entered, returned => entered = round ∧ returned + 1 = round

variable [Fintype ι]

/-- The threads are in one round, and those that came to it are counted. -/
structure Round (tripCount : Nat) (labels : List (BarrierLabel ι)) (s : Barrier ι) (round : Nat) : Prop where
  threads : ∀ i, InRound round (s.threads i) (entered i labels) (returned i labels)
  counted : s.count = Threads.count (· = BarrierThread.asleep) s.threads
  early : s.count < tripCount

variable {tripCount : Nat} {labels : List (BarrierLabel ι)} {s : Barrier ι} {round : Nat}

theorem init_round (htrip : 0 < tripCount) : Round tripCount [] (.init ι) 0 where
  threads _ := ⟨rfl, rfl⟩
  counted := (Threads.count_eq_zero fun _ => nofun).symm
  early := htrip

/-- In a round nobody has returned before all came. -/
theorem Round.inStep (h : Round tripCount labels s round) : InStep labels := by
  intro i j
  have hi : returned i labels ≤ round := by
    have hthread := h.threads i
    cases hs : s.threads i <;> rw [hs] at hthread <;> simp only [InRound] at hthread <;> omega
  have hj : round ≤ entered j labels := by
    have hthread := h.threads j
    cases hs : s.threads j <;> rw [hs] at hthread <;> simp only [InRound] at hthread <;> omega
  omega

/-- Threads that came equally often are not asleep. -/
theorem Round.not_asleep (htrip : tripCount = Fintype.card ι) (h : Round tripCount labels s round)
    (hequal : ∀ i j, entered i labels = entered j labels) (i : ι) : s.threads i ≠ .asleep := by
  intro hi
  have hearly := h.early
  rw [h.counted, htrip] at hearly
  obtain ⟨j, hj⟩ := Threads.exists_not_of_count_lt hearly
  have hthread := h.threads i
  have hthread' := h.threads j
  rw [hi] at hthread
  have hcame := hequal i j
  cases hs : s.threads j with
  | asleep => exact hj hs
  | outside | roused =>
    rw [hs] at hthread'
    simp only [InRound] at hthread hthread'
    omega

/-- A step that changes one thread. -/
theorem Round.update (h : Round tripCount labels s round) {a : BarrierLabel ι} {i : ι} (x : BarrierThread)
    (hentered : ∀ j ≠ i, a.enters j = false) (hleaves : ∀ j ≠ i, a.leaves j = false)
    (hi : InRound round x (entered i (labels ++ [a])) (returned i (labels ++ [a]))) (j : ι) :
    InRound round (Function.update s.threads i x j) (entered j (labels ++ [a])) (returned j (labels ++ [a])) := by
  by_cases hji : j = i
  · subst hji
    rw [Function.update_self]
    exact hi
  · rw [Function.update_of_ne hji, entered_snoc, returned_snoc, hentered j hji, hleaves j hji]
    exact h.threads j

theorem round_step (htrip : tripCount = Fintype.card ι) (h : Round tripCount labels s round) {a : BarrierLabel ι}
    {s' : Barrier ι} (moves : BarrierStep tripCount s a s') (hsignalled : ∀ i, a ≠ .spurious i) :
    ∃ round', Round tripCount (labels ++ [a]) s' round' := by
  cases moves with
  | @waits i outside early =>
    have hawake : ¬ s.threads i = .asleep := by rw [outside]; nofun
    have hthread := h.threads i
    rw [outside] at hthread
    refine ⟨round, h.update .asleep (by simp [BarrierLabel.enters, eq_comm]) (fun _ _ => rfl) ?_, ?_, early⟩
    · rw [entered_snoc, returned_snoc]
      simp only [BarrierLabel.enters, BarrierLabel.leaves, decide_true, if_true]
      exact ⟨congrArg (· + 1) hthread.1, hthread.2⟩
    · rw [Threads.count_update i _ hawake, if_pos rfl, h.counted]
  | @trips i outside last =>
    have hawake : ¬ s.threads i = .asleep := by rw [outside]; nofun
    rw [h.counted, htrip] at last
    have hothers : ∀ j ≠ i, s.threads j = .asleep := fun j hj => Threads.all_of_count hawake last hj
    refine ⟨round + 1, ⟨fun j => ?_, ?_, ?_⟩⟩
    · have hthread := h.threads j
      rw [entered_snoc, returned_snoc]
      show InRound (round + 1) (if s.threads j = .asleep then .roused else s.threads j) _ _
      by_cases hji : j = i
      · subst hji
        rw [outside] at hthread
        rw [if_neg hawake, outside]
        simp only [BarrierLabel.enters, BarrierLabel.leaves, decide_true, if_true]
        exact ⟨congrArg (· + 1) hthread.1, congrArg (· + 1) hthread.2⟩
      · rw [hothers j hji] at hthread
        rw [if_pos (hothers j hji)]
        simp only [BarrierLabel.enters, BarrierLabel.leaves, Ne.symm hji, decide_false, Bool.false_eq_true, if_false,
          Nat.add_zero]
        exact ⟨hthread.1, congrArg (· + 1) hthread.2⟩
    · refine (Threads.count_eq_zero ?_).symm
      have hroused : ∀ x : BarrierThread, ¬ BarrierThread.roused = .asleep := fun _ => nofun
      exact @Threads.broadcast_not_asleep ι BarrierThread (· = .asleep) (fun _ => .roused) s.threads _ hroused
    · exact Nat.lt_of_le_of_lt (Nat.zero_le _) h.early
  | @returns i roused =>
    have hawake : ¬ s.threads i = .asleep := by rw [roused]; nofun
    have hthread := h.threads i
    rw [roused] at hthread
    refine ⟨round, h.update .outside (fun _ _ => rfl) (by simp [BarrierLabel.leaves, eq_comm]) ?_, ?_, h.early⟩
    · rw [entered_snoc, returned_snoc]
      simp only [BarrierLabel.enters, BarrierLabel.leaves, decide_true, if_true]
      exact hthread
    · rw [Threads.count_update i _ hawake, if_neg (by nofun), Nat.add_zero]
      exact h.counted
  | @spurious i _ => exact absurd rfl (hsignalled i)

theorem run_round (htrip : tripCount = Fintype.card ι) (hpos : 0 < tripCount)
    (h : Run (BarrierStep tripCount) (.init ι) labels s) (hsignalled : Signalled labels) :
    ∃ round, Round tripCount labels s round := by
  refine h.invariant (I := fun labels s => Signalled labels → ∃ round, Round tripCount labels s round)
    (fun _ => ⟨0, init_round hpos⟩) ?_ hsignalled
  intro labels s a s' ih moves hsignalled
  obtain ⟨round, hround⟩ := ih fun i hmem => hsignalled i (List.mem_append_left _ hmem)
  refine round_step htrip hround moves ?_
  rintro i rfl
  exact hsignalled i (List.mem_append_right _ (List.mem_singleton_self _))

/-- A thread that a wait let go can return before the last one comes. -/
theorem Round.spurious_breaks (htrip : tripCount = Fintype.card ι) (h : Round tripCount labels s round) {i : ι}
    {s' : Barrier ι} (moves : BarrierStep tripCount s (.spurious i) s') :
    ∃ s'', BarrierStep tripCount s' (.returns i) s'' ∧ ¬ InStep (labels ++ [.spurious i] ++ [.returns i]) := by
  cases moves with
  | spurious asleep =>
    refine ⟨_, .returns (Function.update_self i _ _), fun hinStep => ?_⟩
    have hearly := h.early
    rw [h.counted, htrip] at hearly
    obtain ⟨j, hj⟩ := Threads.exists_not_of_count_lt hearly
    have hthread := h.threads i
    have hthread' := h.threads j
    have hlate := hinStep i j
    rw [asleep] at hthread
    rw [returned_snoc, returned_snoc, entered_snoc, entered_snoc] at hlate
    simp only [BarrierLabel.leaves, BarrierLabel.enters, decide_true, if_true, Bool.false_eq_true, if_false] at hlate
    cases hs : s.threads j with
    | asleep => exact hj hs
    | outside | roused =>
      rw [hs] at hthread'
      simp only [InRound] at hthread hthread'
      omega

omit [DecidableEq ι] [Fintype ι] in
/-- The first wait of a run that returns by itself. -/
theorem first_spurious (hnot : ¬ Signalled labels) :
    ∃ before i after, labels = before ++ [.spurious i] ++ after ∧ Signalled before := by
  induction labels using List.reverseRecOn with
  | nil => exact absurd (fun _ => List.not_mem_nil) hnot
  | append_singleton labels a ih =>
    by_cases hsignalled : Signalled labels
    · rw [Signalled, not_forall_not] at hnot
      obtain ⟨i, hmem⟩ := hnot
      rcases List.mem_append.1 hmem with hmem | hmem
      · exact absurd hmem (hsignalled i)
      · exact ⟨labels, i, [], by rw [List.mem_singleton.1 hmem, List.append_nil], hsignalled⟩
    · obtain ⟨before, i, after, hlabels, hbefore⟩ := ih hsignalled
      exact ⟨before, i, after ++ [a], by rw [hlabels, List.append_assoc], hbefore⟩

/-- **The barrier keeps its threads in step**, along a run and with whatever
step may come next, exactly if waits return only when they are signalled;
then threads that came equally often are not asleep. -/
theorem barrier_in_step_iff (htrip : tripCount = Fintype.card ι) (hpos : 0 < tripCount)
    (h : Run (BarrierStep tripCount) (.init ι) labels s) :
    ((∀ before after, labels = before ++ after → ∀ mid a s', Run (BarrierStep tripCount) (.init ι) before mid →
        BarrierStep tripCount mid a s' → InStep (before ++ [a])) ↔ Signalled labels) ∧
      (Signalled labels → (∀ i j, entered i labels = entered j labels) → ∀ i, s.threads i ≠ .asleep) := by
  refine ⟨⟨fun hinStep => ?_, fun hsignalled => ?_⟩, fun hsignalled hequal i => ?_⟩
  · by_contra hnot
    obtain ⟨before, i, after, rfl, hbefore⟩ := first_spurious hnot
    obtain ⟨mid, hmid, -⟩ := h.split
    have hmid' := hmid
    obtain ⟨mid', hrun, hone⟩ := hmid.split
    obtain ⟨s', moves, hnil⟩ := hone.head
    obtain ⟨round, hround⟩ := run_round htrip hpos hrun hbefore
    obtain ⟨s'', moves', hbreaks⟩ := hround.spurious_breaks htrip moves
    exact hbreaks (hinStep (before ++ [.spurious i]) after rfl s' _ s'' (hrun.next moves) moves')
  · rintro before after rfl mid a s' hrun moves
    obtain ⟨round, hround⟩ := run_round htrip hpos hrun fun i hmem => hsignalled i (List.mem_append_left _ hmem)
    by_cases hspurious : ∃ i, a = .spurious i
    · -- nobody has returned yet
      obtain ⟨k, rfl⟩ := hspurious
      intro i j
      rw [returned_snoc, entered_snoc]
      exact hround.inStep i j
    · obtain ⟨round', hround'⟩ := round_step htrip hround moves fun i heq => hspurious ⟨i, heq⟩
      exact hround'.inStep
  · obtain ⟨round, hround⟩ := run_round htrip hpos h hsignalled
    exact hround.not_asleep htrip hequal i

/-- The barrier of a device: `hid_open_path` comes to it, and `read_thread`. -/
theorem barrier_in_step_iff_two :
    let labels : List (BarrierLabel Bool) := [.waits false, .trips true, .returns false]
    (∀ before after, labels = before ++ after → ∀ mid a s', Run (BarrierStep 2) (.init Bool) before mid →
      BarrierStep 2 mid a s' → InStep (before ++ [a])) ↔ Signalled labels := by
  intro labels
  have hrun : ∃ s, Run (BarrierStep 2) (.init Bool) labels s :=
    ⟨_, .cons (.waits rfl (by decide)) (.cons (.trips rfl (by decide)) (.single (.returns rfl)))⟩
  obtain ⟨s, hrun⟩ := hrun
  exact (barrier_in_step_iff (by decide) (by decide) hrun).1

end TouchMouse.Mac
