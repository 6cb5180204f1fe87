import TouchMouse.HidApi.Delivery

/-!
# Who wakes a reader

A reader that sleeps is woken by a report or by the end of the read thread.
The Mac signals each report, so no reader sleeps on while a report waits that
nobody was woken for, however many readers there are. Linux signals only a
report that finds the list empty: that is enough for one reader, and not for
two. Where the thread ends, the Mac has always set a flag, so nobody sleeps on;
on Linux it may end without one.
-/

namespace TouchMouse
open Labelled

variable {ι : Type} [DecidableEq ι] {b : Backend}

theorem not_asleep_rouse (reader : HidReader) : ¬ (reader.rouse).Asleep := by
  cases reader <;> exact id

/-- A reader with a signal that it has not yet acted on. -/
def HidReader.Signalled : HidReader → Prop
  | .roused _ .ok => True
  | _ => False

instance : DecidablePred HidReader.Signalled := fun reader => by
  rcases reader with _ | _ | ⟨_, _ | _ | _⟩ <;> unfold HidReader.Signalled <;> infer_instance

/-- No reader sleeps while a report waits that nobody was woken for: where no
flag is set and each signal has been acted on, a sleeper has nothing to read. -/
def SleepersMissNothing (b : Backend) (ι : Type) [DecidableEq ι] : Prop :=
  ∀ (labels : List (HidLabel ι)) (s : System ι), Run (HidStep b) .opened labels s → b.stopped s.dev = false →
    (∀ i, ¬ (s.readers i).Signalled) → ∀ i, (s.readers i).Asleep → s.dev.inputReports = []

/-! ## One reader -/

/-- With one reader, it sleeps only with nothing to read. -/
def LoneSleeper (s : System ι) : Prop := ∀ i, (s.readers i).Asleep → s.dev.inputReports = []

theorem loneSleeper_step [Subsingleton ι] (hb : b.Lawful) {s s' : System ι} {a : HidLabel ι} (h : LoneSleeper s)
    (moves : HidStep b s a s') : LoneSleeper s' := by
  have hothers : ∀ {i j : ι} {reader : HidReader}, ¬ reader.Asleep →
      ¬ (Function.update s.readers i reader j).Asleep := by
    intro i j reader hreader
    rw [Subsingleton.elim j i, Function.update_self]
    exact hreader
  intro i hi
  cases moves with
  | @received rpt inputReports displaced readers _ attached signal =>
    by_cases hempty : s.dev.inputReports = []
    · rw [hempty, hb.signals, if_pos rfl] at signal
      exact absurd hi (signal.not_asleep not_asleep_rouse i)
    · -- nobody slept, and a signal puts nobody to sleep
      have hslept : (s.readers i).Asleep := by
        split at signal
        · exact (signal.asleep_of not_asleep_rouse hi).1
        · exact signal ▸ hi
      exact absurd (h i hslept) hempty
  | flagged flag =>
    rw [(hb.flag _ _ flag).1]
    exact h i hi
  | ended => exact absurd hi (Threads.broadcast_not_asleep not_asleep_rouse i)
  | wakes => exact absurd hi (hothers id)
  | waits turn =>
    cases turn.does hb with
    | waits empty => exact empty
  | returnedData => exact absurd hi (hothers id)
  | returned => exact absurd hi (hothers id)

theorem sleepersMissNothing_of_subsingleton [Subsingleton ι] (hb : b.Lawful) : SleepersMissNothing b ι := by
  intro labels s hrun _ _ i hi
  have hlone : LoneSleeper s :=
    hrun.invariant_state (fun i hi => by cases hi) fun _ _ _ h moves => loneSleeper_step hb h moves
  exact hlone i hi

/-! ## Many readers -/

/-- A reader that leaves its sleep or its wait for something else was the only
one to change. -/
theorem asleep_update {readers : ι → HidReader} {i : ι} {reader : HidReader} (hreader : ¬ reader.Asleep)
    (h : ∃ j, (Function.update readers i reader j).Asleep) : ∃ j, (readers j).Asleep := by
  obtain ⟨j, hj⟩ := h
  have hji : j ≠ i := by
    rintro rfl
    rw [Function.update_self] at hj
    exact hreader hj
  rw [Function.update_of_ne hji] at hj
  exact ⟨j, hj⟩

/-- A blocking read of the library. -/
def blockingRead : HidRead := ⟨255, -1⟩

/-- Two readers in some local states, and all others idle. -/
def pair (i j : ι) (reader reader' : HidReader) : ι → HidReader :=
  Function.update (Function.update (fun _ => HidReader.idle) i reader) j reader'

section Pair

variable {i j : ι} (hij : i ≠ j) (reader reader' : HidReader)
include hij

theorem pair_fst : pair i j reader reader' i = reader := by
  rw [pair, Function.update_of_ne hij, Function.update_self]

omit hij in
theorem pair_snd : pair i j reader reader' j = reader' := Function.update_self ..

theorem update_pair_fst (next : HidReader) :
    Function.update (pair i j reader reader') i next = pair i j next reader' := by
  rw [pair, Function.update_comm hij.symm, Function.update_idem]
  rfl

omit hij in
theorem update_pair_snd (next : HidReader) :
    Function.update (pair i j reader reader') j next = pair i j reader next := Function.update_idem ..

omit hij in
theorem pair_idle : pair i j .idle .idle = fun _ : ι => HidReader.idle := by
  rw [pair, Function.update_eq_self]
  exact Function.update_eq_self j _

omit hij in
theorem pair_other {k : ι} (hi : k ≠ i) (hj : k ≠ j) : pair i j reader reader' k = .idle := by
  rw [pair, Function.update_of_ne hj, Function.update_of_ne hi]

end Pair

/-- A device that no flag is set for, with two readers. -/
def going (i j : ι) (inputReports : List Report) (reader reader' : HidReader) : System ι :=
  ⟨⟨inputReports, false, false, true⟩, none, pair i j reader reader'⟩

/-- Two readers sleep, and two reports come: the second is not signalled, and
when the first reader has taken the first report the other one sleeps on. -/
theorem linux_two_readers {i j : ι} (hij : i ≠ j) (r r' : Report) :
    ∃ labels, Run (HidStep Linux.backend) .opened labels (going i j [r'] .idle (.asleep blockingRead)) := by
  have hstart : (.opened : System ι) = going i j [] .idle .idle := by
    rw [going, pair_idle]
    rfl
  have hi : HidStep Linux.backend (going i j [] .idle .idle) (.waits i blockingRead)
      (going i j [] (.asleep blockingRead) .idle) := by
    have turn : Turn Linux.backend (going i j [] .idle .idle) i blockingRead .waits := .enter (pair_fst hij _ _)
    have h := HidStep.waits turn
    rwa [going, update_pair_fst hij] at h
  have hj : HidStep Linux.backend (going i j [] (.asleep blockingRead) .idle) (.waits j blockingRead)
      (going i j [] (.asleep blockingRead) (.asleep blockingRead)) := by
    have turn : Turn Linux.backend (going i j [] (.asleep blockingRead) .idle) j blockingRead .waits :=
      .enter (pair_snd _ _)
    have h := HidStep.waits turn
    rwa [going, update_pair_snd] at h
  have hfirst : HidStep Linux.backend (going i j [] (.asleep blockingRead) (.asleep blockingRead)) (.received r none)
      (going i j [r] (.roused blockingRead .ok) (.asleep blockingRead)) := by
    refine .received rfl rfl ?_
    show Threads.Signal _ _ (pair i j (.asleep blockingRead) (.asleep blockingRead)) _
    have hsignalled : pair i j (.roused blockingRead .ok) (.asleep blockingRead) i =
        (pair i j (.asleep blockingRead) (.asleep blockingRead) i).rouse := by
      rw [pair_fst hij, pair_fst hij]
      rfl
    have hslept : (pair i j (.asleep blockingRead) (.asleep blockingRead) i).Asleep := by
      rw [pair_fst hij]
      trivial
    refine ⟨fun k => ?_, fun _ => ⟨i, hslept, hsignalled⟩⟩
    by_cases hk : k = i
    · rw [hk]
      exact .inr ⟨hslept, hsignalled⟩
    · left
      by_cases hkj : k = j
      · rw [hkj]
        exact (pair_snd _ _).trans (pair_snd _ _).symm
      · exact (pair_other _ _ hk hkj).trans (pair_other _ _ hk hkj).symm
  have hsecond : HidStep Linux.backend (going i j [r] (.roused blockingRead .ok) (.asleep blockingRead))
      (.received r' none) (going i j [r, r'] (.roused blockingRead .ok) (.asleep blockingRead)) := .received rfl rfl rfl
  have htaken : ∃ a, HidStep Linux.backend (going i j [r, r'] (.roused blockingRead .ok) (.asleep blockingRead)) a
      (going i j [r'] .idle (.asleep blockingRead)) := by
    have turn : Turn Linux.backend (going i j [r, r'] (.roused blockingRead .ok) (.asleep blockingRead)) i blockingRead
        (Linux.resume (going i j [r, r'] (.roused blockingRead .ok) (.asleep blockingRead)).dev blockingRead .ok) :=
      .resume (pair_fst hij _ _)
    have h := HidStep.returnedData turn
    rw [going, update_pair_fst hij] at h
    exact ⟨_, h⟩
  obtain ⟨a, htaken⟩ := htaken
  rw [hstart]
  exact ⟨_, .cons hi (.cons hj (.cons hfirst (.cons hsecond (.single htaken))))⟩

/-- **Linux** misses no wake-up exactly where there is one reader at most. -/
theorem linux_sleepers_miss_nothing_iff : SleepersMissNothing Linux.backend ι ↔ Subsingleton ι := by
  constructor
  · intro h
    by_contra hmany
    rw [not_subsingleton_iff_nontrivial] at hmany
    obtain ⟨i, j, hij⟩ := hmany
    obtain ⟨labels, hrun⟩ := linux_two_readers hij [1] [2]
    have hacted : ∀ k, ¬ (pair i j .idle (.asleep blockingRead) k).Signalled := by
      intro k
      by_cases hj : k = j
      · rw [hj, pair_snd]
        exact id
      · by_cases hi : k = i
        · rw [hi, pair_fst hij]
          exact id
        · rw [pair_other _ _ hi hj]
          exact id
    have hsleeps : (pair i j .idle (.asleep blockingRead) j).Asleep := by
      rw [pair_snd]
      trivial
    exact absurd (h labels _ hrun rfl hacted j hsleeps) (List.cons_ne_nil _ _)
  · intro _
    exact sleepersMissNothing_of_subsingleton linux_lawful

/-! ## The end of the read thread -/

/-- Where the thread has woken its last, nobody sleeps. -/
def SleepersWokenAtEnd (b : Backend) (ι : Type) [DecidableEq ι] : Prop :=
  ∀ (labels : List (HidLabel ι)) (s : System ι), Run (HidStep b) .opened labels s → s.ended.isSome = true →
    ∀ i, ¬ (s.readers i).Asleep

/-- A thread that ended with a flag set woke everybody for good. -/
def Woken (b : Backend) (s : System ι) : Prop :=
  s.ended = some true → b.stopped s.dev = true ∧ ∀ i, ¬ (s.readers i).Asleep

theorem woken_step (hb : b.Lawful) {s s' : System ι} {a : HidLabel ι} (h : Woken b s) (moves : HidStep b s a s') :
    Woken b s' := by
  have hupdate : ∀ (i : ι) (reader : HidReader), ¬ reader.Asleep → (∀ j, ¬ (s.readers j).Asleep) →
      ∀ j, ¬ (Function.update s.readers i reader j).Asleep := by
    intro i reader hreader hnone j hj
    obtain ⟨k, hk⟩ := asleep_update hreader ⟨j, hj⟩
    exact hnone k hk
  intro hended
  cases moves with
  | @received rpt inputReports displaced readers _ _ signal =>
    obtain ⟨hstopped, hnone⟩ := h hended
    refine ⟨(hb.stopped s.dev inputReports).trans hstopped, fun i hi => ?_⟩
    split at signal
    · exact hnone i (signal.asleep_of not_asleep_rouse hi).1
    · exact hnone i (signal ▸ hi)
  | flagged flag =>
    obtain ⟨hstopped, hnone⟩ := h hended
    exact ⟨(hb.flag _ _ flag).2 hstopped, hnone⟩
  | ended =>
    exact ⟨Option.some.inj hended, Threads.broadcast_not_asleep not_asleep_rouse⟩
  | wakes =>
    obtain ⟨hstopped, hnone⟩ := h hended
    exact ⟨hstopped, hupdate _ _ id hnone⟩
  | waits turn =>
    -- a reader that finds the flag set does not wait
    cases turn.does hb with
    | waits _ going => rw [(h hended).1] at going; cases going
  | returnedData turn =>
    obtain ⟨hstopped, hnone⟩ := h hended
    cases turn.does hb with
    | @takes rpt next _ => exact ⟨(hb.stopped s.dev next).trans hstopped, hupdate _ _ id hnone⟩
  | returned =>
    obtain ⟨hstopped, hnone⟩ := h hended
    exact ⟨hstopped, hupdate _ _ id hnone⟩

theorem run_woken (hb : b.Lawful) {labels : List (HidLabel ι)} {s : System ι} (h : Run (HidStep b) .opened labels s) :
    Woken b s :=
  h.invariant_state (fun hended => by cases hended) fun _ _ _ hwoken moves => woken_step hb hwoken moves

/-- The Mac thread ends with a flag set. -/
theorem mac_ended_flagged {labels : List (HidLabel ι)} {s : System ι} (h : Run (HidStep Mac.backend) .opened labels s) :
    s.ended ≠ some false := by
  refine h.invariant_state (I := fun s => s.ended ≠ some false) (fun hended => by cases hended) ?_
  intro s a s' hs moves
  cases moves with
  | ended _ leaves =>
    intro hended
    exact mac_stopped_eq_false.1 (Option.some.inj hended) leaves
  | _ => exact hs

/-- A Linux thread whose `libusb_handle_events` fails ends without a flag, and
a reader that comes then sleeps. -/
theorem linux_sleeps_after_end (i : ι) :
    ∃ labels, Run (HidStep Linux.backend) .opened labels
      (⟨⟨[], false, false, true⟩, some false, Function.update (fun _ => .idle) i (.asleep blockingRead)⟩ : System ι) := by
  have hended : HidStep Linux.backend (.opened : System ι) .ended
      ⟨⟨[], false, false, true⟩, some false, fun _ => .idle⟩ := .ended rfl trivial
  have hwaits : HidStep Linux.backend (⟨⟨[], false, false, true⟩, some false, fun _ => .idle⟩ : System ι)
      (.waits i blockingRead)
      ⟨⟨[], false, false, true⟩, some false, Function.update (fun _ => .idle) i (.asleep blockingRead)⟩ :=
    .waits (.enter rfl)
  exact ⟨_, .cons hended (.single hwaits)⟩

/-- **The end of the thread.** A thread that ends with a flag set leaves
nobody asleep, then or later. The Mac thread always does; the Linux thread
does not, whatever the readers. -/
theorem readers_woken_at_end :
    (∀ b, b = Linux.backend ∨ b = Mac.backend → ∀ (labels : List (HidLabel ι)) (s : System ι),
      Run (HidStep b) .opened labels s → s.ended = some true → ∀ i, ¬ (s.readers i).Asleep) ∧
      SleepersWokenAtEnd Mac.backend ι ∧ (SleepersWokenAtEnd Linux.backend ι ↔ IsEmpty ι) := by
  refine ⟨fun b hb labels s hrun hended => (run_woken (lawful_of hb) hrun hended).2, ?_, ?_, ?_⟩
  · intro labels s hrun hended
    obtain ⟨flagged, hflagged⟩ := Option.isSome_iff_exists.1 hended
    cases flagged with
    | true => exact (run_woken mac_lawful hrun hflagged).2
    | false => exact absurd hflagged (mac_ended_flagged hrun)
  · intro h
    refine ⟨fun i => ?_⟩
    obtain ⟨labels, hrun⟩ := linux_sleeps_after_end i
    refine h labels _ hrun rfl i ?_
    dsimp only
    rw [Function.update_self]
    trivial
  · intro hempty labels s _ _ i
    exact hempty.elim i

end TouchMouse
