import TouchMouse.Stream.Reader
import TouchMouse.Stream.Transducer
import Mathlib.Data.List.TakeWhile

/-!
# Reassembly of keyed packets

Packets carry a key and a piece of data. Consecutive packets with one key are
collected into a block, and the block's whole data is read from its start each
time it grows: nothing is decoded incrementally here, so this is what an
incremental reassembler has to agree with. A full or a bad reading empties the
block; a packet with another key starts a new one.

* `frames_segments`: the blocks that gave frames are disjoint contiguous
  stretches of the packets, in order, each of one key.
* `contained_iff`: after a bad reading no frame comes out of the rest of that
  key's stretch exactly when no such rest reads as a frame by itself.
* `after_group_more`, `after_group_full`: what a whole group of packets with
  one key does, whatever came before it.
-/

/-- Contiguous stretches of a list, disjoint and in order. -/
inductive Segments {α : Type} : List α → List (List α) → Prop where
  | nil (l : List α) : Segments l []
  | cons (skipped block : List α) {l : List α} {bs : List (List α)} (h : Segments l bs) :
      Segments (skipped ++ block ++ l) (block :: bs)

theorem Segments.skip {α : Type} {l : List α} {bs : List (List α)} (skipped : List α) (h : Segments l bs) :
    Segments (skipped ++ l) bs := by
  cases h with
  | nil => exact .nil _
  | cons s b h => simpa using Segments.cons (skipped ++ s) b h

namespace Reassembly
open Transducer

structure Packet (κ β : Type) where
  key : κ
  data : List β
  deriving DecidableEq

/-- What reading a block can give. -/
inductive Emission (κ β φ : Type) where
  | frame (block : List (Packet κ β)) (value : φ)
  | error (block : List (Packet κ β))
  deriving DecidableEq

variable {κ β φ : Type}

def data (block : List (Packet κ β)) : List β := block.flatMap Packet.data

@[simp] theorem data_nil : data ([] : List (Packet κ β)) = [] := rfl
@[simp] theorem data_cons (p : Packet κ β) (ps : List (Packet κ β)) : data (p :: ps) = p.data ++ data ps := rfl
@[simp] theorem data_append (ps qs : List (Packet κ β)) : data (ps ++ qs) = data ps ++ data qs :=
  List.flatMap_append

variable [DecidableEq κ] (R : Reader β φ)

/-- The block that a packet with key `k` joins. -/
def kept (block : List (Packet κ β)) (k : κ) : List (Packet κ β) :=
  if ∀ q ∈ block, q.key = k then block else []

/-- One packet: the block it joins is read again from its start. Each packet
is output with what its reading gave. -/
def step (block : List (Packet κ β)) (p : Packet κ β) :
    List (Packet κ β) × List (Packet κ β × Option (Emission κ β φ)) :=
  match R.verdict (data (kept block p.key ++ [p])) with
  | .more => (kept block p.key ++ [p], [(p, none)])
  | .full v => ([], [(p, some (.frame (kept block p.key ++ [p]) v))])
  | .bad => ([], [(p, some (.error (kept block p.key ++ [p])))])

/-- A block being collected: one key, and its data needs more. -/
structure Collecting (block : List (Packet κ β)) : Prop where
  key : ∀ q ∈ block, ∀ q' ∈ block, q.key = q'.key
  more : R.verdict (data block) = .more

omit [DecidableEq κ] in
theorem collecting_nil : Collecting (κ := κ) R [] := ⟨by simp, R.more_nil⟩

theorem kept_key {block : List (Packet κ β)} {k : κ} : ∀ q ∈ kept block k, q.key = k := by
  intro q hq
  unfold kept at hq
  split at hq
  · next h => exact h q hq
  · cases hq

theorem joined_key {block : List (Packet κ β)} {p : Packet κ β} :
    ∀ q ∈ kept block p.key ++ [p], q.key = p.key := by
  intro q hq
  rcases List.mem_append.1 hq with hq | hq
  · exact kept_key q hq
  · rw [List.mem_singleton.1 hq]

/-- What is kept is the whole block or nothing, so the block a packet joins
is a suffix of what was collected. -/
theorem kept_suffix (block : List (Packet κ β)) (k : κ) : ∃ skipped, skipped ++ kept block k = block := by
  unfold kept
  split
  · exact ⟨[], rfl⟩
  · exact ⟨block, by simp⟩

/-- Everything one packet can do. -/
theorem step_cases (block : List (Packet κ β)) (p : Packet κ β) :
    (R.verdict (data (kept block p.key ++ [p])) = .more ∧
      step R block p = (kept block p.key ++ [p], [(p, none)])) ∨
    (∃ v, R.verdict (data (kept block p.key ++ [p])) = .full v ∧
      step R block p = ([], [(p, some (.frame (kept block p.key ++ [p]) v))])) ∨
    (R.verdict (data (kept block p.key ++ [p])) = .bad ∧
      step R block p = ([], [(p, some (.error (kept block p.key ++ [p])))])) := by
  cases h : R.verdict (data (kept block p.key ++ [p])) with
  | more => exact .inl ⟨rfl, by simp only [step, h]⟩
  | full v => exact .inr (.inl ⟨v, rfl, by simp only [step, h]⟩)
  | bad => exact .inr (.inr ⟨rfl, by simp only [step, h]⟩)

theorem kept_more {block : List (Packet κ β)} (h : Collecting R block) (k : κ) :
    R.verdict (data (kept block k)) = .more := by
  unfold kept
  split
  · exact h.more
  · exact R.more_nil

/-- A step keeps a collecting block collecting. -/
theorem step_collecting (block : List (Packet κ β)) (p : Packet κ β) (_ : Collecting R block) :
    Collecting R (step R block p).1 := by
  rcases step_cases R block p with ⟨hm, hs⟩ | ⟨v, -, hs⟩ | ⟨-, hs⟩ <;> rw [hs]
  · exact ⟨fun q hq q' hq' => (joined_key q hq).trans (joined_key q' hq').symm, hm⟩
  · exact collecting_nil R
  · exact collecting_nil R

/-! ## Frames come from disjoint stretches, in order -/

/-- A frame, with its key and the block it was read from. -/
structure Frame (κ β φ : Type) where
  key : κ
  block : List (Packet κ β)
  value : φ

/-- The frame that an output shows. -/
def frame? : Packet κ β × Option (Emission κ β φ) → Option (Frame κ β φ)
  | (p, some (.frame b v)) => some ⟨p.key, b, v⟩
  | _ => none

omit [DecidableEq κ] in
@[simp] theorem frame?_none (p : Packet κ β) : frame? (φ := φ) (p, none) = none := rfl
omit [DecidableEq κ] in
@[simp] theorem frame?_frame (p : Packet κ β) (b : List (Packet κ β)) (v : φ) :
    frame? (p, some (.frame b v)) = some ⟨p.key, b, v⟩ := rfl
omit [DecidableEq κ] in
@[simp] theorem frame?_error (p : Packet κ β) (b : List (Packet κ β)) :
    frame? (φ := φ) (p, some (.error b)) = none := rfl

/-- The frames of a run. -/
def frames (block ps : List (Packet κ β)) : List (Frame κ β φ) := (outputs (step R) block ps).filterMap frame?

/-- The block of a frame has the frame's key throughout, and reads as the
frame for the first time at its last packet. -/
structure Frame.Exact (f : Frame κ β φ) : Prop where
  nonempty : f.block ≠ []
  key : ∀ q ∈ f.block, q.key = f.key
  full : R.verdict (data f.block) = .full f.value
  last : R.verdict (data f.block.dropLast) = .more

theorem frames_cons (block : List (Packet κ β)) (p : Packet κ β) (ps : List (Packet κ β)) :
    frames R block (p :: ps) = (step R block p).2.filterMap frame? ++ frames R (step R block p).1 ps := by
  simp [frames, List.filterMap_append]

/-- The blocks of the frames are stretches of what was already collected and
the packets to come. -/
theorem frames_segments (block ps : List (Packet κ β)) :
    Segments (block ++ ps) ((frames R block ps).map Frame.block) := by
  induction ps generalizing block with
  | nil => exact .nil _
  | cons p ps ih =>
    obtain ⟨skipped, hk⟩ := kept_suffix block p.key
    have hsplit : block ++ p :: ps = skipped ++ ((kept block p.key ++ [p]) ++ ps) := by
      conv_lhs => rw [← hk]
      simp
    rw [frames_cons, hsplit]
    rcases step_cases R block p with ⟨-, hs⟩ | ⟨v, -, hs⟩ | ⟨-, hs⟩
    · simpa [hs, List.filterMap_cons] using (ih (kept block p.key ++ [p])).skip skipped
    · simpa [hs, List.filterMap_cons] using Segments.cons skipped (kept block p.key ++ [p]) (ih [])
    · simpa [hs, List.filterMap_cons] using (ih []).skip (skipped ++ (kept block p.key ++ [p]))

theorem frames_exact {block : List (Packet κ β)} (h : Collecting R block) (ps : List (Packet κ β)) :
    ∀ f ∈ frames R block ps, f.Exact R := by
  induction ps generalizing block with
  | nil => intro f hf; cases hf
  | cons p ps ih =>
    intro f hf
    rw [frames_cons, List.mem_append] at hf
    rcases hf with hf | hf
    · rcases step_cases R block p with ⟨-, hs⟩ | ⟨v, hv, hs⟩ | ⟨-, hs⟩ <;>
        simp [hs] at hf
      subst f
      refine ⟨by simp, joined_key, hv, ?_⟩
      rw [List.dropLast_concat]
      exact kept_more R h p.key
    · exact ih (step_collecting R block p h) f hf

/-! ## Errors and the rest of their stretch -/

/-- After an error no frame comes out of the packets that follow with the
error's key. -/
def Contained (trace : List (Packet κ β × Option (Emission κ β φ))) : Prop :=
  ∀ pre p b post, trace = pre ++ (p, some (.error b)) :: post →
    ∀ q b' v, (q, some (.frame b' v)) ∉ post.takeWhile fun x => x.1.key = p.key

theorem step_output (block : List (Packet κ β)) (p : Packet κ β) : ∃ e, (step R block p).2 = [(p, e)] := by
  rcases step_cases R block p with ⟨-, hs⟩ | ⟨v, -, hs⟩ | ⟨-, hs⟩ <;> exact ⟨_, by rw [hs]⟩

theorem outputs_map_fst (block ps : List (Packet κ β)) : (outputs (step R) block ps).map Prod.fst = ps := by
  induction ps generalizing block with
  | nil => rfl
  | cons p ps ih =>
    obtain ⟨e, he⟩ := step_output R block p
    simp [he, ih]

theorem outputs_takeWhile (k : κ) (block ps : List (Packet κ β)) :
    (outputs (step R) block ps).takeWhile (fun x => x.1.key = k) =
      outputs (step R) block (ps.takeWhile fun q => q.key = k) := by
  induction ps generalizing block with
  | nil => rfl
  | cons p ps ih =>
    obtain ⟨e, he⟩ := step_output R block p
    by_cases hp : p.key = k <;> simp [he, hp, ih]

omit [DecidableEq κ] in
theorem takeWhile_dropWhile {α : Type} (P : α → Bool) (l : List α) : (l.dropWhile P).takeWhile P = [] := by
  induction l with
  | nil => rfl
  | cons x l ih => by_cases hx : P x <;> simp [hx, ih]

/-- What follows an error is a run from the empty block. -/
theorem outputs_after_error {block ps : List (Packet κ β)} {p : Packet κ β} {b : List (Packet κ β)}
    {pre post : List (Packet κ β × Option (Emission κ β φ))}
    (h : outputs (step R) block ps = pre ++ (p, some (.error b)) :: post) :
    post = outputs (step R) [] (post.map Prod.fst) := by
  induction pre generalizing block ps with
  | nil =>
    cases ps with
    | nil => cases h
    | cons q ps =>
      rcases step_cases R block q with ⟨-, hs⟩ | ⟨v, -, hs⟩ | ⟨-, hs⟩ <;>
        simp only [outputs_cons, hs, List.nil_append, List.cons_append, List.cons.injEq, Prod.mk.injEq,
          Option.some.injEq, reduceCtorEq, and_false, false_and] at h
      rw [← h.2, outputs_map_fst]
  | cons x pre ih =>
    cases ps with
    | nil => cases h
    | cons q ps =>
      obtain ⟨e, he⟩ := step_output R block q
      simp only [outputs_cons, he, List.cons_append, List.nil_append, List.cons.injEq] at h
      exact ih h.2

/-- A stretch of one key that reads as a frame gives one. -/
theorem exists_frame_of_full {block ps : List (Packet κ β)} {k : κ} {v : φ} (hb : ∀ q ∈ block, q.key = k)
    (hps : ∀ q ∈ ps, q.key = k) (hmore : R.verdict (data block) = .more)
    (hfull : R.verdict (data (block ++ ps)) = .full v) :
    ∃ q b v', (q, some (.frame b v')) ∈ outputs (step R) block ps := by
  induction ps generalizing block with
  | nil => rw [List.append_nil, hmore] at hfull; cases hfull
  | cons p ps ih =>
    have hp : p.key = k := hps p (by simp)
    have hk : kept block p.key = block := if_pos fun q hq => (hb q hq).trans hp.symm
    have hsplit : data (block ++ p :: ps) = data (block ++ [p]) ++ data ps := by simp
    rcases step_cases R block p with ⟨hm, hs⟩ | ⟨v', -, hs⟩ | ⟨hbad, -⟩
    · have hb' : ∀ q ∈ block ++ [p], q.key = k := fun q hq => (joined_key q (hk ▸ hq)).trans hp
      rw [hk] at hm
      obtain ⟨q, b, v', hmem⟩ := ih hb' (fun q hq => hps q (by simp [hq])) hm (by simpa using hfull)
      exact ⟨q, b, v', by simp [hs, hk, hmem]⟩
    · exact ⟨p, kept block p.key ++ [p], v', by simp [hs]⟩
    · rw [hk] at hbad
      rw [hsplit, R.stable _ _ (by rw [hbad]; exact nofun), hbad] at hfull
      cases hfull

/-- A frame out of a stretch of one key: the stretch reads as a frame from
its start, or from just after one of its errors. -/
theorem full_of_frame_mem {block ps : List (Packet κ β)} {k : κ} (hb : ∀ q ∈ block, q.key = k)
    (hps : ∀ q ∈ ps, q.key = k) {q : Packet κ β} {b' : List (Packet κ β)} {v' : φ}
    (hmem : (q, some (.frame b' v')) ∈ outputs (step R) block ps) :
    (∃ v, R.verdict (data (block ++ ps)) = .full v) ∨
    ∃ pre p b post, outputs (step R) block ps = pre ++ (p, some (.error b)) :: post ∧
      ∃ v, R.verdict (data (post.map Prod.fst)) = .full v := by
  induction ps generalizing block with
  | nil => cases hmem
  | cons p ps ih =>
    have hp : p.key = k := hps p (by simp)
    have hps' : ∀ q ∈ ps, q.key = k := fun q hq => hps q (by simp [hq])
    have hk : kept block p.key = block := if_pos fun q hq => (hb q hq).trans hp.symm
    have hsplit : data (block ++ p :: ps) = data (block ++ [p]) ++ data ps := by simp
    rcases step_cases R block p with ⟨-, hs⟩ | ⟨v, hfull, -⟩ | ⟨-, hs⟩
    · rw [hk] at hs
      have hb' : ∀ q ∈ block ++ [p], q.key = k := fun q hq => (joined_key q (hk.symm ▸ hq)).trans hp
      simp only [outputs_cons, hs, List.singleton_append, List.mem_cons, Prod.mk.injEq, reduceCtorEq, and_false,
        false_or] at hmem
      rcases ih hb' hps' hmem with ⟨v, hv⟩ | ⟨pre, p', b, post, hout, hv⟩
      · exact .inl ⟨v, by simpa using hv⟩
      · exact .inr ⟨(p, none) :: pre, p', b, post, by simp [hs, hout], hv⟩
    · rw [hk] at hfull
      exact .inl ⟨v, by rw [hsplit, R.stable _ _ (by rw [hfull]; exact nofun), hfull]⟩
    · simp only [outputs_cons, hs, List.singleton_append, List.mem_cons, Prod.mk.injEq, Option.some.injEq,
        reduceCtorEq, and_false, false_or] at hmem
      rcases ih (by simp) hps' hmem with ⟨v, hv⟩ | ⟨pre, p', b, post, hout, hv⟩
      · exact .inr ⟨[], p, kept block p.key ++ [p], outputs (step R) [] ps, by simp [hs], v,
          by simpa [outputs_map_fst] using hv⟩
      · exact .inr ⟨(p, some (.error (kept block p.key ++ [p]))) :: pre, p', b, post, by simp [hs, hout], hv⟩

/-- Errors are contained exactly when no rest of an error's key stretch reads
as a frame by itself. -/
theorem contained_iff (block ps : List (Packet κ β)) :
    Contained (outputs (step R) block ps) ↔
      ∀ pre p b post, outputs (step R) block ps = pre ++ (p, some (.error b)) :: post →
        ∀ v, R.verdict (data ((post.map Prod.fst).takeWhile fun q => q.key = p.key)) ≠ .full v := by
  constructor
  · intro hc pre p b post hout v hfull
    have hpost := outputs_after_error R hout
    obtain ⟨q, b', v', hmem⟩ := exists_frame_of_full R (k := p.key)
      (fun q (hq : q ∈ []) => absurd hq List.not_mem_nil)
      (fun q hq => by simpa using List.mem_takeWhile_imp hq) R.more_nil hfull
    apply hc pre p b post hout q b' v'
    rw [hpost, outputs_takeWhile]
    exact hmem
  · intro hall pre p b post hout q b' v' hmem
    have hpost := outputs_after_error R hout
    rw [hpost, outputs_takeWhile] at hmem
    rcases full_of_frame_mem R (k := p.key) (by simp) (fun q hq => by simpa using List.mem_takeWhile_imp hq) hmem
      with ⟨v, hv⟩ | ⟨pre', p', b'', post', hout', v, hv⟩
    · exact hall pre p b post hout v hv
    · -- the error inside the stretch has the same key, and its stretch is the rest of this one
      let P : Packet κ β × Option (Emission κ β φ) → Bool := fun x => x.1.key = p.key
      have hstretch : post.takeWhile P = pre' ++ (p', some (.error b'')) :: post' := by
        conv_lhs => rw [hpost]
        rw [outputs_takeWhile]
        exact hout'
      have hkey : ∀ x ∈ pre' ++ (p', some (.error b'')) :: post', x.1.key = p.key := by
        intro x hx
        rw [← hstretch] at hx
        simpa [P] using List.mem_takeWhile_imp hx
      have hp' : p'.key = p.key := hkey (p', some (.error b'')) (by simp)
      have hrest : (post.dropWhile P).takeWhile P = [] := takeWhile_dropWhile P post
      have hsplit : post = pre' ++ (p', some (.error b'')) :: (post' ++ post.dropWhile P) := by
        conv_lhs => rw [← List.takeWhile_append_dropWhile (p := P) (l := post), hstretch]
        simp
      refine hall (pre ++ (p, some (.error b)) :: pre') p' b'' (post' ++ post.dropWhile P) ?_ v ?_
      · rw [hout]
        conv_lhs => rw [hsplit]
        simp
      · have hpost' : ∀ x ∈ post', P x = true := fun x hx => by simpa [P] using hkey x (by simp [hx])
        rw [List.takeWhile_map, hp']
        show R.verdict (data (((post' ++ post.dropWhile P).takeWhile P).map Prod.fst)) = _
        rw [List.takeWhile_append_of_pos hpost', hrest, List.append_nil]
        exact hv

/-! ## Whole groups of packets with one key -/

/-- Nothing that is collected can mix with packets of the key `k`. -/
def Ready (k : κ) (block : List (Packet κ β)) : Prop := data (kept block k) = []

theorem ready_of_data_nil {block : List (Packet κ β)} (h : data block = []) (k : κ) : Ready k block := by
  unfold Ready kept
  split
  · exact h
  · rfl

theorem ready_of_mem {block : List (Packet κ β)} {k : κ} {q : Packet κ β} (hq : q ∈ block) (hne : q.key ≠ k) :
    Ready k block := by
  rw [Ready, kept, if_neg fun h => hne (h q hq)]
  rfl

/-- Packets of one key whose data leaves room are all collected. -/
theorem collect {k : κ} {block ps : List (Packet κ β)} (hps : ∀ q ∈ ps, q.key = k)
    (hmore : R.verdict (data (kept block k) ++ data ps) = .more) :
    outputs (step R) block ps = ps.map (·, none) ∧
      data (kept (after (step R) block ps) k) = data (kept block k) ++ data ps ∧
      (ps ≠ [] → ∃ q ∈ after (step R) block ps, q.key = k) := by
  induction ps generalizing block with
  | nil => simp
  | cons p ps ih =>
    have hp : p.key = k := hps p (by simp)
    have hsplit : data (kept block k) ++ data (p :: ps) = data (kept block k ++ [p]) ++ data ps := by simp
    have hkept : kept (kept block k ++ [p]) k = kept block k ++ [p] := if_pos (hp ▸ joined_key)
    rw [hsplit] at hmore
    have hs : step R block p = (kept block k ++ [p], [(p, none)]) := by
      rcases step_cases R block p with ⟨-, hs⟩ | ⟨v, hv, -⟩ | ⟨hv, -⟩
      · rw [hs, hp]
      · rw [hp, R.more_of_append hmore] at hv; cases hv
      · rw [hp, R.more_of_append hmore] at hv; cases hv
    obtain ⟨hout, hdata, hlast⟩ := @ih (kept block k ++ [p]) (fun q hq => hps q (by simp [hq]))
      (by rw [hkept]; exact hmore)
    refine ⟨by simp [hs, hout], by rw [after_cons, hs, hdata, hkept, hsplit], fun _ => ?_⟩
    rw [after_cons, hs]
    cases ps with
    | nil => exact ⟨p, by simp, hp⟩
    | cons q ps => exact hlast (by simp)

/-- Packets without data leave a block without data as it is. -/
theorem collect_empty {block ps : List (Packet κ β)} (hb : data block = []) (hps : ∀ q ∈ ps, q.data = []) :
    outputs (step R) block ps = ps.map (·, none) ∧ data (after (step R) block ps) = [] := by
  induction ps generalizing block with
  | nil => exact ⟨rfl, hb⟩
  | cons p ps ih =>
    have hdata : data (kept block p.key ++ [p]) = [] := by
      have hr : data (kept block p.key) = [] := ready_of_data_nil hb p.key
      simp [hr, hps p (by simp)]
    have hs : step R block p = (kept block p.key ++ [p], [(p, none)]) := by
      rw [step, hdata, R.more_nil]
    obtain ⟨hout, hafter⟩ := ih hdata fun q hq => hps q (by simp [hq])
    exact ⟨by simp [hs, hout], by rw [after_cons, hs, hafter]⟩

/-- A group that stops before its frame is full gives nothing, and is dropped
by the next packet with another key. -/
theorem after_group_more {k : κ} {block ps : List (Packet κ β)} (hr : Ready k block)
    (hps : ∀ q ∈ ps, q.key = k) (hne : ps ≠ []) (hmore : R.verdict (data ps) = .more) :
    outputs (step R) block ps = ps.map (·, none) ∧
      ∀ k', k' ≠ k → Ready k' (after (step R) block ps) := by
  obtain ⟨hout, -, hlast⟩ := collect R hps (by rw [show data (kept block k) = [] from hr]; exact hmore)
  obtain ⟨q, hq, hk⟩ := hlast hne
  exact ⟨hout, fun k' hk' => ready_of_mem hq (by rw [hk]; exact hk'.symm)⟩

/-- A group whose data is full for the first time at the packet `last`, and
carries no data after it, gives that one frame and leaves nothing behind. -/
theorem after_group_full {k : κ} {block front empties : List (Packet κ β)} {last : Packet κ β} {v : φ}
    (hr : Ready k block) (hfront : ∀ q ∈ front, q.key = k) (hlast : last.key = k)
    (hempties : ∀ q ∈ empties, q.data = []) (hmore : R.verdict (data front) = .more)
    (hfull : R.verdict (data (front ++ [last])) = .full v) :
    (∃ b, outputs (step R) block (front ++ last :: empties) =
      front.map (·, none) ++ (last, some (.frame b v)) :: empties.map (·, none)) ∧
      ∀ k', Ready k' (after (step R) block (front ++ last :: empties)) := by
  have hr' : data (kept block k) = [] := hr
  obtain ⟨hout, hdata, -⟩ := collect R hfront (by rw [hr']; exact hmore)
  have hs : step R (after (step R) block front) last =
      ([], [(last, some (.frame (kept (after (step R) block front) k ++ [last]) v))]) := by
    have hv : R.verdict (data (kept (after (step R) block front) k ++ [last])) = .full v := by
      rw [data_append, hdata, hr', List.nil_append, ← data_append]
      exact hfull
    rw [step, hlast, hv]
  obtain ⟨hout', hafter⟩ := collect_empty R (rfl : data ([] : List (Packet κ β)) = []) hempties
  rw [outputs_append, after_append, outputs_cons, after_cons, hout, hs]
  exact ⟨⟨kept (after (step R) block front) k ++ [last], by simp [hout']⟩,
    fun k' => ready_of_data_nil hafter k'⟩

/-- What is collected after a run from the empty block ends with the run's
last packet. -/
theorem after_getLast (ps : List (Packet κ β)) :
    after (step R) [] ps = [] ∨ (after (step R) [] ps).getLast? = ps.getLast? := by
  rcases List.eq_nil_or_concat ps with rfl | ⟨ps, p, rfl⟩
  · exact .inl rfl
  · rw [List.concat_eq_append, after_append, after_cons, after_nil]
    rcases step_cases R (after (step R) [] ps) p with ⟨-, hs⟩ | ⟨v, -, hs⟩ | ⟨-, hs⟩ <;> rw [hs]
    · exact .inr (by simp)
    · exact .inl rfl
    · exact .inl rfl

/-- After a run whose last packet has another key, or none, the reassembler is
ready for `k`. -/
theorem ready_after {ps : List (Packet κ β)} {k : κ} (h : ∀ p, ps.getLast? = some p → p.key ≠ k) :
    Ready k (after (step R) [] ps) := by
  rcases after_getLast R ps with hnil | hlast
  · exact ready_of_data_nil (by rw [hnil]; rfl) k
  · cases hb : (after (step R) [] ps).getLast? with
    | none => exact ready_of_data_nil (by rw [List.getLast?_eq_none_iff.1 hb]; rfl) k
    | some p => exact ready_of_mem (List.mem_of_getLast? hb) (h p (hlast ▸ hb))

end Reassembly
