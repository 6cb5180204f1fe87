import Mathlib.Algebra.Order.Group.Multiset
import TouchMouse.Memory.Heap

/-!
# Programs on a heap

A program takes a heap to a result and a heap, or faults. `Triple pre p post`
says what `p` does to the cells `pre` among any others: it does not fault, and
the others stay. There is one rule for each operation, in the form in which a
program is read: the operation, and then the rest.
-/

namespace Memory

variable {β : Type} {α γ : Type}

abbrev Prog (β : Type) := StateT (Heap β) Option

namespace Prog

/-- There is no outcome. -/
def fault : Prog β α := fun _ => none

def alloc (b : β) : Prog β Nat := fun h => some (h.next, h.alloc b)

/-- Read the block at an address as one of a kind. -/
def read (view : β → Option α) (a : Nat) : Prog β α := fun h =>
  ((h.block a).bind view).map fun x => (x, h)

/-- Change the block at an address, of a kind that can be changed so. -/
def modify (change : β → Option β) (a : Nat) : Prog β Unit := fun h =>
  if live : (h.block a).isSome = true then
    (change ((h.block a).get live)).map fun b => ((), h.write a b live)
  else none

/-- Release a block; `NULL` is none. -/
def free (a : Nat) : Prog β Unit := fun h =>
  if a = 0 then some ((), h)
  else if live : (h.block a).isSome = true then some ((), h.free a live)
  else none

/-- The number of addresses, a bound on the turns of a walk along pointers
that visits no block twice. -/
def addresses : Prog β Nat := fun h => some (h.next, h)

/-- What a program does after an operation with an outcome. -/
theorem bind_run {p : Prog β α} {f : α → Prog β γ} {h h' : Heap β} {a : α} (hp : p h = some (a, h')) :
    (p >>= f) h = f a h' := by
  show (p h).bind _ = _
  rw [hp]
  rfl

end Prog

/-- From the cells `pre`, among any others, the program has an outcome, with
cells that `post` allows among the same others. -/
def Triple (pre : Multiset (Nat × β)) (p : Prog β α) (post : α → Multiset (Nat × β) → Prop) : Prop :=
  ∀ frame h, h.Holds (pre + frame) → ∃ a h' cells, p h = some (a, h') ∧ post a cells ∧ h'.Holds (cells + frame)

namespace Triple

variable {pre rest : Multiset (Nat × β)} {post : γ → Multiset (Nat × β) → Prop}

theorem pure {x : γ} (h : post x pre) : Triple pre (pure x : Prog β γ) post :=
  fun _ heap hh => ⟨x, heap, pre, rfl, h, hh⟩

theorem weaken {post' : γ → Multiset (Nat × β) → Prop} {p : Prog β γ} (hp : Triple pre p post)
    (h : ∀ x cells, post x cells → post' x cells) : Triple pre p post' := by
  intro frame heap hh
  obtain ⟨x, heap', cells, hrun, hpost, hh'⟩ := hp frame heap hh
  exact ⟨x, heap', cells, hrun, h x cells hpost, hh'⟩

/-- Sequence. The first program has its own part of the cells. -/
theorem bind {part : Multiset (Nat × β)} {p : Prog β α} {f : α → Prog β γ} {mid : α → Multiset (Nat × β) → Prop}
    (hp : Triple part p mid) (hpre : pre = part + rest)
    (hf : ∀ a cells, mid a cells → Triple (cells + rest) (f a) post) : Triple pre (p >>= f) post := by
  subst hpre
  intro frame heap hh
  rw [add_assoc] at hh
  obtain ⟨a, heap', cells, hrun, hmid, hh'⟩ := hp (rest + frame) heap hh
  rw [← add_assoc] at hh'
  obtain ⟨c, heap'', cells', hrun', hpost, hh''⟩ := hf a cells hmid frame heap' hh'
  exact ⟨c, heap'', cells', (Prog.bind_run hrun).trans hrun', hpost, hh''⟩

/-- A program on a heap of just these cells. -/
theorem run {p : Prog β γ} (hp : Triple pre p post) {heap : Heap β} (hh : heap.Holds pre) :
    ∃ x heap' cells, p heap = some (x, heap') ∧ post x cells ∧ heap'.Holds cells := by
  obtain ⟨x, heap', cells, hrun, hpost, hh'⟩ := hp 0 heap (by rwa [add_zero])
  exact ⟨x, heap', cells, hrun, hpost, by rwa [add_zero] at hh'⟩

/-- Cells that a program does not need stay. -/
theorem frame {p : Prog β γ} (hp : Triple pre p post) (rest : Multiset (Nat × β)) :
    Triple (pre + rest) p fun x cells => ∃ part, post x part ∧ cells = part + rest := by
  intro others heap hh
  rw [add_assoc] at hh
  obtain ⟨x, heap', part, hrun, hpost, hh'⟩ := hp (rest + others) heap hh
  rw [← add_assoc] at hh'
  exact ⟨x, heap', part + rest, hrun, ⟨part, hpost, rfl⟩, hh'⟩

/-- Two blocks are not at one address. -/
theorem distinct {a a' : Nat} {b b' : β} {p : Prog β γ} (hpre : pre = (a, b) ::ₘ (a', b') ::ₘ rest)
    (hp : a ≠ a' → Triple pre p post) : Triple pre p post := by
  intro frame heap hh
  refine hp (fun heq => ?_) frame heap hh
  subst hpre heq
  rw [Multiset.cons_add, Multiset.cons_add] at hh
  exact hh.notMem b' (Multiset.mem_cons_self _ _)

/-- A live block is not at `NULL`. -/
theorem ne_zero {a : Nat} {b : β} {p : Prog β γ} (hmem : (a, b) ∈ pre) (hp : a ≠ 0 → Triple pre p post) :
    Triple pre p post := by
  intro frame heap hh
  have hblock := (hh.block a b).2 (Multiset.mem_add.2 (.inl hmem))
  exact hp (Nat.ne_of_gt (Heap.lt_next hblock).1) frame heap hh

variable {f : α → Prog β γ}

theorem alloc {b : β} {f : Nat → Prog β γ} (hf : ∀ a, a ≠ 0 → Triple ((a, b) ::ₘ pre) (f a) post) :
    Triple pre (Prog.alloc b >>= f) post := by
  intro frame heap hh
  have hh' := hh.alloc b
  rw [← Multiset.cons_add] at hh'
  exact hf heap.next (Nat.ne_of_gt heap.pos) frame (heap.alloc b) hh'

theorem read {view : β → Option α} {a : Nat} {b : β} {x : α} (hmem : (a, b) ∈ pre) (hview : view b = some x)
    (hf : Triple pre (f x) post) : Triple pre (Prog.read view a >>= f) post := by
  intro frame heap hh
  have hblock := (hh.block a b).2 (Multiset.mem_add.2 (.inl hmem))
  have hrun : Prog.read view a heap = some (x, heap) := by
    rw [Prog.read, hblock]
    show (view b).map _ = _
    rw [hview]
    rfl
  obtain ⟨c, heap', cells, hrest, h⟩ := hf frame heap hh
  exact ⟨c, heap', cells, (Prog.bind_run hrun).trans hrest, h⟩

theorem modify {change : β → Option β} {a : Nat} {b b' : β} {f : Unit → Prog β γ} (hpre : pre = (a, b) ::ₘ rest)
    (hchange : change b = some b') (hf : Triple ((a, b') ::ₘ rest) (f ()) post) :
    Triple pre (Prog.modify change a >>= f) post := by
  subst hpre
  intro frame heap hh
  rw [Multiset.cons_add] at hh
  have hblock := (hh.block a b).2 (Multiset.mem_cons_self _ _)
  have live : (heap.block a).isSome = true := hh.live (Multiset.mem_cons_self _ _)
  have hrun : Prog.modify change a heap = some ((), heap.write a b' live) := by
    have hget : (heap.block a).get live = b := Option.get_of_eq_some _ hblock
    rw [Prog.modify, dif_pos live, hget, hchange]
    rfl
  have hh' := hh.write b' live
  rw [← Multiset.cons_add] at hh'
  obtain ⟨c, heap', cells, hrest, h⟩ := hf frame _ hh'
  exact ⟨c, heap', cells, (Prog.bind_run hrun).trans hrest, h⟩

theorem free {a : Nat} {b : β} {f : Unit → Prog β γ} (hpre : pre = (a, b) ::ₘ rest) (hf : Triple rest (f ()) post) :
    Triple pre (Prog.free a >>= f) post := by
  subst hpre
  refine ne_zero (Multiset.mem_cons_self _ _) fun hne => ?_
  intro frame heap hh
  rw [Multiset.cons_add] at hh
  have live : (heap.block a).isSome = true := hh.live (Multiset.mem_cons_self _ _)
  have hrun : Prog.free a heap = some ((), heap.free a live) := by
    rw [Prog.free, if_neg hne, dif_pos live]
  obtain ⟨c, heap', cells, hrest, h⟩ := hf frame _ (hh.free live)
  exact ⟨c, heap', cells, (Prog.bind_run hrun).trans hrest, h⟩

/-- The bound is more than the number of cells. -/
theorem addresses {f : Nat → Prog β γ} (hf : ∀ n, pre.card < n → Triple pre (f n) post) :
    Triple pre (Prog.addresses >>= f) post := by
  intro frame heap hh
  have hcard := hh.card_lt
  rw [Multiset.card_add] at hcard
  exact hf heap.next (Nat.lt_of_le_of_lt (Nat.le_add_right _ _) hcard) frame heap hh

end Triple

/-- From the cells `pre`, among any others, the program has no outcome. -/
def Faults (pre : Multiset (Nat × β)) (p : Prog β α) : Prop :=
  ∀ frame h, h.Holds (pre + frame) → p h = none

namespace Faults

variable {pre rest : Multiset (Nat × β)}

/-- `NULL` is read. -/
theorem read_null {view : β → Option α} {f : α → Prog β γ} : Faults pre (Prog.read view 0 >>= f) := by
  intro frame heap _
  have hnone : heap.block 0 = none :=
    Option.eq_none_iff_forall_not_mem.2 fun b hb => Nat.lt_irrefl 0 (Heap.lt_next hb).1
  show (Prog.read view 0 heap).bind _ = none
  rw [Prog.read, hnone]
  rfl

/-- The second program of a sequence has none. -/
theorem bind {part : Multiset (Nat × β)} {p : Prog β α} {f : α → Prog β γ} {mid : α → Multiset (Nat × β) → Prop}
    (hp : Triple part p mid) (hpre : pre = part + rest) (hf : ∀ a cells, mid a cells → Faults (cells + rest) (f a)) :
    Faults pre (p >>= f) := by
  subst hpre
  intro frame heap hh
  rw [add_assoc] at hh
  obtain ⟨a, heap', cells, hrun, hmid, hh'⟩ := hp (rest + frame) heap hh
  rw [← add_assoc] at hh'
  exact (Prog.bind_run hrun).trans (hf a cells hmid frame heap' hh')

theorem addresses {f : Nat → Prog β γ} (hf : ∀ n, pre.card < n → Faults pre (f n)) :
    Faults pre (Prog.addresses >>= f) := by
  intro frame heap hh
  have hcard := hh.card_lt
  rw [Multiset.card_add] at hcard
  exact hf heap.next (Nat.lt_of_le_of_lt (Nat.le_add_right _ _) hcard) frame heap hh

end Faults

end Memory
