import Mathlib.Algebra.Order.Group.Multiset

/-!
# Linked lists

The cells of a singly linked list, from the addresses of its nodes and what
each node holds besides the pointer to the next. `link` makes the block of a
node; `last` is where the last node points, `NULL` for a whole list.
-/

namespace Memory

variable {α β : Type} (link : α → Nat → β)

/-- The address a list starts at. -/
def first (last : Nat) : List (Nat × α) → Nat
  | [] => last
  | (a, _) :: _ => a

/-- The cells of a list. -/
def chain (last : Nat) : List (Nat × α) → Multiset (Nat × β)
  | [] => 0
  | (a, x) :: l => (a, link x (first last l)) ::ₘ chain last l

@[simp] theorem first_nil (last : Nat) : first last ([] : List (Nat × α)) = last := rfl
@[simp] theorem first_cons (last a : Nat) (x : α) (l : List (Nat × α)) : first last ((a, x) :: l) = a := rfl
@[simp] theorem chain_nil (last : Nat) : chain link last [] = 0 := rfl
theorem chain_cons (last a : Nat) (x : α) (l : List (Nat × α)) :
    chain link last ((a, x) :: l) = (a, link x (first last l)) ::ₘ chain link last l := rfl

@[simp] theorem first_append (last : Nat) (l m : List (Nat × α)) :
    first last (l ++ m) = first (first last m) l := by
  cases l <;> rfl

theorem chain_append (last : Nat) (l m : List (Nat × α)) :
    chain link last (l ++ m) = chain link (first last m) l + chain link last m := by
  induction l with
  | nil => rw [List.nil_append, chain_nil, zero_add]
  | cons n l ih =>
    obtain ⟨a, x⟩ := n
    rw [List.cons_append, chain_cons, chain_cons, ih, first_append, Multiset.cons_add]

/-- The last node of a list. -/
theorem chain_snoc (last : Nat) (l : List (Nat × α)) (a : Nat) (x : α) :
    chain link last (l ++ [(a, x)]) = (a, link x last) ::ₘ chain link a l := by
  rw [chain_append, chain_cons, chain_nil, first_cons, first_nil, Multiset.add_cons, add_zero]

/-- A new last node, and the one before it that points to it. -/
theorem chain_snoc_snoc (init : List (Nat × α)) (a b : Nat) (x y : α) :
    chain link 0 (init ++ [(a, x)] ++ [(b, y)]) = (a, link x b) ::ₘ (b, link y 0) ::ₘ chain link a init := by
  rw [chain_snoc, chain_snoc, Multiset.cons_swap]

@[simp] theorem card_chain (last : Nat) (l : List (Nat × α)) : (chain link last l).card = l.length := by
  induction l with
  | nil => rfl
  | cons n l ih => rw [chain_cons, Multiset.card_cons, ih, List.length_cons]

/-- The cell of a node inside a list. -/
theorem mem_chain (last : Nat) (init : List (Nat × α)) (a : Nat) (x : α) (l : List (Nat × α)) :
    (a, link x (first last l)) ∈ chain link last (init ++ (a, x) :: l) := by
  rw [chain_append, chain_cons]
  exact Multiset.mem_add.2 (.inr (Multiset.mem_cons_self _ _))

/-- The address of the last node, or `NULL` for an empty list. -/
def lastAddr (l : List (Nat × α)) : Nat := (l.getLast?.map Prod.fst).getD 0

@[simp] theorem lastAddr_nil : lastAddr ([] : List (Nat × α)) = 0 := rfl

@[simp] theorem lastAddr_snoc (l : List (Nat × α)) (a : Nat) (x : α) : lastAddr (l ++ [(a, x)]) = a := by
  rw [lastAddr, List.getLast?_append_cons]
  rfl

end Memory
