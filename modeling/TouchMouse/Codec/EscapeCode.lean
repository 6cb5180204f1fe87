import TouchMouse.Stream.Reader
import Mathlib.Logic.Equiv.Defs

/-!
# Escape codes

A string of values is written with one symbol per value, except that an escape
symbol announces a run of a fixed fill value whose length the next symbol
gives. `scan` splits any symbol string into whole tokens and at most one
dangling escape, in one pass; it inverts `encode` (`scan_encode`,
`encode_tokens`), so the tokens of a string are unique.

`verdict n` reads a string as a decoder with room for `n` values would: it
stops at the first symbol that reaches or passes `n` values. The three
answers are characterised by the grammar alone (`verdict_more_iff`,
`verdict_full_iff`, `verdict_bad_iff`).
-/

/-- A code over the symbols `σ` for strings of values `α`. -/
structure EscapeCode (σ α : Type) where
  esc : σ
  literal : α ≃ {s : σ // s ≠ esc}
  fill : α
  runLength : σ → ℕ
  runLength_pos : ∀ x, 0 < runLength x

namespace EscapeCode

variable {σ α : Type}

/-- A value written out, or the length symbol of a run. -/
inductive Token (σ α : Type) where
  | literal (a : α)
  | run (x : σ)
  deriving DecidableEq

variable (c : EscapeCode σ α)

def encodeToken : Token σ α → List σ
  | .literal a => [c.literal a]
  | .run x => [c.esc, x]

def expandToken : Token σ α → List α
  | .literal a => [a]
  | .run x => List.replicate (c.runLength x) c.fill

def encode (ts : List (Token σ α)) : List σ := ts.flatMap c.encodeToken

def expand (ts : List (Token σ α)) : List α := ts.flatMap c.expandToken

@[simp] theorem encode_nil : c.encode [] = [] := rfl
@[simp] theorem encode_literal (a : α) (ts : List (Token σ α)) :
    c.encode (.literal a :: ts) = (c.literal a).1 :: c.encode ts := rfl
@[simp] theorem encode_run (x : σ) (ts : List (Token σ α)) :
    c.encode (.run x :: ts) = c.esc :: x :: c.encode ts := rfl
@[simp] theorem encode_append (ts us : List (Token σ α)) :
    c.encode (ts ++ us) = c.encode ts ++ c.encode us := List.flatMap_append

@[simp] theorem expand_nil : c.expand [] = [] := rfl
@[simp] theorem expand_literal (a : α) (ts : List (Token σ α)) :
    c.expand (.literal a :: ts) = a :: c.expand ts := rfl
@[simp] theorem expand_run (x : σ) (ts : List (Token σ α)) :
    c.expand (.run x :: ts) = List.replicate (c.runLength x) c.fill ++ c.expand ts := rfl
@[simp] theorem expand_append (ts us : List (Token σ α)) :
    c.expand (ts ++ us) = c.expand ts ++ c.expand us := List.flatMap_append

/-- Every value string has an encoding, the one that writes each value out. -/
theorem expand_literals (vs : List α) : c.expand (vs.map .literal) = vs := by
  induction vs with
  | nil => rfl
  | cons v vs ih => simp [ih]

section Scan

variable [DecidableEq σ]

/-- The whole tokens of a string and whether an escape is left waiting; the
flag says whether one is waiting at the start. -/
def scan : Bool → List σ → List (Token σ α) × Bool
  | pending, [] => ([], pending)
  | true, x :: w => (.run x :: (scan false w).1, (scan false w).2)
  | false, s :: w =>
    if h : s = c.esc then scan true w
    else (.literal (c.literal.symm ⟨s, h⟩) :: (scan false w).1, (scan false w).2)

def tokens (w : List σ) : List (Token σ α) := (c.scan false w).1

def pending (w : List σ) : Bool := (c.scan false w).2

/-- The values a string stands for, a dangling escape left out. -/
def values (w : List σ) : List α := c.expand (c.tokens w)

theorem scan_append (b : Bool) (u v : List σ) :
    c.scan b (u ++ v) = ((c.scan b u).1 ++ (c.scan (c.scan b u).2 v).1, (c.scan (c.scan b u).2 v).2) := by
  fun_induction scan c b u with
  | case1 b => simp
  | case2 x w ih => simp [scan, ih]
  | case3 w ih => simpa [scan] using ih
  | case4 s w h ih => simp [scan, h, ih]

/-- Scanning reads back the tokens an encoding was made of. -/
theorem scan_encode (ts : List (Token σ α)) (w : List σ) :
    c.scan false (c.encode ts ++ w) = (ts ++ (c.scan false w).1, (c.scan false w).2) := by
  induction ts with
  | nil => rfl
  | cons t ts ih =>
    cases t with
    | literal a => simp [scan, ih, (c.literal a).2]
    | run x => simp [scan, ih]

/-- A string is the encoding of its tokens and at most one dangling escape. -/
theorem encode_scan (b : Bool) (w : List σ) :
    (if b then [c.esc] else []) ++ w =
      c.encode (c.scan b w).1 ++ (if (c.scan b w).2 then [c.esc] else []) := by
  fun_induction scan c b w with
  | case1 b => simp
  | case2 x w ih => simpa using ih
  | case3 w ih => simpa using ih
  | case4 s w h ih => simpa using ih

theorem encode_tokens (w : List σ) :
    w = c.encode (c.tokens w) ++ (if c.pending w then [c.esc] else []) := by
  exact c.encode_scan false w

@[simp] theorem tokens_encode (ts : List (Token σ α)) : c.tokens (c.encode ts) = ts := by
  simpa [tokens, scan] using congrArg Prod.fst (c.scan_encode ts [])

@[simp] theorem pending_encode (ts : List (Token σ α)) : c.pending (c.encode ts) = false := by
  simpa [pending, scan] using congrArg Prod.snd (c.scan_encode ts [])

@[simp] theorem values_nil : c.values [] = [] := rfl
@[simp] theorem pending_nil : c.pending [] = false := rfl

@[simp] theorem values_encode (ts : List (Token σ α)) : c.values (c.encode ts) = c.expand ts := by
  rw [values, tokens_encode]

theorem values_append (u v : List σ) :
    c.values (u ++ v) = c.values u ++ c.expand (c.scan (c.pending u) v).1 := by
  simp [values, tokens, pending, scan_append]

theorem values_length_le (u v : List σ) : (c.values u).length ≤ (c.values (u ++ v)).length := by
  simp [values_append]

/-! One more symbol. -/

theorem values_snoc_run {u : List σ} (h : c.pending u = true) (x : σ) :
    c.values (u ++ [x]) = c.values u ++ List.replicate (c.runLength x) c.fill := by
  simp [values_append, h, scan]

theorem values_snoc_esc {u : List σ} (h : c.pending u = false) : c.values (u ++ [c.esc]) = c.values u := by
  simp [values_append, h, scan]

theorem values_snoc_literal {u : List σ} (h : c.pending u = false) {x : σ} (hx : x ≠ c.esc) :
    c.values (u ++ [x]) = c.values u ++ [c.literal.symm ⟨x, hx⟩] := by
  simp [values_append, h, scan, hx]

theorem pending_snoc (u : List σ) (x : σ) :
    c.pending (u ++ [x]) = (!c.pending u && decide (x = c.esc)) := by
  cases h : c.pending u <;> rw [pending] at h ⊢ <;> simp only [scan_append, h] <;>
    by_cases hx : x = c.esc <;> simp [scan, hx]

/-- A string that ends with a whole token holds at least one value. -/
theorem expand_scan_pos {b : Bool} {v : List σ} (hv : v ≠ []) (h : (c.scan b v).2 = false) :
    0 < (c.expand (c.scan b v).1).length := by
  fun_induction scan c b v with
  | case1 b => exact absurd rfl hv
  | case2 x w ih => have := c.runLength_pos x; simp only [expand_run, List.length_append, List.length_replicate]; omega
  | case3 w ih =>
    cases w with
    | nil => simp [scan] at h
    | cons x w => exact ih (by simp) h
  | case4 s w hs ih => simp

/-- A proper prefix of an encoding stands for fewer values. -/
theorem values_lt_of_proper_prefix {u v : List σ} {ts : List (Token σ α)} (h : c.encode ts = u ++ v)
    (hv : v ≠ []) : (c.values u).length < (c.expand ts).length := by
  have hlast : (c.scan (c.pending u) v).2 = false := by
    have := c.pending_encode ts
    rw [h] at this
    simpa [pending, scan_append] using this
  have := c.expand_scan_pos hv hlast
  rw [← c.values_encode ts, h, values_append, List.length_append]
  omega

end Scan

section Bounded

variable [DecidableEq σ] (n : ℕ)

/-- Read on from the string `u`, which holds fewer than `n` values. -/
def verdictFrom (u : List σ) : List σ → Verdict (List α)
  | [] => .more
  | x :: v =>
    if (c.values (u ++ [x])).length < n then verdictFrom (u ++ [x]) v
    else if (c.values (u ++ [x])).length = n then .full (c.values (u ++ [x]))
    else .bad

/-- Read a string from its start into room for `n` values. -/
def verdict (w : List σ) : Verdict (List α) := c.verdictFrom n [] w

/-- The reader stops where it first reaches or passes `n` values. -/
theorem verdictFrom_cases (u v : List σ) (hu : (c.values u).length < n) :
    (c.verdictFrom n u v = .more ∧ (c.values (u ++ v)).length < n) ∨
    ∃ v₁ x v₂, v = v₁ ++ x :: v₂ ∧ (c.values (u ++ v₁)).length < n ∧
      (((c.values (u ++ v₁ ++ [x])).length = n ∧ c.verdictFrom n u v = .full (c.values (u ++ v₁ ++ [x]))) ∨
       (n < (c.values (u ++ v₁ ++ [x])).length ∧ c.verdictFrom n u v = .bad)) := by
  induction v generalizing u with
  | nil => exact .inl ⟨rfl, by simpa using hu⟩
  | cons x v ih =>
    by_cases hlt : (c.values (u ++ [x])).length < n
    · have hstep : c.verdictFrom n u (x :: v) = c.verdictFrom n (u ++ [x]) v := by simp [verdictFrom, hlt]
      rw [hstep]
      rcases ih (u ++ [x]) hlt with ⟨hm, hv⟩ | ⟨v₁, y, v₂, rfl, h₁, h₂⟩
      · exact .inl ⟨hm, by simpa using hv⟩
      · exact .inr ⟨x :: v₁, y, v₂, rfl, by simpa using h₁, by simpa using h₂⟩
    · refine .inr ⟨[], x, v, rfl, by simpa using hu, ?_⟩
      by_cases heq : (c.values (u ++ [x])).length = n
      · exact .inl ⟨by simpa using heq, by simp [verdictFrom, heq]⟩
      · exact .inr ⟨by simp; omega, by simp [verdictFrom, hlt, heq]⟩

/-- Reading on after a string that left room. -/
theorem verdictFrom_append (u v w : List σ) (h : c.verdictFrom n u v = .more) :
    c.verdictFrom n u (v ++ w) = c.verdictFrom n (u ++ v) w := by
  induction v generalizing u with
  | nil => simp
  | cons x v ih =>
    simp only [verdictFrom, List.cons_append] at h ⊢
    split at h
    · next hlt => simpa [hlt] using ih (u ++ [x]) h
    · split at h <;> cases h

/-- A verdict once given does not depend on what follows. -/
theorem verdictFrom_stable (u v w : List σ) (h : c.verdictFrom n u v ≠ .more) :
    c.verdictFrom n u (v ++ w) = c.verdictFrom n u v := by
  induction v generalizing u with
  | nil => exact absurd rfl h
  | cons x v ih =>
    simp only [verdictFrom, List.cons_append] at h ⊢
    split
    · next hlt => exact ih (u ++ [x]) (by simpa [hlt] using h)
    · rfl

variable {n}

/-- The symbol that brings a string to exactly `n` values ends a token. -/
theorem snoc_full_iff {u : List σ} {x : σ} :
    ((c.values u).length < n ∧ (c.values (u ++ [x])).length = n) ↔
      ∃ ts, u ++ [x] = c.encode ts ∧ (c.expand ts).length = n := by
  constructor
  · rintro ⟨hu, hl⟩
    -- a dangling escape would leave the values of `u`, which are too few
    have hp : c.pending (u ++ [x]) = false := by
      by_contra hp
      have hx : c.pending u = false ∧ x = c.esc := by simpa [pending_snoc] using hp
      rw [hx.2, c.values_snoc_esc hx.1] at hl
      omega
    refine ⟨c.tokens (u ++ [x]), ?_, hl⟩
    have := c.encode_tokens (u ++ [x])
    rw [hp] at this
    simpa using this
  · rintro ⟨ts, he, hl⟩
    have := c.values_lt_of_proper_prefix he.symm (List.cons_ne_nil x [])
    rw [he, values_encode]
    exact ⟨by omega, hl⟩

/-- The symbol that takes a string past `n` values is the length of a run. -/
theorem snoc_bad_iff {u : List σ} {x : σ} :
    ((c.values u).length < n ∧ n < (c.values (u ++ [x])).length) ↔
      ∃ ts, u ++ [x] = c.encode ts ++ [c.esc, x] ∧ (c.expand ts).length < n ∧
        n < (c.expand ts).length + c.runLength x := by
  constructor
  · rintro ⟨hu, hl⟩
    -- only a run adds more than one value
    have hp : c.pending u = true := by
      by_contra hp
      have hp : c.pending u = false := by simpa using hp
      by_cases hx : x = c.esc
      · rw [hx, c.values_snoc_esc hp] at hl; omega
      · rw [c.values_snoc_literal hp hx, List.length_append, List.length_singleton] at hl; omega
    have hu' := c.encode_tokens u
    rw [hp, if_pos rfl] at hu'
    refine ⟨c.tokens u, ?_, hu, ?_⟩
    · conv_lhs => rw [hu']
      simp
    · rw [c.values_snoc_run hp, List.length_append, List.length_replicate] at hl
      exact hl
  · rintro ⟨ts, he, hlt, hover⟩
    have hu : u = c.encode ts ++ [c.esc] := by
      have : u ++ [x] = (c.encode ts ++ [c.esc]) ++ [x] := by simpa using he
      exact (List.append_inj' this rfl).1
    have hp : c.pending u = true := by rw [hu, pending_snoc]; simp
    have hv : c.values u = c.expand ts := by
      rw [hu, c.values_snoc_esc (c.pending_encode ts), values_encode]
    rw [c.values_snoc_run hp, hv, List.length_append, List.length_replicate]
    exact ⟨hlt, hover⟩

/-- The reader stops inside a string at the symbol where a prefix of it first
reaches or passes `n` values. -/
theorem verdict_split {u v : List σ} {x : σ} (hu : (c.values u).length < n)
    (hux : n ≤ (c.values (u ++ [x])).length) :
    c.verdict n (u ++ x :: v) =
      if (c.values (u ++ [x])).length = n then .full (c.values (u ++ [x])) else .bad := by
  have hmore : c.verdictFrom n [] u = .more := by
    rcases c.verdictFrom_cases n [] u (by simp; omega) with ⟨hm, -⟩ | ⟨v₁, y, v₂, rfl, -, h⟩
    · exact hm
    · have hle := c.values_length_le (v₁ ++ [y]) v₂
      simp only [List.nil_append, List.append_assoc, List.singleton_append] at h hle
      rcases h with ⟨h, -⟩ | ⟨h, -⟩ <;> omega
  rw [verdict, c.verdictFrom_append n [] u _ hmore, verdictFrom, List.nil_append, if_neg (by omega)]

theorem verdict_more_iff (hn : 0 < n) (w : List σ) :
    c.verdict n w = .more ↔ (c.values w).length < n := by
  rcases c.verdictFrom_cases n [] w (by simpa using hn) with ⟨hm, hv⟩ | ⟨u, x, v, rfl, -, h⟩
  · exact ⟨fun _ => hv, fun _ => hm⟩
  · simp only [List.nil_append] at h
    have hle := c.values_length_le (u ++ [x]) v
    rw [List.append_assoc, List.singleton_append] at hle
    constructor
    · intro hm
      rcases h with ⟨-, hv⟩ | ⟨-, hv⟩ <;> rw [verdict, hv] at hm <;> cases hm
    · intro hlt
      rcases h with ⟨hl, -⟩ | ⟨hl, -⟩ <;> omega

/-- A full frame: whole tokens that expand to exactly `n` values, then
anything. -/
theorem verdict_full_iff (hn : 0 < n) (w : List σ) (vs : List α) :
    c.verdict n w = .full vs ↔
      ∃ ts rest, w = c.encode ts ++ rest ∧ c.expand ts = vs ∧ vs.length = n := by
  constructor
  · intro h
    rcases c.verdictFrom_cases n [] w (by simpa using hn) with ⟨hm, -⟩ | ⟨u, x, v, rfl, hu, ⟨hl, hv⟩ | ⟨-, hb⟩⟩
    · rw [verdict, hm] at h; cases h
    · simp only [List.nil_append] at hu hl hv
      rw [verdict, hv] at h
      obtain rfl := Verdict.full.inj h
      obtain ⟨ts, he, -⟩ := c.snoc_full_iff.1 ⟨hu, hl⟩
      refine ⟨ts, v, ?_, by rw [he, values_encode], hl⟩
      rw [← he]; simp
    · rw [verdict, hb] at h; cases h
  · rintro ⟨ts, rest, rfl, rfl, hlen⟩
    -- the encoding is not empty: its last symbol is the one that fills the frame
    rcases List.eq_nil_or_concat (c.encode ts) with he | ⟨u, x, he⟩
    · have := c.values_encode ts
      rw [he, values_nil] at this
      rw [← this] at hlen
      simp at hlen
      omega
    · rw [List.concat_eq_append] at he
      obtain ⟨hu, hl⟩ := c.snoc_full_iff.2 ⟨ts, he.symm, hlen⟩
      rw [he, List.append_assoc, List.singleton_append, c.verdict_split hu (Nat.le_of_eq hl.symm), if_pos hl, ← he, values_encode]

/-- An overrun: whole tokens that leave room, then a run that is too long. -/
theorem verdict_bad_iff (hn : 0 < n) (w : List σ) :
    c.verdict n w = .bad ↔
      ∃ ts x rest, w = c.encode ts ++ c.esc :: x :: rest ∧ (c.expand ts).length < n ∧
        n < (c.expand ts).length + c.runLength x := by
  constructor
  · intro h
    rcases c.verdictFrom_cases n [] w (by simpa using hn) with ⟨hm, -⟩ | ⟨u, x, v, rfl, hu, ⟨-, hv⟩ | ⟨hl, -⟩⟩
    · rw [verdict, hm] at h; cases h
    · rw [verdict, hv] at h; cases h
    · simp only [List.nil_append] at hu hl
      obtain ⟨ts, he, hlt, hover⟩ := c.snoc_bad_iff.1 ⟨hu, hl⟩
      refine ⟨ts, x, v, ?_, hlt, hover⟩
      calc u ++ x :: v = (u ++ [x]) ++ v := by simp
        _ = c.encode ts ++ c.esc :: x :: v := by rw [he]; simp
  · rintro ⟨ts, x, rest, rfl, hlt, hover⟩
    obtain ⟨hu, hl⟩ := c.snoc_bad_iff.2 ⟨ts, (by simp : (c.encode ts ++ [c.esc]) ++ [x] = _), hlt, hover⟩
    have hsplit : c.encode ts ++ c.esc :: x :: rest = (c.encode ts ++ [c.esc]) ++ x :: rest := by simp
    rw [hsplit, c.verdict_split hu (Nat.le_of_lt hl), if_neg (Nat.ne_of_gt hl)]

/-- The bounded decoder as a reader: it needs at least one value to be full. -/
def reader (hn : 0 < n) : Reader σ (List α) where
  verdict := c.verdict n
  more_nil := (c.verdict_more_iff hn []).2 hn
  stable := c.verdictFrom_stable n []

end Bounded

end EscapeCode
