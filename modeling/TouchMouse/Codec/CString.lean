import Mathlib.Algebra.Group.Int.Defs
import Mathlib.Data.List.TakeWhile
import TouchMouse.Codec.Numeral

/-!
# Searching and reading C strings

`strstr`, and `strtol` with base 16, on the characters of a string. What
`strtol` reads is said by a grammar, `IsNumber`: spaces, a sign, `0x`, and as
many digits as there are. The function reads a text exactly as the grammar
does, and nothing where the grammar has no number.
-/

namespace CString

/-! ## `strstr` -/

/-- The text from the first occurrence on. -/
def strstr (needle : List Char) : List Char → Option (List Char)
  | [] => if needle = [] then some [] else none
  | c :: s => if needle <+: c :: s then some (c :: s) else strstr needle s

/-- What stands before and after the first occurrence. -/
structure FirstAt (needle s before after : List Char) : Prop where
  text : s = before ++ needle ++ after
  first : ∀ before' after', s = before' ++ needle ++ after' → before.length ≤ before'.length

variable {needle s before after : List Char}

theorem strstr_eq_some_iff {found : List Char} :
    strstr needle s = some found ↔ ∃ before after, FirstAt needle s before after ∧ found = needle ++ after := by
  induction s with
  | nil =>
    rw [strstr]
    constructor
    · intro h
      split at h
      · next hnil =>
        cases h
        exact ⟨[], [], ⟨by rw [hnil]; rfl, fun _ _ _ => Nat.zero_le _⟩, by rw [hnil]; rfl⟩
      · cases h
    · rintro ⟨before, after, hfirst, rfl⟩
      have hnil := List.append_eq_nil_iff.1 hfirst.text.symm
      have hneedle := (List.append_eq_nil_iff.1 hnil.1).2
      rw [if_pos hneedle, hneedle, hnil.2]
      rfl
  | cons c s ih =>
    rw [strstr]
    split
    · next hstarts =>
      obtain ⟨after, hafter⟩ := hstarts
      constructor
      · intro h
        cases h
        exact ⟨[], after, ⟨hafter.symm, fun _ _ _ => Nat.zero_le _⟩, hafter.symm⟩
      · rintro ⟨before, after', hfirst, rfl⟩
        have hle := hfirst.first [] after hafter.symm
        have hbefore : before = [] := List.length_eq_zero_iff.1 (Nat.le_zero.1 hle)
        rw [hfirst.text, hbefore]
        rfl
    · next hstarts =>
      rw [ih]
      constructor
      · rintro ⟨before, after, hfirst, rfl⟩
        refine ⟨c :: before, after, ⟨by rw [hfirst.text]; rfl, fun before' after' htext => ?_⟩, rfl⟩
        cases before' with
        | nil => exact absurd ⟨after', htext.symm⟩ hstarts
        | cons c' before' =>
          have htail : s = before' ++ needle ++ after' := (List.cons.inj htext).2
          exact Nat.succ_le_succ (hfirst.first before' after' htail)
      · rintro ⟨before, after, hfirst, rfl⟩
        cases before with
        | nil => exact absurd ⟨after, hfirst.text.symm⟩ hstarts
        | cons c' before =>
          obtain ⟨rfl, htext⟩ := List.cons.inj hfirst.text
          refine ⟨before, after, ⟨htext, fun before' after' htext' => ?_⟩, rfl⟩
          exact Nat.le_of_succ_le_succ (hfirst.first (c :: before') after' (by rw [htext']; rfl))

theorem firstAt_of_strstr (h : strstr needle s = some (needle ++ after)) : ∃ before, FirstAt needle s before after := by
  obtain ⟨before, after', hfirst, hfound⟩ := strstr_eq_some_iff.1 h
  obtain rfl := List.append_cancel_left hfound
  exact ⟨before, hfirst⟩

/-- The first occurrence is one. -/
theorem FirstAt.unique {before' after' : List Char} (h : FirstAt needle s before after) (h' : FirstAt needle s before' after') :
    before = before' ∧ after = after' := by
  have hlength : before.length = before'.length :=
    Nat.le_antisymm (h.first _ _ h'.text) (h'.first _ _ h.text)
  have htext : before ++ (needle ++ after) = before' ++ (needle ++ after') := by
    rw [← List.append_assoc, ← h.text, h'.text, List.append_assoc]
  obtain ⟨hbefore, hrest⟩ := List.append_inj htext hlength
  exact ⟨hbefore, List.append_cancel_left hrest⟩

/-! ## `strtol` -/

/-- The value of a digit. -/
def hexVal (c : Char) : Option Nat :=
  let n := c.toNat
  if 48 ≤ n ∧ n ≤ 57 then some (n - 48)
  else if 97 ≤ n ∧ n ≤ 102 then some (n - 87)
  else if 65 ≤ n ∧ n ≤ 70 then some (n - 55)
  else none

def isSpace (c : Char) : Bool := c.toNat = 32 ∨ (9 ≤ c.toNat ∧ c.toNat ≤ 13)

/-- The sign, and what is left. -/
def readSign : List Char → Bool × List Char
  | [] => (false, [])
  | c :: s => if c = '-' then (true, s) else if c = '+' then (false, s) else (false, c :: s)

/-- `0x` stands before a digit. -/
def dropPrefix : List Char → List Char
  | z :: x :: c :: s => if z = '0' ∧ (x = 'x' ∨ x = 'X') ∧ (hexVal c).isSome then c :: s else z :: x :: c :: s
  | s => s

/-- The digits, and what is left. -/
def readDigits : List Char → List Nat × List Char
  | [] => ([], [])
  | c :: s =>
    match hexVal c with
    | some d => (d :: (readDigits s).1, (readDigits s).2)
    | none => ([], c :: s)

/-- The nearest `long` of some width. -/
def clamp (w : Nat) (x : Int) : Int := max (-2 ^ (w - 1)) (min (2 ^ (w - 1) - 1) x)

/-- `strtol(s, &endptr, 16)`: the value and `endptr`, unless there is no
number. -/
def strtol (w : Nat) (s : List Char) : Option (Int × List Char) :=
  let (negative, unsigned) := readSign (s.dropWhile isSpace)
  let (ds, tail) := readDigits (dropPrefix unsigned)
  if ds = [] then none
  else some (clamp w (if negative then -Numeral.value 16 ds else Numeral.value 16 ds), tail)

/-! ### The grammar -/

/-- The text goes on with `0x` and a digit. -/
def HasPrefix (s : List Char) : Prop :=
  ∃ x c rest, s = '0' :: x :: c :: rest ∧ (x = 'x' ∨ x = 'X') ∧ (hexVal c).isSome = true

/-- A sign, or none. -/
def IsSign (sign : List Char) (negative : Bool) : Prop :=
  (sign = ['-'] ∧ negative = true) ∨ ((sign = ['+'] ∨ sign = []) ∧ negative = false)

/-- A prefix, or none where none can be read. -/
def IsPrefix (pre rest : List Char) : Prop := pre = ['0', 'x'] ∨ pre = ['0', 'X'] ∨ (pre = [] ∧ ¬ HasPrefix rest)

/-- These digits are all that the text starts with. -/
structure IsDigits (digits : List Char) (ds : List Nat) (tail : List Char) : Prop where
  values : digits.map hexVal = ds.map some
  longest : ∀ c ∈ tail.head?, hexVal c = none

/-- A number and what follows it. -/
def IsNumber (s : List Char) (negative : Bool) (ds : List Nat) (tail : List Char) : Prop :=
  ∃ spaces sign pre digits, s = spaces ++ (sign ++ (pre ++ (digits ++ tail))) ∧ (∀ c ∈ spaces, isSpace c = true) ∧
    IsSign sign negative ∧ IsPrefix pre (digits ++ tail) ∧ IsDigits digits ds tail ∧ ds ≠ []

/-! ### The scanners -/

/-- A digit is none of the characters before a number. -/
theorem hexVal_starts {c : Char} (h : (hexVal c).isSome = true) : isSpace c = false ∧ c ≠ '-' ∧ c ≠ '+' := by
  have hrange : (48 ≤ c.toNat ∧ c.toNat ≤ 57) ∨ (97 ≤ c.toNat ∧ c.toNat ≤ 102) ∨ (65 ≤ c.toNat ∧ c.toNat ≤ 70) := by
    rw [hexVal] at h
    split at h
    · next hdigit => exact .inl hdigit
    · split at h
      · next hlower => exact .inr (.inl hlower)
      · split at h
        · next hupper => exact .inr (.inr hupper)
        · cases h
  refine ⟨?_, ?_, ?_⟩
  · rw [isSpace, decide_eq_false_iff_not]
    omega
  · rintro rfl
    revert hrange
    decide
  · rintro rfl
    revert hrange
    decide

theorem readDigits_isDigits (s : List Char) :
    ∃ digits, s = digits ++ (readDigits s).2 ∧ IsDigits digits (readDigits s).1 (readDigits s).2 := by
  induction s with
  | nil => exact ⟨[], rfl, rfl, nofun⟩
  | cons c s ih =>
    rw [readDigits]
    cases hval : hexVal c with
    | none =>
      refine ⟨[], rfl, rfl, fun c' hc' => ?_⟩
      cases hc'
      exact hval
    | some d =>
      obtain ⟨digits, htext, hvalues, hlongest⟩ := ih
      refine ⟨c :: digits, congrArg (c :: ·) htext, ?_, hlongest⟩
      rw [List.map_cons, hval, hvalues]
      rfl

theorem readDigits_append {digits : List Char} {ds : List Nat} {tail : List Char} (h : IsDigits digits ds tail) :
    readDigits (digits ++ tail) = (ds, tail) := by
  obtain ⟨hvalues, hlongest⟩ := h
  induction digits generalizing ds with
  | nil =>
    have hds : ds = [] := List.map_eq_nil_iff.1 hvalues.symm
    subst hds
    cases tail with
    | nil => rfl
    | cons c tail =>
      rw [List.nil_append, readDigits, hlongest c rfl]
  | cons c digits ih =>
    cases ds with
    | nil => cases hvalues
    | cons d ds =>
      obtain ⟨hval, hrest⟩ := List.cons.inj hvalues
      rw [List.cons_append, readDigits, hval]
      dsimp only
      rw [ih hrest]

/-- What is left of a prefix. -/
theorem dropPrefix_isPrefix (s : List Char) : ∃ pre, s = pre ++ dropPrefix s ∧ IsPrefix pre (dropPrefix s) := by
  match s with
  | [] => exact ⟨[], rfl, .inr (.inr ⟨rfl, fun ⟨_, _, _, h, _⟩ => by cases h⟩)⟩
  | [z] => exact ⟨[], rfl, .inr (.inr ⟨rfl, fun ⟨_, _, _, h, _⟩ => by cases h⟩)⟩
  | [z, x] => exact ⟨[], rfl, .inr (.inr ⟨rfl, fun ⟨_, _, _, h, _⟩ => by cases h⟩)⟩
  | z :: x :: c :: s =>
    rw [dropPrefix]
    split
    · next hstarts =>
      obtain ⟨rfl, rfl | rfl, -⟩ := hstarts
      · exact ⟨['0', 'x'], rfl, .inl rfl⟩
      · exact ⟨['0', 'X'], rfl, .inr (.inl rfl)⟩
    · next hstarts =>
      refine ⟨[], rfl, .inr (.inr ⟨rfl, ?_⟩)⟩
      rintro ⟨x', c', rest, htext, hx, hc⟩
      cases htext
      exact hstarts ⟨rfl, hx, hc⟩

theorem dropPrefix_append {pre : List Char} {c : Char} {s : List Char} (h : IsPrefix pre (c :: s))
    (hc : (hexVal c).isSome = true) : dropPrefix (pre ++ c :: s) = c :: s := by
  rcases h with rfl | rfl | ⟨rfl, hnone⟩
  · exact if_pos ⟨rfl, .inl rfl, hc⟩
  · exact if_pos ⟨rfl, .inr rfl, hc⟩
  · match s with
    | [] => rfl
    | [x] => rfl
    | x :: c' :: s =>
      refine if_neg fun hstarts => hnone ?_
      obtain ⟨rfl, hx, hc'⟩ := hstarts
      exact ⟨x, c', s, rfl, hx, hc'⟩

theorem readSign_isSign (s : List Char) : ∃ sign, s = sign ++ (readSign s).2 ∧ IsSign sign (readSign s).1 := by
  cases s with
  | nil => exact ⟨[], rfl, .inr ⟨.inr rfl, rfl⟩⟩
  | cons c s =>
    rw [readSign]
    split
    · next hminus => exact ⟨['-'], by rw [hminus]; rfl, .inl ⟨rfl, rfl⟩⟩
    · split
      · next hplus => exact ⟨['+'], by rw [hplus]; rfl, .inr ⟨.inl rfl, rfl⟩⟩
      · exact ⟨[], rfl, .inr ⟨.inr rfl, rfl⟩⟩

theorem readSign_append {sign : List Char} {negative : Bool} (h : IsSign sign negative) {c : Char} (s : List Char)
    (hminus : c ≠ '-') (hplus : c ≠ '+') : readSign (sign ++ c :: s) = (negative, c :: s) := by
  rcases h with ⟨rfl, rfl⟩ | ⟨rfl | rfl, rfl⟩
  · rfl
  · rfl
  · rw [List.nil_append, readSign, if_neg hminus, if_neg hplus]

/-! ### The function -/

variable {w : Nat}

/-- The value of a number, as a `long`. -/
def numberValue (w : Nat) (negative : Bool) (ds : List Nat) : Int :=
  clamp w (if negative then -Numeral.value 16 ds else Numeral.value 16 ds)

/-- A text with a number is read. -/
theorem strtol_of_isNumber {s : List Char} {negative : Bool} {ds : List Nat} {tail : List Char}
    (h : IsNumber s negative ds tail) : strtol w s = some (numberValue w negative ds, tail) := by
  obtain ⟨spaces, sign, pre, digits, rfl, hspaces, hsign, hpre, hdigits, hnonempty⟩ := h
  -- the number starts with a digit, or with the 0 of the prefix
  obtain ⟨c, rest, hrest, hc⟩ : ∃ c rest, digits ++ tail = c :: rest ∧ (hexVal c).isSome = true := by
    have hvalues := hdigits.values
    cases digits with
    | nil => exact absurd (List.map_eq_nil_iff.1 hvalues.symm) hnonempty
    | cons c digits =>
      cases ds with
      | nil => cases hvalues
      | cons d ds => exact ⟨c, digits ++ tail, rfl, by rw [(List.cons.inj hvalues).1]; rfl⟩
  obtain ⟨z, rest', hunsigned, hz⟩ : ∃ z rest', pre ++ (digits ++ tail) = z :: rest' ∧ (hexVal z).isSome = true := by
    rcases hpre with rfl | rfl | ⟨rfl, -⟩
    · exact ⟨'0', _, rfl, rfl⟩
    · exact ⟨'0', _, rfl, rfl⟩
    · exact ⟨c, rest, hrest, hc⟩
  obtain ⟨hspace, hminus, hplus⟩ := hexVal_starts hz
  have hsigned : (sign ++ z :: rest').dropWhile isSpace = sign ++ z :: rest' := by
    rcases hsign with ⟨rfl, -⟩ | ⟨rfl | rfl, -⟩
    · rfl
    · rfl
    · exact List.dropWhile_cons_of_neg (by rw [hspace]; exact Bool.false_ne_true)
  have hstarts : dropPrefix (z :: rest') = digits ++ tail := by
    rw [← hunsigned, hrest]
    exact dropPrefix_append (hrest ▸ hpre) hc
  rw [strtol, hunsigned, List.dropWhile_append_of_pos hspaces, hsigned, readSign_append hsign rest' hminus hplus]
  dsimp only
  rw [hstarts, readDigits_append hdigits]
  exact if_neg hnonempty

/-- **`strtol` reads the numbers of the grammar**, and no others. -/
theorem strtol_eq_some_iff {s : List Char} {v : Int} {tail : List Char} :
    strtol w s = some (v, tail) ↔ ∃ negative ds, IsNumber s negative ds tail ∧ v = numberValue w negative ds := by
  constructor
  · intro h
    rw [strtol] at h
    obtain ⟨sign, hsigned, hsign⟩ := readSign_isSign (s.dropWhile isSpace)
    obtain ⟨pre, hunsigned, hpre⟩ := dropPrefix_isPrefix (readSign (s.dropWhile isSpace)).2
    obtain ⟨digits, hrest, hdigits⟩ := readDigits_isDigits (dropPrefix (readSign (s.dropWhile isSpace)).2)
    dsimp only at h
    split at h
    · cases h
    · next hnonempty =>
      obtain ⟨rfl, rfl⟩ := Prod.mk.inj (Option.some.inj h)
      rw [hrest] at hunsigned hpre
      refine ⟨_, _, ⟨s.takeWhile isSpace, sign, pre, digits, ?_, ?_, hsign, hpre, hdigits, hnonempty⟩, rfl⟩
      · rw [← hunsigned, ← hsigned, List.takeWhile_append_dropWhile]
      · exact fun c hmem => List.mem_takeWhile_imp hmem
  · rintro ⟨negative, ds, hnumber, rfl⟩
    exact strtol_of_isNumber hnumber

theorem strtol_eq_none_iff {s : List Char} : strtol w s = none ↔ ∀ negative ds tail, ¬ IsNumber s negative ds tail := by
  constructor
  · intro h negative ds tail hnumber
    rw [strtol_of_isNumber hnumber] at h
    cases h
  · intro h
    cases hread : strtol w s with
    | none => rfl
    | some r =>
      obtain ⟨negative, ds, hnumber, -⟩ := strtol_eq_some_iff.1 hread
      exact absurd hnumber (h negative ds r.2)

end CString
