import TouchMouse.Model.DeviceInterfaces

/-!
# The number of an interface on Windows

The number that `hid_enumerate` finds in a path is the number that the text
after the first `&mi_` starts with. The paths that Windows makes have two
digits there, which are read back, so the library lists the devices of
interface 2.
-/

namespace TouchMouse.Windows
open CString

/-- **The number of an interface** is the number after the first `&mi_` of its
path, in the grammar of `strtol`, and -1 where there is none. -/
theorem interface_number_iff (path : List Char) (n : Int) :
    interfaceNumber path = n ↔
      (∃ before after negative ds tail, FirstAt marker path before after ∧ IsNumber after negative ds tail ∧
        n = numberValue 32 negative ds) ∨
      (n = -1 ∧ ∀ before after negative ds tail, FirstAt marker path before after → ¬ IsNumber after negative ds tail) := by
  rw [interfaceNumber]
  cases hfound : strstr marker path with
  | none =>
    have hnowhere : ∀ before after, ¬ FirstAt marker path before after := by
      intro before after hfirst
      rw [strstr_eq_some_iff.2 ⟨before, after, hfirst, rfl⟩] at hfound
      cases hfound
    constructor
    · exact fun h => .inr ⟨h.symm, fun before after _ _ _ hfirst => absurd hfirst (hnowhere before after)⟩
    · rintro (⟨before, after, _, _, _, hfirst, -⟩ | ⟨rfl, -⟩)
      · exact absurd hfirst (hnowhere before after)
      · rfl
  | some found =>
    obtain ⟨before, after, hfirst, rfl⟩ := strstr_eq_some_iff.1 hfound
    have hafter : (marker ++ after).drop 4 = after := rfl
    have hunique : ∀ before' after', FirstAt marker path before' after' → after' = after :=
      fun _ _ hfirst' => (hfirst'.unique hfirst).2
    dsimp only
    rw [hafter]
    cases hread : strtol 32 after with
    | none =>
      have hnone := strtol_eq_none_iff.1 hread
      constructor
      · intro h
        refine .inr ⟨h.symm, fun before' after' negative ds tail hfirst' => ?_⟩
        rw [hunique _ _ hfirst']
        exact hnone negative ds tail
      · rintro (⟨before', after', negative, ds, tail, hfirst', hnumber, -⟩ | ⟨rfl, -⟩)
        · rw [hunique _ _ hfirst'] at hnumber
          exact absurd hnumber (hnone negative ds tail)
        · rfl
    | some r =>
      obtain ⟨v, rest⟩ := r
      obtain ⟨negative, ds, hnumber, hv⟩ := strtol_eq_some_iff.1 hread
      constructor
      · rintro rfl
        exact .inl ⟨before, after, negative, ds, rest, hfirst, hnumber, hv⟩
      · rintro (⟨before', after', negative', ds', tail', hfirst', hnumber', rfl⟩ | ⟨-, hnone⟩)
        · rw [hunique _ _ hfirst'] at hnumber'
          rw [strtol_of_isNumber hnumber'] at hread
          exact (Prod.mk.inj (Option.some.inj hread)).1.symm
        · exact absurd hnumber (hnone _ _ _ _ _ hfirst)

/-! ## The paths of Windows -/

/-- The path of an interface with a number below 256: two digits stand after
the first `&mi_`, and no other. -/
def IsHardwareId (path : List Char) (n : Nat) : Prop :=
  n < 256 ∧ ∃ before tail, FirstAt marker path before (Numeral.write 16 Nat.digitChar 2 n ++ tail) ∧
    ∀ c ∈ tail.head?, hexVal c = none

theorem hexVal_digitChar : ∀ d < 16, hexVal (Nat.digitChar d) = some d := by decide

/-- Two digits are no prefix. -/
theorem not_hasPrefix (n : Nat) (tail : List Char) : ¬ HasPrefix (Numeral.write 16 Nat.digitChar 2 n ++ tail) := by
  rintro ⟨x, c, rest, htext, hx, -⟩
  have hsecond : Nat.digitChar (n % 16) = x := by
    have htwo : Numeral.write 16 Nat.digitChar 2 n = [Nat.digitChar (n / 16 % 16), Nat.digitChar (n % 16)] := rfl
    rw [htwo] at htext
    exact (List.cons.inj (List.cons.inj htext).2).1
  have hval := hexVal_digitChar (n % 16) (Nat.mod_lt _ (by decide))
  rw [hsecond] at hval
  rcases hx with rfl | rfl
  · revert hval
    exact nofun
  · revert hval
    exact nofun

theorem interfaceNumber_of_hardwareId {path : List Char} {n : Nat} (h : IsHardwareId path n) : interfaceNumber path = n := by
  obtain ⟨hn, before, tail, hfirst, hlongest⟩ := h
  have hdigits : IsDigits (Numeral.write 16 Nat.digitChar 2 n) (Numeral.write 16 id 2 n) tail := by
    refine ⟨?_, hlongest⟩
    rw [Numeral.map_write, Numeral.map_write]
    exact Numeral.write_congr (by decide) hexVal_digitChar 2 n
  have hnumber : IsNumber (Numeral.write 16 Nat.digitChar 2 n ++ tail) false (Numeral.write 16 id 2 n) tail :=
    ⟨[], [], [], _, rfl, nofun, .inr ⟨.inr rfl, rfl⟩, .inr (.inr ⟨rfl, not_hasPrefix n tail⟩), hdigits, nofun⟩
  have hvalue : numberValue 32 false (Numeral.write 16 id 2 n) = n := by
    rw [numberValue, Numeral.value_write (by omega), clamp]
    simp only [Bool.false_eq_true, if_false]
    omega
  exact (interface_number_iff path n).2 (.inl ⟨before, _, false, _, tail, hfirst, hnumber, hvalue.symm⟩)

/-- The record of such a path has its number. -/
theorem record_interfaceNumber {i : DeviceInterface} {n : Nat} (h : IsHardwareId i.devicePath.toList n) :
    (record i).interfaceNumber = .ofNat n := by
  rw [record, interfaceNumber_of_hardwareId h]
  rfl

theorem ofNat_beq_two {n : Nat} (hn : n < 256) : (Int32.ofNat n == 2) = (n == 2) := by
  rw [Bool.eq_iff_iff, beq_iff_eq, beq_iff_eq]
  constructor
  · intro h
    have hint := congrArg Int32.toInt h
    rw [Int32.toInt_ofNat_of_lt (by omega)] at hint
    exact Int.ofNat_inj.1 hint
  · rintro rfl
    rfl

/-- What `hid_enumerate` makes a record of. -/
def enumerated (i : DeviceInterface) : Bool := i.detail && i.handle && matchesIds 0x045e 0x0773 i

theorem hidEnumerate_eq (interfaces : List DeviceInterface) :
    hidEnumerate 0x045e 0x0773 interfaces = (interfaces.filter enumerated).map record := by
  induction interfaces with
  | nil => rfl
  | cons i interfaces ih =>
    rw [hidEnumerate, ih, List.filter_cons, enumerated]
    cases i.detail
    · rfl
    · cases i.handle
      · rfl
      · cases matchesIds 0x045e 0x0773 i <;> rfl

/-- **The TouchMice of Windows.** Of the interfaces that can be opened and have
its ids, the library lists those with the number 2, in order, where the paths
of these have their number as Windows writes it. Other devices may have any
paths. -/
theorem lists_interface_two (number : DeviceInterface → Nat) (interfaces : List DeviceInterface)
    (hpaths : ∀ i ∈ interfaces, enumerated i → IsHardwareId i.devicePath.toList (number i)) :
    (hidEnumerate 0x045e 0x0773 interfaces).filter HidPlatform.other.isTouchMouse =
      (interfaces.filter fun i => enumerated i && number i == 2).map record := by
  rw [hidEnumerate_eq, List.filter_map]
  refine congrArg (List.map record) ?_
  rw [List.filter_filter]
  refine List.filter_congr fun i hmem => ?_
  rw [Function.comp_apply]
  cases hlisted : enumerated i with
  | false => rw [Bool.and_false, Bool.false_and]
  | true =>
    have hid := hpaths i hmem hlisted
    rw [Bool.and_true, Bool.true_and, HidPlatform.isTouchMouse, record_interfaceNumber hid]
    exact ofNat_beq_two hid.1

/-- The interface 2 of a TouchMouse, after a keyboard without a number. -/
theorem lists_interface_two_touchMouse :
    let interfaces : List DeviceInterface :=
      [⟨"hid#vid_046d&pid_c31c#7", true, true, 0x046d, 0xc31c, none⟩,
        ⟨"hid#vid_045e&pid_0773&mi_02#8", true, true, 0x045e, 0x0773, none⟩]
    (hidEnumerate 0x045e 0x0773 interfaces).filter HidPlatform.other.isTouchMouse =
      (interfaces.filter fun i => enumerated i && (2 : Nat) == 2).map record := by
  refine lists_interface_two (fun _ => 2) _ (List.forall_mem_cons.2 ⟨nofun, List.forall_mem_singleton.2 fun _ => ⟨by decide, ?_⟩⟩)
  have hfound : CString.strstr marker "hid#vid_045e&pid_0773&mi_02#8".toList =
      some (marker ++ (Numeral.write 16 Nat.digitChar 2 2 ++ ['#', '8'])) := by decide
  obtain ⟨before, hfirst⟩ := firstAt_of_strstr hfound
  exact ⟨before, ['#', '8'], hfirst, fun c hc => by cases hc; rfl⟩

end TouchMouse.Windows
