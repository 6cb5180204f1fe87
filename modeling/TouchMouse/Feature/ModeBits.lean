import TouchMouse.Model.SetDeviceMode
import TouchMouse.Stream.Transducer

/-!
# The bits of the mode

`touchmouse_set_device_mode` means to set two bits of the register, the bits
of 0x06 in byte 4, and stores the whole byte. A call that gets through both
transfers clears the other six bits of it; the register keeps them exactly if
they were clear, or if no call gets that far.
-/

namespace TouchMouse
open Transducer

/-! ## Words under a mask -/

/-- Words are equal under a mask exactly if they have the same bits in it. -/
theorem and_mask_eq_iff {w : Nat} (x y mask : BitVec w) :
    x &&& mask = y &&& mask ↔ ∀ b, b < w → mask.getLsbD b = true → x.getLsbD b = y.getLsbD b := by
  constructor
  · intro h b hb hmask
    have hbit := congrArg (fun z => z.getLsbD b) h
    simpa only [BitVec.getLsbD_and, hmask, Bool.and_true] using hbit
  · intro h
    apply BitVec.eq_of_getLsbD_eq
    intro b hb
    rw [BitVec.getLsbD_and, BitVec.getLsbD_and]
    cases hmask : mask.getLsbD b with
    | false => rw [Bool.and_false, Bool.and_false]
    | true => rw [h b hb hmask]

/-! ## The register -/

/-- Bit `b` of byte `i` is one of the two that hold the mode. -/
def IsModeBit (i b : Nat) : Prop := i = 4 ∧ (b = 1 ∨ b = 2)

/-- The two bits, and the others of byte 4. -/
abbrev modeMask : UInt8 := 0x06
abbrev settingsMask : UInt8 := 0xf9

/-- Two registers agree in every bit that is not of the mode. -/
def SameSettings (r r' : FeatureReport) : Prop :=
  ∀ i (hi : i < 27), ∀ b < 8, ¬ IsModeBit i b → r'[i].toBitVec.getLsbD b = r[i].toBitVec.getLsbD b

/-- The register carries a mode in the two bits. -/
def FeatureReport.Carries (r : FeatureReport) (mode : TouchmouseMode) : Prop := r.modeByte &&& modeMask = mode.setting

/-- A call that gets through both transfers. -/
def ModeCall.Completed (call : ModeCall) : Prop := call.received = 0x1b ∧ call.written = 0x1b

theorem settingsMask_bit : ∀ b < 8, settingsMask.toBitVec.getLsbD b = true ↔ ¬ IsModeBit 4 b := by
  unfold IsModeBit
  decide

theorem SameSettings.refl (r : FeatureReport) : SameSettings r r := fun _ _ _ _ _ => rfl

/-- A register with another byte 4 agrees in them exactly if the byte does
under the mask. -/
theorem sameSettings_set_iff (r : FeatureReport) (v : UInt8) :
    SameSettings r (r.setModeByte v) ↔ v &&& settingsMask = r.modeByte &&& settingsMask := by
  rw [← UInt8.toBitVec_inj, UInt8.toBitVec_and, UInt8.toBitVec_and, and_mask_eq_iff]
  constructor
  · intro h b hb hmask
    have hbit := h 4 (by decide) b hb ((settingsMask_bit b hb).1 hmask)
    rwa [FeatureReport.getElem_setModeByte, if_pos rfl] at hbit
  · intro h i hi b hb hmode
    rw [FeatureReport.getElem_setModeByte]
    split
    · next hbyte =>
      subst hbyte
      exact h b hb ((settingsMask_bit b hb).2 hmode)
    · rfl

/-- No mode has a bit outside its own two. -/
theorem setting_settingsMask (mode : TouchmouseMode) : mode.setting &&& settingsMask = 0 := by
  cases mode <;> decide

theorem setting_modeMask (mode : TouchmouseMode) : mode.setting &&& modeMask = mode.setting := by
  cases mode <;> decide

/-! ## One call -/

/-- What a call can do: stop at the read, fail at the write, or store the
register with another byte 4. -/
theorem setDeviceMode_cases (register : FeatureReport) (call : ModeCall) :
    let r := touchmouseSetDeviceMode register call
    (call.received ≠ 0x1b ∧ r.ret = -1 ∧ r.register = register ∧
        ∀ data transferred, .sendFeatureReport data transferred ∉ r.events) ∨
      (call.received = 0x1b ∧ call.written ≠ 0x1b ∧ r.ret = -1 ∧ r.register = register) ∨
      (call.Completed ∧ r.ret = 0 ∧ r.register = register.setModeByte call.mode.setting) := by
  intro r
  by_cases hreceived : call.received = 0x1b
  · right
    by_cases hwritten : call.written = 0x1b
    · exact .inr ⟨⟨hreceived, hwritten⟩, by simp [r, touchmouseSetDeviceMode, hreceived, hwritten]⟩
    · exact .inl ⟨hreceived, hwritten, by simp [r, touchmouseSetDeviceMode, hreceived, hwritten]⟩
  · refine .inl ⟨hreceived, ?_⟩
    simp [r, touchmouseSetDeviceMode, hreceived]

/-- A call whose read is short sends nothing and reports it, and one that
reports success leaves its mode in the register. -/
def ModeResult.Honest (r : ModeResult) (call : ModeCall) : Prop :=
  (call.received ≠ 0x1b → (∀ data transferred, .sendFeatureReport data transferred ∉ r.events) ∧ r.ret = -1) ∧
    (r.ret = 0 → r.register.Carries call.mode)

theorem setDeviceMode_honest (register : FeatureReport) (call : ModeCall) :
    (touchmouseSetDeviceMode register call).Honest call := by
  rcases setDeviceMode_cases register call with ⟨-, hret, -, hsends⟩ | ⟨hreceived, -, hret, -⟩ | ⟨hcompleted, hret, hregister⟩
  · refine ⟨fun _ => ⟨hsends, hret⟩, fun h => ?_⟩
    rw [hret] at h
    cases h
  · refine ⟨fun h => absurd hreceived h, fun h => ?_⟩
    rw [hret] at h
    cases h
  · refine ⟨fun h => absurd hcompleted.1 h, fun _ => ?_⟩
    rw [FeatureReport.Carries, hregister, FeatureReport.modeByte_setModeByte, setting_modeMask]

/-! ## Sequences of calls -/

theorem modeStep_completed (register : FeatureReport) {call : ModeCall} (h : call.Completed) :
    (modeStep register call).1 = register.setModeByte call.mode.setting := by
  rcases setDeviceMode_cases register call with ⟨hreceived, -⟩ | ⟨-, hwritten, -⟩ | ⟨-, -, hregister⟩
  · exact absurd h.1 hreceived
  · exact absurd h.2 hwritten
  · exact hregister

/-- A call that fails leaves the register as it was. -/
theorem modeStep_failed (register : FeatureReport) {call : ModeCall} (h : ¬ call.Completed) :
    (modeStep register call).1 = register := by
  rcases setDeviceMode_cases register call with ⟨-, -, hregister, -⟩ | ⟨-, -, -, hregister⟩ | ⟨hcompleted, -⟩
  · exact hregister
  · exact hregister
  · exact absurd hcompleted h

/-- The register over a sequence of calls: as it was until a call gets
through, and from then on with byte 4 as some call set it. -/
theorem register_after (register : FeatureReport) (calls : List ModeCall) :
    ((∀ call ∈ calls, ¬ call.Completed) ∧ after modeStep register calls = register) ∨
      ((∃ call ∈ calls, call.Completed) ∧ ∃ mode : TouchmouseMode,
        after modeStep register calls = register.setModeByte mode.setting) := by
  induction calls generalizing register with
  | nil => exact .inl ⟨fun _ hmem => absurd hmem List.not_mem_nil, rfl⟩
  | cons call calls ih =>
    rw [after_cons, List.forall_mem_cons, List.exists_mem_cons_iff]
    by_cases hcompleted : call.Completed
    · rw [modeStep_completed register hcompleted]
      refine .inr ⟨.inl hcompleted, ?_⟩
      rcases ih (register.setModeByte call.mode.setting) with ⟨-, hrest⟩ | ⟨-, mode, hrest⟩
      · exact ⟨call.mode, hrest⟩
      · exact ⟨mode, by rw [hrest, FeatureReport.setModeByte_setModeByte]⟩
    · rw [modeStep_failed register hcompleted]
      rcases ih register with ⟨hnone, hrest⟩ | ⟨hsome, hrest⟩
      · exact .inl ⟨⟨hcompleted, hnone⟩, hrest⟩
      · exact .inr ⟨.inr hsome, hrest⟩

/-- **Mode changes and the other bits.** Over every sequence of calls, with
transfers that end in any way, each call is honest and the register keeps
every bit that is not of the mode, exactly if the other bits of byte 4 are
clear from the start or no call gets through both transfers. -/
theorem mode_changes_keep_settings_iff (register : FeatureReport) (calls : List ModeCall) :
    ((∀ before later, calls = before ++ later → SameSettings register (after modeStep register before)) ∧
        ∀ before call later, calls = before ++ call :: later →
          (touchmouseSetDeviceMode (after modeStep register before) call).Honest call) ↔
      register.modeByte &&& settingsMask = 0 ∨ ∀ call ∈ calls, ¬ call.Completed := by
  constructor
  · rintro ⟨hsettings, -⟩
    rcases register_after register calls with ⟨hnone, -⟩ | ⟨-, mode, hafter⟩
    · exact .inr hnone
    · have hsame := hsettings calls [] (List.append_nil calls).symm
      rw [hafter, sameSettings_set_iff, setting_settingsMask] at hsame
      exact .inl hsame.symm
  · intro h
    refine ⟨fun before later hcalls => ?_, fun before call later _ => setDeviceMode_honest _ call⟩
    rcases register_after register before with ⟨-, hafter⟩ | ⟨⟨call, hmem, hcompleted⟩, mode, hafter⟩
    · rw [hafter]
      exact .refl register
    · have hclear : register.modeByte &&& settingsMask = 0 :=
        h.resolve_right fun hnone => hnone call (hcalls ▸ List.mem_append_left later hmem) hcompleted
      rw [hafter, sameSettings_set_iff, setting_settingsMask, hclear]

/-- Bit 0 of byte 4 is set, and a call for raw images clears it. -/
theorem mode_change_clears_setting :
    ¬ SameSettings (FeatureReport.setModeByte (Vector.replicate 27 0) 0x01)
      (after modeStep (FeatureReport.setModeByte (Vector.replicate 27 0) 0x01) [⟨.rawImage, 27, 27⟩]) := by
  intro h
  have hbit := h 4 (by decide) 0 (by decide) (fun hmode => hmode.2.elim (nomatch ·) (nomatch ·))
  revert hbit
  decide

end TouchMouse
