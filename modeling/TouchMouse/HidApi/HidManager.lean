import TouchMouse.Model.HidManager

/-!
# The device that a path opens on the Mac

A path ends in the reference of its device, so to open a record that was
enumerated never opens another device, whatever stands in front of it. It does
open its own exactly if the transport reads as it did before. The devices
whose transport cannot be read share the empty path.
-/

namespace TouchMouse.Mac

/-! ## Paths -/

theorem mem_hidEnumerate {vendorId productId : UInt16} {deviceArray : List (OsDevice × Transport)} {info : HidDeviceInfo}
    (h : info ∈ hidEnumerate vendorId productId deviceArray) :
    ∃ d transport, (d, transport) ∈ deviceArray ∧ matchesIds vendorId productId d ∧ info = record d transport := by
  induction deviceArray with
  | nil => cases h
  | cons t deviceArray ih =>
    obtain ⟨d, transport⟩ := t
    rw [hidEnumerate] at h
    split at h
    · next hids =>
      rcases List.mem_cons.1 h with rfl | hrest
      · exact ⟨d, transport, List.mem_cons_self, hids, rfl⟩
      · obtain ⟨d', transport', hmem, hrest⟩ := ih hrest
        exact ⟨d', transport', List.mem_cons_of_mem _ hmem, hrest⟩
    · obtain ⟨d', transport', hmem, hrest⟩ := ih h
      exact ⟨d', transport', List.mem_cons_of_mem _ hmem, hrest⟩

end TouchMouse.Mac
