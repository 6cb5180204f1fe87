import TouchMouse.HidApi.FeatureTransfers
import TouchMouse.Concurrency.Run
import TouchMouse.Feature.ModeBits
import Mathlib.Data.List.Induction

/-!
# Mode changes over HIDAPI

The feature report of the library has a number, so its mode changes go through
either back end as they are, as long as no transfer takes a part of the report
only. Then Linux returns the whole length, and the library 0.
-/

namespace TouchMouse
open Labelled Transducer

variable {σ : Type} {b : FeatureBackend σ} {report : σ → UInt8 → List UInt8}

/-! ## One change -/

/-- How many bytes of the report went out in a mode change. -/
def ModeChange.taken (change : ModeChange) : Option Nat := change.sent.bind Sent.taken

/-- What a mode change returned, for its mode. -/
def ModeChange.returned (change : ModeChange) : TouchmouseMode × Int := (change.mode, change.ret.toInt)

/-- The register as a device has it that was just plugged in. -/
def plugged : UInt8 → List UInt8 := fun _ => FeatureReport.request.toList

/-- A change returns 0 after a transfer of 5 bytes that the device drops. -/
theorem short_transfer_sets_nothing :
    ModeChangeStep (Linux.featureBackend (Linux.Keeper.usb Linux.newHidDevice) Linux.newHidDevice)
      ⟨plugged, [some 64, some 5]⟩ ⟨.rawImage, 0, some ⟨27, some 5⟩⟩ ⟨plugged, []⟩ := rfl

end TouchMouse
