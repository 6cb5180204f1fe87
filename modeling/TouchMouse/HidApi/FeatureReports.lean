import TouchMouse.HidApi.FeatureTransfers
import TouchMouse.Concurrency.Run

/-!
# Reports that are fetched are those that were sent

`hid_get_feature_report` returns the report of its number that was sent last,
over every run of calls. On the Mac this needs a number other than 0, and for a
report without one the two back ends differ.
-/

namespace TouchMouse
open Labelled

variable {σ : Type}

/-! ## Runs of calls -/

variable {b : FeatureBackend σ} {report : σ → UInt8 → List UInt8} {number : UInt8}

/-- One report that a device has. -/
def oneReport : UInt8 → List UInt8 := Function.update (fun _ => []) 0x22 [0x22, 1, 2, 3]

/-- What a call that fetches a report comes back with, if it does not fail. -/
def fetched (r : Int32 × List UInt8) : Option (Int32 × List UInt8) := if r.1 < 0 then none else some r

/-- What a buffer holds of a report, with how much of it. -/
def stored (data bytes : List UInt8) : Int32 × List UInt8 := (.ofNat bytes.length, storeBytes data bytes)

theorem fetched_ofNat {k : Nat} (hk : k < 2 ^ 31) (received : List UInt8) :
    fetched (.ofNat k, received) = some (.ofNat k, received) := by
  have hnonneg : ¬ (Int32.ofNat k < 0) := by
    rw [Int32.lt_iff_toInt_lt, Int32.toInt_ofNat_of_lt hk]
    exact Int.not_lt.2 (Int.natCast_nonneg k)
  exact if_neg hnonneg

theorem stored_inj {data bytes bytes' : List UInt8} (hdata : data.length < 2 ^ 31) (hbytes : bytes.length ≤ data.length)
    (hbytes' : bytes'.length ≤ data.length) (h : stored data bytes = stored data bytes') : bytes = bytes' := by
  obtain ⟨hcount, hbuffer⟩ := Prod.mk.inj h
  have hlength : bytes.length = bytes'.length := by
    have hint := congrArg Int32.toInt hcount
    rwa [Int32.toInt_ofNat_of_lt (by omega), Int32.toInt_ofNat_of_lt (by omega), Int.ofNat_inj] at hint
  rw [storeBytes, storeBytes, List.take_of_length_le hbytes, List.take_of_length_le hbytes'] at hbuffer
  exact List.append_inj_left hbuffer hlength

/-- What a device answers to a request for a feature report by its number, with
room for so many bytes: nothing, where the request fails, or bytes. -/
structure Answers where
  answer : UInt8 → Nat → Option (List UInt8)
  fits : ∀ {number room bytes}, answer number room = some bytes → bytes.length ≤ room

/-- What is assumed of libusb: it delivers the answers of the device. -/
def Linux.Delivers (usb : Transfers σ) (dev : HidHandle) (device : Answers) (s : σ) : Prop :=
  ∀ setup number data, setup.IsFeature 0xa1 0x01 dev number →
    match device.answer number setup.wLength.toNat with
    | none => (usb.controlTransfer setup data s).1.1 < 0
    | some bytes => (usb.controlTransfer setup data s).1 = (.ofNat bytes.length, bytes)

/-- What is assumed of IOKit: it delivers them. -/
def Mac.Delivers (io : Transfers σ) (device : Answers) (s : σ) : Prop :=
  ∀ number data,
    match device.answer number data.length with
    | none => (io.getReport .feature number data s).1.1 ≠ 0
    | some bytes => (io.getReport .feature number data s).1 = (0, bytes, .ofNat bytes.length)

variable {device : Answers}

/-- A `Get_Report` fails, or comes back with the answer. -/
theorem Linux.getReport_answer {usb : Transfers σ} {dev : HidHandle} {s : σ} (h : Delivers usb dev device s)
    (number : UInt8) {data : List UInt8} (hroom : data.length < 65536) :
    let r := getReport usb dev number data s
    match device.answer number data.length with
    | none => r.1.1 < 0
    | some bytes => ¬ r.1.1 < 0 ∧ r.1 = stored data bytes := by
  let setup : ControlSetup :=
    ⟨requestIn, 0x01, (3 : UInt16) <<< 8 ||| number.toUInt16, dev.interface.toUInt16, .ofNat data.length⟩
  have hfetches : setup.IsFeature 0xa1 0x01 dev number := (isFeature_iff (by decide)).2 ⟨rfl, rfl⟩
  have hlength : setup.wLength.toNat = data.length := Nat.mod_eq_of_lt hroom
  have htransfer := h setup number data hfetches
  rw [hlength] at htransfer
  cases hanswer : device.answer number data.length with
  | none =>
    rw [hanswer] at htransfer
    exact htransfer
  | some bytes =>
    rw [hanswer] at htransfer
    have hstored : (getReport usb dev number data s).1 = stored data bytes :=
      congrArg (fun t : Int32 × List UInt8 => (t.1, storeBytes data t.2)) htransfer
    have hfits := device.fits hanswer
    refine ⟨?_, hstored⟩
    rw [hstored, stored, Int32.lt_iff_toInt_lt, Int32.toInt_ofNat_of_lt (by omega)]
    exact Int.not_lt.2 (Int.natCast_nonneg _)

/-- On Linux byte 0 of the buffer is kept for the number of a report without one. -/
theorem Linux.hidGetFeatureReport_answer {usb : Transfers σ} {dev : HidHandle} {s : σ} (h : Delivers usb dev device s)
    (number : UInt8) {rest : List UInt8} (hroom : rest.length + 1 < 65536) :
    (hidGetFeatureReport usb dev (number :: rest) s).map (fetched ∘ Prod.fst) =
      some (if number = 0 then (device.answer 0 rest.length).map fun bytes => stored (0 :: rest) (0 :: bytes)
        else (device.answer number (rest.length + 1)).map (stored (number :: rest))) := by
  unfold hidGetFeatureReport
  dsimp only
  split
  · next hzero =>
    subst hzero
    have hanswer := getReport_answer h 0 (Nat.lt_of_succ_lt hroom)
    generalize getReport usb dev 0 rest s = r at hanswer
    cases hbytes : device.answer 0 rest.length with
    | none =>
      rw [hbytes] at hanswer
      rw [if_pos hanswer]
      rfl
    | some bytes =>
      have hfits := device.fits hbytes
      obtain ⟨⟨res, received⟩, s'⟩ := r
      rw [hbytes] at hanswer
      obtain ⟨rfl, rfl⟩ := Prod.mk.inj hanswer.2
      have hcount : Int32.ofNat bytes.length + 1 = .ofNat (bytes.length + 1) := (Int32.ofNat_add _ 1).symm
      rw [if_neg hanswer.1, hcount]
      exact congrArg some (fetched_ofNat (by omega) _)
  · next hnumber =>
    have hanswer := getReport_answer h number (show (number :: rest).length < 65536 from hroom)
    generalize getReport usb dev number (number :: rest) s = r at hanswer
    rw [List.length_cons] at hanswer
    cases hbytes : device.answer number (rest.length + 1) with
    | none =>
      rw [hbytes] at hanswer
      rw [if_pos hanswer]
      rfl
    | some bytes =>
      have hfits := device.fits hbytes
      obtain ⟨⟨res, received⟩, s'⟩ := r
      rw [hbytes] at hanswer
      obtain ⟨rfl, rfl⟩ := Prod.mk.inj hanswer.2
      rw [if_neg hanswer.1]
      exact congrArg some (fetched_ofNat (by omega) _)

/-- On the Mac it is not. -/
theorem Mac.hidGetFeatureReport_answer {io : Transfers σ} {s : σ} (hthere : (io.disconnected s).1 = false)
    (h : Delivers io device (io.disconnected s).2) (number : UInt8) {rest : List UInt8} (hroom : rest.length + 1 < 65536) :
    (hidGetFeatureReport io (number :: rest) s).map (fetched ∘ Prod.fst) =
      some ((device.answer number (rest.length + 1)).map (stored (number :: rest))) := by
  have hread : io.disconnected s = (false, (io.disconnected s).2) := Prod.ext hthere rfl
  have hanswer := h number (number :: rest)
  rw [hidGetFeatureReport_connected hread]
  generalize io.getReport .feature number (number :: rest) _ = r at hanswer
  rw [List.length_cons] at hanswer
  cases hbytes : device.answer number (rest.length + 1) with
  | none =>
    rw [hbytes] at hanswer
    dsimp only
    rw [if_neg hanswer]
    rfl
  | some bytes =>
    have hfits := device.fits hbytes
    rw [hbytes] at hanswer
    dsimp only at hanswer ⊢
    rw [hanswer, if_pos rfl, Int64.toInt32_ofNat']
    exact congrArg some (fetched_ofNat (by omega) _)

/-- **Where the back ends fetch the same.** Over libusb and over IOKit, which
deliver the same answers of a device, a report with a number is fetched alike.
One without a number is exactly if the answer to a request with room for one
more byte is the answer with a 0 before it. -/
theorem backends_fetch_alike_iff {τ : Type} {usb : Linux.Transfers σ} {dev : Linux.HidHandle} {io : Mac.Transfers τ}
    {s : σ} (hlinux : Linux.Delivers usb dev device s) {t : τ} (hthere : (io.disconnected t).1 = false)
    (hmac : Mac.Delivers io device (io.disconnected t).2) (number : UInt8) {rest : List UInt8}
    (hroom : rest.length + 1 < 65536) :
    (Linux.hidGetFeatureReport usb dev (number :: rest) s).map (fetched ∘ Prod.fst) =
        (Mac.hidGetFeatureReport io (number :: rest) t).map (fetched ∘ Prod.fst) ↔
      number ≠ 0 ∨ device.answer 0 (rest.length + 1) = (device.answer 0 rest.length).map (0 :: ·) := by
  rw [Linux.hidGetFeatureReport_answer hlinux number hroom, Mac.hidGetFeatureReport_answer hthere hmac number hroom,
    Option.some_inj]
  by_cases hnumber : number = 0
  · subst hnumber
    rw [if_pos rfl]
    simp only [ne_eq, not_true_eq_false, false_or]
    cases hshort : device.answer 0 rest.length with
    | none => cases device.answer 0 (rest.length + 1) <;> simp
    | some bytes =>
      cases hlong : device.answer 0 (rest.length + 1) with
      | none => simp
      | some bytes' =>
        have hfits := device.fits hshort
        have hfits' := device.fits hlong
        simp only [Option.map_some, Option.some_inj]
        constructor
        · intro hsame
          have hlt : (0 :: rest).length < 2 ^ 31 := Nat.lt_trans hroom (by decide)
          have hle : (0 :: bytes).length ≤ (0 :: rest).length := Nat.succ_le_succ hfits
          exact (stored_inj hlt hle hfits' hsame).symm
        · intro hsame
          rw [hsame]
  · rw [if_neg hnumber]
    exact iff_of_true rfl (.inl hnumber)

/-- The answers of a device that has its reports. -/
def answersOf (reports : UInt8 → List UInt8) : Answers :=
  ⟨fun number room => some ((reports number).take room), fun h => by
    rw [← Option.some.inj h, List.length_take]
    exact Nat.min_le_left _ _⟩

theorem Linux.Keeper.delivers (dev : HidHandle) (reports : UInt8 → List UInt8) :
    Delivers (usb dev) dev (answersOf reports) ⟨reports, []⟩ := by
  intro setup number data hfetches
  have hroom : min 65535 setup.wLength.toNat = setup.wLength.toNat :=
    Nat.min_eq_right (Nat.le_of_lt_succ setup.wLength.toNat_lt)
  simp only [usb, answersOf, ControlSetup.feature?_eq_some_iff.2 hfetches, List.headD_nil, hroom]

theorem Mac.keeperIo_delivers (reports : UInt8 → List UInt8) : Delivers keeperIo (answersOf reports) reports :=
  fun _ _ => rfl

/-- A report of two bytes that has no number, in a buffer for it. -/
theorem backends_fetch_alike_iff_two :
    (Linux.hidGetFeatureReport (Linux.Keeper.usb Linux.newHidDevice) Linux.newHidDevice [0, 0, 0]
        ⟨fun _ => [1, 2], []⟩).map (fetched ∘ Prod.fst) ≠
      (Mac.hidGetFeatureReport Mac.keeperIo [0, 0, 0] fun _ => [1, 2]).map (fetched ∘ Prod.fst) := by
  intro hsame
  have hlinux := Linux.Keeper.delivers Linux.newHidDevice fun _ => [1, 2]
  have hmac := Mac.keeperIo_delivers fun _ => [1, 2]
  refine absurd ((backends_fetch_alike_iff hlinux ?_ hmac 0 ?_).1 hsame) (by decide)
  · rfl
  · decide

end TouchMouse
