import TouchMouse.Call.Delivery
import TouchMouse.HidApi.Delivery

/-!
# From the wire to the callback

The event loop on top of a HIDAPI back end: what `hid_read_timeout` returns to
it is what the reads of a run return. The touch reports that it interprets are
reports that arrived, in order, and it does with them what the reassembler
does. Where no report was displaced and everything was read, these are all,
and the frames that a mouse sends are the frames that are shown.
-/

namespace TouchMouse
open Transducer Labelled Reassembly

variable {ι : Type}

/-! ## Reads -/

/-- A report, as a read with room for 255 bytes returns it. -/
def ReadResult.ofReport (rpt : Report) : ReadResult where
  res := (min 255 rpt.length : Nat)
  bytes := rpt.take 255
  length_eq := List.length_take
  fits := by omega

/-- What `hid_read_timeout` returns, and what it wrote. -/
def HidLabel.return? : HidLabel ι → Option (Int × List UInt8)
  | .returnedData _ _ bytesRead data => some (bytesRead, data)
  | .returned _ _ bytesRead => some (bytesRead, [])
  | _ => none

/-- What the event loop reads is what the reads of a run returned. -/
def Delivered (labels : List (HidLabel ι)) (reads : List ReadResult) : Prop :=
  reads.map (fun r => (r.res, r.bytes)) = labels.filterMap HidLabel.return?

/-- Each read that returned data had room for 255 bytes. -/
def RoomFor255 (labels : List (HidLabel ι)) : Prop := ∀ r ∈ returnedData labels, r.1.length = 255

theorem ReadResult.ext {r r' : ReadResult} (hres : r.res = r'.res) (hbytes : r.bytes = r'.bytes) : r = r' := by
  obtain ⟨res, bytes, _, _⟩ := r
  obtain ⟨res', bytes', _, _⟩ := r'
  subst hres hbytes
  rfl

/-- A return without data is no touch report. -/
theorem not_isTouch_of_nil {r : ReadResult} (h : r.bytes = []) : ¬ r.IsTouch := by
  rintro ⟨-, hid⟩
  rw [h] at hid
  cases hid

theorem touchReports_cons (r : ReadResult) (rs : List ReadResult) :
    touchReports (r :: rs) = r.packet?.toList ++ touchReports rs := by
  rw [touchReports_eq_flatMap, List.flatMap_cons, ← touchReports_eq_flatMap]

/-- The touch reports among the reads are those among the reports that were
read. -/
theorem touchReports_delivered {labels : List (HidLabel ι)} {reads : List ReadResult} {rpts : List Report}
    (hreads : Delivered labels reads) (hshows : List.Forall₂ Shows rpts (returnedData labels))
    (hroom : RoomFor255 labels) :
    touchReports reads = touchReports (rpts.map .ofReport) ∧
      ∀ r ∈ reads, r.IsTouch → ∃ rpt ∈ rpts, r = .ofReport rpt := by
  unfold Delivered at hreads
  induction labels generalizing reads rpts with
  | nil =>
    obtain rfl := List.map_eq_nil_iff.1 hreads
    cases hshows
    exact ⟨rfl, by simp⟩
  | cons a labels ih =>
    cases a with
    | returnedData i read bytesRead data =>
      obtain ⟨r, reads, rfl, hr, hreads⟩ := List.map_eq_cons_iff.1 hreads
      cases hshows with
      | @cons rpt _ rpts _ hrpt hshows =>
        obtain ⟨hres, hbytes⟩ := Prod.mk.inj hr
        have hlength : read.length = 255 := hroom (read, bytesRead, data) (List.mem_cons_self ..)
        obtain ⟨hn, hdata⟩ := hrpt
        dsimp only at hn hdata
        rw [hlength] at hn hdata
        have hof : r = .ofReport rpt := by
          apply ReadResult.ext
          · rw [hres, hn]
            rfl
          · rw [hbytes, hdata]
            rfl
        obtain ⟨htouch, hmem⟩ := ih hreads hshows fun x hx => hroom x (List.mem_cons_of_mem _ hx)
        refine ⟨by rw [touchReports_cons, htouch, List.map_cons, touchReports_cons, hof], ?_⟩
        intro x hx hx'
        rcases List.mem_cons.1 hx with rfl | hx
        · exact ⟨rpt, List.mem_cons_self .., hof⟩
        · obtain ⟨rpt', hrpt', hof'⟩ := hmem x hx hx'
          exact ⟨rpt', List.mem_cons_of_mem _ hrpt', hof'⟩
    | returned i read bytesRead =>
      obtain ⟨r, reads, rfl, hr, hreads⟩ := List.map_eq_cons_iff.1 hreads
      have hnot := not_isTouch_of_nil (Prod.mk.inj hr).2
      obtain ⟨htouch, hmem⟩ := ih hreads hshows hroom
      refine ⟨by rw [touchReports_cons, ReadResult.packet?, if_neg hnot, htouch]; rfl, ?_⟩
      intro x hx hx'
      rcases List.mem_cons.1 hx with rfl | hx
      · exact absurd hx' hnot
      · exact hmem x hx hx'
    | _ => exact ih hreads hshows hroom

/-! ## The event loop over a run -/

/-- The touch reports among some reports. -/
def touchPackets (rpts : List Report) : List Packet := touchReports (rpts.map .ofReport)

theorem touchPackets_append (rpts rpts' : List Report) :
    touchPackets (rpts ++ rpts') = touchPackets rpts ++ touchPackets rpts' := by
  rw [touchPackets, List.map_append, touchReports_append]
  rfl

theorem touchPackets_sublist {rpts rpts' : List Report} (h : rpts.Sublist rpts') :
    (touchPackets rpts).Sublist (touchPackets rpts') :=
  (h.map _).filterMap _

variable [DecidableEq ι] {b : Backend}

/-- What the event loop makes of a run. -/
structure Interprets (labels : List (HidLabel ι)) (s : System ι) (env : Env) (es : List Event) : Prop where
  /-- it does with its reports what the reassembler does -/
  shows : signals es = (outputs (step frameReader) [] (reports (signals es))).flatMap emissionSignals
  /-- which are some that arrived, in order -/
  arrived : (reports (signals es)).Sublist (touchPackets (receivedReports labels))
  /-- and all up to some point, if none was displaced -/
  lossless : displacedReports labels = [] →
    touchPackets (receivedReports labels) =
      reports (signals es) ++ touchReports env.reads ++ touchPackets s.dev.inputReports

theorem run_interprets (hb : b.Lawful) {labels : List (HidLabel ι)} {s : System ι}
    (h : Run (HidStep b) .opened labels s) (hroom : RoomFor255 labels)
    (hrange : ∀ rpt ∈ receivedReports labels, (ReadResult.ofReport rpt).InRange) {reads : List ReadResult}
    (hreads : Delivered labels reads) {handle : Addr} {opened : Device} (hopen : touchmouseOpen handle = some opened)
    (ops : List Op) :
    let r := run passive ops ⟨opened, reads⟩
    Interprets labels s r.1 r.2 := by
  intro r
  obtain ⟨l, hbooks⟩ := run_books hb h
  obtain ⟨htouch, hmem⟩ := touchReports_delivered hreads hbooks.read hroom
  have hsub := l.read_sublist
  rw [hbooks.arrived] at hsub
  have hinRange : ∀ x ∈ reads, x.InRange := by
    intro x hx hx'
    obtain ⟨rpt, hrpt, rfl⟩ := hmem x hx hx'
    exact hrange rpt (hsub.subset hrpt) hx'
  have hrefines : Refines [] ⟨opened, reads⟩ r.1 r.2 := run_refines ⟨opened, reads⟩ (opened_tracks hopen) ops
  have hreports : reports (signals r.2) = touchReports (received r.2) :=
    run_reports ⟨opened, reads⟩ ops (hrefines.inRange hinRange)
  have hall : reports (signals r.2) ++ touchReports r.1.reads = touchPackets (l.left .read) := by
    rw [hreports, ← touchReports_append, hrefines.reads, htouch]
    rfl
  refine ⟨hrefines.shows, ?_, fun hlost => ?_⟩
  · have htaken := List.sublist_append_left (reports (signals r.2)) (touchReports r.1.reads)
    rw [hall] at htaken
    exact htaken.trans (touchPackets_sublist hsub)
  · have harrived := l.lossless (hbooks.lost.trans hlost)
    rw [← hbooks.arrived, harrived, touchPackets_append, hall, hbooks.queue]

/-- **The event loop over HIDAPI.** For every interleaving of arrivals and
reads on either back end, and every program that makes these reads, the touch
reports that are interpreted are reports that arrived, in order and each at
most once, and the callbacks and decode errors are exactly what the
reassembler makes of them; without displacement none is missing. -/
theorem event_loop_over_hid (hb : b = Linux.backend ∨ b = Mac.backend) {labels : List (HidLabel ι)} {s : System ι}
    (h : Run (HidStep b) .opened labels s) (hroom : RoomFor255 labels)
    (hrange : ∀ rpt ∈ receivedReports labels, (ReadResult.ofReport rpt).InRange) {reads : List ReadResult}
    (hreads : Delivered labels reads) {handle : Addr} {opened : Device} (hopen : touchmouseOpen handle = some opened)
    (ops : List Op) :
    let r := run passive ops ⟨opened, reads⟩
    Interprets labels s r.1 r.2 :=
  run_interprets (lawful_of hb) h hroom hrange hreads hopen ops

/-! A report with the frame of zeroes, which arrives and is read. -/

def zeroBytes : Report := [0x27, 12, 0x14, 0x01, 0x00, 0x51, 8] ++ List.replicate 10 0xff ++ 0xf0 :: List.replicate 14 0

def zeroLabels : List (HidLabel Unit) :=
  [.received zeroBytes none, .returnedData () ⟨255, 0⟩ 32 zeroBytes]

theorem zeroLabels_run : Run (HidStep Linux.backend) .opened zeroLabels .opened :=
  linux_one_report zeroBytes ⟨255, 0⟩

theorem zeroLabels_delivered : Delivered zeroLabels [.ofReport zeroBytes] := rfl

theorem event_loop_over_hid_zero :
    let r := run passive [.setImageUpdateCallback 1, .processEventsTimeout (-1) fun _ => 1]
      ⟨(touchmouseOpen 1).get (by decide), [.ofReport zeroBytes]⟩
    Interprets zeroLabels .opened r.1 r.2 :=
  event_loop_over_hid (.inl rfl) zeroLabels_run (by unfold RoomFor255; decide) (by unfold ReadResult.InRange; decide)
    zeroLabels_delivered (rfl : touchmouseOpen 1 = some _) _

/-- **Frames over HIDAPI.** A mouse sends its frames as groups of reports,
some of them cut short by what was lost on the way. If no report was displaced
and all were read, the callbacks are shown exactly the complete groups. -/
theorem groups_over_hid (hb : b = Linux.backend ∨ b = Mac.backend) {labels : List (HidLabel ι)} {s : System ι}
    (h : Run (HidStep b) .opened labels s) (hroom : RoomFor255 labels)
    (hrange : ∀ rpt ∈ receivedReports labels, (ReadResult.ofReport rpt).InRange) {groups : List Group}
    (hstream : touchPackets (receivedReports labels) = groups.flatMap Group.packets)
    (hchain : groups.IsChain fun g g' => g.Complete ∨ g'.timestamp ≠ g.timestamp)
    (hkept : displacedReports labels = []) (hempty : s.dev.inputReports = []) {reads : List ReadResult}
    (hreads : Delivered labels reads) {handle : Addr} {opened : Device} (hopen : touchmouseOpen handle = some opened)
    (ops : List Op) (hdrained : (run passive ops ⟨opened, reads⟩).1.reads = []) :
    let es := (run passive ops ⟨opened, reads⟩).2
    shown es = (groups.filter fun g => g.Complete).map Group.shown ∧ ∀ timestamp, .decodeError timestamp ∉ es := by
  intro es
  have hrun := (run_interprets (lawful_of hb) h hroom hrange hreads hopen ops).lossless hkept
  have hnone : touchPackets ([] : List Report) = [] := rfl
  have hnil : touchReports [] = [] := rfl
  rw [hempty, hnone, hdrained, hnil, List.append_nil, List.append_nil, hstream] at hrun
  have hrefines : Refines [] ⟨opened, reads⟩ (run passive ops ⟨opened, reads⟩).1 es :=
    run_refines ⟨opened, reads⟩ (opened_tracks hopen) ops
  have hready : ∀ g ∈ groups.head?, Ready g.timestamp ([] : List Packet) := fun g _ =>
    ready_of_data_nil rfl g.timestamp
  have hshows := Group.outputs_groups hready hchain
  constructor
  · have hshown : shown es = _ := hrefines.shown
    rw [hshown, ← hrun]
    exact hshows.frames
  · apply hrefines.no_error
    rw [← hrun]
    exact hshows.no_error

theorem groups_over_hid_zero :
    let group : Group :=
      { zeroGroup 8 with
        sent := [List.replicate 10 0xff ++ [0xf0]]
        size := by decide
        cut := by decide
        last := by decide
        arrived := [List.replicate 10 0xff ++ [0xf0]]
        arrived_prefix := List.prefix_rfl
        arrived_ne := by decide }
    let es := (run passive [.setImageUpdateCallback 1, .processEventsTimeout (-1) fun _ => 1]
      ⟨(touchmouseOpen 1).get (by decide), [.ofReport zeroBytes]⟩).2
    shown es = ([group].filter fun g => g.Complete).map Group.shown := by
  intro group es
  refine (groups_over_hid (.inl rfl) zeroLabels_run ?_ ?_ ?_ ?_ rfl rfl zeroLabels_delivered
    (rfl : touchmouseOpen 1 = some _) [.setImageUpdateCallback 1, .processEventsTimeout (-1) fun _ => 1] ?_).1
  · unfold RoomFor255
    decide
  · unfold ReadResult.InRange
    decide
  · decide
  · decide
  · decide +kernel

end TouchMouse
