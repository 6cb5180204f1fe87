import TouchMouse.Call.Blocks
import Mathlib.Data.List.Chain

/-!
# End-to-end delivery

A mouse sends its frames as groups of reports, and some reports of a group may
be lost from its end on. Whatever was read before, a driver that reads such a
stream in any number of calls shows exactly the complete frames, in order.
The invariant from group to group is `Ready`: nothing that is collected can
mix with the timestamp of the next group.
-/

namespace TouchMouse
open Transducer Reassembly EscapeCode

/-- A frame as the mouse sends it: tokens that expand to it, spelled in the
data of reports that all carry one timestamp. Only the report that the frame
ends in may have more nybbles after it, and then it is the last: the decoder is
reset at the end of a frame, so a report of trailing nybbles alone would be the
first of another group with that timestamp. Of the reports that are sent a
non-empty beginning arrives. -/
structure Group where
  timestamp : UInt8
  frame : Vector Pixel 181
  tokens : List (Token Nybble Pixel)
  tokens_frame : scheme.expand tokens = frame.toList
  sent : List (List UInt8)
  size : ∀ bytes ∈ sent, bytes.length ≤ 25
  trailing : List Nybble
  cut : nybbles sent.flatten = scheme.encode tokens ++ trailing
  last : trailing ≠ [] → (nybbles sent.dropLast.flatten).length < (scheme.encode tokens).length
  arrived : List (List UInt8)
  arrived_prefix : arrived <+: sent
  arrived_ne : arrived ≠ []

namespace Group

variable (g : Group)

/-- The reports that arrive. -/
def packets : List Packet := g.arrived.map (Packet.mk g.timestamp)

/-- Some reports hold the whole encoding. -/
def Covers (chunks : List (List UInt8)) : Prop := scheme.encode g.tokens <+: nybbles chunks.flatten

instance (chunks : List (List UInt8)) : Decidable (g.Covers chunks) := inferInstanceAs (Decidable (_ <+: _))

/-- The whole frame arrives. -/
def Complete : Prop := g.Covers g.arrived

instance : DecidablePred Complete := fun g => inferInstanceAs (Decidable (g.Covers g.arrived))

/-- What the callback is to be shown. -/
def shown : UInt8 × Vector UInt8 195 := (g.timestamp, imageOf (padded g.frame.toList))

theorem expand_length : (scheme.expand g.tokens).length = 181 := by rw [g.tokens_frame, Vector.length_toList]

theorem not_covers_nil : ¬ g.Covers [] := by
  intro h
  have hnil : scheme.encode g.tokens = [] := List.prefix_nil.1 h
  have hlen := g.expand_length
  rw [← scheme.values_encode, hnil] at hlen
  simp at hlen

/-- Reports that do not hold the whole encoding leave room. -/
theorem verdict_more {chunks : List (List UInt8)} (hsent : chunks <+: g.sent) (h : ¬ g.Covers chunks) :
    frameReader.verdict chunks.flatten = .more := by
  obtain ⟨rest, hrest⟩ := hsent
  have hprefix : nybbles chunks.flatten <+: scheme.encode g.tokens ++ g.trailing := by
    rw [← g.cut, ← hrest, List.flatten_append, nybbles_append]
    exact List.prefix_append _ _
  obtain ⟨v, hv⟩ := (List.prefix_or_prefix_of_prefix hprefix (List.prefix_append _ _)).resolve_right h
  have hne : v ≠ [] := by
    rintro rfl
    exact h ⟨[], by rw [List.append_nil] at hv ⊢; exact hv.symm⟩
  rw [frameReader_more_iff]
  have := scheme.values_lt_of_proper_prefix hv.symm hne
  rwa [g.expand_length] at this

/-- Reports that hold the whole encoding read as the frame. -/
theorem verdict_full {chunks : List (List UInt8)} (h : g.Covers chunks) :
    frameReader.verdict chunks.flatten = .full g.frame.toList := by
  obtain ⟨rest, hrest⟩ := h
  exact (scheme.verdict_full_iff (by decide) _ _).2 ⟨g.tokens, rest, hrest.symm, g.tokens_frame, Vector.length_toList⟩

end Group

theorem nybbles_length (bs : List UInt8) : (nybbles bs).length = 2 * bs.length := by
  induction bs with
  | nil => rfl
  | cons b bs ih =>
    have : nybbles (b :: bs) = low b :: high b :: nybbles bs := rfl
    rw [this, List.length_cons, List.length_cons, ih, List.length_cons]
    omega

theorem data_map_mk (k : UInt8) (chunks : List (List UInt8)) : data (chunks.map (Packet.mk k)) = chunks.flatten := by
  induction chunks with
  | nil => rfl
  | cons c chunks ih => rw [List.map_cons, data_cons, ih, List.flatten_cons]

namespace Group

variable (g : Group)

/-- The reports after the one that a complete frame ends in are empty. -/
theorem empty_after_end {front rest : List (List UInt8)} {x : List UInt8} (harrived : g.arrived = front ++ x :: rest)
    (hcovers : g.Covers (front ++ [x])) : ∀ bytes ∈ rest, bytes = [] := by
  obtain ⟨lost, hsent⟩ := g.arrived_prefix
  rw [harrived] at hsent
  cases rest with
  | nil => simp
  | cons y rest =>
    have hsplit : g.sent = (front ++ [x]) ++ (y :: rest ++ lost) := by rw [← hsent]; simp
    have hle : (scheme.encode g.tokens).length ≤ (nybbles g.sent.dropLast.flatten).length := by
      rw [hsplit, List.dropLast_append_of_ne_nil (by simp), List.flatten_append, nybbles_append, List.length_append]
      exact Nat.le_add_right_of_le hcovers.length_le
    -- the frame ends before the last report, so nothing trails
    have htrailing : g.trailing = [] := by
      by_contra hne
      exact absurd (g.last hne) (Nat.not_lt.2 hle)
    have hcut := congrArg List.length g.cut
    rw [htrailing, List.append_nil, hsplit, List.flatten_append, nybbles_append, List.length_append] at hcut
    have hzero : (nybbles (y :: rest ++ lost).flatten).length = 0 := by
      have := hcovers.length_le
      omega
    rw [nybbles_length] at hzero
    have hflat : (y :: rest ++ lost).flatten = [] := List.length_eq_zero_iff.1 (by omega)
    intro bytes hbytes
    exact List.flatten_eq_nil_iff.1 hflat bytes (List.mem_append_left _ hbytes)

theorem packets_key : ∀ q ∈ g.packets, q.key = g.timestamp := by
  intro q hq
  obtain ⟨bytes, -, rfl⟩ := List.mem_map.1 hq
  rfl

/-- What the outputs over some packets amount to: these frames are shown, and
there is no error. -/
structure Shows (trace : List (Packet × Option (Emission UInt8 UInt8 (List Pixel))))
    (frames : List (UInt8 × Vector UInt8 195)) : Prop where
  frames : (trace.filterMap frame?).map frameShown = frames
  no_error : ∀ p b, (p, some (.error b)) ∉ trace

theorem shows_silent (ps : List Packet) : Shows (ps.map (·, none)) [] where
  frames := by
    induction ps with
    | nil => rfl
    | cons p ps ih => exact ih
  no_error := by simp

theorem Shows.append {trace trace' : List (Packet × Option (Emission UInt8 UInt8 (List Pixel)))}
    {fs fs' : List (UInt8 × Vector UInt8 195)} (h : Shows trace fs) (h' : Shows trace' fs') :
    Shows (trace ++ trace') (fs ++ fs') where
  frames := by rw [List.filterMap_append, List.map_append, h.frames, h'.frames]
  no_error := fun p b hmem => (List.mem_append.1 hmem).elim (h.no_error p b) (h'.no_error p b)

/-- An incomplete group shows nothing, and is out of the way of any other
timestamp. -/
theorem outputs_incomplete {block : List Packet} (hready : Ready g.timestamp block) (h : ¬ g.Complete) :
    Shows (outputs (step frameReader) block g.packets) [] ∧
      ∀ k, k ≠ g.timestamp → Ready k (after (step frameReader) block g.packets) := by
  have hmore : frameReader.verdict (data g.packets) = .more := by
    rw [packets, data_map_mk]
    exact g.verdict_more g.arrived_prefix h
  obtain ⟨hout, hnext⟩ := after_group_more frameReader hready g.packets_key
    (by simpa [packets] using g.arrived_ne) hmore
  rw [hout]
  exact ⟨shows_silent _, hnext⟩

/-- A complete group shows its frame, and leaves nothing. -/
theorem outputs_complete {block : List Packet} (hready : Ready g.timestamp block) (h : g.Complete) :
    Shows (outputs (step frameReader) block g.packets) [g.shown] ∧
      ∀ k, Ready k (after (step frameReader) block g.packets) := by
  obtain ⟨front, x, rest, harrived, hfront, hx⟩ := exists_first (P := g.Covers) g.not_covers_nil h
  have hempty := g.empty_after_end harrived hx
  have hsent : front <+: g.sent := by
    refine List.IsPrefix.trans ?_ g.arrived_prefix
    rw [harrived]
    exact List.prefix_append _ _
  have hpackets : g.packets = front.map (Packet.mk g.timestamp) ++
      Packet.mk g.timestamp x :: rest.map (Packet.mk g.timestamp) := by
    rw [packets, harrived, List.map_append, List.map_cons]
  have hmore : frameReader.verdict (data (front.map (Packet.mk g.timestamp))) = .more := by
    rw [data_map_mk]
    exact g.verdict_more hsent hfront
  have hfull : frameReader.verdict (data (front.map (Packet.mk g.timestamp) ++ [Packet.mk g.timestamp x])) =
      .full g.frame.toList := by
    rw [← List.map_singleton, ← List.map_append, data_map_mk]
    exact g.verdict_full hx
  have hempties : ∀ q ∈ rest.map (Packet.mk g.timestamp), q.data = [] := by simpa using hempty
  obtain ⟨⟨b, hout⟩, hnext⟩ := after_group_full frameReader (k := g.timestamp) hready (by simp) rfl hempties hmore hfull
  rw [hpackets, hout]
  have hone : Shows [(Packet.mk g.timestamp x, some (.frame b g.frame.toList))] [g.shown] := ⟨rfl, by simp⟩
  exact ⟨(shows_silent _).append (hone.append (shows_silent _)), hnext⟩

/-- **A stream of groups**, into a reassembler that is ready for the first. -/
theorem outputs_groups {groups : List Group} {block : List Packet} (hready : ∀ g ∈ groups.head?, Ready g.timestamp block)
    (hchain : groups.IsChain fun g g' => g.Complete ∨ g'.timestamp ≠ g.timestamp) :
    Shows (outputs (step frameReader) block (groups.flatMap packets))
      ((groups.filter fun g => g.Complete).map shown) := by
  induction groups generalizing block with
  | nil => exact shows_silent []
  | cons g groups ih =>
    have hg : Ready g.timestamp block := hready g (by simp)
    rw [List.flatMap_cons, outputs_append]
    by_cases hc : g.Complete
    · obtain ⟨hshow, hnext⟩ := g.outputs_complete hg hc
      have hrest := @ih (after (step frameReader) block g.packets) (fun g' _ => hnext g'.timestamp) hchain.tail
      rw [List.filter_cons_of_pos (by simpa using hc), List.map_cons]
      exact hshow.append hrest
    · obtain ⟨hshow, hnext⟩ := g.outputs_incomplete hg hc
      have hrest := @ih (after (step frameReader) block g.packets)
        (fun g' hg' => by
          cases groups with
          | nil => cases hg'
          | cons g'' groups =>
            obtain rfl : g'' = g' := by simpa using hg'
            exact hnext g''.timestamp ((List.isChain_cons_cons.1 hchain).1.resolve_left hc)) hchain.tail
      rw [List.filter_cons_of_neg (by simpa using hc)]
      exact hshow.append hrest

end Group

/-- A decode error of a run is one of its trace. -/
theorem Refines.no_error {block : List Packet} {env env' : Env} {es : List Event} (h : Refines block env env' es)
    (hnone : ∀ p b, (p, some (.error b)) ∉ outputs (step frameReader) block (reports (signals es))) (timestamp : UInt8) :
    .decodeError timestamp ∉ es := by
  intro hmem
  have hsignal : Signal.error timestamp ∈ signals es := List.mem_filterMap.2 ⟨_, hmem, rfl⟩
  rw [h.shows] at hsignal
  obtain ⟨⟨p, e⟩, hx, hs⟩ := List.mem_flatMap.1 hsignal
  rcases e with - | (⟨b, px⟩ | b)
  · simp [emissionSignals] at hs
  · simp [emissionSignals] at hs
  · exact hnone p b hx

/-- **End-to-end delivery.** After any history of an opened device, let the
reads carry the reports of some groups among any other reads. The first group
differs in its timestamp from the last report of the history, and an
incomplete group from the next. However the calls are made that take these
reads, the callbacks are shown exactly the complete groups, in order, and
nothing is a decode error. -/
theorem end_to_end_delivery {handle : Addr} {opened : Device} (hopen : touchmouseOpen handle = some opened)
    (history : List Op) (past : List ReadResult) (groups : List Group) (reads : List ReadResult)
    (hfirst : ∀ g ∈ groups.head?, ∀ p,
      (reports (signals (run passive history ⟨opened, past⟩).2)).getLast? = some p → p.key ≠ g.timestamp)
    (hchain : groups.IsChain fun g g' => g.Complete ∨ g'.timestamp ≠ g.timestamp)
    (hrange : ∀ r ∈ reads, r.InRange) (hstream : touchReports reads = groups.flatMap Group.packets)
    (calls : List Op) (hdrained : (run passive calls ⟨(run passive history ⟨opened, past⟩).1.dev, reads⟩).1.reads = []) :
    let es := (run passive calls ⟨(run passive history ⟨opened, past⟩).1.dev, reads⟩).2
    shown es = (groups.filter fun g => g.Complete).map Group.shown ∧ ∀ timestamp, .decodeError timestamp ∉ es := by
  have hpast := run_refines ⟨opened, past⟩ (opened_tracks hopen) history
  generalize run passive history ⟨opened, past⟩ = h at hfirst hdrained hpast
  intro es
  have hrefines := run_refines ⟨h.1.dev, reads⟩ hpast.tracks calls
  have hreports := run_reports ⟨h.1.dev, reads⟩ calls (hrefines.inRange hrange)
  have hreads := hrefines.reads
  rw [hdrained, List.append_nil] at hreads
  rw [hreads, hstream] at hreports
  have hshows := Group.outputs_groups (fun g hg => ready_after frameReader (hfirst g hg)) hchain
  constructor
  · have hshown : shown es = _ := hrefines.shown
    rw [hshown, hreports]
    exact hshows.frames
  · apply hrefines.no_error
    rw [hreports]
    exact hshows.no_error

/-- The frame of zeroes as ten runs and a literal, in two reports, with one
nybble after it. -/
def zeroGroup (timestamp : UInt8) : Group where
  timestamp := timestamp
  frame := .replicate 181 scheme.fill
  tokens := List.replicate 10 (.run scheme.esc) ++ [.literal scheme.fill]
  tokens_frame := by decide +kernel
  sent := [List.replicate 10 0xff, [0xf0]]
  size := by decide
  trailing := [scheme.esc]
  cut := by decide
  last := by decide
  arrived := [List.replicate 10 0xff, [0xf0]]
  arrived_prefix := List.prefix_rfl
  arrived_ne := by decide

/-- The same without its second report. -/
def lostGroup (timestamp : UInt8) : Group :=
  { zeroGroup timestamp with
    arrived := [List.replicate 10 0xff]
    arrived_prefix := ⟨[[0xf0]], rfl⟩
    arrived_ne := by decide }

/-- A callback is registered, and then come a frame that loses a report, an
empty read, and a frame that is shown. -/
theorem end_to_end_delivery_after_loss :
    let reads := [ReadResult.ofPacket ⟨5, List.replicate 10 0xff⟩ (by decide), .empty,
      .ofPacket ⟨8, List.replicate 10 0xff⟩ (by decide), .ofPacket ⟨8, [0xf0]⟩ (by decide)]
    let opened := (touchmouseOpen 1).get (by decide)
    let es := (run passive [.processEventsTimeout (-1) fun _ => 1] ⟨touchmouseSetImageUpdateCallback opened 1, reads⟩).2
    shown es = [(8, imageOf (padded (List.replicate 181 scheme.fill)))] := by
  intro reads opened es
  have hlost : ¬ (lostGroup 5).Complete := by decide +kernel
  have hwhole : (zeroGroup 8).Complete := by decide +kernel
  have hshown : (zeroGroup 8).shown = (8, imageOf (padded (List.replicate 181 scheme.fill))) := by
    rw [Group.shown, show (zeroGroup 8).frame = .replicate 181 scheme.fill from rfl, Vector.toList_replicate]
    rfl
  have hgroups : ([lostGroup 5, zeroGroup 8].filter fun g => g.Complete).map Group.shown = [(zeroGroup 8).shown] := by
    simp [hlost, hwhole]
  rw [← hshown, ← hgroups]
  refine (end_to_end_delivery (rfl : touchmouseOpen 1 = some _) [.setImageUpdateCallback 1] []
    [lostGroup 5, zeroGroup 8] reads ?_ ?_ ?_ ?_ [.processEventsTimeout (-1) fun _ => 1] ?_).1
  · intro g _ p hp
    cases hp
  · decide +kernel
  · simp [reads]
  · rfl
  · decide +kernel

end TouchMouse
