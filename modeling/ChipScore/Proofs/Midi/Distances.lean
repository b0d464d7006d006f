import Mathlib.Tactic
import ChipScore.Proofs.Midi.RoundTrip

/-!
# Distances in a track

Every event of a track stands behind its distance from the event before it.  A distance is a
quantity, which says itself where it ends, so a track can be taken apart in one way only
(`IsWrittenAs.unique`), and adding up the distances leads from event to event (`heardAt_of_spans`).

A standard file allows a distance four bytes, that is 28 bits, and has to reach a later event by
further distances.  The exporter does neither.  It cuts distances off at 2^32 - 1, not at
2^28 - 1, so behind a gap of 2^28 ticks it writes a fifth byte and the file is not a standard one;
and it goes on from the tick of the event and not from the tick that the distances have reached, so
what has been cut off of a longer gap is lost and all events behind it are heard too early
(`late_notes_not_standard`).  `distances_fileBytes` says what the distances are in every file, and
that both are as they should be exactly if the gaps are short enough.
-/

namespace ChipScore.Midi

/-- Bytes that are read as a quantity, whatever stands behind them. -/
def Quantity.Spells (piece : List UInt8) (n : Nat) : Prop :=
  Reader.Reads (Reader.groups piece.length 0) piece n

/-- An event as it stands in a track. -/
structure Piece where
  /-- The bytes of the distance. -/
  distance : List UInt8
  /-- The ticks of the distance. -/
  ticks : Nat
  /-- The bytes of the event. -/
  content : List UInt8

/-- The bytes of an event behind those of its distance. -/
def Piece.bytes (piece : Piece) : List UInt8 :=
  piece.distance ++ piece.content

/-- The tick at which an event is heard by a reader who adds up the distances. -/
def Piece.heardAt (pieces : List Piece) (i : Nat) : Nat :=
  ((pieces.take (i + 1)).map Piece.ticks).sum

/-- A track is taken apart into events and their distances. -/
inductive IsWrittenAs : List TimedEvent → List UInt8 → List Piece → Prop
  /-- There are no events. -/
  | nil : IsWrittenAs [] [] []
  /-- The first event stands behind its distance and in front of the others. -/
  | cons {timed : TimedEvent} {rest : List TimedEvent} {piece : Piece} {others : List UInt8}
      {pieces : List Piece} : Quantity.Spells piece.distance piece.ticks →
      timed.event.bytes = .ok piece.content → IsWrittenAs rest others pieces →
      IsWrittenAs (timed :: rest) (piece.bytes ++ others) (piece :: pieces)

/-- The ticks from event to event, the first one from `now` on. -/
def gaps (now : Nat) : List TimedEvent → List Nat
  | [] => []
  | timed :: rest => (timed.tick - now) :: gaps timed.tick rest

/-- The distance of an event is that of a gap. -/
structure Piece.Spans (piece : Piece) (gap : Nat) : Prop where
  /-- The distance is as long as the gap, up to the longest one. -/
  ticks : piece.ticks = min gap (2 ^ 32 - 1)
  /-- It never takes more than five bytes. -/
  length_le : piece.distance.length ≤ 5
  /-- It takes no more than the four of a standard file just if the gap is that short. -/
  length_le_four_iff : piece.distance.length ≤ 4 ↔ gap < 2 ^ 28

/-! ### Quantities -/

namespace Reader

/-- To allow for more groups makes no difference to a quantity that can be read. -/
lemma groups_add {most n : Nat} {input : List UInt8} {result : Nat × List UInt8}
    (h : groups most n input = some result) (more : Nat) :
    groups (most + more) n input = some result := by
  induction most generalizing n input with
  | zero => cases h
  | succ most ih =>
    cases input with
    | nil => cases h
    | cons group rest =>
      rw [Nat.succ_add]
      change (if _ then _ else _ : Reader Nat) rest = _ at h ⊢
      split_ifs at h ⊢
      · exact h
      · exact ih h

end Reader

namespace Quantity

/-- A quantity has a last group, and leading ones in front of it. -/
lemma length_encode (n : Nat) : (encode n).length = (leading (n / 128)).length + 1 := by
  rw [encode, List.length_append, List.length_singleton]

/-- A quantity takes as many bytes as it needs. -/
lemma length_encode_le_iff {k n : Nat} : (encode n).length ≤ k + 1 ↔ n < 128 ^ (k + 1) := by
  rw [length_encode, Nat.add_le_add_iff_right, Reader.length_leading_le_iff, Nat.pow_succ,
    Nat.div_lt_iff_lt_mul (by decide)]

/-- The bytes of a quantity are read as that quantity. -/
lemma spells_encode (n : Nat) : Spells (encode n) n := by
  apply Reader.reads_groups
  rw [length_encode]
  exact Nat.lt_succ_self _

/-- No quantity is the beginning of another one. -/
lemma Spells.unique {first second rest rest' : List UInt8} {m n : Nat} (h : Spells first m)
    (h' : Spells second n) (hsame : first ++ rest = second ++ rest') :
    first = second ∧ m = n ∧ rest = rest' := by
  have hread := Reader.groups_add (h rest) second.length
  have hread' := Reader.groups_add (h' rest') first.length
  rw [hsame, Nat.add_comm, hread'] at hread
  obtain ⟨rfl, rfl⟩ := Prod.mk.inj (Option.some.inj hread)
  exact ⟨List.append_cancel_right hsame, rfl, rfl⟩

end Quantity

/-! ### Tracks are taken apart -/

section Pieces

variable {now : Nat} {timed : List TimedEvent} {track : List UInt8} {pieces others : List Piece}

/-- An event is written behind the distance of the gap before it. -/
lemma exists_piece_of_deltaEvent {gap : Nat} {event : Event} {bytes : List UInt8}
    (h : deltaEvent gap event = .ok bytes) :
    ∃ piece : Piece, bytes = piece.bytes ∧ Quantity.Spells piece.distance piece.ticks ∧
      event.bytes = .ok piece.content ∧ piece.Spans gap := by
  have hlongest : maxDelta = 2 ^ 32 - 1 := rfl
  obtain ⟨content, hevent, rfl⟩ := exists_of_map_eq_ok h
  refine ⟨⟨Quantity.encode (min gap maxDelta), min gap maxDelta, content⟩, rfl,
    Quantity.spells_encode _, hevent, rfl, ?_, ?_⟩
  · rw [Quantity.length_encode_le_iff]
    omega
  · rw [Quantity.length_encode_le_iff]
    omega

/-- What is written of events can be taken apart, and the distances are those of the gaps. -/
lemma exists_isWrittenAs (h : eventBytes now timed = .ok track) :
    ∃ pieces, IsWrittenAs timed track pieces ∧
      List.Forall₂ Piece.Spans pieces (gaps now timed) := by
  induction timed generalizing now track with
  | nil =>
    cases h
    exact ⟨[], .nil, .nil⟩
  | cons first rest ih =>
    obtain ⟨bytes, hfirst, h⟩ := exists_of_bind_eq_ok h
    obtain ⟨others, hrest, h⟩ := exists_of_bind_eq_ok h
    obtain rfl := Except.ok.inj h
    obtain ⟨piece, rfl, hspells, hcontent, hspans⟩ := exists_piece_of_deltaEvent hfirst
    obtain ⟨pieces, hwritten, hgaps⟩ := ih hrest
    exact ⟨piece :: pieces, .cons hspells hcontent hwritten, .cons hspans hgaps⟩

/-- There is one way only to take a track apart. -/
lemma IsWrittenAs.unique (h : IsWrittenAs timed track pieces)
    (h' : IsWrittenAs timed track others) : pieces = others := by
  induction h generalizing others with
  | nil =>
    cases h'
    rfl
  | @cons first rest piece behind pieces hspells hcontent _ ih =>
    generalize hsame : piece.bytes ++ behind = track at h'
    cases h' with
    | @cons _ _ piece' behind' pieces' hspells' hcontent' hwritten' =>
      obtain ⟨distance, ticks, content⟩ := piece
      obtain ⟨distance', ticks', content'⟩ := piece'
      rw [Piece.bytes, Piece.bytes, List.append_assoc, List.append_assoc] at hsame
      obtain ⟨rfl, rfl, hrest⟩ := hspells.unique hspells' hsame
      obtain rfl : content = content' := Except.ok.inj (hcontent.symm.trans hcontent')
      obtain rfl := List.append_cancel_left hrest
      rw [ih hwritten']

end Pieces

/-! ### Distances add up -/

/-- The gaps lead from event to event. -/
lemma sum_take_gaps {now : Nat} {timed : List TimedEvent}
    (h : (now :: timed.map TimedEvent.tick).IsChain (· ≤ ·)) {i : Nat} (hi : i < timed.length) :
    now + ((gaps now timed).take (i + 1)).sum = timed[i].tick := by
  induction timed generalizing now i with
  | nil => cases hi
  | cons first rest ih =>
    obtain ⟨hle, hrest⟩ := List.isChain_cons_cons.mp h
    rw [gaps, List.take_succ_cons, List.sum_cons, ← Nat.add_assoc, Nat.add_sub_cancel' hle]
    cases i with
    | zero => rfl
    | succ i => exact ih hrest (Nat.lt_of_succ_lt_succ hi)

/-- Numbers that are cut off at a longest one add up to less, unless none of them is longer. -/
lemma sum_map_min (longest : Nat) (numbers : List Nat) :
    (numbers.map fun n => min n longest).sum ≤ numbers.sum ∧
      ((numbers.map fun n => min n longest).sum = numbers.sum ↔ ∀ n ∈ numbers, n ≤ longest) := by
  induction numbers with
  | nil => simp
  | cons first rest ih =>
    obtain ⟨hle, hiff⟩ := ih
    rw [List.map_cons, List.sum_cons, List.sum_cons, List.forall_mem_cons, ← hiff]
    omega

/-- Every gap has its distance. -/
lemma exists_spans_of_mem {pieces : List Piece} {spanned : List Nat} {gap : Nat}
    (h : List.Forall₂ Piece.Spans pieces spanned) (hgap : gap ∈ spanned) :
    ∃ piece ∈ pieces, piece.Spans gap := by
  obtain ⟨i, hi, rfl⟩ := List.getElem_of_mem hgap
  have hlt : i < pieces.length := h.length_eq ▸ hi
  exact ⟨pieces[i], List.getElem_mem hlt, h.get hlt hi⟩

/-- The distances of gaps, up to the longest one. -/
lemma map_ticks_of_spans {pieces : List Piece} {spanned : List Nat}
    (h : List.Forall₂ Piece.Spans pieces spanned) :
    pieces.map Piece.ticks = spanned.map fun gap => min gap (2 ^ 32 - 1) := by
  induction h with
  | nil => rfl
  | cons hspans _ ih => rw [List.map_cons, List.map_cons, hspans.ticks, ih]

/-- An event is heard on its tick if no gap up to it is too long, and too early otherwise. -/
lemma heardAt_of_spans {timed : List TimedEvent} {pieces : List Piece}
    (hticks : (0 :: timed.map TimedEvent.tick).IsChain (· ≤ ·))
    (h : List.Forall₂ Piece.Spans pieces (gaps 0 timed)) {i : Nat} (hi : i < timed.length) :
    Piece.heardAt pieces i ≤ timed[i].tick ∧
      (Piece.heardAt pieces i = timed[i].tick ↔
        ∀ gap ∈ (gaps 0 timed).take (i + 1), gap < 2 ^ 32) := by
  obtain ⟨hle, hiff⟩ := sum_map_min (2 ^ 32 - 1) ((gaps 0 timed).take (i + 1))
  rw [← sum_take_gaps hticks hi, Nat.zero_add, Piece.heardAt, List.map_take, map_ticks_of_spans h,
    ← List.map_take]
  refine ⟨hle, hiff.trans (forall₂_congr fun gap _ => ?_)⟩
  omega

/-! ### Files -/

section Files

variable {rate : Binary64} {voices : List (List Note)} {bytes track : List UInt8}

/-- A track is taken apart in one way, into distances that are those of the gaps. -/
lemma exists_pieces_of_trackBytes (h : trackBytes rate voices = .ok track) :
    ∃ pieces, (∀ others, IsWrittenAs (trackEvents rate voices) track others ↔ others = pieces) ∧
      List.Forall₂ Piece.Spans pieces (gaps 0 (trackEvents rate voices)) := by
  obtain ⟨pieces, hwritten, hgaps⟩ := exists_isWrittenAs (eventBytes_trackEvents h)
  refine ⟨pieces, fun others => ⟨fun hothers => hothers.unique hwritten, ?_⟩, hgaps⟩
  rintro rfl
  exact hwritten

/-- Time does not go back along a track. -/
lemma isChain_ticks_trackEvents (rate : Binary64) (voices : List (List Note)) :
    (0 :: (trackEvents rate voices).map TimedEvent.tick).IsChain (· ≤ ·) :=
  isChain_trackEvents (fun tick => le_refl tick) (isChain_ticks rate voices)

/-- **Distances in a file.**  The track of a file can be taken apart in one way only into its events
and their distances.

* The distance of an event is the gap before it, or 2^32 - 1 if the gap is longer.  It takes five
  bytes at most, and the four of a standard file at most just if the gap is shorter than 2^28.
* An event is never heard behind its tick.  It is heard on its tick exactly if no gap up to it is
  longer than 2^32 - 1. -/
theorem distances_fileBytes (h : fileBytes rate voices = .ok bytes) :
    ∃ track pieces, bytes = chunk "MThd" headerBytes ++ chunk "MTrk" track ∧
      (∀ others, IsWrittenAs (trackEvents rate voices) track others ↔ others = pieces) ∧
      List.Forall₂ Piece.Spans pieces (gaps 0 (trackEvents rate voices)) ∧
      ∀ i (hi : i < (trackEvents rate voices).length),
        Piece.heardAt pieces i ≤ (trackEvents rate voices)[i].tick ∧
          (Piece.heardAt pieces i = (trackEvents rate voices)[i].tick ↔
            ∀ gap ∈ (gaps 0 (trackEvents rate voices)).take (i + 1), gap < 2 ^ 32) := by
  obtain ⟨track, htrack, -⟩ := exists_of_map_eq_ok h
  obtain ⟨pieces, hunique, hgaps⟩ := exists_pieces_of_trackBytes htrack
  refine ⟨track, pieces, eq_of_fileBytes h htrack, hunique, hgaps, ?_⟩
  intro i hi
  exact heardAt_of_spans (isChain_ticks_trackEvents rate voices) hgaps hi

end Files

/-- A short note that starts on some frame. -/
def lateNote (start : Nat) : Note :=
  .opened start 69 .triangle (.ofRegisters 0x00 0x00)

/-- The note is struck on the tick of its frame, for there are as many ticks as frames in a second.
-/
lemma events_lateNote {start : Nat} (h : start ∈ [2 ^ 28, 2 ^ 33]) :
    events (.ofNat 50) [[lateNote start]] =
      [⟨start, .noteOn 0 69⟩, ⟨start + 1, .noteOff 0 69⟩] := by
  have hunordered : ∀ start ∈ [2 ^ 28, 2 ^ 33],
      unorderedEvents (.ofRate (.ofNat 50)) [[lateNote start]] =
        [⟨start, .noteOn 0 69⟩, ⟨start + 1, .noteOff 0 69⟩] := by
    decide +kernel
  rw [events, schedule, hunordered start h]
  exact List.mergeSort_of_pairwise (by simp [TimedEvent.le])

/-- The events of the preamble stand together, and then the gap is as long as the note is late. -/
lemma gaps_lateNote {start : Nat} (h : start ∈ [2 ^ 28, 2 ^ 33]) :
    gaps 0 (trackEvents (.ofNat 50) [[lateNote start]]) =
      List.replicate 14 0 ++ [start, 1, 0] := by
  rw [trackEvents, events_lateNote h]
  simp [preamble, channelCount, List.range_succ, gaps, lastTick, List.replicate]

/-- The long gap is among the gaps of the track, so a distance takes a fifth byte. -/
lemma exists_length_eq_five_lateNote {start : Nat} (h : start ∈ [2 ^ 28, 2 ^ 33])
    {pieces : List Piece}
    (hgaps : List.Forall₂ Piece.Spans pieces
      (gaps 0 (trackEvents (.ofNat 50) [[lateNote start]]))) :
    ∃ piece ∈ pieces, piece.distance.length = 5 := by
  have hmem : start ∈ gaps 0 (trackEvents (.ofNat 50) [[lateNote start]]) := by
    rw [gaps_lateNote h]
    exact List.mem_append_right _ List.mem_cons_self
  have hlong : ∀ start ∈ [2 ^ 28, 2 ^ 33], ¬start < 2 ^ 28 := by decide
  obtain ⟨piece, hpiece, hspans⟩ := exists_spans_of_mem hgaps hmem
  have hle := hspans.length_le
  have hnot := mt hspans.length_le_four_iff.mp (hlong start h)
  exact ⟨piece, hpiece, by omega⟩

/-- The note is struck by the event behind the preamble. -/
lemma tick_lateNote {start : Nat} (h : start ∈ [2 ^ 28, 2 ^ 33]) :
    ∃ hi : 14 < (trackEvents (.ofNat 50) [[lateNote start]]).length,
      (trackEvents (.ofNat 50) [[lateNote start]])[14].tick = start := by
  rw [trackEvents, events_lateNote h]
  exact ⟨by simp [preamble, channelCount], rfl⟩

/-- There is a file of the note, late as it is, and one way to take its track apart. -/
lemma exists_fileBytes_lateNote {start : Nat} (h : start ∈ [2 ^ 28, 2 ^ 33]) :
    ∃ track pieces, fileBytes (.ofNat 50) [[lateNote start]] =
        .ok (chunk "MThd" headerBytes ++ chunk "MTrk" track) ∧
      (∀ others, IsWrittenAs (trackEvents (.ofNat 50) [[lateNote start]]) track others ↔
        others = pieces) ∧
      List.Forall₂ Piece.Spans pieces (gaps 0 (trackEvents (.ofNat 50) [[lateNote start]])) := by
  have htrack : ∃ track, trackBytes (.ofNat 50) [[lateNote start]] = .ok track := by
    rw [trackBytes, events_lateNote h]
    exact ⟨_, rfl⟩
  obtain ⟨track, htrack⟩ := htrack
  obtain ⟨pieces, hunique, hgaps⟩ := exists_pieces_of_trackBytes htrack
  refine ⟨track, pieces, ?_, hunique, hgaps⟩
  rw [fileBytes, htrack]
  rfl

/-- A note that starts on frame 2^28 is still heard when it should be, but behind a distance of five
bytes, which no standard file has. -/
theorem distances_fileBytes_lateNote :
    ∃ track pieces, fileBytes (.ofNat 50) [[lateNote (2 ^ 28)]] =
        .ok (chunk "MThd" headerBytes ++ chunk "MTrk" track) ∧
      IsWrittenAs (trackEvents (.ofNat 50) [[lateNote (2 ^ 28)]]) track pieces ∧
      Piece.heardAt pieces 14 = 2 ^ 28 ∧ ∃ piece ∈ pieces, piece.distance.length = 5 := by
  have hstart : 2 ^ 28 ∈ [2 ^ 28, 2 ^ 33] := by decide
  obtain ⟨_, -, hbytes, -⟩ := exists_fileBytes_lateNote hstart
  obtain ⟨track, pieces, hfile, hunique, hgaps, hheard⟩ := distances_fileBytes hbytes
  rw [hfile] at hbytes
  obtain ⟨hi, htick⟩ := tick_lateNote hstart
  have hshort := (hheard 14 hi).2
  rw [htick, gaps_lateNote hstart] at hshort
  exact ⟨track, pieces, hbytes, (hunique pieces).mpr rfl, hshort.mpr (by decide),
    exists_length_eq_five_lateNote hstart hgaps⟩

/-- The file of a note that starts on frame 2^28 is not a standard one, for it has a distance of
more than four bytes, and in the file of a note that starts on frame 2^33 the note is not heard when
it should be. -/
theorem late_notes_not_standard :
    (∃ track, fileBytes (.ofNat 50) [[lateNote (2 ^ 28)]] =
        .ok (chunk "MThd" headerBytes ++ chunk "MTrk" track) ∧
      ¬∃ pieces, IsWrittenAs (trackEvents (.ofNat 50) [[lateNote (2 ^ 28)]]) track pieces ∧
        ∀ piece ∈ pieces, piece.distance.length ≤ 4) ∧
    ∃ track, fileBytes (.ofNat 50) [[lateNote (2 ^ 33)]] =
        .ok (chunk "MThd" headerBytes ++ chunk "MTrk" track) ∧
      ¬∃ pieces, IsWrittenAs (trackEvents (.ofNat 50) [[lateNote (2 ^ 33)]]) track pieces ∧
        ∀ i (hi : i < (trackEvents (.ofNat 50) [[lateNote (2 ^ 33)]]).length),
          Piece.heardAt pieces i = (trackEvents (.ofNat 50) [[lateNote (2 ^ 33)]])[i].tick := by
  constructor
  · have hstart : 2 ^ 28 ∈ [2 ^ 28, 2 ^ 33] := by decide
    obtain ⟨track, pieces, hbytes, hunique, hgaps⟩ := exists_fileBytes_lateNote hstart
    refine ⟨track, hbytes, ?_⟩
    rintro ⟨others, hothers, hshort⟩
    obtain rfl := (hunique others).mp hothers
    obtain ⟨piece, hpiece, hfive⟩ := exists_length_eq_five_lateNote hstart hgaps
    have hfour := hshort piece hpiece
    omega
  · have hstart : 2 ^ 33 ∈ [2 ^ 28, 2 ^ 33] := by decide
    obtain ⟨track, pieces, hbytes, hunique, hgaps⟩ := exists_fileBytes_lateNote hstart
    refine ⟨track, hbytes, ?_⟩
    rintro ⟨others, hothers, hexact⟩
    obtain rfl := (hunique others).mp hothers
    obtain ⟨hi, -⟩ := tick_lateNote hstart
    have hshort := (heardAt_of_spans (isChain_ticks_trackEvents _ _) hgaps hi).2.mp (hexact 14 hi)
    rw [gaps_lateNote hstart] at hshort
    exact absurd (hshort (2 ^ 33) (by decide)) (by decide)

end ChipScore.Midi
