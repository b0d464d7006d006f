import Mathlib.Tactic
import ChipScore.Proofs.Gathering
import ChipScore.Proofs.Midi.Strokes

/-!
# Note on and note off alternate on every channel

A channel belongs to one voice and one waveform, so its events come from the notes of that voice
that end with that waveform.  `strokeGroups` lists the strokes of these notes, one group for each
note, where every group waits until the one before it has ended; all of them together are spaced
(`spaced_flatten_strokeGroups`).

Sorting does not disturb this.  The events of spaced strokes are in order already, and a stable sort
keeps the order of what is in order (`filter_mergeSort_of_pairwise`), so the events of a channel
leave the sort as they went into it.  `WellOrdered` says what a schedule is like, and
`wellOrdered_schedule` that every schedule is, whatever the ticks of its frames are.
-/

namespace ChipScore.Midi

/-- The channel that an event is meant for, if it is meant for one. -/
def Event.channel? : Event → Option Nat
  | programChange channel _ | noteOn channel _ | noteOff channel _ => some channel
  | _ => none

/-- The events of one channel, in their order. -/
def onChannel (channel : Nat) (timed : List TimedEvent) : List TimedEvent :=
  timed.filter fun t => t.event.channel? == some channel

/-- The notes that sound on a channel: those of its voice that have its waveform. -/
def notesOn (channel : Nat) (voices : List (List Note)) : List Note :=
  (voices.getD (channel / 4) []).filter fun note => note.waveform.index.val == channel % 4

/-- A note and the strokes that it contributes, of which there is at least one. -/
def Contributes (note : Note) (strokes : List Stroke) : Prop :=
  strokes ≠ [] ∧ ∀ s ∈ strokes, s.IsOf note

/-- A schedule in which keys are let go before they are struck again. -/
structure WellOrdered (voices : List (List Note)) (timed : List TimedEvent) : Prop where
  /-- Time does not go back, and on one tick keys are let go before others are struck. -/
  ordered : timed.Pairwise fun a b =>
    a.tick ≤ b.tick ∧ (a.tick = b.tick → a.event.isNoteOn = true → b.event.isNoteOn = true)
  /-- Keys are struck and let go, and nothing else happens. -/
  keys : ∀ t ∈ timed, ∃ channel key,
    t.event = .noteOn channel key ∨ t.event = .noteOff channel key
  /-- On each channel the strokes of its notes follow one another, at least one for each note. -/
  alternating : ∀ channel, ∃ groups : List (List Stroke),
    onChannel channel timed = groups.flatten.flatMap (Stroke.events channel) ∧
      Stroke.Spaced groups.flatten ∧
      List.Forall₂ Contributes (notesOn channel voices) groups

/-! ### The notes of one channel -/

/-- The strokes of the notes of a channel that is free from a tick on, note by note. -/
def strokeGroups (timing : Timing) (free : Nat) : List Note → List (List Stroke)
  | [] => []
  | note :: rest =>
    let strokes := strokesOf timing free note
    strokes :: strokeGroups timing (freeAfter free strokes) rest

variable {timing : Timing}

/-- Every note contributes its group. -/
lemma forall₂_contributes_strokeGroups (free : Nat) (notes : List Note) :
    List.Forall₂ Contributes notes (strokeGroups timing free notes) := by
  induction notes generalizing free with
  | nil => exact .nil
  | cons note rest ih =>
    exact .cons ⟨strokesOf_ne_nil timing free note, fun _ => isOf_of_mem_strokesOf⟩ (ih _)

/-- A channel is not free again before it was. -/
lemma free_le_freeAfter (free : Nat) (note : Note) :
    free ≤ freeAfter free (strokesOf timing free note) := by
  obtain ⟨s, hs⟩ := List.exists_mem_of_ne_nil _ (strokesOf_ne_nil timing free note)
  have hspaced := spaced_strokesOf timing free note
  calc free ≤ s.struck := free_le_of_mem_strokesOf hs
    _ ≤ s.ended := (hspaced.lasts s hs).le
    _ ≤ freeAfter free (strokesOf timing free note) := hspaced.ended_le_freeAfter free hs

/-- No note is struck before its channel is free. -/
lemma free_le_of_mem_strokeGroups {free : Nat} {notes : List Note} {s : Stroke}
    (h : s ∈ (strokeGroups timing free notes).flatten) : free ≤ s.struck := by
  induction notes generalizing free with
  | nil => cases h
  | cons note rest ih =>
    rcases List.mem_append.mp h with h | h
    · exact free_le_of_mem_strokesOf h
    · exact (free_le_freeAfter free note).trans (ih h)

/-- The strokes of all notes of a channel are spaced. -/
lemma spaced_flatten_strokeGroups (free : Nat) (notes : List Note) :
    Stroke.Spaced (strokeGroups timing free notes).flatten := by
  induction notes generalizing free with
  | nil => exact Stroke.spaced_nil
  | cons note rest ih =>
    have hspaced := spaced_strokesOf timing free note
    refine hspaced.append (ih _) fun a ha b hb => ?_
    calc a.ended ≤ freeAfter free (strokesOf timing free note) :=
          hspaced.ended_le_freeAfter free ha
      _ ≤ b.struck := free_le_of_mem_strokeGroups hb

/-! ### Picking a channel out of the events -/

/-- The events of strokes are on the channel of the strokes. -/
lemma onChannel_flatMap_events (channel other : Nat) (strokes : List Stroke) :
    onChannel channel (strokes.flatMap (Stroke.events other)) =
      if other = channel then strokes.flatMap (Stroke.events other) else [] := by
  split_ifs with h
  · refine List.filter_eq_self.mpr fun t ht => ?_
    obtain ⟨s, -, ht⟩ := List.mem_flatMap.mp ht
    rcases List.mem_pair.mp ht with rfl | rfl <;> simp [Event.channel?, h]
  · refine List.filter_eq_nil_iff.mpr fun t ht => ?_
    obtain ⟨s, -, ht⟩ := List.mem_flatMap.mp ht
    rcases List.mem_pair.mp ht with rfl | rfl <;> simp [Event.channel?, h]

/-- A voice has no events on the channels of another voice. -/
lemma onChannel_voiceEvents_of_ne {channel voice : Nat} (h : voice ≠ channel / 4)
    (free : Vector Nat 4) (notes : List Note) :
    onChannel channel (voiceEvents timing voice free notes) = [] := by
  induction notes generalizing free with
  | nil => rfl
  | cons note rest ih =>
    have hslot : voice * 4 + note.waveform.index.val ≠ channel := by omega
    rw [voiceEvents, onChannel, List.filter_append]
    change onChannel channel _ ++ onChannel channel _ = []
    rw [onChannel_flatMap_events, if_neg hslot, ih, List.append_nil]

/-- A voice's events on a channel of its own are those of the notes on that channel. -/
lemma onChannel_voiceEvents (voice : Nat) (slot : Fin 4) (free : Vector Nat 4)
    (notes : List Note) :
    onChannel (voice * 4 + slot.val) (voiceEvents timing voice free notes) =
      (strokeGroups timing (free.get slot)
        (notes.filter fun note => note.waveform.index.val == slot.val)).flatten.flatMap
          (Stroke.events (voice * 4 + slot.val)) := by
  induction notes generalizing free with
  | nil => rfl
  | cons note rest ih =>
    rw [voiceEvents, onChannel, List.filter_append]
    change onChannel _ _ ++ onChannel _ _ = _
    rw [onChannel_flatMap_events, ih]
    by_cases hslot : note.waveform.index = slot
    · subst hslot
      have hfree (x : Nat) :
          (free.set note.waveform.index x).get note.waveform.index = x :=
        Vector.getElem_set_self _
      rw [if_pos rfl, hfree, List.filter_cons_of_pos (by simp), strokeGroups,
        List.flatten_cons, List.flatMap_append]
    · have hval : note.waveform.index.val ≠ slot.val := fun h => hslot (Fin.ext h)
      have hfree (x : Nat) : (free.set note.waveform.index x).get slot = free.get slot :=
        Vector.getElem_set_ne _ _ hval
      rw [if_neg (by omega), hfree, List.filter_cons_of_neg (by simp [hval]), List.nil_append]

/-- Before they are sorted, the events of a channel are those of the notes on it. -/
lemma onChannel_unorderedEvents (channel : Nat) (voices : List (List Note)) :
    onChannel channel (unorderedEvents timing voices) =
      (strokeGroups timing 0 (notesOn channel voices)).flatten.flatMap
        (Stroke.events channel) := by
  let slot : Fin 4 := ⟨channel % 4, Nat.mod_lt _ (by decide)⟩
  have hchannel : channel / 4 * 4 + slot.val = channel := Nat.div_add_mod' channel 4
  have hzero : (Vector.replicate 4 0 : Vector Nat 4).get slot = 0 :=
    Vector.getElem_replicate slot.isLt
  have hvoice (notes : List Note) :
      onChannel channel (voiceEvents timing (channel / 4) (Vector.replicate 4 0) notes) =
        (strokeGroups timing 0
          (notes.filter fun note => note.waveform.index.val == channel % 4)).flatten.flatMap
            (Stroke.events channel) := by
    have hslot := @onChannel_voiceEvents timing (channel / 4) slot (Vector.replicate 4 0) notes
    rwa [hchannel, hzero] at hslot
  rw [unorderedEvents, onChannel, List.filter_flatMap,
    flatMap_zipIdx_of_unique (i := channel / 4)
      (fun notes j hj => onChannel_voiceEvents_of_ne hj _ notes) voices (Nat.zero_le _),
    Nat.sub_zero, notesOn, List.getD_eq_getElem?_getD]
  cases voices[channel / 4]? with
  | none => rfl
  | some notes => exact hvoice notes

/-! ### Sorting -/

namespace TimedEvent

/-- One event may stand before another if it is earlier, or on one tick if it does not strike a key
before the other lets one go. -/
lemma le_iff {a b : TimedEvent} :
    a.le b = true ↔
      a.tick ≤ b.tick ∧ (a.tick = b.tick → a.event.isNoteOn = true → b.event.isNoteOn = true) := by
  simp only [le, Bool.or_eq_true, Bool.and_eq_true, decide_eq_true_eq, beq_iff_eq,
    Bool.not_eq_true']
  cases a.event.isNoteOn <;> cases b.event.isNoteOn <;> simp <;> omega

/-- The order of events is transitive. -/
lemma le_trans (a b c : TimedEvent) (hab : a.le b = true) (hbc : b.le c = true) :
    a.le c = true := by
  obtain ⟨hab, hab'⟩ := le_iff.mp hab
  obtain ⟨hbc, hbc'⟩ := le_iff.mp hbc
  refine le_iff.mpr ⟨hab.trans hbc, fun hac hon => hbc' (by omega) (hab' (by omega) hon)⟩

/-- Any two events can be put in order. -/
lemma le_total (a b : TimedEvent) : (a.le b || b.le a) = true := by
  rw [Bool.or_eq_true, le_iff, le_iff]
  cases a.event.isNoteOn <;> cases b.event.isNoteOn <;> simp <;> omega

end TimedEvent

/-- The events of spaced strokes are in order. -/
lemma Stroke.Spaced.pairwise_events {strokes : List Stroke} (h : Stroke.Spaced strokes)
    (channel : Nat) :
    (strokes.flatMap (Stroke.events channel)).Pairwise fun a b => a.le b = true := by
  have hevents {s : Stroke} {t : TimedEvent} (ht : t ∈ s.events channel) :
      t = ⟨s.struck, .noteOn channel s.key⟩ ∨ t = ⟨s.ended, .noteOff channel s.key⟩ :=
    List.mem_pair.mp ht
  refine List.pairwise_flatMap.mpr ⟨fun s hs => ?_, h.apart.imp_of_mem fun {a b} ha hb hab => ?_⟩
  · refine List.pairwise_pair.mpr (TimedEvent.le_iff.mpr ?_)
    have hlasts := h.lasts s hs
    simp only
    omega
  · -- only an event at the very end of `a` and one at the very start of `b` can share a tick
    intro x hx y hy
    have hlastsa := h.lasts a ha
    have hlastsb := h.lasts b hb
    rw [TimedEvent.le_iff]
    rcases hevents hx with rfl | rfl <;> rcases hevents hy with rfl | rfl <;>
      simp [Event.isNoteOn] <;> omega

/-- The events of a channel leave the sort as they went into it. -/
lemma onChannel_schedule (channel : Nat) (voices : List (List Note)) :
    onChannel channel (schedule timing voices) =
      (strokeGroups timing 0 (notesOn channel voices)).flatten.flatMap
        (Stroke.events channel) := by
  have hunordered := @onChannel_unorderedEvents timing channel voices
  rw [← hunordered]
  refine filter_mergeSort_of_pairwise TimedEvent.le_trans TimedEvent.le_total ?_
  change (onChannel channel (unorderedEvents timing voices)).Pairwise _
  rw [hunordered]
  exact (spaced_flatten_strokeGroups 0 _).pairwise_events channel

/-- A voice's events strike keys and let them go. -/
lemma keys_of_mem_voiceEvents {voice : Nat} {free : Vector Nat 4} {notes : List Note}
    {t : TimedEvent} (h : t ∈ voiceEvents timing voice free notes) :
    ∃ channel key, t.event = .noteOn channel key ∨ t.event = .noteOff channel key := by
  induction notes generalizing free with
  | nil => cases h
  | cons note rest ih =>
    rcases List.mem_append.mp h with h | h
    · obtain ⟨s, -, ht⟩ := List.mem_flatMap.mp h
      rcases List.mem_pair.mp ht with rfl | rfl
      · exact ⟨_, s.key, Or.inl rfl⟩
      · exact ⟨_, s.key, Or.inr rfl⟩
    · exact ih h

/-- Every schedule is well ordered, whatever the ticks of frames and the lengths of notes are. -/
lemma wellOrdered_schedule (timing : Timing) (voices : List (List Note)) :
    WellOrdered voices (schedule timing voices) where
  ordered := by
    have hsorted : (schedule timing voices).Pairwise fun a b => a.le b = true :=
      List.pairwise_mergeSort TimedEvent.le_trans TimedEvent.le_total _
    exact hsorted.imp TimedEvent.le_iff.mp
  keys := by
    intro t ht
    obtain ⟨⟨notes, voice⟩, -, ht⟩ := List.mem_flatMap.mp (List.mem_mergeSort.mp ht)
    exact keys_of_mem_voiceEvents ht
  alternating := fun channel =>
    ⟨strokeGroups timing 0 (notesOn channel voices), onChannel_schedule channel voices,
      spaced_flatten_strokeGroups 0 _, forall₂_contributes_strokeGroups 0 _⟩

/-- **Every channel is a clean alternation of note on and note off.**  The events of a tune at a
frame rate are well ordered, and this hangs on nothing that the rate decides: they are a schedule,
and every schedule is well ordered, whatever the ticks of frames and the lengths of notes are. -/
theorem events_wellOrdered (voices : List (List Note)) :
    (∀ rate, WellOrdered voices (events rate voices)) ∧
      ∀ timing, WellOrdered voices (schedule timing voices) :=
  ⟨fun rate => wellOrdered_schedule (.ofRate rate) voices,
    fun timing => wellOrdered_schedule timing voices⟩

end ChipScore.Midi
