import Mathlib.Tactic
import ChipScore.Note.Dump
import ChipScore.Player.Config
import ChipScore.Proofs.Gathering
import ChipScore.Proofs.Note.Lifecycle

/-!
# The order of the dump

The dump lists the notes of all voices, each of them once.  They are in order of their starts;
notes that start together are in order of their voices, and those of one voice stand as they do in
the voice (`Catalogued`).  The notes of a voice that has been listened to are in order of their
starts already, so the dump keeps their order from the first to the last (`ofVoices_catalogued`).

To say which note a record is made of, notes are taken together with their places.  The sort looks
at the notes only.  It commutes with the making of records (`ofVoices_eq_map_record`), and what it
does to places follows from its stability (`pairwise_before_mergeSort`).
-/

namespace ChipScore

/-- A note and its place among the notes of all voices. -/
structure PlacedNote where
  /-- The number of the voice. -/
  voice : Nat
  /-- The number of notes that the voice has before it. -/
  position : Nat
  /-- The note. -/
  note : Note

namespace PlacedNote

/-- The note of this place is one of the notes of voices. -/
def IsIn (voices : List (List Note)) (p : PlacedNote) : Prop :=
  ∃ notes, voices[p.voice]? = some notes ∧ notes[p.position]? = some p.note

/-- A place in front of another: in an earlier voice, or earlier in the same voice. -/
def Precedes (p q : PlacedNote) : Prop :=
  p.voice < q.voice ∨ p.voice = q.voice ∧ p.position < q.position

/-- A note that a dump has before another: it starts earlier, or they start together and its place
is in front of the other's. -/
def Before (p q : PlacedNote) : Prop :=
  p.note.start < q.note.start ∨ p.note.start = q.note.start ∧ p.Precedes q

/-- A record that is made of a note on its place.  The last of its pitches is that of its last bend,
or its first one if it has no bends. -/
structure IsTold (p : PlacedNote) (r : NoteRecord) : Prop where
  /-- It has the number of the voice. -/
  voice : r.voice.toNat = p.voice
  /-- It starts with the note. -/
  start : r.start = p.note.start
  /-- It has the pitch with which the note starts. -/
  pitch : r.pitch = p.note.pitch
  /-- It has the pitch with which the note ends. -/
  finalPitch : (p.note.pitch :: p.note.bends.toList.map PitchBend.pitch).getLast? =
    some r.finalPitch
  /-- It has the waveform. -/
  waveform : r.waveform = p.note.waveform
  /-- It has the bends. -/
  bends : r.bends = p.note.bends.toList
  /-- It has the sustain. -/
  sustain : r.sustain = p.note.sustain
  /-- It has the other durations, rounded. -/
  rounded : r.attack = NoteRecord.roundMillis p.note.attack ∧
    r.decay = NoteRecord.roundMillis p.note.decay ∧
    r.release = NoteRecord.roundMillis p.note.release

end PlacedNote

/-- Records that list the notes of voices, which are given with their places. -/
structure Catalogued (voices : List (List Note)) (places : List PlacedNote)
    (records : List NoteRecord) : Prop where
  /-- The notes of the voices are listed, and no others. -/
  mem_iff : ∀ p, p ∈ places ↔ p.IsIn voices
  /-- Each of them is listed once. -/
  nodup : places.Nodup
  /-- They are in order. -/
  ordered : places.Pairwise PlacedNote.Before
  /-- Each record is made of its note. -/
  told : List.Forall₂ PlacedNote.IsTold places records

namespace NoteRecord

/-! ### Notes and their places -/

/-- The notes of one voice with their places. -/
def placesOn (voice : Nat) (notes : List Note) : List PlacedNote :=
  notes.zipIdx.map fun (note, position) => ⟨voice, position, note⟩

/-- The notes of voices with their places, voice by voice. -/
def places (voices : List (List Note)) : List PlacedNote :=
  voices.zipIdx.flatMap fun (notes, voice) => placesOn voice notes

/-- The order of a dump looks at nothing but the starts. -/
def startsBy (p q : PlacedNote) : Bool :=
  p.note.start ≤ q.note.start

/-- The record of a note on its place. -/
def record (p : PlacedNote) : NoteRecord :=
  ofNote p.voice p.note

variable {voices : List (List Note)}

/-- The records of one voice are those of its notes. -/
lemma map_record_placesOn (voice : Nat) (notes : List Note) :
    (placesOn voice notes).map record = notes.map (ofNote voice) := by
  rw [placesOn, List.map_map]
  nth_rewrite 2 [← notes.zipIdx_map_fst 0]
  rw [List.map_map]
  rfl

/-- The places that are listed are those of the notes of the voices. -/
lemma mem_places_iff {p : PlacedNote} : p ∈ places voices ↔ p.IsIn voices := by
  simp only [places, placesOn, List.mem_flatMap, List.mem_map, Prod.exists,
    List.mk_mem_zipIdx_iff_getElem?]
  constructor
  · rintro ⟨notes, voice, hnotes, note, position, hnote, rfl⟩
    exact ⟨notes, hnotes, hnote⟩
  · rintro ⟨notes, hnotes, hnote⟩
    exact ⟨notes, p.voice, hnotes, p.note, p.position, hnote, rfl⟩

/-- Numbers go up along a numbered list. -/
lemma pairwise_zipIdx {α : Type} (items : List α) :
    items.zipIdx.Pairwise fun a b => a.2 < b.2 := by
  rw [← List.pairwise_map (f := Prod.snd), List.zipIdx_map_snd]
  exact List.pairwise_lt_range' 1

/-- Before they are sorted, notes are in order of their places. -/
lemma pairwise_places (voices : List (List Note)) :
    (places voices).Pairwise PlacedNote.Precedes := by
  refine List.pairwise_flatMap.mpr ⟨?_, ?_⟩
  · rintro ⟨notes, voice⟩ -
    refine List.pairwise_map.mpr ((pairwise_zipIdx notes).imp ?_)
    intro a b hab
    exact .inr ⟨rfl, hab⟩
  · refine (pairwise_zipIdx voices).imp ?_
    intro a b hab p hp q hq
    obtain ⟨x, -, rfl⟩ := List.mem_map.mp hp
    obtain ⟨y, -, rfl⟩ := List.mem_map.mp hq
    exact .inl hab

/-- The notes of one voice are in one place. -/
lemma filter_places {v : Nat} {notes : List Note} (h : voices[v]? = some notes) :
    (places voices).filter (fun p => p.voice = v) = placesOn v notes := by
  rw [places, List.filter_flatMap, flatMap_zipIdx_of_unique (i := v) ?_ voices (Nat.zero_le v),
    Nat.sub_zero, h]
  · refine List.filter_eq_self.mpr ?_
    intro p hp
    obtain ⟨x, -, rfl⟩ := List.mem_map.mp hp
    exact decide_eq_true rfl
  · intro others j hj
    refine List.filter_eq_nil_iff.mpr ?_
    intro p hp
    obtain ⟨x, -, rfl⟩ := List.mem_map.mp hp
    simpa using hj

/-! ### Sorting -/

lemma startsBy_iff {p q : PlacedNote} : startsBy p q = true ↔ p.note.start ≤ q.note.start :=
  decide_eq_true_iff

lemma startsBy_trans (p q r : PlacedNote) (hpq : startsBy p q = true) (hqr : startsBy q r = true) :
    startsBy p r = true := by
  rw [startsBy_iff] at *
  exact hpq.trans hqr

lemma startsBy_total (p q : PlacedNote) : (startsBy p q || startsBy q p) = true := by
  rw [Bool.or_eq_true, startsBy_iff, startsBy_iff]
  exact Nat.le_total _ _

/-- The dump is made of the notes as they are sorted. -/
lemma ofVoices_eq_map_record (voices : List (List Note)) :
    ofVoices voices = ((places voices).mergeSort startsBy).map record := by
  have hrecords : (places voices).map record =
      voices.zipIdx.flatMap fun (notes, voice) => notes.map (ofNote voice) := by
    rw [places, List.map_flatMap]
    refine List.flatMap_congr ?_
    rintro ⟨notes, voice⟩ -
    exact map_record_placesOn voice notes
  rw [ofVoices, ← hrecords]
  symm
  refine List.map_mergeSort ?_
  intro p _ q _
  rfl

/-- Sorted, the notes are in the order of a dump. -/
lemma pairwise_before_mergeSort (voices : List (List Note)) :
    ((places voices).mergeSort startsBy).Pairwise PlacedNote.Before := by
  have hstarts := List.pairwise_mergeSort startsBy_trans startsBy_total (places voices)
  have htogether : ((places voices).mergeSort startsBy).Pairwise fun p q =>
      p.note.start = q.note.start → p.Precedes q := by
    refine pairwise_of_forall_filter (fun p : PlacedNote => p.note.start) ?_
    intro start
    -- notes that start together are in order before the sort, and so the sort does not move them
    have hsame : ((places voices).filter fun p => p.note.start = start).Pairwise fun p q =>
        startsBy p q = true := by
      refine List.pairwise_of_forall_mem_list ?_
      intro p hp q hq
      have hpstart := (List.mem_filter.mp hp).2
      have hqstart := (List.mem_filter.mp hq).2
      simp only [decide_eq_true_eq] at hpstart hqstart
      rw [startsBy_iff, hpstart, hqstart]
    rw [filter_mergeSort_of_pairwise startsBy_trans startsBy_total hsame]
    exact (pairwise_places voices).filter _
  refine hstarts.imp₂ ?_ htogether
  intro p q hle hplaces
  rcases Nat.lt_or_eq_of_le (startsBy_iff.mp hle) with hlt | heq
  · exact .inl hlt
  · exact .inr ⟨heq, hplaces heq⟩

/-! ### The dump -/

/-- A record tells what its note is like, if the number of the voice is a byte. -/
lemma isTold_record {p : PlacedNote} (h : p.voice < 256) : p.IsTold (record p) where
  voice := UInt8.toNat_ofNat_of_lt' h
  start := rfl
  pitch := rfl
  finalPitch := p.note.getLast?_pitches
  waveform := rfl
  bends := rfl
  sustain := rfl
  rounded := ⟨rfl, rfl, rfl⟩

/-- The number of a voice fits into a byte, if there are no more voices than bytes. -/
lemma voice_lt_of_mem_places (h : voices.length ≤ 256) {p : PlacedNote} (hp : p ∈ places voices) :
    p.voice < 256 := by
  obtain ⟨notes, hnotes, -⟩ := mem_places_iff.mp hp
  obtain ⟨hlt, -⟩ := List.getElem?_eq_some_iff.mp hnotes
  omega

/-- The dump lists the notes of all voices. -/
lemma catalogued_ofVoices (h : voices.length ≤ 256) :
    Catalogued voices ((places voices).mergeSort startsBy) (ofVoices voices) where
  mem_iff p := List.mem_mergeSort.trans mem_places_iff
  nodup := by
    refine (List.mergeSort_perm (places voices) startsBy).nodup_iff.mpr ?_
    refine (pairwise_places voices).imp ?_
    rintro p q hpq rfl
    rcases hpq with hlt | ⟨-, hlt⟩ <;> exact absurd hlt (Nat.lt_irrefl _)
  ordered := pairwise_before_mergeSort voices
  told := by
    rw [ofVoices_eq_map_record, List.forall₂_map_right_iff, List.forall₂_same]
    intro p hp
    exact isTold_record (voice_lt_of_mem_places h (List.mem_mergeSort.mp hp))

/-- A voice whose notes are in order of their starts keeps its order. -/
lemma filter_ofVoices (h : voices.length ≤ 256) {v : Nat} {notes : List Note}
    (hnotes : voices[v]? = some notes) (hordered : (notes.map Note.start).Pairwise (· ≤ ·)) :
    (ofVoices voices).filter (fun r => r.voice.toNat = v) = notes.map (ofNote v) := by
  have hvoice : ((places voices).mergeSort startsBy).filter (fun p => p.voice = v) =
      placesOn v notes := by
    rw [← filter_places hnotes]
    refine filter_mergeSort_of_pairwise startsBy_trans startsBy_total ?_
    rw [filter_places hnotes, placesOn, List.pairwise_map]
    have hstarts := List.pairwise_map.mp hordered
    rw [← notes.zipIdx_map_fst 0, List.pairwise_map] at hstarts
    refine hstarts.imp ?_
    intro a b hab
    exact startsBy_iff.mpr hab
  have hsame : ((places voices).mergeSort startsBy).filter
      ((fun r => decide (r.voice.toNat = v)) ∘ record) =
        ((places voices).mergeSort startsBy).filter (fun p => p.voice = v) := by
    refine List.filter_congr ?_
    intro p hp
    have hlt := voice_lt_of_mem_places h (List.mem_mergeSort.mp hp)
    rw [Function.comp_apply, (isTold_record hlt).voice]
  rw [ofVoices_eq_map_record, List.filter_map, hsame, hvoice, map_record_placesOn]

/-- **The dump loses and reorders nothing.**  Of up to 256 voices with any notes, the dump has one
record for each note, with the number of the voice and with the pitch of the last bend.  Its
records are in order of their starts; records with the same start are in order of their voices, and
within a voice in the order of the notes.  A voice that has been listened to, in any way, keeps all
its notes in their order. -/
theorem ofVoices_catalogued (voices : List (List Note)) (h : voices.length ≤ 256) :
    (ofVoices voices).Pairwise (fun a b => a.start ≤ b.start) ∧
    (∃ places, Catalogued voices places (ofVoices voices)) ∧
    ∀ v notes, voices[v]? = some notes →
      (∃ clockHz clock actions, notes = ((Listening.begin clockHz clock).run actions).notes) →
      (ofVoices voices).filter (fun r => r.voice.toNat = v) = notes.map (ofNote v) := by
  refine ⟨?_, ⟨_, catalogued_ofVoices h⟩, ?_⟩
  · rw [ofVoices_eq_map_record, List.pairwise_map]
    refine (List.pairwise_mergeSort startsBy_trans startsBy_total (places voices)).imp ?_
    intro p q hpq
    exact startsBy_iff.mp hpq
  · rintro v _ hnotes ⟨clockHz, clock, actions, rfl⟩
    have hkept := (Listening.begin clockHz clock).kept_run [] actions (.empty clock.frame)
    refine filter_ofVoices h hnotes ?_
    rw [Listening.notes, Transcriber.toList_notes]
    exact hkept.chronicle.starts_ordered

/-- A voice whose gate rises twice before the clock goes on. -/
def twiceStruck : List Note :=
  ((Listening.begin Region.pal.chipClock Region.pal.frameClock).run
    [.finishFrame ⟨7424, 0, 0x11, 0, 0⟩, .finishFrame ⟨7424, 0, 0x10, 0, 0⟩,
      .finishFrame ⟨7424, 0, 0x21, 0, 0⟩, .stop]).notes

/-- All notes of 256 such voices start on frame zero.  The last voice has its own number, and its
two notes stand in their order. -/
theorem ofVoices_catalogued_twiceStruck :
    (List.replicate 256 twiceStruck).length ≤ 256 ∧
    (∃ places, Catalogued (List.replicate 256 twiceStruck) places
      (ofVoices (List.replicate 256 twiceStruck))) ∧
    ((ofVoices (List.replicate 256 twiceStruck)).filter (fun r => r.voice.toNat = 255)).map
      (fun r => (r.start, r.waveform)) = [(0, .triangle), (0, .sawtooth)] := by
  have hlength : (List.replicate 256 twiceStruck).length ≤ 256 :=
    List.length_replicate.le
  have hlast : (List.replicate 256 twiceStruck)[255]? = some twiceStruck :=
    List.getElem?_replicate_of_lt (by decide)
  obtain ⟨-, hcatalogued, hkept⟩ := ofVoices_catalogued (List.replicate 256 twiceStruck) hlength
  refine ⟨hlength, hcatalogued, ?_⟩
  rw [hkept 255 twiceStruck hlast ⟨_, _, _, rfl⟩, List.map_map]
  decide +kernel

end NoteRecord

end ChipScore
