import Mathlib.Tactic
import ChipScore.Proofs.Note.Course
import ChipScore.Proofs.Note.Spells
import ChipScore.Proofs.Note.Transcription

/-!
# The life of a voice's notes

While a voice is listened to, frames are finished, the voice is stopped and the clock goes on, in
any order.  Whatever is done, its notes stay in order (`Listening.lifecycle_run`): all but the last
are over and nothing of them changes any more, each of them is lawful and tells of one spell of what
was heard, and they stand in the order of the spells.

What an action does to the notes is one `Change` out of seven, and which of them it can be
depends on the mark that the action leaves behind (`Listening.change_step`).  What is `Kept`
relates the notes to the marks so far.  It says one thing more than the result, namely that there is
a sounding note just as long as a spell is going on; without it nothing tells whether a frame that
is heard continues a note or opens one.
-/

namespace ChipScore

/-! ### One step -/

/-- The waveform that is heard. -/
def Heard.waveform (h : Heard) : Waveform :=
  Transcriber.waveform h.registers.control

/-- The envelope of what is heard. -/
def Heard.envelope (h : Heard) : Envelope :=
  .ofRegisters h.registers.attackDecay h.registers.sustainRelease

/-- The notes of a voice as they stand. -/
structure Page where
  /-- The notes that are over, oldest first. -/
  stopped : List Note
  /-- The note that is not yet over. -/
  current : Option Note

/-- All notes, oldest first. -/
def Page.notes (page : Page) : List Note :=
  page.stopped ++ page.current.toList

@[simp]
lemma Page.notes_none (stopped : List Note) : notes ⟨stopped, none⟩ = stopped :=
  List.append_nil stopped

@[simp]
lemma Page.notes_some (stopped : List Note) (note : Note) :
    notes ⟨stopped, some note⟩ = stopped ++ [note] :=
  rfl

/-- What an action that leaves a mark does to the notes of a voice. -/
inductive Change (clock : FrameClock) : Page → Page → Option (Option Heard) → Prop
  /-- Nothing is heard and nothing is cut. -/
  | nothing {page : Page} : Change clock page page none
  /-- A cut finds no sounding note. -/
  | silence {page : Page} (silent : ∀ note, page.current = some note → note.state ≠ .sounding) :
      Change clock page page (some none)
  /-- The gate of the current note falls. -/
  | release {stopped : List Note} {note : Note} (sounding : note.state = .sounding) :
      Change clock ⟨stopped, some note⟩ ⟨stopped, some (note.releasedAt clock)⟩ (some none)
  /-- The current note is stopped. -/
  | stop {stopped : List Note} {note : Note} :
      Change clock ⟨stopped, some note⟩ ⟨stopped ++ [note.stoppedAt clock], none⟩ (some none)
  /-- The current note is brought up to date. -/
  | refresh {stopped : List Note} {note : Note} {h : Heard} (sounding : note.state = .sounding)
      (now : h.frame = clock.frame) :
      Change clock ⟨stopped, some note⟩
        ⟨stopped, some (note.refreshed h.frame h.pitch h.waveform h.envelope)⟩ (some (some h))
  /-- A note opens, and there was no current one. -/
  | first {stopped : List Note} {h : Heard} (now : h.frame = clock.frame) :
      Change clock ⟨stopped, none⟩
        ⟨stopped, some (.opened h.frame h.pitch h.waveform h.envelope)⟩ (some (some h))
  /-- A note opens, and the current one gives way to it. -/
  | next {stopped : List Note} {note : Note} {h : Heard} (silent : note.state ≠ .sounding)
      (now : h.frame = clock.frame) :
      Change clock ⟨stopped, some note⟩
        ⟨stopped ++ [note.stoppedAt clock], some (.opened h.frame h.pitch h.waveform h.envelope)⟩
        (some (some h))

namespace Transcriber

variable {t : Transcriber}

/-- The notes of a transcriber as they stand. -/
def page (t : Transcriber) : Page where
  stopped := t.stopped.toList
  current := t.current

/-- A transcriber has the notes of its page. -/
lemma toList_notes (t : Transcriber) : t.notes.toList = t.page.notes := by
  rw [notes, Page.notes, page]
  cases t.current with
  | none => exact (List.append_nil _).symm
  | some note => exact Array.toList_push

/-- A transcriber's page has the current note that it has been found to have. -/
lemma page_of_current {current : Option Note} (h : t.current = current) :
    t.page = ⟨t.stopped.toList, current⟩ := by
  rw [page, h]

/-- What has been reported is not on the page. -/
lemma page_noteWaveform (t : Transcriber) (control : UInt8) :
    (t.noteWaveform control).page = t.page := by
  unfold noteWaveform
  split_ifs <;> rfl

/-- Stopping is a cut. -/
lemma change_stop (t : Transcriber) (clock : FrameClock) :
    Change clock t.page (t.stop clock).page (some none) := by
  cases hcurrent : t.current with
  | none =>
    rw [stop_of_none hcurrent]
    refine .silence fun note hnote => ?_
    exact absurd (hcurrent.symm.trans hnote) (Option.some_ne_none note).symm
  | some note =>
    rw [stop_of_some hcurrent, page_of_current hcurrent, page, Array.toList_push]
    exact .stop

/-- A frame on which the gate is low is a cut. -/
lemma change_release (t : Transcriber) (clock : FrameClock) :
    Change clock t.page (t.release clock).page (some none) := by
  by_cases hsilent : ∀ note, t.current = some note → note.state ≠ .sounding
  · rw [release_of_silent hsilent]
    exact .silence hsilent
  · push Not at hsilent
    obtain ⟨note, hcurrent, hstate⟩ := hsilent
    have hrelease : t.release clock = { t with current := some (note.releasedAt clock) } := by
      rw [release, hcurrent]
    rw [hrelease, page_of_current hcurrent, page]
    exact .release hstate

/-- A frame with a pitch is heard. -/
lemma change_sound (t : Transcriber) {clock : FrameClock} {h : Heard}
    (hnow : h.frame = clock.frame) :
    Change clock t.page (t.sound clock h.pitch h.waveform h.envelope).page (some (some h)) := by
  cases hcurrent : t.current with
  | none =>
    have hsound : t.sound clock h.pitch h.waveform h.envelope =
        { t with current := some (.opened clock.frame h.pitch h.waveform h.envelope) } := by
      rw [sound, hcurrent]
    rw [hsound, page_of_current hcurrent, page, ← hnow]
    exact .first hnow
  | some note =>
    rw [page_of_current hcurrent]
    by_cases hstate : note.state = .sounding
    · have hsound : t.sound clock h.pitch h.waveform h.envelope =
          { t with
            current := some (note.refreshed clock.frame h.pitch h.waveform h.envelope) } := by
        rw [sound, hcurrent]
        exact if_neg fun hreleased => Note.isReleased_iff.mp hreleased hstate
      rw [hsound, page, ← hnow]
      exact .refresh hstate hnow
    · have hsound : t.sound clock h.pitch h.waveform h.envelope =
          { t.stop clock with
            current := some (.opened clock.frame h.pitch h.waveform h.envelope) } := by
        rw [sound, hcurrent]
        exact if_pos (Note.isReleased_iff.mpr hstate)
      rw [hsound, stop_of_some hcurrent, page, Array.toList_push, ← hnow]
      exact .next hstate hnow

/-- What the end of a frame does depends on the gate and the pitch. -/
lemma change_finishFrame (t : Transcriber) (clock : FrameClock) (r : VoiceRegisters) :
    Change clock t.page (t.finishFrame r clock).page
      ((Action.finishFrame r).mark? t.clockHz clock.frame) := by
  rw [finishFrame, Action.mark?]
  split_ifs
  · cases Pitch.nearest? r.frequency t.clockHz with
    | none => exact .nothing
    | some pitch =>
      rw [← t.page_noteWaveform r.control]
      exact change_sound (h := ⟨clock.frame, pitch, r⟩) _ rfl
  · exact t.change_release clock

/-- Stopping twice is stopping once. -/
lemma stop_stop (t : Transcriber) (clock : FrameClock) :
    (t.stop clock).stop clock = t.stop clock := by
  cases hcurrent : t.current with
  | none => rw [stop_of_none hcurrent, stop_of_none hcurrent]
  | some note =>
    refine stop_of_none ?_ clock
    rw [stop_of_some hcurrent]

end Transcriber

variable {clock : FrameClock} {page page' : Page} {mark : Option (Option Heard)}

/-- Every note continues, and at most one note is new. -/
lemma Change.continues (h : Change clock page page' mark) :
    ∃ (continued : List Note) (added : Option Note), page'.notes = continued ++ added.toList ∧
      List.Forall₂ Note.Continues page.notes continued := by
  have hrefl (notes : List Note) : List.Forall₂ Note.Continues notes notes :=
    List.forall₂_same.mpr fun note _ => .refl note
  have hlast (notes : List Note) {note later : Note} (hlater : note.Continues later) :
      List.Forall₂ Note.Continues (notes ++ [note]) (notes ++ [later]) :=
    List.rel_append (hrefl notes) (.cons hlater .nil)
  cases h with
  | nothing => exact ⟨page.notes, none, (List.append_nil _).symm, hrefl _⟩
  | silence => exact ⟨page.notes, none, (List.append_nil _).symm, hrefl _⟩
  | @release stopped note =>
    exact ⟨_, none, (List.append_nil _).symm, hlast stopped (note.continues_releasedAt clock)⟩
  | @stop stopped note =>
    exact ⟨_, none, rfl, hlast stopped (note.continues_stoppedAt clock)⟩
  | @refresh stopped note h hsounding =>
    exact ⟨_, none, (List.append_nil _).symm,
      hlast stopped (note.continues_refreshed hsounding h.frame h.pitch h.waveform h.envelope)⟩
  | @first stopped h =>
    rw [Page.notes_none]
    exact ⟨stopped, some (.opened h.frame h.pitch h.waveform h.envelope), rfl, hrefl stopped⟩
  | @next stopped note h =>
    exact ⟨_, some (.opened h.frame h.pitch h.waveform h.envelope), rfl,
      hlast stopped (note.continues_stoppedAt clock)⟩

/-- A property of notes that is respected by every way in which a note is written. -/
structure Note.Respected (P : Note → Prop) : Prop where
  /-- A new note has it. -/
  opened : ∀ h : Heard, P (.opened h.frame h.pitch h.waveform h.envelope)
  /-- A sounding note that has it may be brought up to date. -/
  refreshed : ∀ (note : Note) (h : Heard), note.state = .sounding → P note →
    P (note.refreshed h.frame h.pitch h.waveform h.envelope)
  /-- A sounding note that has it may be released. -/
  releasedAt : ∀ (note : Note) (clock : FrameClock), note.state = .sounding → P note →
    P (note.releasedAt clock)
  /-- A note that has it may be stopped. -/
  stoppedAt : ∀ (note : Note) (clock : FrameClock), P note → P (note.stoppedAt clock)

/-- If all notes have a property that is respected, then they have it afterwards. -/
lemma Change.forall_notes {P : Note → Prop} (hP : Note.Respected P)
    (h : Change clock page page' mark) (hnotes : ∀ note ∈ page.notes, P note) :
    ∀ note ∈ page'.notes, P note := by
  have hconcat {stopped : List Note} {last : Note} :
      (∀ note ∈ stopped ++ [last], P note) ↔ (∀ note ∈ stopped, P note) ∧ P last := by
    rw [List.forall_mem_append, List.forall_mem_singleton]
  cases h with
  | nothing => exact hnotes
  | silence => exact hnotes
  | release hsounding =>
    obtain ⟨hstopped, hlast⟩ := hconcat.mp hnotes
    exact hconcat.mpr ⟨hstopped, hP.releasedAt _ clock hsounding hlast⟩
  | stop =>
    obtain ⟨hstopped, hlast⟩ := hconcat.mp hnotes
    rw [Page.notes_none]
    exact hconcat.mpr ⟨hstopped, hP.stoppedAt _ clock hlast⟩
  | @refresh _ note now hsounding =>
    obtain ⟨hstopped, hlast⟩ := hconcat.mp hnotes
    exact hconcat.mpr ⟨hstopped, hP.refreshed note now hsounding hlast⟩
  | @first _ now =>
    rw [Page.notes_none] at hnotes
    exact hconcat.mpr ⟨hnotes, hP.opened now⟩
  | @next _ note now =>
    obtain ⟨hstopped, hlast⟩ := hconcat.mp hnotes
    exact hconcat.mpr ⟨hconcat.mpr ⟨hstopped, hP.stoppedAt _ clock hlast⟩, hP.opened now⟩

/-! ### What is kept -/

/-- A list of notes that tells, note by note, of spells. -/
structure Chronicle (frame : Nat) (told : List (List Heard)) (notes : List Note) : Prop where
  /-- The notes are as they may be. -/
  lawful : ∀ note ∈ notes, note.Lawful frame
  /-- They are in order of their starts. -/
  starts_ordered : (notes.map Note.start).Pairwise (· ≤ ·)
  /-- Each of them tells of its spell. -/
  tells : List.Forall₂ (fun spell note => note.Tells spell) told notes

/-- The last note of a list and the last spell belong together. -/
lemma forall₂_concat {R : List Heard → Note → Prop} {told : List (List Heard)} {notes : List Note}
    {spell : List Heard} {note : Note} :
    List.Forall₂ R (told ++ [spell]) (notes ++ [note]) ↔
      List.Forall₂ R told notes ∧ R spell note := by
  rw [← List.forall₂_reverse_iff, List.reverse_concat, List.reverse_concat, List.forall₂_cons,
    List.forall₂_reverse_iff, and_comm]

namespace Chronicle

variable {frame : Nat} {told : List (List Heard)} {spell : List Heard} {notes : List Note}
  {note other : Note}

/-- The last note of a chronicle is one that starts no earlier than the others. -/
lemma concat_iff :
    Chronicle frame (told ++ [spell]) (notes ++ [note]) ↔
      Chronicle frame told notes ∧ note.Lawful frame ∧
        (∀ earlier ∈ notes, earlier.start ≤ note.start) ∧ note.Tells spell := by
  constructor
  · rintro ⟨hlawful, hstarts, htells⟩
    rw [List.map_append, List.pairwise_append] at hstarts
    obtain ⟨htells, hspell⟩ := forall₂_concat.mp htells
    refine ⟨⟨fun n hn => hlawful n (List.mem_append_left _ hn), hstarts.1, htells⟩,
      hlawful note List.mem_concat_self, fun earlier hearlier => ?_, hspell⟩
    exact hstarts.2.2 _ (List.mem_map_of_mem hearlier) _ List.mem_cons_self
  · rintro ⟨⟨hlawful, hstarts, htells⟩, hnote, hearlier, hspell⟩
    refine ⟨fun n hn => ?_, ?_, forall₂_concat.mpr ⟨htells, hspell⟩⟩
    · rcases List.mem_append.mp hn with hn | hn
      · exact hlawful n hn
      · exact List.mem_singleton.mp hn ▸ hnote
    · rw [List.map_append, List.pairwise_append]
      refine ⟨hstarts, List.pairwise_singleton _ _, fun a ha b hb => ?_⟩
      obtain ⟨earlier, hmem, rfl⟩ := List.mem_map.mp ha
      rw [List.mem_singleton.mp hb]
      exact hearlier earlier hmem

/-- A chronicle that ends with a note ends with its spell. -/
lemma exists_spell (h : Chronicle frame told (notes ++ [note])) :
    ∃ earlier spell, told = earlier ++ [spell] := by
  rcases told.eq_nil_or_concat with rfl | ⟨earlier, spell, rfl⟩
  · exact absurd (List.forall₂_nil_left_iff.mp h.tells) (List.concat_ne_nil note notes)
  · exact ⟨earlier, spell, List.concat_eq_append⟩

/-- What is lawful on one frame is lawful on a later one. -/
lemma mono {later : Nat} (h : Chronicle frame told notes) (hle : frame ≤ later) :
    Chronicle later told notes :=
  ⟨fun note hnote => (h.lawful note hnote).mono hle, h.starts_ordered, h.tells⟩

/-- The last note may be replaced by a lawful one with the same course. -/
lemma replace_last (h : Chronicle frame told (notes ++ [note])) (hsame : note.SameCourse other)
    (hlawful : note.Lawful frame → other.Lawful frame) :
    Chronicle frame told (notes ++ [other]) := by
  obtain ⟨earlier, spell, rfl⟩ := h.exists_spell
  obtain ⟨hrest, hnote, hstarts, htells⟩ := concat_iff.mp h
  exact concat_iff.mpr ⟨hrest, hlawful hnote, hsame.start ▸ hstarts, htells.of_sameCourse hsame⟩

/-- The last note may be brought up to date. -/
lemma refresh_last {h : Heard} {waveform : Waveform} {envelope : Envelope}
    (hc : Chronicle h.frame (told ++ [spell]) (notes ++ [note])) :
    Chronicle h.frame (told ++ [spell ++ [h]])
      (notes ++ [note.refreshed h.frame h.pitch waveform envelope]) := by
  obtain ⟨hrest, hnote, hstarts, htells⟩ := concat_iff.mp hc
  exact concat_iff.mpr ⟨hrest, hnote.refreshed _ _ _, hstarts, htells.refreshed _ _ _⟩

/-- A new note starts no earlier than those before it. -/
lemma concat_opened {h : Heard} {waveform : Waveform} {envelope : Envelope}
    (hc : Chronicle h.frame told notes) :
    Chronicle h.frame (told ++ [[h]]) (notes ++ [.opened h.frame h.pitch waveform envelope]) :=
  concat_iff.mpr ⟨hc, Note.lawful_opened _ _ _ _, fun note hnote => (hc.lawful note hnote).start_le,
    Note.tells_opened _ _ _⟩

end Chronicle

/-- What the notes of a voice have to do with what actions have left behind. -/
structure Kept (frame : Nat) (past : List (Option Heard)) (page : Page) : Prop where
  /-- The notes that are over are over. -/
  stopped : ∀ note ∈ page.stopped, note.state = .stopped
  /-- The notes tell of the spells. -/
  chronicle : Chronicle frame (spells past) page.notes
  /-- There is a sounding note just as long as a spell is going on. -/
  sounding : openSpell past ≠ [] ↔ ∃ note, page.current = some note ∧ note.state = .sounding

namespace Kept

variable {past : List (Option Heard)}

/-- In the beginning there is no note and no spell. -/
lemma empty (frame : Nat) : Kept frame [] ⟨[], none⟩ where
  stopped _ h := absurd h List.not_mem_nil
  chronicle := ⟨fun _ h => absurd h List.not_mem_nil, .nil, .nil⟩
  sounding := by simp [openSpell, stretches]

/-- While a note is sounding the last spell is the one that is going on, and what is heard is added
to it. -/
lemma spells_concat_sounding (h : Kept clock.frame past page) {note : Note}
    (hcurrent : page.current = some note) (hsounding : note.state = .sounding) (now : Heard) :
    ∃ closed, spells past = closed ++ [openSpell past] ∧
      spells (past ++ [some now]) = closed ++ [openSpell past ++ [now]] := by
  obtain ⟨closed, hspells, hmore⟩ := exists_spells past now
  rw [List.filter_singleton, decide_eq_true (h.sounding.mpr ⟨note, hcurrent, hsounding⟩)] at hspells
  exact ⟨closed, hspells, hmore⟩

/-- While no note is sounding what is heard is a spell of its own. -/
lemma spells_concat_silent (h : Kept clock.frame past page)
    (hsilent : ∀ note, page.current = some note → note.state ≠ .sounding) (now : Heard) :
    spells (past ++ [some now]) = spells past ++ [[now]] := by
  have hopen : openSpell past = [] := by
    by_contra hopen
    obtain ⟨note, hcurrent, hsounding⟩ := h.sounding.mp hopen
    exact hsilent note hcurrent hsounding
  obtain ⟨closed, hspells, hmore⟩ := exists_spells past now
  rw [hmore, hspells, hopen]
  simp

/-- It is kept by a cut that leaves no sounding note. -/
lemma of_cut (hstopped : ∀ note ∈ page.stopped, note.state = .stopped)
    (hchronicle : Chronicle clock.frame (spells past) page.notes)
    (hsilent : ∀ note, page.current = some note → note.state ≠ .sounding) :
    Kept clock.frame (past ++ [none]) page where
  stopped := hstopped
  chronicle := (spells_concat_cut past).symm ▸ hchronicle
  sounding := by
    rw [openSpell_concat_cut]
    exact ⟨absurd rfl, fun ⟨note, hcurrent, hsounding⟩ => absurd hsounding (hsilent note hcurrent)⟩

/-- It is kept when something is heard and the current note is sounding. -/
lemma of_heard {now : Heard} {note : Note} (hstopped : ∀ note ∈ page.stopped, note.state = .stopped)
    (hchronicle : Chronicle clock.frame (spells (past ++ [some now])) page.notes)
    (hcurrent : page.current = some note) (hsounding : note.state = .sounding) :
    Kept clock.frame (past ++ [some now]) page where
  stopped := hstopped
  chronicle := hchronicle
  sounding := by
    rw [openSpell_concat_heard]
    exact iff_of_true (List.concat_ne_nil now _) ⟨note, hcurrent, hsounding⟩

/-- The notes before the last one are over. -/
lemma stopped_of_mem_dropLast (h : Kept clock.frame past page) {note : Note}
    (hnote : note ∈ page.notes.dropLast) : note.state = .stopped := by
  obtain ⟨stopped, current⟩ := page
  refine h.stopped note ?_
  cases current with
  | none =>
    rw [Page.notes_none] at hnote
    exact List.mem_of_mem_dropLast hnote
  | some last =>
    rwa [Page.notes_some, List.dropLast_concat] at hnote

/-- Stopping the current note puts it to those that are over. -/
lemma forall_stopped_concat {stopped : List Note} (h : ∀ note ∈ stopped, note.state = .stopped)
    (note : Note) (clock : FrameClock) :
    ∀ other ∈ stopped ++ [note.stoppedAt clock], other.state = .stopped := by
  intro other hother
  rcases List.mem_append.mp hother with hother | hother
  · exact h other hother
  · rw [List.mem_singleton.mp hother]
    exact note.state_stoppedAt clock

/-- **One step keeps it.** -/
lemma step (h : Kept clock.frame past page) (hchange : Change clock page page' mark) :
    Kept clock.frame (past ++ mark.toList) page' := by
  cases hchange with
  | nothing => exact (List.append_nil past).symm ▸ h
  | silence hsilent => exact of_cut h.stopped h.chronicle hsilent
  | @release stopped note hsounding =>
    refine of_cut h.stopped ?_ fun other hother => ?_
    · exact h.chronicle.replace_last (note.sameCourse_releasedAt clock) Note.Lawful.releasedAt
    · rw [← Option.some.inj hother, Note.releasedAt_of_sounding hsounding]
      exact fun hstate => NoteState.noConfusion hstate
  | @stop stopped note =>
    refine of_cut (forall_stopped_concat h.stopped note clock) ?_ fun other hother => ?_
    · rw [Page.notes_none]
      exact h.chronicle.replace_last (note.sameCourse_stoppedAt clock) Note.Lawful.stoppedAt
    · exact absurd hother (Option.some_ne_none other).symm
  | @refresh stopped note now hsounding hnow =>
    -- the note is sounding, so its spell is the last one and goes on
    obtain ⟨closed, hspells, hmore⟩ := h.spells_concat_sounding rfl hsounding now
    refine of_heard h.stopped ?_ rfl hsounding
    have hchronicle := h.chronicle
    rw [hspells, ← hnow] at hchronicle
    rw [hmore, ← hnow]
    exact hchronicle.refresh_last
  | @first stopped now hnow =>
    -- no note is sounding, so what is heard begins a spell, here and in the next case
    refine of_heard h.stopped ?_ rfl rfl
    have hchronicle := h.chronicle
    rw [Page.notes_none, ← hnow] at hchronicle
    rw [h.spells_concat_silent (fun other hother => absurd hother (Option.some_ne_none other).symm),
      ← hnow]
    exact hchronicle.concat_opened
  | @next stopped note now hsilent hnow =>
    refine of_heard (forall_stopped_concat h.stopped note clock) ?_ rfl rfl
    have hchronicle := h.chronicle.replace_last (note.sameCourse_stoppedAt clock)
      Note.Lawful.stoppedAt
    rw [← hnow] at hchronicle
    rw [h.spells_concat_silent (fun other hother => Option.some.inj hother ▸ hsilent), ← hnow]
    exact hchronicle.concat_opened

end Kept

/-! ### A whole run -/

/-- A voice that is being listened to. -/
structure Listening where
  /-- The notes so far. -/
  transcriber : Transcriber
  /-- The clock. -/
  clock : FrameClock

namespace Listening

/-- A voice of which nothing has been heard. -/
def begin (clockHz : Binary64) (clock : FrameClock) : Listening where
  transcriber := .new clockHz
  clock := clock

/-- The state after an action. -/
def step (s : Listening) : Action → Listening
  | .finishFrame r => { s with transcriber := s.transcriber.finishFrame r s.clock }
  | .stop => { s with transcriber := s.transcriber.stop s.clock }
  | .advance => { s with clock := s.clock.advance 1 }

/-- The state after actions. -/
def run (s : Listening) (actions : List Action) : Listening :=
  actions.foldl step s

/-- The notes so far. -/
def notes (s : Listening) : List Note :=
  s.transcriber.notes.toList

/-- An action changes the notes as its mark says. -/
lemma change_step (s : Listening) (action : Action) :
    Change s.clock s.transcriber.page (s.step action).transcriber.page
      (action.mark? s.transcriber.clockHz s.clock.frame) := by
  cases action with
  | finishFrame r => exact s.transcriber.change_finishFrame s.clock r
  | stop => exact s.transcriber.change_stop s.clock
  | advance => exact .nothing

/-- The clock of the chip stays what it is. -/
lemma clockHz_step (s : Listening) (action : Action) :
    (s.step action).transcriber.clockHz = s.transcriber.clockHz := by
  cases action with
  | finishFrame r => exact s.transcriber.clockHz_finishFrame r s.clock
  | stop =>
    change (s.transcriber.stop s.clock).clockHz = s.transcriber.clockHz
    unfold Transcriber.stop
    split <;> rfl
  | advance => rfl

/-- The clock moves with the action, and with nothing else. -/
lemma frame_step (s : Listening) (action : Action) :
    (s.step action).clock.frame = action.frameAfter s.clock.frame := by
  cases action <;> rfl

/-- A property of notes that is respected holds for all notes of a run. -/
lemma forall_notes_run {P : Note → Prop} (hP : Note.Respected P) (s : Listening)
    (actions : List Action) (hnotes : ∀ note ∈ s.notes, P note) :
    ∀ note ∈ (s.run actions).notes, P note := by
  induction actions generalizing s with
  | nil => exact hnotes
  | cons action actions ih =>
    refine ih (s.step action) ?_
    rw [notes, Transcriber.toList_notes] at hnotes ⊢
    exact (s.change_step action).forall_notes hP hnotes

/-- What is kept, is kept by actions. -/
lemma kept_run (s : Listening) (past : List (Option Heard)) (actions : List Action)
    (h : Kept s.clock.frame past s.transcriber.page) :
    Kept (s.run actions).clock.frame (past ++ marks s.transcriber.clockHz s.clock.frame actions)
      (s.run actions).transcriber.page := by
  induction actions generalizing s past with
  | nil => exact (List.append_nil past).symm ▸ h
  | cons action actions ih =>
    have hstep := h.step (s.change_step action)
    have hframe : s.clock.frame ≤ (s.step action).clock.frame := by
      cases action with
      | advance => exact Nat.le_succ _
      | _ => exact le_rfl
    have hnext := ih (s.step action) _ ⟨hstep.stopped, hstep.chronicle.mono hframe, hstep.sounding⟩
    rw [clockHz_step, frame_step, List.append_assoc] at hnext
    exact hnext

end Listening

/-- The order that the notes of a voice are always in, when actions have left `past` behind. -/
structure Lifecycle (s : Listening) (past : List (Option Heard)) : Prop where
  /-- Every note but the last is over. -/
  stopped : ∀ note ∈ s.notes.dropLast, note.state = .stopped
  /-- Whatever is done next, every note continues, and at most one note is new. -/
  continues : ∀ action, ∃ (continued : List Note) (added : Option Note),
    (s.step action).notes = continued ++ added.toList ∧
      List.Forall₂ Note.Continues s.notes continued
  /-- The notes are as they may be, they are in order of their starts, and each of them tells of one
  spell. -/
  chronicle : Chronicle s.clock.frame (spells past) s.notes
  /-- After stopping every note is over. -/
  settled : ∀ note ∈ (s.step .stop).notes, note.state = .stopped
  /-- Stopping twice is stopping once. -/
  stop_twice : (s.step .stop).step .stop = s.step .stop

/-- **Whatever is done, the notes of a voice are in order.** -/
theorem Listening.lifecycle_run (clockHz : Binary64) (clock : FrameClock) (actions : List Action) :
    Lifecycle ((begin clockHz clock).run actions) (marks clockHz clock.frame actions) := by
  have hkept := (begin clockHz clock).kept_run [] actions (.empty clock.frame)
  generalize (begin clockHz clock).run actions = s at hkept ⊢
  have hnotes (s : Listening) : s.notes = s.transcriber.page.notes := s.transcriber.toList_notes
  constructor
  · intro note hnote
    rw [hnotes] at hnote
    exact hkept.stopped_of_mem_dropLast hnote
  · intro action
    rw [hnotes, hnotes]
    exact (s.change_step action).continues
  · rw [hnotes]
    exact hkept.chronicle
  · intro note hnote
    have hstep := hkept.step (s.change_step .stop)
    change note ∈ (s.transcriber.stop s.clock).notes.toList at hnote
    rw [Transcriber.notes_stop] at hnote
    exact hstep.stopped note hnote
  · exact congrArg (fun t => (⟨t, s.clock⟩ : Listening)) (s.transcriber.stop_stop s.clock)

end ChipScore
