import Mathlib.Tactic
import ChipScore.Proofs.Midi.Strokes
import ChipScore.Proofs.Note.Durations

/-!
# The frames for which a note is held

The length of a note in the file is not counted in frames but computed: the frames for which the
gate was high become seconds, these are split into attack, decay and sustain and added up again,
and the sum becomes frames, of which the whole part is taken.  Every step rounds.  All errors
together stay far below one half (`near_frames`), so that the whole part is the number of frames or,
if the errors add up to something negative, one less (`framesOf_of_isNominal`).

Thus a note may lose its last frame, but no more than that, and it never gains one
(`keepsTime_of_gate_falls`).  It does lose it after four frames at fifty frames a second
(`exists_lost_frame`).
-/

namespace ChipScore

open Binary64

/-! ### Seconds -/

namespace Note

variable {note : Note} {held : Binary64} {q : ℚ}

/-- Splitting the time for which a note was held and adding it up again changes it little. -/
lemma IsNominal.near_heldSeconds (h : note.IsNominal) (hheld : held.Near q (roundoff 27))
    (hq : |q| < 2 ^ 27) : (note.heldFor held).heldSeconds.Near q (roundoff 30) := by
  have hattack := near_self (isFinite_of_isPositive h.attack_pos)
  have hdecay := near_self (isFinite_of_isPositive h.decay_pos)
  have hsum := h.near_sum
  have hzero : zero.Near 0 0 := near_signedZero false
  have hattackBound := h.attack_le
  have hdecayBound := h.decay_le
  -- what is left after the attack, and what is left after attack and decay
  have hafter : |q - note.attack.value| ≤ 2 ^ 27 + 8 :=
    (abs_sub _ _).trans (by linarith)
  have hrest : |q - note.attack.value - note.decay.value| ≤ 2 ^ 27 + 8 + 24 :=
    (abs_sub _ _).trans (by linarith)
  unfold roundoff at hheld hsum ⊢
  have hsub : (held - note.attack).Near (q - note.attack.value) (3 * 2 ^ 27 / 2 ^ 54) :=
    hheld.sub hattack rfl (k := 28) (by norm_num) (by linarith) (by norm_num [roundoff])
  rw [heldFor, heldSeconds]
  -- two roundings follow if the gate fell during the attack, three during the decay, else four
  split_ifs with hbefore hwithin
  · have hfirst : (held + zero).Near q (3 * 2 ^ 27 / 2 ^ 54) :=
      hheld.add hzero (add_zero q) (k := 28) (by norm_num) (by linarith) (by norm_num [roundoff])
    exact hfirst.add hzero (add_zero q) (k := 28) (by norm_num) (by linarith)
      (by norm_num [roundoff])
  · have hfirst : (note.attack + (held - note.attack)).Near q (5 * 2 ^ 27 / 2 ^ 54) :=
      hattack.add hsub (by ring) (k := 28) (by norm_num) (by linarith) (by norm_num [roundoff])
    exact hfirst.add hzero (add_zero q) (k := 28) (by norm_num) (by linarith)
      (by norm_num [roundoff])
  · have hsustain : (held - note.attack - note.decay).Near
        (q - note.attack.value - note.decay.value) (5 * 2 ^ 27 / 2 ^ 54) :=
      hsub.sub hdecay rfl (k := 28) (by norm_num) (by linarith) (by norm_num [roundoff])
    exact hsum.add hsustain (by ring) (k := 28) (by norm_num) (by linarith)
      (by norm_num [roundoff])

end Note

/-! ### Frames -/

namespace Midi

variable {rate : Binary64} {note : Note} {frames : Nat}

/-- Frames become seconds and frames again with an error of less than one half. -/
lemma near_frames (hpos : rate.isPositive = true) (hlow : 50 ≤ rate.value) (hhigh : rate.value ≤ 60)
    (hframes : frames < 2 ^ 32) (h : note.IsNominal) :
    (rate * (note.heldFor (ofNat frames / rate)).heldSeconds).Near frames (1 / 4) := by
  have hcast : (frames : ℚ) < 2 ^ 32 := by exact_mod_cast hframes
  have hnonneg : (0 : ℚ) ≤ frames := Nat.cast_nonneg frames
  have hrate : 0 < rate.value := by linarith
  obtain ⟨hseconds, hheld⟩ := near_ofNat_div hframes hpos (by linarith)
  have hagain := h.near_heldSeconds hheld hseconds
  have habs : |(frames : ℚ)| = frames := abs_of_nonneg hnonneg
  have habsRate : |rate.value| = rate.value := abs_of_pos hrate
  unfold roundoff at hagain
  -- the error in seconds is 2 ^ -24, and sixty times that and one more rounding are left in frames
  refine Near.mul_left (isFinite_of_isPositive hpos) hagain (mul_div_cancel₀ _ hrate.ne')
    (k := 34) (by norm_num) ?_ ?_
  · rw [habs, habsRate]
    norm_num
    linarith
  · rw [habsRate, roundoff]
    norm_num
    linarith

/-- **A note is held for the frames of its gate, or for one less.** -/
lemma framesOf_of_isNominal (hpos : rate.isPositive = true) (hlow : 50 ≤ rate.value)
    (hhigh : rate.value ≤ 60) (hframes : frames < 2 ^ 32) (hne : frames ≠ 0) (h : note.IsNominal) :
    framesOf rate (note.heldFor (ofNat frames / rate)) = frames ∨
      framesOf rate (note.heldFor (ofNat frames / rate)) + 1 = frames := by
  have hnear := near_frames hpos hlow hhigh hframes h
  have hcast : (frames : ℚ) < 2 ^ 32 := by exact_mod_cast hframes
  have hone : (1 : ℚ) ≤ frames := by exact_mod_cast Nat.one_le_iff_ne_zero.mpr hne
  obtain ⟨hbelow, habove⟩ := abs_le.mp hnear.abs_sub_le
  rw [framesOf, toNat64_floor hnear.finite (by linarith) (by linarith)]
  generalize (rate * (note.heldFor (ofNat frames / rate)).heldSeconds).value = v at hbelow habove
  have hupper : ⌊v⌋₊ < frames + 1 := by
    refine (Nat.floor_lt (by linarith)).mpr ?_
    push_cast
    linarith
  have hlower : frames - 1 ≤ ⌊v⌋₊ := by
    refine Nat.le_floor ?_
    rw [Nat.cast_sub (by omega)]
    push_cast
    linarith
  omega

/-- The release and the state of a note do not matter to its frames. -/
lemma framesOf_with (rate : Binary64) (note : Note) (release : Binary64) (state : NoteState) :
    framesOf rate { note with release := release, state := state } = framesOf rate note :=
  rfl

/-! ### Strokes -/

/-- The last of some strokes ends with the note, or a tick after it begins. -/
lemma Segment.exists_getLast?_strokes {endTick : Nat} {segments : List Segment}
    (h : segments ≠ []) :
    ∃ stroke, (strokes endTick segments).getLast? = some stroke ∧
      stroke.ended = max endTick (stroke.struck + 1) := by
  induction segments with
  | nil => exact absurd rfl h
  | cons first rest ih =>
    cases rest with
    | nil => exact ⟨_, rfl, rfl⟩
    | cons next rest =>
      obtain ⟨stroke, hlast, hended⟩ := ih (List.cons_ne_nil next rest)
      refine ⟨stroke, ?_, hended⟩
      rw [strokes, List.getLast?_cons, hlast]
      rfl

/-- The last stroke of a note ends with the note, or a tick after it begins. -/
lemma exists_getLast?_strokesOf (timing : Timing) (free : Nat) (note : Note) :
    ∃ stroke, (strokesOf timing free note).getLast? = some stroke ∧
      stroke.ended = max (timing.tick (endFrame timing note)) (stroke.struck + 1) := by
  rw [strokesOf]
  exact Segment.exists_getLast?_strokes (Segment.merge_ne_nil _ _)

/-- The ticks of a tune's frames. -/
lemma tick_ofRate (rate : Binary64) : (Timing.ofRate rate).tick = tickOf rate := by
  rw [Timing.ofRate]

/-- How a note whose gate fell on a frame appears in the file. -/
structure KeepsTime (rate : Binary64) (fell : Nat) (note : Note) : Prop where
  /-- It lasts for the frames of its gate, or for one less. -/
  frames : framesOf rate note = fell - note.start ∨ framesOf rate note + 1 = fell - note.start
  /-- It ends where the gate fell, or a frame before. -/
  endFrame : endFrame (.ofRate rate) note = fell ∨ endFrame (.ofRate rate) note + 1 = fell
  /-- Of its bends after the start only those on the last frame can be lost. -/
  bends : ∀ bend ∈ note.bends.toList, note.start < bend.frame → bend.frame + 1 < fell →
    bend ∈ innerBends (.ofRate rate) note
  /-- Its last stroke ends on the tick of its end, or a tick after it begins. -/
  lastStroke : ∀ free, ∃ stroke, (strokesOf (.ofRate rate) free note).getLast? = some stroke ∧
    stroke.ended = max (tickOf rate (Midi.endFrame (.ofRate rate) note)) (stroke.struck + 1)

/-- The frames of a note decide how it appears in the file. -/
lemma keepsTime_of_frames {fell : Nat} (hstart : note.start < fell)
    (h : framesOf rate note = fell - note.start ∨ framesOf rate note + 1 = fell - note.start) :
    KeepsTime rate fell note := by
  have hend : endFrame (.ofRate rate) note = note.start + framesOf rate note := rfl
  have hlast : endFrame (.ofRate rate) note = fell ∨ endFrame (.ofRate rate) note + 1 = fell := by
    omega
  have hbends : ∀ bend ∈ note.bends.toList, note.start < bend.frame → bend.frame + 1 < fell →
      bend ∈ innerBends (.ofRate rate) note := by
    intro bend hbend hafter hbefore
    refine List.mem_filter.mpr ⟨hbend, ?_⟩
    rw [hend, Bool.and_eq_true, decide_eq_true_eq, decide_eq_true_eq]
    exact ⟨hafter, by omega⟩
  refine ⟨h, hlast, hbends, fun free => ?_⟩
  rw [← tick_ofRate]
  exact exists_getLast?_strokesOf (.ofRate rate) free note

/-- A sounding note with the envelope of a voice's registers, which may have bent. -/
def soundingNote (start : Nat) (pitch : Int) (waveform : Waveform) (bends : Array PitchBend)
    (attackDecay sustainRelease : UInt8) : Note :=
  { Note.opened start pitch waveform (.ofRegisters attackDecay sustainRelease) with bends := bends }

/-- A rate of fifty or sixty frames a second. -/
lemma rate_bounds (h : rate = ofNat 50 ∨ rate = ofNat 60) : 50 ≤ rate.value ∧ rate.value ≤ 60 := by
  rcases h with rfl | rfl
  · rw [(value_ofNat (n := 50) (by norm_num)).2]
    norm_num
  · rw [(value_ofNat (n := 60) (by norm_num)).2]
    norm_num

/-- **A note keeps the time of its gate, to the frame before the last.** -/
theorem keepsTime_of_gate_falls (clock : FrameClock) (start : Nat) (pitch : Int)
    (waveform : Waveform) (bends : Array PitchBend) (attackDecay sustainRelease : UInt8)
    (hrate : clock.rate = ofNat 50 ∨ clock.rate = ofNat 60) (hstart : start < clock.frame)
    (hframe : clock.frame < 2 ^ 32) :
    KeepsTime clock.rate clock.frame
        ((soundingNote start pitch waveform bends attackDecay sustainRelease).releasedAt clock) ∧
      KeepsTime clock.rate clock.frame
        ((soundingNote start pitch waveform bends attackDecay sustainRelease).stoppedAt clock) := by
  have hnominal : (soundingNote start pitch waveform bends attackDecay sustainRelease).IsNominal :=
    Note.isNominal_of_registers rfl rfl rfl rfl
  have hsounding :
      (soundingNote start pitch waveform bends attackDecay sustainRelease).state = .sounding := rfl
  have hnoteStart :
      (soundingNote start pitch waveform bends attackDecay sustainRelease).start = start := rfl
  generalize soundingNote start pitch waveform bends attackDecay sustainRelease = note
    at hnominal hsounding hnoteStart ⊢
  obtain ⟨hlow, hhigh⟩ := rate_bounds hrate
  have hcount : clock.frame - start < 2 ^ 32 := by omega
  have hframes := framesOf_of_isNominal clock.rate_pos hlow hhigh hcount (by omega) hnominal
  rw [← hnoteStart] at hframes
  have hheld : framesOf clock.rate (note.releasedAt clock) =
      framesOf clock.rate (note.heldFor (ofNat (clock.frame - note.start) / clock.rate)) := by
    rw [Note.releasedAt_of_sounding hsounding, FrameClock.secondsSince, framesOf_with]
  have hstopped : framesOf clock.rate (note.stoppedAt clock) =
      framesOf clock.rate (note.releasedAt clock) := by
    rw [Note.stoppedAt_of_sounding hsounding, framesOf_with]
  have hreleasedStart := (note.sameCourse_releasedAt clock).start.trans hnoteStart
  have hstoppedStart := (note.sameCourse_stoppedAt clock).start.trans hnoteStart
  refine ⟨keepsTime_of_frames (by omega) ?_, keepsTime_of_frames (by omega) ?_⟩
  · rw [hheld, hreleasedStart, ← hnoteStart]
    exact hframes
  · rw [hstopped, hheld, hstoppedStart, ← hnoteStart]
    exact hframes

/-- The clock after four frames, at fifty frames a second. -/
def fourFrames : FrameClock :=
  Region.pal.frameClock.advance 4

/-- A note that is released after four frames keeps its time like any other. -/
theorem keepsTime_of_gate_falls_fourFrames :
    (fourFrames.rate = ofNat 50 ∨ fourFrames.rate = ofNat 60) ∧ 0 < fourFrames.frame ∧
      fourFrames.frame < 2 ^ 32 ∧
      KeepsTime fourFrames.rate fourFrames.frame
        ((soundingNote 0 69 .triangle #[] 0x00 0x00).releasedAt fourFrames) ∧
      KeepsTime fourFrames.rate fourFrames.frame
        ((soundingNote 0 69 .triangle #[] 0x00 0x00).stoppedAt fourFrames) :=
  ⟨.inl rfl, by decide, by decide,
    keepsTime_of_gate_falls fourFrames 0 69 .triangle #[] 0x00 0x00 (.inl rfl) (by decide)
      (by decide)⟩

/-- With the shortest envelope such a note loses its last frame. -/
theorem exists_lost_frame :
    framesOf fourFrames.rate ((soundingNote 0 69 .triangle #[] 0x00 0x00).releasedAt fourFrames) ≠
      fourFrames.frame - 0 := by
  decide +kernel

end Midi

end ChipScore
