import Mathlib.Tactic
import ChipScore.Sound.Pitch
import ChipScore.Sound.Registers

/-!
# Passages

What a voice plays is given by its registers, frame by frame.  A gate interval is a longest run of
frames on which the gate is high, and a passage is a gate interval in which something is heard,
together with all that is heard in it.

The frames arrive one at a time, so the facts here are about one more frame.  The last of them may
stand within a run of the gate that is still going on; `IsOpening` says where this run began, and
`EndedBefore` lists the passages that are over.  A frame on which the gate is high continues the run
(`IsOpening.concat_high`) and changes nothing else (`EndedBefore.concat_high`).  When the gate
falls, or the frames end, the run is a passage if something was heard in it (`EndedBefore.close`).
-/

namespace ChipScore

/-- A frame on which a voice is heard. -/
structure Heard where
  /-- The frame. -/
  frame : Nat
  /-- The pitch nearest its frequency. -/
  pitch : Int
  /-- The voice's registers. -/
  registers : VoiceRegisters
  deriving DecidableEq

/-- What is heard while the gate is high, from one frame up to another. -/
structure Passage where
  /-- The frame on which the gate rises. -/
  start : Nat
  /-- The frame on which it has fallen. -/
  stop : Nat
  /-- The first frame that is heard. -/
  first : Heard
  /-- The other frames that are heard, in order. -/
  later : List Heard
  deriving DecidableEq

/-- Whether the gate is high on a frame.  After the last frame it is low. -/
def gateAt (frames : List VoiceRegisters) (i : Nat) : Bool :=
  frames[i]?.any VoiceRegisters.gate

/-- What is heard from one frame up to another: the frames whose frequency is not zero. -/
def heardIn (clockHz : Binary64) (frames : List VoiceRegisters) (start stop : Nat) : List Heard :=
  ((frames.zipIdx.take stop).drop start).filterMap fun (r, i) =>
    (Pitch.nearest? r.frequency clockHz).map fun pitch => ⟨i, pitch, r⟩

/-- A longest run of frames on which the gate is high. -/
structure IsGateInterval (frames : List VoiceRegisters) (start stop : Nat) : Prop where
  /-- There are frames in it. -/
  nonempty : start < stop
  /-- The gate is high on all of them. -/
  high : ∀ i, start ≤ i → i < stop → gateAt frames i = true
  /-- It is low on the frame before them, if there is one. -/
  rises : ∀ i, i + 1 = start → gateAt frames i = false
  /-- It is low on the frame after them. -/
  falls : gateAt frames stop = false

/-- A gate interval in which something is heard. -/
structure IsPassage (clockHz : Binary64) (frames : List VoiceRegisters) (p : Passage) : Prop where
  /-- Its frames are a gate interval. -/
  interval : IsGateInterval frames p.start p.stop
  /-- It lists what is heard in them. -/
  heard : heardIn clockHz frames p.start p.stop = p.first :: p.later

/-- The passages among frames, in order. -/
structure Passages (clockHz : Binary64) (frames : List VoiceRegisters) (passages : List Passage) :
    Prop where
  /-- Between two passages the gate is low at least once. -/
  ordered : passages.Pairwise fun a b => a.stop < b.start
  /-- All of them are passages. -/
  isPassage : ∀ p ∈ passages, IsPassage clockHz frames p
  /-- Every gate interval with a frequency other than zero is one of them. -/
  complete : ∀ start stop, IsGateInterval frames start stop →
    (∃ i r, start ≤ i ∧ i < stop ∧ frames[i]? = some r ∧ r.frequency ≠ 0) →
    ∃ p ∈ passages, p.start = start ∧ p.stop = stop

/-- The frame with which the run of the gate that reaches the end of the frames begins; the end
itself if the gate is low there. -/
structure IsOpening (frames : List VoiceRegisters) (start : Nat) : Prop where
  /-- It is not after the end. -/
  le_length : start ≤ frames.length
  /-- The gate is high up to the end. -/
  high : ∀ i, start ≤ i → i < frames.length → gateAt frames i = true
  /-- It is low on the frame before, if there is one. -/
  rises : ∀ i, i + 1 = start → gateAt frames i = false

/-- The passages that end before a frame, in order. -/
structure EndedBefore (clockHz : Binary64) (frames : List VoiceRegisters) (bound : Nat)
    (passages : List Passage) : Prop where
  /-- Between two passages the gate is low at least once. -/
  ordered : passages.Pairwise fun a b => a.stop < b.start
  /-- They are the passages that end before the frame. -/
  mem_iff : ∀ p, p ∈ passages ↔ IsPassage clockHz frames p ∧ p.stop < bound

variable {clockHz : Binary64} {frames : List VoiceRegisters} {r : VoiceRegisters}

/-! ### The gate after one more frame -/

/-- The gate is low after the last frame. -/
lemma gateAt_of_length_le {i : Nat} (h : frames.length ≤ i) : gateAt frames i = false := by
  rw [gateAt, List.getElem?_eq_none h]
  rfl

/-- The gate on one more frame is that of its registers. -/
lemma gateAt_concat_length : gateAt (frames ++ [r]) frames.length = r.gate := by
  rw [gateAt, List.getElem?_concat_length]
  rfl

/-- One more frame does not change the gate on the others. -/
lemma gateAt_concat_of_ne {i : Nat} (h : i ≠ frames.length) :
    gateAt (frames ++ [r]) i = gateAt frames i := by
  rcases Nat.lt_or_gt_of_ne h with hlt | hgt
  · rw [gateAt, gateAt, List.getElem?_append_left hlt]
  · have hlength : (frames ++ [r]).length ≤ i := by
      rw [List.length_append, List.length_singleton]
      exact hgt
    rw [gateAt_of_length_le hlength, gateAt_of_length_le hgt.le]

/-- One more frame does not change the gate at all if it is low there. -/
lemma gateAt_concat_low (hgate : r.gate = false) (i : Nat) :
    gateAt (frames ++ [r]) i = gateAt frames i := by
  by_cases h : i = frames.length
  · rw [h, gateAt_concat_length, hgate, gateAt_of_length_le le_rfl]
  · exact gateAt_concat_of_ne h

/-- The gate decides what the gate intervals are. -/
lemma IsGateInterval.congr {other : List VoiceRegisters} {start stop : Nat}
    (h : IsGateInterval frames start stop)
    (hgate : ∀ i ≤ stop, gateAt other i = gateAt frames i) :
    IsGateInterval other start stop where
  nonempty := h.nonempty
  high i hi hstop := by rw [hgate i hstop.le, h.high i hi hstop]
  rises i hi := by
    have hnonempty := h.nonempty
    rw [hgate i (by omega), h.rises i hi]
  falls := by rw [hgate stop le_rfl, h.falls]

/-- A gate interval ends with the frames at the latest. -/
lemma IsGateInterval.stop_le_length {start stop : Nat} (h : IsGateInterval frames start stop) :
    stop ≤ frames.length := by
  by_contra hlt
  have hnonempty := h.nonempty
  have hhigh := h.high (stop - 1) (by omega) (by omega)
  rw [gateAt_of_length_le (by omega)] at hhigh
  exact Bool.false_ne_true hhigh

/-- The only gate interval that reaches the end of the frames is the run that began last. -/
lemma IsOpening.isGateInterval_iff {opening start : Nat} (h : IsOpening frames opening) :
    IsGateInterval frames start frames.length ↔ start = opening ∧ opening < frames.length := by
  constructor
  · intro hinterval
    have hnonempty := hinterval.nonempty
    -- the gate is low before either of the two starts, and high from it on
    have hstart : start = opening := by
      rcases Nat.lt_trichotomy start opening with hlt | heq | hgt
      · have hhigh := hinterval.high (opening - 1) (by omega) (by have := h.le_length; omega)
        rw [h.rises (opening - 1) (by omega)] at hhigh
        exact absurd hhigh Bool.false_ne_true
      · exact heq
      · have hhigh := h.high (start - 1) (by omega) (by omega)
        rw [hinterval.rises (start - 1) (by omega)] at hhigh
        exact absurd hhigh Bool.false_ne_true
    exact ⟨hstart, hstart ▸ hnonempty⟩
  · rintro ⟨rfl, hlt⟩
    exact ⟨hlt, h.high, h.rises, gateAt_of_length_le le_rfl⟩

/-- Before the first frame no run has begun. -/
lemma isOpening_nil : IsOpening [] 0 where
  le_length := le_rfl
  high _ _ hi := absurd hi (Nat.not_lt_zero _)
  rises _ hi := absurd hi (Nat.succ_ne_zero _)

/-- A frame on which the gate is high continues the run. -/
lemma IsOpening.concat_high {start : Nat} (h : IsOpening frames start) (hgate : r.gate = true) :
    IsOpening (frames ++ [r]) start where
  le_length := by
    have hle := h.le_length
    rw [List.length_append]
    omega
  high i hi hlt := by
    rw [List.length_append, List.length_singleton] at hlt
    by_cases heq : i = frames.length
    · rw [heq, gateAt_concat_length, hgate]
    · rw [gateAt_concat_of_ne heq, h.high i hi (by omega)]
  rises i hi := by
    have hle := h.le_length
    rw [gateAt_concat_of_ne (by omega), h.rises i hi]

/-- After a frame on which the gate is low the next run has yet to begin. -/
lemma isOpening_concat_low (hgate : r.gate = false) :
    IsOpening (frames ++ [r]) (frames.length + 1) where
  le_length := by rw [List.length_append, List.length_singleton]
  high i hi hlt := by
    rw [List.length_append, List.length_singleton] at hlt
    omega
  rises i hi := by
    obtain rfl : i = frames.length := Nat.succ.inj hi
    rw [gateAt_concat_length, hgate]

/-! ### What is heard after one more frame -/

/-- What is heard up to the last frame does not change. -/
lemma heardIn_concat_of_le {start stop : Nat} (h : stop ≤ frames.length) :
    heardIn clockHz (frames ++ [r]) start stop = heardIn clockHz frames start stop := by
  rw [heardIn, heardIn, List.zipIdx_append, List.take_append_of_le_length]
  rwa [List.length_zipIdx]

/-- What is heard on one more frame comes after the rest. -/
lemma heardIn_concat_length {start : Nat} (h : start ≤ frames.length) :
    heardIn clockHz (frames ++ [r]) start (frames.length + 1) =
      heardIn clockHz frames start frames.length ++
        ((Pitch.nearest? r.frequency clockHz).map fun pitch =>
          (⟨frames.length, pitch, r⟩ : Heard)).toList := by
  have hall : frames.zipIdx.take frames.length = frames.zipIdx :=
    List.take_of_length_le (by rw [List.length_zipIdx])
  have hall' : (frames ++ [r]).zipIdx.take (frames.length + 1) = (frames ++ [r]).zipIdx :=
    List.take_of_length_le (by rw [List.length_zipIdx, List.length_append, List.length_singleton])
  rw [heardIn, heardIn, hall, hall', List.zipIdx_append,
    List.drop_append_of_le_length (by rwa [List.length_zipIdx]), List.filterMap_append]
  congr 1
  cases hpitch : Pitch.nearest? r.frequency clockHz <;> simp [hpitch]

/-- Nothing is heard in no frames. -/
lemma heardIn_self (start : Nat) : heardIn clockHz frames start start = [] := by
  rw [heardIn, List.drop_eq_nil_of_le (List.length_take_le _ _)]
  rfl

/-- Something is heard wherever the frequency is not zero. -/
lemma heardIn_ne_nil {start stop i : Nat} (hstart : start ≤ i) (hstop : i < stop)
    (hframe : frames[i]? = some r) (hfrequency : r.frequency ≠ 0) :
    heardIn clockHz frames start stop ≠ [] := by
  have hmem : (r, i) ∈ (frames.zipIdx.take stop).drop start := by
    refine List.mem_of_getElem? (i := i - start) ?_
    rw [List.getElem?_drop, Nat.add_sub_cancel' hstart, List.getElem?_take_of_lt hstop,
      List.getElem?_zipIdx, hframe]
    simp
  refine List.ne_nil_of_mem (a := ⟨i, Pitch.ofHertz (Pitch.hertz r.frequency clockHz), r⟩) ?_
  refine List.mem_filterMap.mpr ⟨(r, i), hmem, ?_⟩
  simp only [Pitch.nearest?, if_neg hfrequency, Option.map_some]

/-! ### Passages after one more frame -/

/-- A passage that has ended before the last frame stays one, and no other becomes one. -/
lemma isPassage_concat_of_lt {p : Passage} (h : p.stop < frames.length) :
    IsPassage clockHz (frames ++ [r]) p ↔ IsPassage clockHz frames p := by
  have hgate (i : Nat) (hi : i ≤ p.stop) : gateAt (frames ++ [r]) i = gateAt frames i :=
    gateAt_concat_of_ne (by omega)
  have hheard : heardIn clockHz (frames ++ [r]) p.start p.stop =
      heardIn clockHz frames p.start p.stop := heardIn_concat_of_le h.le
  constructor
  · rintro ⟨hinterval, hp⟩
    exact ⟨hinterval.congr fun i hi => (hgate i hi).symm, hheard ▸ hp⟩
  · rintro ⟨hinterval, hp⟩
    exact ⟨hinterval.congr hgate, hheard.trans hp⟩

/-- A frame on which the gate is low makes no passage and takes none away. -/
lemma isPassage_concat_low {p : Passage} (hgate : r.gate = false) :
    IsPassage clockHz (frames ++ [r]) p ↔ IsPassage clockHz frames p := by
  have hheard (hinterval : IsGateInterval frames p.start p.stop) :
      heardIn clockHz (frames ++ [r]) p.start p.stop = heardIn clockHz frames p.start p.stop :=
    heardIn_concat_of_le hinterval.stop_le_length
  constructor
  · rintro ⟨hinterval, hp⟩
    have hinterval' : IsGateInterval frames p.start p.stop :=
      hinterval.congr fun i _ => (gateAt_concat_low hgate i).symm
    exact ⟨hinterval', hheard hinterval' ▸ hp⟩
  · rintro ⟨hinterval, hp⟩
    exact ⟨hinterval.congr fun i _ => gateAt_concat_low hgate i, (hheard hinterval).trans hp⟩

namespace EndedBefore

variable {passages : List Passage}

/-- Before the first frame no passage has ended. -/
lemma nil : EndedBefore clockHz [] 0 [] where
  ordered := .nil
  mem_iff _ := ⟨fun h => absurd h List.not_mem_nil, fun h => absurd h.2 (Nat.not_lt_zero _)⟩

/-- No passage ends with a frame on which the gate is high. -/
lemma concat_high (h : EndedBefore clockHz frames frames.length passages)
    (hgate : r.gate = true) :
    EndedBefore clockHz (frames ++ [r]) (frames.length + 1) passages where
  ordered := h.ordered
  mem_iff p := by
    rw [h.mem_iff]
    constructor
    · rintro ⟨hp, hlt⟩
      exact ⟨(isPassage_concat_of_lt hlt).mpr hp, Nat.lt_succ_of_lt hlt⟩
    · rintro ⟨hp, hlt⟩
      have hne : p.stop ≠ frames.length := by
        intro heq
        have hfalls := hp.interval.falls
        rw [heq, gateAt_concat_length, hgate] at hfalls
        exact Bool.false_ne_true hfalls.symm
      have hlt' : p.stop < frames.length := by omega
      exact ⟨(isPassage_concat_of_lt hlt').mp hp, hlt'⟩

/-- A frame on which the gate is low makes no passage that had not ended with the frames. -/
lemma concat_low (h : EndedBefore clockHz frames (frames.length + 1) passages)
    (hgate : r.gate = false) :
    EndedBefore clockHz (frames ++ [r]) (frames.length + 1) passages where
  ordered := h.ordered
  mem_iff p := by rw [h.mem_iff, isPassage_concat_low hgate]

/-- If nothing was heard in the run that reaches the end, no passage ends there. -/
lemma close_silent {opening : Nat} (h : EndedBefore clockHz frames frames.length passages)
    (hopening : IsOpening frames opening)
    (hheard : heardIn clockHz frames opening frames.length = []) :
    EndedBefore clockHz frames (frames.length + 1) passages where
  ordered := h.ordered
  mem_iff p := by
    rw [h.mem_iff]
    refine and_congr_right fun hp => ⟨Nat.lt_succ_of_lt, fun hlt => ?_⟩
    refine Nat.lt_of_le_of_ne (Nat.le_of_lt_succ hlt) fun heq => ?_
    have hinterval := hp.interval
    rw [heq] at hinterval
    have hp' := hp.heard
    rw [heq, (hopening.isGateInterval_iff.mp hinterval).1, hheard] at hp'
    exact List.cons_ne_nil _ _ hp'.symm

/-- If something was heard in the run that reaches the end, it is one more passage. -/
lemma close {opening : Nat} {first : Heard} {later : List Heard}
    (h : EndedBefore clockHz frames frames.length passages) (hopening : IsOpening frames opening)
    (hheard : heardIn clockHz frames opening frames.length = first :: later) :
    EndedBefore clockHz frames (frames.length + 1)
      (passages ++ [⟨opening, frames.length, first, later⟩]) := by
  have hlt : opening < frames.length := by
    refine Nat.lt_of_le_of_ne hopening.le_length fun heq => ?_
    rw [heq, heardIn_self] at hheard
    exact List.cons_ne_nil _ _ hheard.symm
  refine ⟨List.pairwise_append.mpr ⟨h.ordered, List.pairwise_singleton _ _, ?_⟩, fun p => ?_⟩
  · -- an earlier passage ends on a frame before the run on which the gate is low
    intro a ha b hb
    obtain rfl := List.mem_singleton.mp hb
    obtain ⟨hpassage, hstop⟩ := (h.mem_iff a).mp ha
    by_contra hle
    have hhigh := hopening.high a.stop (Nat.le_of_not_lt hle) hstop
    rw [hpassage.interval.falls] at hhigh
    exact Bool.false_ne_true hhigh
  · rw [List.mem_append, List.mem_singleton, h.mem_iff]
    constructor
    · rintro (⟨hp, hstop⟩ | rfl)
      · exact ⟨hp, Nat.lt_succ_of_lt hstop⟩
      · exact ⟨⟨hopening.isGateInterval_iff.mpr ⟨rfl, hlt⟩, hheard⟩, Nat.lt_succ_self _⟩
    · rintro ⟨hp, hstop⟩
      rcases Nat.lt_or_eq_of_le (Nat.le_of_lt_succ hstop) with hstop | heq
      · exact Or.inl ⟨hp, hstop⟩
      · right
        obtain ⟨start, stop, first', later'⟩ := p
        obtain rfl : stop = frames.length := heq
        obtain ⟨rfl, -⟩ := hopening.isGateInterval_iff.mp hp.interval
        obtain ⟨rfl, rfl⟩ := List.cons.inj (hheard.symm.trans hp.heard)
        rfl

/-- The passages that have ended with the frames are all passages. -/
lemma toPassages (h : EndedBefore clockHz frames (frames.length + 1) passages) :
    Passages clockHz frames passages where
  ordered := h.ordered
  isPassage p hp := ((h.mem_iff p).mp hp).1
  complete start stop hinterval := by
    rintro ⟨i, r, hstart, hstop, hframe, hfrequency⟩
    have hne : heardIn clockHz frames start stop ≠ [] :=
      heardIn_ne_nil hstart hstop hframe hfrequency
    obtain ⟨first, later, hheard⟩ := List.exists_cons_of_ne_nil hne
    have hend : stop < frames.length + 1 := Nat.lt_succ_of_le hinterval.stop_le_length
    exact ⟨⟨start, stop, first, later⟩, (h.mem_iff _).mpr ⟨⟨hinterval, hheard⟩, hend⟩, rfl, rfl⟩

end EndedBefore

end ChipScore
