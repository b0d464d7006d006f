import Mathlib.Tactic
import ChipScore.Proofs.Midi.Alternation

/-!
# The key that sounds

A note is a list of points in time at which its key changes: its start, and its bends as far as they
lie within it.  None of them takes effect before the channel of the note is free, so several points
may come to lie on one tick.  What should be heard is simple: at every tick the key of the last point
that is not later (`lastPoint`).

The strokes of a note get there by a detour over joined segments.  Joining loses no last point
(`getLast?_filter_merge`), the strokes of joined segments follow one another without a gap
(`chained_strokes`), and at every tick it is the stroke of the last segment that lasts
(`exists_filter_strokes`).  A listener who follows the events of a channel holds down the keys of the
strokes that last (`keysDown_flatMap_events`), and strokes of other notes on the channel lie before
or behind.  `events_soundsPoints` is the sum of this.
-/

namespace ChipScore.Midi

/-! ### Points -/

/-- The points at which a note changes its key, on a channel that is free from a tick on: its start,
and the bends after its start and before its end. -/
def points (timing : Timing) (free : Nat) (note : Note) : List Segment :=
  let bends := note.bends.toList.filter fun bend =>
    note.start < bend.frame && bend.frame < note.start + timing.frames note
  (⟨note.start, note.pitch⟩ :: bends).map fun bend =>
    ⟨max (timing.tick bend.frame) free, bend.pitch⟩

/-- The last of some points that is not later than a tick. -/
def lastPoint (points : List Segment) (tick : Nat) : Option Segment :=
  (points.filter fun p => p.tick ≤ tick).getLast?

/-- Strokes that follow one another without a gap, from one tick to another. -/
def Stroke.Chained : Nat → List Stroke → Nat → Prop
  | start, [], finish => start = finish
  | start, s :: rest, finish => s.struck = start ∧ start < s.ended ∧ Chained s.ended rest finish

/-- A stroke lasts over a tick. -/
def Stroke.LastsOver (tick : Nat) (s : Stroke) : Prop :=
  s.struck ≤ tick ∧ tick < s.ended

instance (tick : Nat) (s : Stroke) : Decidable (s.LastsOver tick) :=
  inferInstanceAs (Decidable (_ ∧ _))

/-- Strokes that have ended do not last. -/
lemma filter_lastsOver_of_ended {tick : Nat} {strokes : List Stroke}
    (h : ∀ s ∈ strokes, s.ended ≤ tick) : strokes.filter (fun s => s.LastsOver tick) = [] := by
  refine List.filter_eq_nil_iff.mpr ?_
  intro s hs hlasts
  exact absurd (of_decide_eq_true hlasts).2 (Nat.not_lt.mpr (h s hs))

/-- Strokes that are still to come do not last. -/
lemma filter_lastsOver_of_struck {tick : Nat} {strokes : List Stroke}
    (h : ∀ s ∈ strokes, tick < s.struck) : strokes.filter (fun s => s.LastsOver tick) = [] := by
  refine List.filter_eq_nil_iff.mpr ?_
  intro s hs hlasts
  exact absurd (of_decide_eq_true hlasts).1 (Nat.not_le.mpr (h s hs))

namespace Segment

/-! ### Joining -/

/-- In points in order of time, joining loses no last point, whatever ticks are looked at. -/
lemma getLast?_filter_merge {first : Segment} {rest : List Segment}
    (h : (first :: rest).Pairwise fun a b => a.tick ≤ b.tick) (p : Nat → Bool) :
    ((merge first rest).filter fun s => p s.tick).getLast? =
      ((first :: rest).filter fun s => p s.tick).getLast? := by
  induction rest generalizing first with
  | nil => rfl
  | cons next rest ih =>
    obtain ⟨hfirst, hrest⟩ := List.pairwise_cons.mp h
    have hle := hfirst next List.mem_cons_self
    have hnext := ih hrest
    rw [merge]
    split_ifs with hjoin
    · -- the next point takes the place of the first one, on the same tick
      have htick : next.tick = first.tick := Nat.le_antisymm hjoin hle
      have hmerged : (⟨first.tick, next.key⟩ : Segment) = next := by
        rw [← htick]
      rw [hmerged, hnext]
      by_cases hp : p next.tick
      · have hpfirst : p first.tick = true := htick ▸ hp
        rw [List.filter_cons_of_pos (a := first) hpfirst, List.filter_cons_of_pos (a := next) hp,
          List.getLast?_cons_cons]
      · have hpfirst : ¬p first.tick = true := htick ▸ hp
        rw [List.filter_cons_of_neg (a := first) hpfirst]
    · by_cases hp : p first.tick
      · rw [List.filter_cons_of_pos (a := first) hp, List.filter_cons_of_pos (a := first) hp,
          List.getLast?_cons, List.getLast?_cons, hnext]
      · rw [List.filter_cons_of_neg (a := first) hp, List.filter_cons_of_neg (a := first) hp, hnext]

/-- Merging points that come on one tick does not change which point is the last at any tick. -/
lemma lastPoint_merge {first : Segment} {rest : List Segment}
    (h : (first :: rest).Pairwise fun a b => a.tick ≤ b.tick) (tick : Nat) :
    lastPoint (merge first rest) tick = lastPoint (first :: rest) tick :=
  getLast?_filter_merge h fun t => t ≤ tick

/-- Merging keeps the last point. -/
lemma getLast?_merge {first : Segment} {rest : List Segment}
    (h : (first :: rest).Pairwise fun a b => a.tick ≤ b.tick) :
    (merge first rest).getLast? = (first :: rest).getLast? := by
  have hall := getLast?_filter_merge h fun _ => true
  rwa [List.filter_true, List.filter_true] at hall

/-- Joined segments begin with the first point. -/
lemma exists_merge_eq_cons (first : Segment) (rest : List Segment) :
    ∃ key later, merge first rest = ⟨first.tick, key⟩ :: later := by
  induction rest generalizing first with
  | nil => exact ⟨first.key, [], rfl⟩
  | cons next rest ih =>
    rw [merge]
    split_ifs with hjoin
    · exact ih ⟨first.tick, next.key⟩
    · exact ⟨first.key, merge next rest, rfl⟩

/-! ### Strokes of joined segments -/

/-- The strokes of segments that begin at increasing ticks follow one another without a gap, up to the
given end or to the tick after the last segment begins. -/
lemma chained_strokes {endTick : Nat} {first last : Segment} {rest : List Segment}
    (h : (first :: rest).Pairwise fun a b => a.tick < b.tick)
    (hlast : (first :: rest).getLast? = some last) :
    Stroke.Chained first.tick (strokes endTick (first :: rest)) (max endTick (last.tick + 1)) := by
  induction rest generalizing first with
  | nil =>
    obtain rfl : first = last := Option.some.inj hlast
    refine ⟨rfl, ?_, rfl⟩
    change first.tick < max endTick (first.tick + 1)
    omega
  | cons next rest ih =>
    obtain ⟨hfirst, hrest⟩ := List.pairwise_cons.mp h
    have hlt := hfirst next List.mem_cons_self
    have hended : max next.tick (first.tick + 1) = next.tick := by omega
    have hchained := ih hrest (by rwa [List.getLast?_cons_cons] at hlast)
    rw [strokes, hended]
    exact ⟨rfl, hlt, hchained⟩

/-- Over a tick between the first segment and the end there lasts one stroke, that of the last segment
which begins no later. -/
lemma exists_filter_strokes {endTick : Nat} {first last : Segment} {rest : List Segment}
    (h : (first :: rest).Pairwise fun a b => a.tick < b.tick)
    (hlast : (first :: rest).getLast? = some last) {tick : Nat} (hstart : first.tick ≤ tick)
    (hend : tick < max endTick (last.tick + 1)) :
    ∃ stroke segment,
      (strokes endTick (first :: rest)).filter (fun s => s.LastsOver tick) = [stroke] ∧
        lastPoint (first :: rest) tick = some segment ∧ stroke.key = segment.key := by
  induction rest generalizing first with
  | nil =>
    obtain rfl : first = last := Option.some.inj hlast
    refine ⟨⟨first.tick, max endTick (first.tick + 1), first.key⟩, first, ?_, ?_, rfl⟩
    · exact List.filter_cons_of_pos (decide_eq_true ⟨hstart, hend⟩)
    · rw [lastPoint, List.filter_cons_of_pos (by simpa using hstart)]
      rfl
  | cons next rest ih =>
    obtain ⟨hfirst, hrest⟩ := List.pairwise_cons.mp h
    have hlt := hfirst next List.mem_cons_self
    have hended : max next.tick (first.tick + 1) = next.tick := by omega
    have hlater : ∀ g ∈ next :: rest, next.tick ≤ g.tick := by
      intro g hg
      rcases List.mem_cons.mp hg with rfl | hg
      · exact le_refl _
      · exact ((List.pairwise_cons.mp hrest).1 g hg).le
    rw [strokes, hended]
    by_cases htick : tick < next.tick
    · -- only the first segment begins in time
      have hlasts : Stroke.LastsOver tick ⟨first.tick, next.tick, first.key⟩ := ⟨hstart, htick⟩
      refine ⟨⟨first.tick, next.tick, first.key⟩, first, ?_, ?_, rfl⟩
      · rw [List.filter_cons_of_pos (by simpa using hlasts)]
        refine congrArg (List.cons _) (filter_lastsOver_of_struck ?_)
        intro s hs
        obtain ⟨g, hg, hstruck, -⟩ := exists_of_mem_strokes hs
        have hle := hlater g hg
        omega
      · rw [lastPoint, List.filter_cons_of_pos (by simpa using hstart)]
        have hnone : (next :: rest).filter (fun p => p.tick ≤ tick) = [] := by
          refine List.filter_eq_nil_iff.mpr ?_
          intro g hg hbegun
          have hle := hlater g hg
          have hbegun' : g.tick ≤ tick := of_decide_eq_true hbegun
          omega
        rw [hnone]
        rfl
    · obtain ⟨stroke, segment, hstroke, hsegment, hkey⟩ :=
        ih hrest (by rwa [List.getLast?_cons_cons] at hlast) (by omega)
      have hover : ¬Stroke.LastsOver tick ⟨first.tick, next.tick, first.key⟩ :=
        fun hlasts => htick hlasts.2
      refine ⟨stroke, segment, ?_, ?_, hkey⟩
      · rw [List.filter_cons_of_neg (by simpa using hover)]
        exact hstroke
      · rw [lastPoint] at hsegment ⊢
        rw [List.filter_cons_of_pos (by simpa using hstart), List.getLast?_cons, hsegment]
        rfl

end Segment

/-! ### The points of a note -/

variable {timing : Timing} {free : Nat} {note : Note}

/-- The strokes of a note are those of its points, joined. -/
lemma exists_points_eq_cons (timing : Timing) (free : Nat) (note : Note) :
    ∃ first rest, points timing free note = first :: rest ∧
      first.tick = max (timing.tick note.start) free ∧
      strokesOf timing free note = Segment.strokes (timing.tick (note.start + timing.frames note))
        (Segment.merge first rest) :=
  ⟨_, _, rfl, rfl, rfl⟩

/-- The points of a note are in order of time if its bends are and if no frame of the note has an
earlier tick than a frame before it. -/
lemma pairwise_points (hbends : note.bends.toList.Pairwise fun a b => a.frame ≤ b.frame)
    (hticks : MonotoneOn timing.tick (Set.Icc note.start (note.start + timing.frames note))) :
    (points timing free note).Pairwise fun a b => a.tick ≤ b.tick := by
  refine List.pairwise_map.mpr (List.pairwise_cons.mpr ⟨?_, ?_⟩)
  · intro bend hbend
    obtain ⟨-, hinside⟩ := List.mem_filter.mp hbend
    simp only [Bool.and_eq_true, decide_eq_true_eq] at hinside
    refine max_le_max (hticks ?_ ?_ hinside.1.le) (le_refl free)
    · exact ⟨le_refl _, Nat.le_add_right _ _⟩
    · exact ⟨hinside.1.le, hinside.2.le⟩
  · refine (hbends.filter _).imp_of_mem ?_
    intro a b ha hb hab
    obtain ⟨-, hinsidea⟩ := List.mem_filter.mp ha
    obtain ⟨-, hinsideb⟩ := List.mem_filter.mp hb
    simp only [Bool.and_eq_true, decide_eq_true_eq] at hinsidea hinsideb
    refine max_le_max (hticks ?_ ?_ hab) (le_refl free)
    · exact ⟨hinsidea.1.le, hinsidea.2.le⟩
    · exact ⟨hinsideb.1.le, hinsideb.2.le⟩

/-! ### Keys that are held down -/

/-- The keys that are held down on a channel after an event.  A key that is struck is held down until
it is let go. -/
def Event.keysAfter (channel : Nat) (keys : List Int) : Event → List Int
  | noteOn c key => if c = channel then key :: keys else keys
  | noteOff c key => if c = channel then keys.erase key else keys
  | _ => keys

/-- The keys that are held down on a channel at a tick, when all events up to the tick have
happened. -/
def keysDown (channel tick : Nat) (timed : List TimedEvent) : List Int :=
  (timed.filter fun t => t.tick ≤ tick).foldl (fun keys t => t.event.keysAfter channel keys) []

/-- Events on other channels do not matter. -/
lemma foldl_onChannel (channel : Nat) (timed : List TimedEvent) (keys : List Int) :
    (onChannel channel timed).foldl (fun keys t => t.event.keysAfter channel keys) keys =
      timed.foldl (fun keys t => t.event.keysAfter channel keys) keys := by
  induction timed generalizing keys with
  | nil => rfl
  | cons t rest ih =>
    rw [onChannel, List.filter_cons]
    split_ifs with hchannel
    · exact ih _
    · have hkeys : t.event.keysAfter channel keys = keys := by
        cases hevent : t.event <;> simp_all [Event.keysAfter, Event.channel?]
      rw [List.foldl_cons, hkeys]
      exact ih keys

/-- The keys that are down on a channel depend on the events of that channel only. -/
lemma keysDown_onChannel (channel tick : Nat) (timed : List TimedEvent) :
    keysDown channel tick (onChannel channel timed) = keysDown channel tick timed := by
  rw [keysDown, onChannel, List.filter_comm]
  exact foldl_onChannel channel _ []

/-- One stroke holds its key down for as long as it lasts. -/
lemma foldl_events (channel tick : Nat) {s : Stroke} (h : s.struck < s.ended) (keys : List Int) :
    ((s.events channel).filter fun t => t.tick ≤ tick).foldl
        (fun keys t => t.event.keysAfter channel keys) keys =
      if s.LastsOver tick then s.key :: keys else keys := by
  unfold Stroke.LastsOver
  rw [Stroke.events, List.filter_cons, List.filter_singleton]
  by_cases hstruck : s.struck ≤ tick
  · by_cases hended : s.ended ≤ tick
    · have hover : ¬tick < s.ended := by omega
      simp [hstruck, hended, hover, Event.keysAfter]
    · have hlasts : tick < s.ended := by omega
      simp [hstruck, hended, hlasts, Event.keysAfter]
  · have hended : ¬s.ended ≤ tick := by omega
    simp [hstruck, hended]

/-- Of strokes that come to an end, those hold their keys down that last. -/
lemma keysDown_flatMap_events (channel tick : Nat) {strokes : List Stroke}
    (h : ∀ s ∈ strokes, s.struck < s.ended) :
    keysDown channel tick (strokes.flatMap (Stroke.events channel)) =
      ((strokes.filter fun s => s.LastsOver tick).map Stroke.key).reverse := by
  induction strokes using List.reverseRecOn with
  | nil => rfl
  | append_singleton strokes s ih =>
    have hbefore := ih fun t ht => h t (List.mem_append_left _ ht)
    have hlast := h s (List.mem_append_right _ (List.mem_singleton_self s))
    unfold keysDown at hbefore ⊢
    rw [List.flatMap_append, List.filter_append, List.foldl_append, hbefore, List.flatMap_singleton,
      foldl_events channel tick hlast, List.filter_append, List.filter_singleton]
    by_cases hlasts : s.LastsOver tick
    · simp [hlasts]
    · simp [hlasts]

/-- The channel of a note of a voice. -/
def channelOf (voice : Nat) (note : Note) : Nat :=
  voice * 4 + note.waveform.index.val

/-- Events among which some points in time are what is heard on a channel, from one tick to
another. -/
structure SoundsPoints (channel : Nat) (earlier timed : List TimedEvent) (points : List Segment)
    (first finish : Nat) : Prop where
  /-- Between the first tick and the last one strokes follow one another without a gap, and whatever
  else happens on the channel happens before or behind. -/
  contiguous : ∃ strokes afterwards,
    onChannel channel timed = earlier ++ strokes.flatMap (Stroke.events channel) ++ afterwards ∧
      Stroke.Chained first strokes finish ∧
      (∀ t ∈ earlier, t.tick ≤ first) ∧ ∀ t ∈ afterwards, finish ≤ t.tick
  /-- At every tick one key is held down, that of the last point which is not later. -/
  sounding : ∀ tick, first ≤ tick → tick < finish →
    ∃ p, lastPoint points tick = some p ∧ keysDown channel tick timed = [p.key]

/-! ### Notes before and after -/

/-- The tick of an event that lets a key of a channel go. -/
def offTick? (channel : Nat) (t : TimedEvent) : Option Nat :=
  match t.event with
  | .noteOff c _ => if c = channel then some t.tick else none
  | _ => none

/-- The tick of the last note off on a channel, or zero if there is none. -/
def lastOff (channel : Nat) (timed : List TimedEvent) : Nat :=
  (timed.filterMap (offTick? channel)).getLast?.getD 0

/-- After some strokes a channel is free from their last note off on. -/
lemma lastOff_flatMap_events (channel : Nat) (strokes : List Stroke) :
    lastOff channel (strokes.flatMap (Stroke.events channel)) = freeAfter 0 strokes := by
  have hoff (s : Stroke) :
      (s.events channel).filterMap (offTick? channel) = [s.ended] := by
    simp [Stroke.events, offTick?, List.filterMap_cons]
  have hoffs : (strokes.flatMap (Stroke.events channel)).filterMap (offTick? channel) =
      strokes.map Stroke.ended := by
    rw [List.filterMap_flatMap, List.map_eq_flatMap]
    exact List.flatMap_congr fun s _ => hoff s
  rw [lastOff, hoffs, List.getLast?_map, freeAfter]
  cases strokes.getLast? <;> rfl

/-- A channel is free after strokes, and then after later ones. -/
lemma freeAfter_append (free : Nat) (strokes later : List Stroke) :
    freeAfter free (strokes ++ later) = freeAfter (freeAfter free strokes) later := by
  unfold freeAfter
  rw [List.getLast?_append]
  cases later.getLast? <;> rfl

/-- Notes that follow others wait until these are over. -/
lemma strokeGroups_append (free : Nat) (notes later : List Note) :
    strokeGroups timing free (notes ++ later) =
      strokeGroups timing free notes ++
        strokeGroups timing (freeAfter free (strokeGroups timing free notes).flatten) later := by
  induction notes generalizing free with
  | nil => rfl
  | cons note rest ih =>
    rw [List.cons_append, strokeGroups, strokeGroups, ih, List.flatten_cons, freeAfter_append]
    rfl

/-- Strokes without a gap end where the channel is free again. -/
lemma Stroke.Chained.freeAfter_eq {start finish : Nat} {strokes : List Stroke}
    (h : Stroke.Chained start strokes finish) (hne : strokes ≠ []) (free : Nat) :
    freeAfter free strokes = finish := by
  induction strokes generalizing start with
  | nil => exact absurd rfl hne
  | cons s rest ih =>
    obtain ⟨-, -, hrest⟩ := h
    cases rest with
    | nil => exact hrest
    | cons next rest =>
      rw [← ih hrest (List.cons_ne_nil next rest)]
      unfold freeAfter
      rw [List.getLast?_cons_cons]

/-- The events of a stroke lie between its two ticks. -/
lemma Stroke.le_tick_of_mem_events {s : Stroke} {channel : Nat} {t : TimedEvent}
    (h : t ∈ s.events channel) (hlasts : s.struck < s.ended) :
    s.struck ≤ t.tick ∧ t.tick ≤ s.ended := by
  rcases List.mem_pair.mp h with rfl | rfl
  · exact ⟨le_refl _, hlasts.le⟩
  · exact ⟨hlasts.le, le_refl _⟩

/-- The notes on a channel that stand before one of them do not depend on it or on later ones. -/
lemma exists_notesOn_eq_append {voices : List (List Note)} {voice : Nat} {before later : List Note}
    (h : voices[voice]? = some (before ++ note :: later)) :
    ∃ rest, notesOn (channelOf voice note) voices =
      notesOn (channelOf voice note) (voices.set voice before) ++ note :: rest := by
  obtain ⟨hvoice, -⟩ := List.getElem?_eq_some_iff.mp h
  have hslot := note.waveform.index.isLt
  have hdiv : channelOf voice note / 4 = voice := by
    unfold channelOf
    omega
  have hmod : channelOf voice note % 4 = note.waveform.index.val := by
    unfold channelOf
    omega
  have hset : (voices.set voice before)[voice]? = some before := List.getElem?_set_self hvoice
  refine ⟨later.filter fun n => n.waveform.index.val == note.waveform.index.val, ?_⟩
  rw [notesOn, notesOn, hdiv, hmod, List.getD_eq_getElem?_getD, List.getD_eq_getElem?_getD, h, hset,
    Option.getD_some, Option.getD_some, List.filter_append, List.filter_cons_of_pos (by simp)]

/-- On the channel of a note there are strokes before it, the note's own strokes from when the
channel is free, and strokes that begin when it is free again. -/
lemma exists_flatten_strokeGroups (timing : Timing) (notes : List Note) (note : Note)
    (rest : List Note) :
    let early := (strokeGroups timing 0 notes).flatten
    let own := strokesOf timing (freeAfter 0 early) note
    ∃ late, (strokeGroups timing 0 (notes ++ note :: rest)).flatten = early ++ (own ++ late) ∧
      ∀ s ∈ late, freeAfter (freeAfter 0 early) own ≤ s.struck := by
  intro early own
  rw [strokeGroups_append, strokeGroups, List.flatten_append, List.flatten_cons]
  exact ⟨_, rfl, fun s hs => free_le_of_mem_strokeGroups hs⟩

/-- The strokes of a note do what its points say. -/
lemma exists_strokesOf (free : Nat)
    (hbends : note.bends.toList.Pairwise fun a b => a.frame ≤ b.frame)
    (hticks : MonotoneOn timing.tick (Set.Icc note.start (note.start + timing.frames note))) :
    ∃ first last, (points timing free note).head? = some first ∧
      (points timing free note).getLast? = some last ∧ free ≤ first.tick ∧
      let finish := max (timing.tick (note.start + timing.frames note)) (last.tick + 1)
      Stroke.Chained first.tick (strokesOf timing free note) finish ∧
        ∀ tick, first.tick ≤ tick → tick < finish → ∃ stroke p,
          (strokesOf timing free note).filter (fun s => s.LastsOver tick) = [stroke] ∧
            lastPoint (points timing free note) tick = some p ∧ stroke.key = p.key := by
  obtain ⟨first, rest, hpoints, hfirst, hstrokes⟩ := exists_points_eq_cons timing free note
  have hsorted := @pairwise_points timing free note hbends hticks
  rw [hpoints] at hsorted ⊢
  obtain ⟨last, hlast⟩ : ∃ last, (first :: rest).getLast? = some last :=
    ⟨_, List.getLast?_eq_some_getLast (List.cons_ne_nil first rest)⟩
  refine ⟨first, last, rfl, hlast, hfirst ▸ le_max_right _ _, ?_⟩
  -- from here on everything is about the joined points, which begin like the points
  obtain ⟨key, later, hmerge⟩ := Segment.exists_merge_eq_cons first rest
  have hstrict := Segment.pairwise_merge first rest
  have hmergeLast := (Segment.getLast?_merge hsorted).trans hlast
  rw [hmerge] at hstrict hmergeLast
  rw [hstrokes, hmerge]
  refine ⟨Segment.chained_strokes hstrict hmergeLast, ?_⟩
  intro tick hstart hend
  obtain ⟨stroke, p, hstroke, hp, hkey⟩ :=
    Segment.exists_filter_strokes hstrict hmergeLast hstart hend
  rw [← hmerge, Segment.lastPoint_merge hsorted] at hp
  exact ⟨stroke, p, hstroke, hp, hkey⟩

/-! ### A note in a schedule -/

/-- Strokes without a gap that sound some points on a channel do so among strokes before and behind
them. -/
lemma soundsPoints_of_strokes {channel first finish : Nat} {timed : List TimedEvent}
    {early own late : List Stroke} {points : List Segment}
    (hall : onChannel channel timed = (early ++ (own ++ late)).flatMap (Stroke.events channel))
    (hspaced : Stroke.Spaced (early ++ (own ++ late)))
    (hearly : ∀ s ∈ early, s.ended ≤ first) (hlate : ∀ s ∈ late, finish ≤ s.struck)
    (hchained : Stroke.Chained first own finish)
    (hsounds : ∀ tick, first ≤ tick → tick < finish → ∃ stroke p,
      own.filter (fun s => s.LastsOver tick) = [stroke] ∧ lastPoint points tick = some p ∧
        stroke.key = p.key) :
    SoundsPoints channel (early.flatMap (Stroke.events channel)) timed points first finish where
  contiguous := by
    refine ⟨own, late.flatMap (Stroke.events channel), ?_, hchained, ?_, ?_⟩
    · rw [hall, List.flatMap_append, List.flatMap_append, List.append_assoc]
    · intro t ht
      obtain ⟨s, hs, ht⟩ := List.mem_flatMap.mp ht
      have hlasts := hspaced.lasts s (List.mem_append_left _ hs)
      exact (Stroke.le_tick_of_mem_events ht hlasts).2.trans (hearly s hs)
    · intro t ht
      obtain ⟨s, hs, ht⟩ := List.mem_flatMap.mp ht
      have hlasts := hspaced.lasts s (List.mem_append_right _ (List.mem_append_right _ hs))
      exact (hlate s hs).trans (Stroke.le_tick_of_mem_events ht hlasts).1
  sounding := by
    intro tick hstart hend
    obtain ⟨stroke, p, hstroke, hp, hkey⟩ := hsounds tick hstart hend
    refine ⟨p, hp, ?_⟩
    have hoverEarly := filter_lastsOver_of_ended fun s hs => (hearly s hs).trans hstart
    have hoverLate := filter_lastsOver_of_struck fun s hs => hend.trans_le (hlate s hs)
    rw [← keysDown_onChannel, hall, keysDown_flatMap_events channel tick hspaced.lasts,
      List.filter_append, List.filter_append, hoverEarly, hoverLate, hstroke, ← hkey]
    rfl

/-- A note in a schedule sounds its points. -/
lemma soundsPoints_schedule {voices : List (List Note)} {voice : Nat} {before later : List Note}
    (hnote : voices[voice]? = some (before ++ note :: later))
    (hbends : note.bends.toList.Pairwise fun a b => a.frame ≤ b.frame)
    (hticks : MonotoneOn timing.tick (Set.Icc note.start (note.start + timing.frames note))) :
    let channel := channelOf voice note
    let earlier := onChannel channel (schedule timing (voices.set voice before))
    let points := points timing (lastOff channel earlier) note
    ∃ first last, points.head? = some first ∧ points.getLast? = some last ∧
      SoundsPoints channel earlier (schedule timing voices) points first.tick
        (max (timing.tick (note.start + timing.frames note)) (last.tick + 1)) := by
  intro channel earlier
  obtain ⟨rest, hnotes⟩ := exists_notesOn_eq_append hnote
  obtain ⟨late, hstrokes, hlate⟩ :=
    exists_flatten_strokeGroups timing (notesOn channel (voices.set voice before)) note rest
  set early := (strokeGroups timing 0 (notesOn channel (voices.set voice before))).flatten
  have hearlier : earlier = early.flatMap (Stroke.events channel) :=
    onChannel_schedule channel (voices.set voice before)
  have hall : onChannel channel (schedule timing voices) =
      (early ++ (strokesOf timing (freeAfter 0 early) note ++ late)).flatMap
        (Stroke.events channel) := by
    rw [onChannel_schedule, hnotes, hstrokes]
  have hspaced : Stroke.Spaced
      (early ++ (strokesOf timing (freeAfter 0 early) note ++ late)) := by
    rw [← hstrokes, ← hnotes]
    exact spaced_flatten_strokeGroups 0 _
  obtain ⟨first, last, hfirst, hlast, hle, hchained, hsounds⟩ :=
    exists_strokesOf (freeAfter 0 early) hbends hticks
  have hended := hchained.freeAfter_eq (strokesOf_ne_nil timing (freeAfter 0 early) note)
  have hearly : ∀ s ∈ early, s.ended ≤ first.tick := by
    intro s hs
    have hspacedEarly : Stroke.Spaced early := spaced_flatten_strokeGroups 0 _
    exact (hspacedEarly.ended_le_freeAfter 0 hs).trans hle
  rw [hended] at hlate
  rw [hearlier, lastOff_flatMap_events]
  exact ⟨first, last, hfirst, hlast,
    soundsPoints_of_strokes hall hspaced hearly hlate hchained hsounds⟩

/-- **The key that sounds at every tick.**  Take a note of a voice, with its bends in the order of
their frames, at a frame rate at which no frame of the note has an earlier tick than a frame before
it.  Its channel is free from the last note off of the notes before it on, and its points are its
start and its bends, put off until then.  From the tick of the first point to the tick of the note's
end, or to the tick after the last point if that is later, the strokes of the note follow one another
without a gap, no other event of the channel falls in between, and at every tick the key that is held
down is that of the last point which is not later. -/
theorem events_soundsPoints {rate : Binary64} {voices : List (List Note)} {voice : Nat}
    {before later : List Note} {note : Note}
    (hnote : voices[voice]? = some (before ++ note :: later))
    (hbends : note.bends.toList.Pairwise fun a b => a.frame ≤ b.frame)
    (hticks : MonotoneOn (tickOf rate) (Set.Icc note.start (note.start + framesOf rate note))) :
    let channel := channelOf voice note
    let earlier := onChannel channel (events rate (voices.set voice before))
    let points := points (.ofRate rate) (lastOff channel earlier) note
    ∃ first last, points.head? = some first ∧ points.getLast? = some last ∧
      SoundsPoints channel earlier (events rate voices) points first.tick
        (max (tickOf rate (note.start + framesOf rate note)) (last.tick + 1)) := by
  have htick : (Timing.ofRate rate).tick = tickOf rate := by
    rw [Timing.ofRate]
  have hframes : (Timing.ofRate rate).frames = framesOf rate := by
    rw [Timing.ofRate]
  have hschedule := @soundsPoints_schedule (.ofRate rate) note voices voice before later hnote hbends
  rw [htick, hframes] at hschedule
  exact hschedule hticks

/-- A note that is struck on frame 200 and held for fifteen frames. -/
def leadingNote : Note :=
  { Note.opened 200 69 .pulse (.ofRegisters 0x00 0x00) with sustain := .ofRatio 3 10 }

/-- A note that is struck before the leading one is over, with two bends that come too early as
well. -/
def crowdedNote : Note :=
  { leadingNote with start := 212, pitch := 72, bends := #[⟨213, 74⟩, ⟨214, 76⟩, ⟨220, 77⟩] }

/-- At fifty frames per second the frames of the crowded note come one tick after the other. -/
lemma monotoneOn_tickOf_crowdedNote : MonotoneOn (tickOf (.ofNat 50))
    (Set.Icc crowdedNote.start (crowdedNote.start + framesOf (.ofNat 50) crowdedNote)) := by
  have hframes : framesOf (.ofNat 50) crowdedNote = 15 := by
    decide +kernel
  have hsteps : ∀ i < 15, tickOf (.ofNat 50) (212 + i) ≤ tickOf (.ofNat 50) (212 + i + 1) := by
    decide +kernel
  rw [hframes]
  refine monotoneOn_of_le_add_one Set.ordConnected_Icc ?_
  intro frame _ hframe hnext
  have hstart : 212 ≤ frame := hframe.1
  have hend : frame + 1 ≤ 227 := hnext.2
  obtain ⟨i, rfl⟩ := Nat.exists_eq_add_of_le hstart
  exact hsteps i (by omega)

/-- The crowded note begins three frames late, with the key of its second bend. -/
theorem events_soundsPoints_crowdedNote :
    let channel := channelOf 0 crowdedNote
    let earlier := onChannel channel (events (.ofNat 50) [[leadingNote]])
    let points := points (.ofRate (.ofNat 50)) (lastOff channel earlier) crowdedNote
    points = [⟨215, 72⟩, ⟨215, 74⟩, ⟨215, 76⟩, ⟨220, 77⟩] ∧
      SoundsPoints channel earlier (events (.ofNat 50) [[leadingNote, crowdedNote]]) points 215
        227 := by
  intro channel earlier points
  have hunordered : unorderedEvents (.ofRate (.ofNat 50)) [[leadingNote]] =
      [⟨200, .noteOn 2 69⟩, ⟨215, .noteOff 2 69⟩] := by
    decide +kernel
  have hleading : events (.ofNat 50) [[leadingNote]] =
      [⟨200, .noteOn 2 69⟩, ⟨215, .noteOff 2 69⟩] := by
    rw [events, schedule, hunordered]
    exact List.mergeSort_of_pairwise (by decide)
  have hpoints : points = [⟨215, 72⟩, ⟨215, 74⟩, ⟨215, 76⟩, ⟨220, 77⟩] := by
    simp only [points, earlier, channel]
    rw [hleading]
    decide +kernel
  have hend : tickOf (.ofNat 50)
      (crowdedNote.start + framesOf (.ofNat 50) crowdedNote) = 227 := by
    decide +kernel
  obtain ⟨first, last, hfirst, hlast, hsounds⟩ :=
    @events_soundsPoints (.ofNat 50) [[leadingNote, crowdedNote]] 0 [leadingNote] [] crowdedNote
      rfl (by decide) monotoneOn_tickOf_crowdedNote
  change points.head? = some first at hfirst
  change points.getLast? = some last at hlast
  rw [hpoints] at hfirst hlast
  obtain rfl : ⟨215, 72⟩ = first := Option.some.inj hfirst
  obtain rfl : ⟨220, 77⟩ = last := Option.some.inj hlast
  rw [hend] at hsounds
  exact ⟨hpoints, hsounds⟩

end ChipScore.Midi
