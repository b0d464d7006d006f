import Mathlib.Tactic
import ChipScore.Midi.Schedule

/-!
# The strokes of one note

A note becomes strokes in two steps.  `Segment.merge` joins segments that would begin on one tick,
so that the segments it leaves begin at strictly increasing ticks, and `Segment.strokes` ends each
of them where the next one begins.  `Stroke.Spaced` is what these two steps are for: every stroke
lasts for at least a tick, and none is struck before those in front of it have ended.

The main statements are about `strokesOf`: a note has at least one stroke, its strokes are spaced,
none of them is struck before the channel is free, and their keys are pitches of the note.
Nothing is asked of the `Timing`, whose ticks may go back or stand still from frame to frame.
-/

namespace ChipScore.Midi

/-- Strokes that keep clear of each other. -/
structure Stroke.Spaced (strokes : List Stroke) : Prop where
  /-- A stroke lasts for at least one tick. -/
  lasts : ∀ s ∈ strokes, s.struck < s.ended
  /-- No stroke is struck before those in front of it have ended. -/
  apart : strokes.Pairwise fun a b => a.ended ≤ b.struck

/-- A stroke of a note sounds its pitch or that of one of its bends. -/
def Stroke.IsOf (note : Note) (s : Stroke) : Prop :=
  s.key = note.pitch ∨ ∃ bend ∈ note.bends, s.key = bend.pitch

namespace Stroke

/-- No strokes are spaced. -/
lemma spaced_nil : Spaced [] :=
  ⟨by simp, List.Pairwise.nil⟩

/-- Spaced strokes after spaced strokes are spaced if they are struck after the others' end. -/
lemma Spaced.append {first second : List Stroke} (hfirst : Spaced first) (hsecond : Spaced second)
    (h : ∀ a ∈ first, ∀ b ∈ second, a.ended ≤ b.struck) : Spaced (first ++ second) where
  lasts := by
    intro s hs
    rcases List.mem_append.mp hs with hs | hs
    · exact hfirst.lasts s hs
    · exact hsecond.lasts s hs
  apart := List.pairwise_append.mpr ⟨hfirst.apart, hsecond.apart, h⟩

/-- Of spaced strokes the last one ends last. -/
lemma Spaced.ended_le_freeAfter {strokes : List Stroke} (h : Spaced strokes) (free : Nat)
    {s : Stroke} (hs : s ∈ strokes) : s.ended ≤ freeAfter free strokes := by
  obtain ⟨init, last, rfl⟩ : ∃ init last, strokes = init ++ [last] :=
    (List.eq_nil_or_concat' strokes).resolve_left (List.ne_nil_of_mem hs)
  have hfree : freeAfter free (init ++ [last]) = last.ended := by
    simp [freeAfter]
  rw [hfree]
  rcases List.mem_append.mp hs with hs | hs
  · have hbefore : s.ended ≤ last.struck :=
      (List.pairwise_append.mp h.apart).2.2 s hs last (List.mem_singleton_self last)
    have hlast : last.struck < last.ended := h.lasts last (by simp)
    omega
  · rw [List.mem_singleton.mp hs]

end Stroke

namespace Segment

/-! ### Joining segments -/

/-- Joining leaves at least one segment. -/
lemma merge_ne_nil (first : Segment) (rest : List Segment) : merge first rest ≠ [] := by
  induction rest generalizing first with
  | nil => exact List.cons_ne_nil _ _
  | cons next rest ih =>
    rw [merge]
    split
    · exact ih _
    · exact List.cons_ne_nil _ _

/-- Joined segments begin no earlier than the first one. -/
lemma tick_le_of_mem_merge {first s : Segment} {rest : List Segment} (h : s ∈ merge first rest) :
    first.tick ≤ s.tick := by
  induction rest generalizing first with
  | nil => rw [List.mem_singleton.mp h]
  | cons next rest ih =>
    rw [merge] at h
    split at h
    case isTrue =>
      have hle : (⟨first.tick, next.key⟩ : Segment).tick ≤ s.tick := ih h
      exact hle
    case isFalse hlt =>
      rcases List.mem_cons.mp h with rfl | h
      · exact le_refl _
      · have hnext := ih h
        omega

/-- Joined segments begin at strictly increasing ticks. -/
lemma pairwise_merge (first : Segment) (rest : List Segment) :
    (merge first rest).Pairwise fun a b => a.tick < b.tick := by
  induction rest generalizing first with
  | nil => exact List.pairwise_singleton _ _
  | cons next rest ih =>
    rw [merge]
    split
    case isTrue => exact ih _
    case isFalse hlt =>
      refine List.pairwise_cons.mpr ⟨fun s hs => ?_, ih next⟩
      have hnext := tick_le_of_mem_merge hs
      omega

/-- A joined segment has the key of one of the segments. -/
lemma exists_key_of_mem_merge {first s : Segment} {rest : List Segment}
    (h : s ∈ merge first rest) : ∃ g ∈ first :: rest, s.key = g.key := by
  induction rest generalizing first with
  | nil => exact ⟨first, List.mem_singleton_self first, by rw [List.mem_singleton.mp h]⟩
  | cons next rest ih =>
    rw [merge] at h
    split at h
    case isTrue =>
      obtain ⟨g, hg, hkey⟩ := ih h
      rcases List.mem_cons.mp hg with rfl | hg
      · exact ⟨next, by simp, hkey⟩
      · exact ⟨g, by simp [hg], hkey⟩
    case isFalse =>
      rcases List.mem_cons.mp h with rfl | h
      · exact ⟨s, List.mem_cons_self, rfl⟩
      · obtain ⟨g, hg, hkey⟩ := ih h
        exact ⟨g, List.mem_cons_of_mem first hg, hkey⟩

/-! ### Strokes of segments -/

/-- Segments have strokes. -/
lemma strokes_ne_nil {endTick : Nat} {segments : List Segment} (h : segments ≠ []) :
    strokes endTick segments ≠ [] := by
  match segments with
  | [last] => exact List.cons_ne_nil _ _
  | first :: next :: rest => exact List.cons_ne_nil _ _

/-- A stroke is struck where its segment begins, and sounds its key. -/
lemma exists_of_mem_strokes {endTick : Nat} {segments : List Segment} {s : Stroke}
    (h : s ∈ strokes endTick segments) : ∃ g ∈ segments, s.struck = g.tick ∧ s.key = g.key := by
  fun_induction strokes endTick segments with
  | case1 => cases h
  | case2 last =>
    obtain rfl := List.mem_singleton.mp h
    exact ⟨last, List.mem_singleton_self last, rfl, rfl⟩
  | case3 first next rest ih =>
    rcases List.mem_cons.mp h with rfl | h
    · exact ⟨first, List.mem_cons_self, rfl, rfl⟩
    · obtain ⟨g, hg, hboth⟩ := ih h
      exact ⟨g, List.mem_cons_of_mem first hg, hboth⟩

/-- Segments that begin at strictly increasing ticks have spaced strokes. -/
lemma spaced_strokes {endTick : Nat} {segments : List Segment}
    (h : segments.Pairwise fun a b => a.tick < b.tick) :
    Stroke.Spaced (strokes endTick segments) := by
  fun_induction strokes endTick segments with
  | case1 => exact Stroke.spaced_nil
  | case2 last =>
    refine ⟨fun s hs => ?_, List.pairwise_singleton _ _⟩
    obtain rfl := List.mem_singleton.mp hs
    change last.tick < max endTick (last.tick + 1)
    omega
  | case3 first next rest ih =>
    obtain ⟨hfirst, hrest⟩ := List.pairwise_cons.mp h
    have hspaced := ih hrest
    have hnext : first.tick < next.tick := hfirst next List.mem_cons_self
    refine ⟨fun s hs => ?_, List.pairwise_cons.mpr ⟨fun s hs => ?_, hspaced.apart⟩⟩
    · rcases List.mem_cons.mp hs with rfl | hs
      · change first.tick < max next.tick (first.tick + 1)
        omega
      · exact hspaced.lasts s hs
    · -- the stroke of `first` ends where `next` begins, and no later segment begins before that
      obtain ⟨g, hg, hstruck, -⟩ := exists_of_mem_strokes hs
      have hle : next.tick ≤ g.tick := by
        rcases List.mem_cons.mp hg with rfl | hg
        · exact le_refl _
        · exact ((List.pairwise_cons.mp hrest).1 g hg).le
      change max next.tick (first.tick + 1) ≤ s.struck
      omega

end Segment

/-! ### Strokes of a note -/

variable (timing : Timing) (free : Nat) (note : Note)

/-- A note has at least one stroke. -/
lemma strokesOf_ne_nil : strokesOf timing free note ≠ [] :=
  Segment.strokes_ne_nil (Segment.merge_ne_nil _ _)

/-- The strokes of a note are spaced. -/
lemma spaced_strokesOf : Stroke.Spaced (strokesOf timing free note) :=
  Segment.spaced_strokes (Segment.pairwise_merge _ _)

variable {timing free note}

/-- No stroke of a note is struck before its channel is free. -/
lemma free_le_of_mem_strokesOf {s : Stroke} (h : s ∈ strokesOf timing free note) :
    free ≤ s.struck := by
  obtain ⟨g, hg, hstruck, -⟩ := Segment.exists_of_mem_strokes h
  calc free ≤ max (timing.tick note.start) free := le_max_right _ _
    _ ≤ g.tick := Segment.tick_le_of_mem_merge hg
    _ = s.struck := hstruck.symm

/-- The keys of a note's strokes are its pitches. -/
lemma isOf_of_mem_strokesOf {s : Stroke} (h : s ∈ strokesOf timing free note) : s.IsOf note := by
  obtain ⟨g, hg, -, hkey⟩ := Segment.exists_of_mem_strokes h
  obtain ⟨g', hg', hkey'⟩ := Segment.exists_key_of_mem_merge hg
  rcases List.mem_cons.mp hg' with rfl | hg'
  · exact Or.inl (hkey.trans hkey')
  · obtain ⟨bend, hbend, rfl⟩ := List.mem_map.mp hg'
    have hmem : bend ∈ note.bends := by
      simpa using (List.mem_filter.mp hbend).1
    exact Or.inr ⟨bend, hmem, hkey.trans hkey'⟩

end ChipScore.Midi
