import Mathlib.Tactic
import Mathlib.Data.List.ReduceOption
import ChipScore.Note.Transcriber
import ChipScore.Proofs.Note.Passages

/-!
# Spells

A voice may be listened to in any order: frames are finished, also several of them on one frame of
the clock, the voice is stopped, and the clock goes on, as often as one likes.  Some of this is
heard, and some of it cuts what is heard: a frame on which the gate is low, and stopping.  The
`marks` of a history list both, in order, and a spell is all that is heard between two cuts, if
there is anything.

Nothing here looks at a transcriber.  The facts are about one more mark: a cut ends the spell that
is going on (`spells_concat_cut`, `openSpell_concat_cut`), and what is heard continues it or begins
another (`exists_spells`, `openSpell_concat_heard`).
-/

namespace ChipScore

/-- What can be done while a voice is listened to. -/
inductive Action
  /-- A frame is finished, with these registers. -/
  | finishFrame (r : VoiceRegisters)
  /-- The voice is stopped. -/
  | stop
  /-- The clock goes on by a frame. -/
  | advance
  deriving DecidableEq

/-- The frame of the clock after an action. -/
def Action.frameAfter (frame : Nat) : Action → Nat
  | advance => frame + 1
  | _ => frame

/-- What an action leaves behind: something that is heard, or a cut, or nothing. -/
def Action.mark? (clockHz : Binary64) (frame : Nat) : Action → Option (Option Heard)
  | finishFrame r =>
    if r.gate then
      (Pitch.nearest? r.frequency clockHz).map fun pitch => some ⟨frame, pitch, r⟩
    else
      some none
  | stop => some none
  | advance => none

/-- What actions leave behind, the first of them on a frame given; `none` is a cut. -/
def marks (clockHz : Binary64) : Nat → List Action → List (Option Heard)
  | _, [] => []
  | frame, action :: rest =>
    (action.mark? clockHz frame).toList ++ marks clockHz (action.frameAfter frame) rest

/-- What is heard between cuts, from each cut to the next. -/
def stretches (past : List (Option Heard)) : List (List Heard) :=
  (past.splitOnP Option.isNone).map List.reduceOption

/-- The stretches between cuts in which something is heard. -/
def spells (past : List (Option Heard)) : List (List Heard) :=
  (stretches past).filter (· ≠ [])

/-- What has been heard since the last cut. -/
def openSpell (past : List (Option Heard)) : List Heard :=
  (stretches past).getLastD []

/-- A cut begins a stretch. -/
lemma stretches_concat_cut (past : List (Option Heard)) :
    stretches (past ++ [none]) = stretches past ++ [[]] := by
  rw [stretches, List.splitOnP_append_cons past [] rfl, List.map_append]
  rfl

/-- There is a last stretch, and what is heard is added to it. -/
lemma exists_stretches (past : List (Option Heard)) (h : Heard) :
    ∃ closed, stretches past = closed ++ [openSpell past] ∧
      stretches (past ++ [some h]) = closed ++ [openSpell past ++ [h]] := by
  have hsplit : ∃ closed going, past.splitOnP Option.isNone = closed ++ [going] ∧
      (past ++ [some h]).splitOnP Option.isNone = closed ++ [going ++ [some h]] := by
    induction past with
    | nil => exact ⟨[], [], rfl, rfl⟩
    | cons mark past ih =>
      obtain ⟨closed, going, hpast, hmore⟩ := ih
      rw [List.cons_append, List.splitOnP_cons_eq_if_modifyHead,
        List.splitOnP_cons_eq_if_modifyHead, hpast, hmore]
      split_ifs
      · exact ⟨[] :: closed, going, rfl, rfl⟩
      · cases closed with
        | nil => exact ⟨[], mark :: going, rfl, rfl⟩
        | cons first closed => exact ⟨(mark :: first) :: closed, going, rfl, rfl⟩
  obtain ⟨closed, going, hpast, hmore⟩ := hsplit
  have hopen : openSpell past = going.reduceOption := by
    rw [openSpell, stretches, hpast, List.map_append, List.map_singleton, List.getLastD_concat]
  refine ⟨closed.map List.reduceOption, ?_, ?_⟩
  · rw [stretches, hpast, hopen, List.map_append, List.map_singleton]
  · rw [stretches, hmore, hopen, List.map_append, List.map_singleton, List.reduceOption_append]
    rfl

/-- A cut changes no spell. -/
lemma spells_concat_cut (past : List (Option Heard)) : spells (past ++ [none]) = spells past := by
  rw [spells, stretches_concat_cut, List.filter_append]
  exact List.append_nil _

/-- After a cut no spell is going on. -/
lemma openSpell_concat_cut (past : List (Option Heard)) : openSpell (past ++ [none]) = [] := by
  rw [openSpell, stretches_concat_cut, List.getLastD_concat]

/-- What is heard is added to the spell that is going on. -/
lemma openSpell_concat_heard (past : List (Option Heard)) (h : Heard) :
    openSpell (past ++ [some h]) = openSpell past ++ [h] := by
  obtain ⟨closed, -, hmore⟩ := exists_stretches past h
  rw [openSpell, hmore, List.getLastD_concat]

/-- The last spell is the one that is going on, if there is one, and what is heard is added to it;
else it is a spell of its own. -/
lemma exists_spells (past : List (Option Heard)) (h : Heard) :
    ∃ closed, spells past = closed ++ [openSpell past].filter (· ≠ []) ∧
      spells (past ++ [some h]) = closed ++ [openSpell past ++ [h]] := by
  obtain ⟨closed, hpast, hmore⟩ := exists_stretches past h
  refine ⟨closed.filter (· ≠ []), ?_, ?_⟩
  · rw [spells, hpast, List.filter_append]
  · rw [spells, hmore, List.filter_append, List.filter_singleton]
    simp

end ChipScore
