import Mathlib.Tactic
import ChipScore.Proofs.Player.Starting
import ChipScore.Proofs.Word

/-!
# The song in the accumulator

A tune is told which song to play by the accumulator, which holds the number of the song, counted
from zero, when the init routine starts.  Songs are counted by words and the accumulator is a byte,
so the number arrives modulo 256 (`Playable.toNat_a_initCall`), and nothing else of the processor
depends on it (`initCall_eq_iff`).  The first 256 songs of a tune are told apart in this way.  A
tune may have more, and song 257 is not refused but starts like song 1.
-/

namespace ChipScore.Player

variable {tune : Tune} {config other : Config}

/-- The song that is asked for has a number from one on. -/
lemma Playable.song_pos (h : Playable tune config) : 0 < (chosenSong tune config).toNat := by
  refine Nat.pos_of_ne_zero ?_
  intro hzero
  exact h.song_ne_zero (UInt16.toNat_inj.mp hzero)

/-- Counted from zero the number of a song is one less. -/
lemma Playable.toNat_index (h : Playable tune config) :
    (chosenSong tune config - 1).toNat = (chosenSong tune config).toNat - 1 := by
  have hle : 1 ≤ chosenSong tune config := UInt16.le_iff_toNat_le.mpr h.song_pos
  exact UInt16.toNat_sub_of_le _ _ hle

/-- The accumulator holds the low byte of the number. -/
lemma Playable.toNat_a_initCall (h : Playable tune config) :
    (initCall tune config).a.toNat = ((chosenSong tune config).toNat - 1) % 256 := by
  rw [← h.toNat_index]
  exact UInt16.toNat_toUInt8 _

/-- Only the accumulator depends on the song. -/
lemma initCall_with_song (hregion : other.region = config.region)
    (hpolicy : other.policy = config.policy) :
    initCall tune other = { initCall tune config with a := (initCall tune other).a } := by
  have hloaded : loaded tune other = loaded tune config := by
    rw [loaded, loaded, hregion, hpolicy]
  rw [initCall, initCall, hloaded]

/-- The init routine starts from one state for two songs if their numbers arrive as the same one. -/
lemma initCall_eq_iff (h : Playable tune config) (hother : Playable tune other)
    (hregion : other.region = config.region) (hpolicy : other.policy = config.policy) :
    initCall tune other = initCall tune config ↔
      (chosenSong tune other).toNat % 256 = (chosenSong tune config).toNat % 256 := by
  have ha : initCall tune other = initCall tune config ↔
      (initCall tune other).a = (initCall tune config).a := by
    constructor
    · intro heq
      rw [heq]
    · intro heq
      rw [initCall_with_song hregion hpolicy, heq]
  have hpos := h.song_pos
  have hotherPos := hother.song_pos
  rw [ha, ← UInt8.toNat_inj, h.toNat_a_initCall, hother.toNat_a_initCall]
  omega

/-- **The song reaches the init routine modulo 256.**  When the init routine of a playable tune
starts, the accumulator holds the number of the song, counted from zero, modulo 256.  This is the
number itself for the first 256 songs and for no others.  Two songs of a tune start from the same
state of the processor exactly if their numbers agree modulo 256, so the first 256 songs are told
apart. -/
theorem initCall_holds_song (h : Playable tune config) :
    (initCall tune config).pc = tune.initAddress ∧
    (initCall tune config).a.toNat = ((chosenSong tune config).toNat - 1) % 256 ∧
    ((initCall tune config).a.toNat = (chosenSong tune config).toNat - 1 ↔
      (chosenSong tune config).toNat ≤ 256) ∧
    ∀ other, Playable tune other → other.region = config.region → other.policy = config.policy →
      (initCall tune other = initCall tune config ↔
        (chosenSong tune other).toNat % 256 = (chosenSong tune config).toNat % 256) := by
  have ha := h.toNat_a_initCall
  have hpos := h.song_pos
  refine ⟨rfl, ha, by omega, ?_⟩
  intro other hother hregion hpolicy
  exact initCall_eq_iff h hother hregion hpolicy

/-- A tune with three hundred songs, whose init routine returns at once. -/
def prolificTune : Tune :=
  { briefTune with songs := 300 }

/-- Song 256 arrives as it is, and song 300 starts from another state. -/
theorem initCall_holds_song_prolificTune :
    (initCall prolificTune { song := some 256 }).a.toNat = 256 - 1 ∧
      initCall prolificTune { song := some 300 } ≠ initCall prolificTune { song := some 256 } := by
  have hlast : Playable prolificTune { song := some 256 } :=
    ⟨by decide, by decide, by decide, by decide⟩
  have hbeyond : Playable prolificTune { song := some 300 } :=
    ⟨by decide, by decide, by decide, by decide⟩
  obtain ⟨-, -, harrives, hstates⟩ := initCall_holds_song hlast
  refine ⟨harrives.mpr (by decide), ?_⟩
  rw [ne_eq, hstates _ hbeyond rfl rfl]
  decide

/-- Songs 257 and 1 of this tune can both be played, the accumulator does not hold the number of
song 257 counted from zero, and the two songs start from the same state. -/
theorem song_257_starts_like_song_1 :
    Playable prolificTune { song := some 257 } ∧ Playable prolificTune { song := some 1 } ∧
      (initCall prolificTune { song := some 257 }).a.toNat ≠ 257 - 1 ∧
      initCall prolificTune { song := some 257 } = initCall prolificTune { song := some 1 } := by
  have hbeyond : Playable prolificTune { song := some 257 } :=
    ⟨by decide, by decide, by decide, by decide⟩
  have hfirst : Playable prolificTune { song := some 1 } :=
    ⟨by decide, by decide, by decide, by decide⟩
  refine ⟨hbeyond, hfirst, ?_, (initCall_eq_iff hfirst hbeyond rfl rfl).mpr (by decide)⟩
  rw [hbeyond.toNat_a_initCall]
  decide

end ChipScore.Player
