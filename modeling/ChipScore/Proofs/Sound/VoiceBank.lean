import Mathlib.Tactic
import ChipScore.Sound.VoiceBank

/-!
# Registers and transcribers

A voice has two halves, and no operation of the chip touches both: writes reach the registers and
leave the transcribers alone, while looking at the registers at the end of a frame leaves the
registers alone.
-/

namespace ChipScore.VoiceBank

/-- One of the three voices. -/
def voice (bank : VoiceBank) (v : Fin 3) : Voice :=
  bank.voices.get v

lemma voice_eq_getElem (bank : VoiceBank) (v : Fin 3) :
    bank.voice v = getElem bank.voices v.val v.isLt :=
  rfl

/-- The voices of a new chip have latched nothing and heard nothing. -/
@[simp]
lemma voice_new (clockHz : Binary64) (v : Fin 3) :
    (new clockHz).voice v = ⟨{}, .new clockHz⟩ := by
  simp [voice_eq_getElem, new]

/-- A change of one voice leaves the others alone. -/
lemma voice_modifyVoice (bank : VoiceBank) (w : Fin 3) (f : Voice → Voice) (v : Fin 3) :
    (bank.modifyVoice w f).voice v = if w = v then f (bank.voice w) else bank.voice v := by
  rw [voice_eq_getElem, modifyVoice, Vector.getElem_set]
  simp only [Fin.val_inj]
  rfl

/-- A write leaves the transcribers alone. -/
lemma transcriber_write (bank : VoiceBank) (offset : UInt16) (value : UInt8) (v : Fin 3) :
    ((Device.write bank offset value).voice v).transcriber = (bank.voice v).transcriber := by
  change ((bank.poke (register offset) value).voice v).transcriber = _
  unfold poke
  split
  · rw [voice_modifyVoice]
    split_ifs with h
    · rw [h]
    · rfl
  · rfl

/-- The registers from 21 on are the filter's. -/
lemma filter_poke (bank : VoiceBank) (r value : UInt8) :
    (bank.poke r value).filter =
      if r < 21 then bank.filter else bank.filter.write (r - 21) value := by
  unfold poke
  split_ifs <;> rfl

/-- The end of a frame reaches every voice. -/
@[simp]
lemma voice_finishFrame (bank : VoiceBank) (clock : FrameClock) (v : Fin 3) :
    (bank.finishFrame clock).voice v = (bank.voice v).finishFrame clock := by
  simp [voice_eq_getElem, finishFrame]

end ChipScore.VoiceBank
