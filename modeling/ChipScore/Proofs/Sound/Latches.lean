import Mathlib.Tactic
import ChipScore.Proofs.Sound.Independence
import ChipScore.Proofs.Word

/-!
# Latched registers and the last writes

The chip has twenty-five registers of one byte, and most of what it latches is put together from two
of them.  `VoiceRegisters.ofBytes` and `FilterRegisters.ofBytes` say how, and a write to one register
is a change of that one byte (`write_ofBytes`): each half of a word leaves the other half alone.

So what the chip has latched is determined by the byte that was written last to each register
(`latched_performAll`), and `latches_eq_lastWrites` spells this out in numbers.  Two histories that
leave the same bytes behind leave the same latches, which is why writes to different registers
commute and why writes that fall between the registers have no effect.
-/

namespace ChipScore

/-! ### Registers as bytes -/

/-- What a voice has latched when its seven registers hold the given bytes. -/
def VoiceRegisters.ofBytes (byte : Nat → UInt8) : VoiceRegisters where
  frequency := Word.ofBytes (byte 0) (byte 1)
  pulseWidth := Word.ofBytes (byte 2) (byte 3 &&& 0x0F)
  control := byte 4
  attackDecay := byte 5
  sustainRelease := byte 6

/-- What the filter has latched when its four registers hold the given bytes. -/
def FilterRegisters.ofBytes (byte : Nat → UInt8) : FilterRegisters where
  cutoff := (byte 0 &&& 0x07).toUInt16 ||| (byte 1).toUInt16 <<< (3 : UInt16)
  resonance := byte 2
  modeVolume := byte 3

namespace VoiceRegisters

/-- A write changes the byte of one register. -/
lemma write_ofBytes (byte : Nat → UInt8) {register : Nat} (h : register < 7) (value : UInt8) :
    (ofBytes byte).write (UInt8.ofNat register) value =
      ofBytes (Function.update byte register value) := by
  interval_cases register <;> simp [ofBytes, write, Function.update, UInt8.and_assoc]

/-- What a voice has latched depends on no more than seven bytes. -/
lemma ofBytes_congr {byte other : Nat → UInt8} (h : ∀ r < 7, byte r = other r) :
    ofBytes byte = ofBytes other := by
  simp [ofBytes, h]

/-- The pulse width has twelve bits, of which the upper four come from the lower half of a byte. -/
lemma toNat_pulseWidth_ofBytes (byte : Nat → UInt8) :
    (ofBytes byte).pulseWidth.toNat = 256 * ((byte 3).toNat % 16) + (byte 2).toNat := by
  have hnibble : (byte 3 &&& 0x0F).toNat = (byte 3).toNat % 16 := by
    rw [UInt8.toNat_and]
    exact Nat.and_two_pow_sub_one_eq_mod _ 4
  rw [ofBytes, Word.toNat_ofBytes, hnibble]

end VoiceRegisters

namespace FilterRegisters

/-- The two parts of the cutoff lie apart: the lower three bits, and the eight bits above them. -/
lemma cutoff_masks (low high : UInt8) :
    (low.toUInt16 &&& 0x0007 ||| high.toUInt16 <<< (3 : UInt16)) &&& 0x0007 =
        low.toUInt16 &&& 0x0007 ∧
      (low.toUInt16 &&& 0x0007 ||| high.toUInt16 <<< (3 : UInt16)) &&& 0x07F8 =
        high.toUInt16 <<< (3 : UInt16) := by
  have hdistrib (a b mask : UInt16) : (a ||| b) &&& mask = a &&& mask ||| b &&& mask :=
    UInt16.toNat_inj.mp (by simp [Nat.and_or_distrib_right])
  have hlow : ∀ low : UInt8, (low.toUInt16 &&& 0x0007) &&& 0x07F8 = 0 :=
    forall_byte_of_forall_lt (by decide +kernel)
  have hhigh : ∀ high : UInt8, (high.toUInt16 <<< (3 : UInt16)) &&& 0x0007 = 0 ∧
      (high.toUInt16 <<< (3 : UInt16)) &&& 0x07F8 = high.toUInt16 <<< (3 : UInt16) :=
    forall_byte_of_forall_lt (by decide +kernel)
  constructor
  · rw [hdistrib, (hhigh high).1, UInt16.and_assoc, UInt16.and_self, UInt16.or_zero]
  · rw [hdistrib, hlow, (hhigh high).2, UInt16.zero_or]

/-- A write changes the byte of one register.  There are four, and the places behind them are
empty. -/
lemma write_ofBytes (byte : Nat → UInt8) {register : Nat} (h : register < 11) (value : UInt8) :
    (ofBytes byte).write (UInt8.ofNat register) value =
      ofBytes (Function.update byte register value) := by
  interval_cases register <;>
    simp [ofBytes, write, Function.update, cutoff_masks, UInt16.or_comm]

/-- What the filter has latched depends on no more than four bytes. -/
lemma ofBytes_congr {byte other : Nat → UInt8} (h : ∀ r < 4, byte r = other r) :
    ofBytes byte = ofBytes other := by
  simp [ofBytes, h]

/-- The cutoff has eleven bits, of which the lower three come from the lower bits of a byte. -/
lemma toNat_cutoff_ofBytes (byte : Nat → UInt8) :
    (ofBytes byte).cutoff.toNat = 8 * (byte 1).toNat + (byte 0).toNat % 8 := by
  have hhigh := (byte 1).toNat_lt
  have hlow : (byte 0).toNat % 8 < 2 ^ 3 := Nat.mod_lt _ (by decide)
  have hbits : (byte 0 &&& 0x07).toNat = (byte 0).toNat % 8 := by
    rw [UInt8.toNat_and]
    exact Nat.and_two_pow_sub_one_eq_mod _ 3
  have hshifted : ((byte 1).toUInt16 <<< (3 : UInt16)).toNat = (byte 1).toNat <<< 3 := by
    rw [UInt16.toNat_shiftLeft, UInt8.toNat_toUInt16]
    change (byte 1).toNat <<< 3 % 2 ^ 16 = _
    rw [Nat.shiftLeft_eq]
    omega
  rw [ofBytes, UInt16.toNat_or, UInt8.toNat_toUInt16, hbits, hshifted, Nat.or_comm,
    ← Nat.shiftLeft_add_eq_or_of_lt hlow, Nat.shiftLeft_eq]
  omega

end FilterRegisters

/-! ### The chip's registers -/

/-- The byte that an operation writes to one of the thirty-two registers, if it does. -/
def ChipOperation.valueFor? (register : Nat) : ChipOperation → Option UInt8
  | write offset value => if ChipOperation.register offset = register then some value else none
  | _ => none

/-- The byte that operations write to a register last, or zero if they never do. -/
def ChipOperation.lastWrite (operations : List ChipOperation) (register : Nat) : UInt8 :=
  (operations.filterMap (valueFor? register)).getLast?.getD 0

/-- A voice is its registers and its transcriber. -/
lemma Voice.eq_of_halves {voice other : Voice} (hregisters : voice.registers = other.registers)
    (htranscriber : voice.transcriber = other.transcriber) : voice = other := by
  cases voice
  cases other
  exact congrArg₂ Voice.mk hregisters htranscriber

namespace VoiceBank

/-- The chip has latched what its registers make of the given bytes.  Voice `v` owns the registers
from `7 v` to `7 v + 6`, and the filter those from 21 to 24. -/
structure Latched (bank : VoiceBank) (byte : Nat → UInt8) : Prop where
  /-- The registers of the voices. -/
  voices : ∀ v : Fin 3,
    (bank.voice v).registers = VoiceRegisters.ofBytes fun r => byte (7 * v.val + r)
  /-- The registers of the filter. -/
  filter : bank.filter = FilterRegisters.ofBytes fun r => byte (21 + r)

variable {bank other : VoiceBank} {byte : Nat → UInt8}

/-- Nothing is latched after a reset. -/
lemma latched_new (clockHz : Binary64) : (new clockHz).Latched fun _ => 0 where
  voices v := by
    rw [voice_new]
    rfl
  filter := rfl

/-- There are twenty-five registers. -/
lemma Latched.congr (h : bank.Latched byte) {byte' : Nat → UInt8}
    (hbyte : ∀ r < 25, byte r = byte' r) : bank.Latched byte' where
  voices v := by
    rw [h.voices]
    refine VoiceRegisters.ofBytes_congr ?_
    intro r hr
    exact hbyte _ (by omega)
  filter := by
    rw [h.filter]
    refine FilterRegisters.ofBytes_congr ?_
    intro r hr
    exact hbyte _ (by omega)

/-- A write changes the byte of one register, wherever in the window the register is repeated. -/
lemma Latched.write (h : bank.Latched byte) (offset : UInt16) (value : UInt8) :
    (Device.write bank offset value).Latched
      (Function.update byte (ChipOperation.register offset) value) where
  voices v := by
    rw [voice_write, ChipOperation.forVoice?]
    split_ifs with howner
    · change (bank.voice v).registers.write _ value = _
      rw [h.voices, VoiceRegisters.write_ofBytes _ (by omega)]
      refine VoiceRegisters.ofBytes_congr ?_
      intro r hr
      have hsame : r = ChipOperation.register offset - 7 * v.val ↔
          7 * v.val + r = ChipOperation.register offset := by omega
      simp only [Function.update_apply, hsame]
    · change (bank.voice v).registers = _
      rw [h.voices]
      refine VoiceRegisters.ofBytes_congr ?_
      intro r hr
      rw [Function.update_of_ne (by omega)]
  filter := by
    have hregister := toNat_register offset
    change (bank.poke (register offset) value).filter = _
    rw [filter_poke, h.filter]
    split_ifs with hlow
    · have hbelow : (register offset).toNat < 21 := UInt8.lt_iff_toNat_lt.mp hlow
      refine FilterRegisters.ofBytes_congr ?_
      intro r hr
      rw [Function.update_of_ne (by omega)]
    · have habove : 21 ≤ (register offset).toNat :=
        UInt8.le_iff_toNat_le.mp (UInt8.not_lt.mp hlow)
      have hwindow : ChipOperation.register offset < 32 := Nat.mod_lt _ (by decide)
      have hindex : register offset - 21 = UInt8.ofNat (ChipOperation.register offset - 21) := by
        rw [← UInt8.toNat_inj, UInt8.toNat_sub_of_le _ _ (UInt8.not_lt.mp hlow), hregister,
          UInt8.toNat_ofNat_of_lt' (Nat.lt_of_le_of_lt (Nat.sub_le _ _)
            (Nat.lt_trans hwindow (by decide)))]
        rfl
      rw [hindex, FilterRegisters.write_ofBytes _ (by omega)]
      refine FilterRegisters.ofBytes_congr ?_
      intro r hr
      have hsame : r = ChipOperation.register offset - 21 ↔
          21 + r = ChipOperation.register offset := by omega
      simp only [Function.update_apply, hsame]

/-! ### Histories -/

/-- After an operation a register holds the byte that was written to it, or what it held before. -/
lemma Latched.perform (h : bank.Latched byte) (operation : ChipOperation) :
    (bank.perform operation).Latched fun r => (operation.valueFor? r).getD (byte r) := by
  cases operation with
  | write offset value =>
    refine (h.write offset value).congr ?_
    intro r _
    by_cases hr : ChipOperation.register offset = r
    · simp [ChipOperation.valueFor?, hr]
    · simp [ChipOperation.valueFor?, hr, Function.update_of_ne (Ne.symm hr)]
  | finishFrame clock =>
    refine ⟨?_, h.filter⟩
    intro v
    change ((bank.finishFrame clock).voice v).registers = _
    rw [voice_finishFrame]
    exact h.voices v
  | stop clock =>
    refine ⟨?_, h.filter⟩
    intro v
    change ((bank.stop clock).voice v).registers = _
    rw [voice_stop]
    exact h.voices v

/-- The last write of a register is that of the last operation, if it makes one. -/
lemma lastWrite_concat (operations : List ChipOperation) (operation : ChipOperation)
    (register : Nat) :
    ChipOperation.lastWrite (operations ++ [operation]) register =
      (operation.valueFor? register).getD (ChipOperation.lastWrite operations register) := by
  unfold ChipOperation.lastWrite
  rw [List.filterMap_append, List.getLast?_append]
  cases hvalue : operation.valueFor? register with
  | none => simp [hvalue]
  | some value => simp [hvalue]

/-- After any operations each register holds the byte that was written to it last. -/
lemma latched_performAll (clockHz : Binary64) (operations : List ChipOperation) :
    ((new clockHz).performAll operations).Latched (ChipOperation.lastWrite operations) := by
  induction operations using List.reverseRecOn with
  | nil => exact latched_new clockHz
  | append_singleton operations operation ih =>
    have hstep := ih.perform operation
    have hbank : (new clockHz).performAll (operations ++ [operation]) =
        ((new clockHz).performAll operations).perform operation :=
      List.foldl_append
    rw [hbank]
    refine hstep.congr ?_
    intro r _
    exact (lastWrite_concat operations operation r).symm

/-- Chips that have latched the same bytes and heard the same notes are the same. -/
lemma Latched.eq (h : bank.Latched byte) (hother : other.Latched byte)
    (htranscribers : ∀ v, (bank.voice v).transcriber = (other.voice v).transcriber) :
    bank = other := by
  have hvoices : bank.voices = other.voices := by
    refine Vector.ext fun i hi => ?_
    exact Voice.eq_of_halves ((h.voices ⟨i, hi⟩).trans (hother.voices ⟨i, hi⟩).symm)
      (htranscribers ⟨i, hi⟩)
  have hfilter : bank.filter = other.filter := h.filter.trans hother.filter.symm
  cases bank
  cases other
  exact congrArg₂ VoiceBank.mk hvoices hfilter

/-- Writes to different registers commute. -/
lemma Latched.write_comm (h : bank.Latched byte) {offset offset' : UInt16}
    (hne : ChipOperation.register offset ≠ ChipOperation.register offset')
    (value value' : UInt8) :
    Device.write (Device.write bank offset value) offset' value' =
      Device.write (Device.write bank offset' value') offset value := by
  have hfirst := (h.write offset value).write offset' value'
  have hsecond := (h.write offset' value').write offset value
  rw [Function.update_comm hne] at hfirst
  refine hfirst.eq hsecond ?_
  intro v
  simp only [transcriber_write]

/-- Writes behind the last register have no effect. -/
lemma Latched.write_unused (h : bank.Latched byte) {offset : UInt16}
    (hunused : 25 ≤ ChipOperation.register offset) (value : UInt8) :
    Device.write bank offset value = bank := by
  have hwrite : (Device.write bank offset value).Latched byte := by
    refine (h.write offset value).congr ?_
    intro r hr
    rw [Function.update_of_ne (by omega)]
  refine hwrite.eq h ?_
  intro v
  exact transcriber_write bank offset value v

/-- **Latches are a function of the last writes.**  Whatever has been written to a chip since its
reset, anywhere in its window and in any order, and whatever frames have ended in between, each of its
latches is made of the bytes that were written last to one or two registers, or of zero where nothing
was written.  So a pulse width has twelve bits and the cutoff has eleven, writes to different
registers can be exchanged, and writes behind the last register change nothing at all. -/
theorem latches_eq_lastWrites (clockHz : Binary64) (operations : List ChipOperation) :
    let bank := (new clockHz).performAll operations
    let last := ChipOperation.lastWrite operations
    (∀ v : Fin 3,
      let latches := (bank.voice v).registers
      latches.frequency.toNat = 256 * (last (7 * v + 1)).toNat + (last (7 * v)).toNat ∧
        latches.pulseWidth.toNat =
          256 * ((last (7 * v + 3)).toNat % 16) + (last (7 * v + 2)).toNat ∧
        latches.pulseWidth.toNat < 4096 ∧
        latches.control = last (7 * v + 4) ∧
        latches.attackDecay = last (7 * v + 5) ∧
        latches.sustainRelease = last (7 * v + 6)) ∧
      bank.filter.cutoff.toNat = 8 * (last 22).toNat + (last 21).toNat % 8 ∧
      bank.filter.cutoff.toNat < 2048 ∧
      bank.filter.resonance = last 23 ∧
      bank.filter.modeVolume = last 24 ∧
      (∀ offset offset' value value',
        ChipOperation.register offset ≠ ChipOperation.register offset' →
        Device.write (Device.write bank offset value) offset' value' =
          Device.write (Device.write bank offset' value') offset value) ∧
      ∀ offset value, 25 ≤ ChipOperation.register offset →
        Device.write bank offset value = bank := by
  intro bank last
  have hlatched : bank.Latched last := latched_performAll clockHz operations
  have hcutoff : bank.filter.cutoff.toNat = 8 * (last 22).toNat + (last 21).toNat % 8 := by
    rw [hlatched.filter]
    exact FilterRegisters.toNat_cutoff_ofBytes _
  refine ⟨?_, hcutoff, ?_, ?_, ?_, ?_, ?_⟩
  · intro v
    have hpulse : (bank.voice v).registers.pulseWidth.toNat =
        256 * ((last (7 * v + 3)).toNat % 16) + (last (7 * v + 2)).toNat := by
      rw [hlatched.voices]
      exact VoiceRegisters.toNat_pulseWidth_ofBytes _
    have hlow := (last (7 * v + 2)).toNat_lt
    refine ⟨?_, hpulse, by omega, ?_⟩
    · rw [hlatched.voices]
      exact Word.toNat_ofBytes _ _
    · rw [hlatched.voices]
      exact ⟨rfl, rfl, rfl⟩
  · have hhigh := (last 22).toNat_lt
    omega
  · rw [hlatched.filter]
    rfl
  · rw [hlatched.filter]
    rfl
  · intro offset offset' value value' hne
    exact hlatched.write_comm hne value value'
  · intro offset value hunused
    exact hlatched.write_unused hunused value

/-- Latches after writes out of order and all over the window. -/
example :
    let bank := (new (Binary64.ofNat 985248)).performAll
      [.write 0x0001 0x12, .write 0x03E3 0xFA, .write 0x0015 0xFF, .write 0x0000 0x34,
        .write 0x001D 0x99, .write 0x0022 0xBC, .write 0x0016 0x80]
    (bank.voice 0).registers.frequency = 0x1234 ∧
      (bank.voice 0).registers.pulseWidth = 0x0ABC ∧ bank.filter.cutoff = 0x0407 := by
  decide +kernel

end VoiceBank

end ChipScore
