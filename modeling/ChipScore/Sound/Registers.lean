import ChipScore.Word

/-!
# The chip's registers

A voice has seven registers that can only be written.  They latch a frequency, a pulse width of
twelve bits, a control byte and two envelope bytes.  The filter has four more.
-/

namespace ChipScore

/-- What a voice's registers have latched. -/
structure VoiceRegisters where
  /-- The steps of the phase accumulator in each cycle. -/
  frequency : UInt16 := 0
  /-- The width of the pulse, of twelve bits. -/
  pulseWidth : UInt16 := 0
  /-- The waveform, and the gate and three more switches. -/
  control : UInt8 := 0
  /-- The attack and decay rates. -/
  attackDecay : UInt8 := 0
  /-- The sustained volume and the release rate. -/
  sustainRelease : UInt8 := 0
  deriving DecidableEq, Inhabited

namespace VoiceRegisters

/-- The registers after a write to one of them; there are seven. -/
def write (r : VoiceRegisters) (register value : UInt8) : VoiceRegisters :=
  match register with
  | 0 => { r with frequency := Word.ofBytes value (Word.high r.frequency) }
  | 1 => { r with frequency := Word.ofBytes (Word.low r.frequency) value }
  | 2 => { r with pulseWidth := Word.ofBytes value (Word.high r.pulseWidth &&& 0x0F) }
  | 3 => { r with pulseWidth := Word.ofBytes (Word.low r.pulseWidth) (value &&& 0x0F) }
  | 4 => { r with control := value }
  | 5 => { r with attackDecay := value }
  | 6 => { r with sustainRelease := value }
  | _ => r

/-- Whether the gate is high. -/
def gate (r : VoiceRegisters) : Bool :=
  r.control &&& 0x01 != 0

/-- Whether the oscillator is synchronised with another. -/
def sync (r : VoiceRegisters) : Bool :=
  r.control &&& 0x02 != 0

/-- Whether the oscillator is ring-modulated by another. -/
def ringModulation (r : VoiceRegisters) : Bool :=
  r.control &&& 0x04 != 0

/-- Whether the oscillator is held by the test bit. -/
def test (r : VoiceRegisters) : Bool :=
  r.control &&& 0x08 != 0

end VoiceRegisters

/-- What the filter's registers have latched. -/
structure FilterRegisters where
  /-- The cutoff frequency, of eleven bits. -/
  cutoff : UInt16 := 0
  /-- The resonance and the voices that are filtered. -/
  resonance : UInt8 := 0
  /-- The filter mode and the volume. -/
  modeVolume : UInt8 := 0
  deriving DecidableEq, Inhabited

namespace FilterRegisters

/-- The registers after a write to one of them; there are four. -/
def write (f : FilterRegisters) (register value : UInt8) : FilterRegisters :=
  match register with
  | 0 => { f with cutoff := f.cutoff &&& 0x07F8 ||| (value &&& 0x07).toUInt16 }
  | 1 => { f with cutoff := f.cutoff &&& 0x0007 ||| (value.toUInt16 <<< (3 : UInt16)) }
  | 2 => { f with resonance := value }
  | 3 => { f with modeVolume := value }
  | _ => f

/-- The volume of the chip. -/
def volume (f : FilterRegisters) : UInt8 :=
  f.modeVolume &&& 0x0F

end FilterRegisters

end ChipScore
