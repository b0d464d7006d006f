import ChipScore.Bus
import ChipScore.Note.Transcriber

/-!
# The sound chip

Three voices and a filter behind a window of thirty-two registers.  Voice `v` owns the registers
`7 v` to `7 v + 6`, the filter owns 21 to 24, and the rest do nothing.  The registers can only be
written; reading one gives zero.
-/

namespace ChipScore

/-- A voice: its registers and the notes heard from it. -/
structure Voice where
  /-- What the registers have latched. -/
  registers : VoiceRegisters
  /-- The notes. -/
  transcriber : Transcriber
  deriving Inhabited

namespace Voice

/-- The transcriber looks at the registers. -/
def finishFrame (voice : Voice) (clock : FrameClock) : Voice :=
  { voice with transcriber := voice.transcriber.finishFrame voice.registers clock }

/-- What the transcriber reports at the end of a frame. -/
def frameEvents (voice : Voice) (clock : FrameClock) : List TranscriberEvent :=
  voice.transcriber.frameEvents voice.registers clock

/-- Stops the current note. -/
def stop (voice : Voice) (clock : FrameClock) : Voice :=
  { voice with transcriber := voice.transcriber.stop clock }

end Voice

/-- The chip. -/
structure VoiceBank where
  /-- The three voices. -/
  voices : Vector Voice 3
  /-- The filter. -/
  filter : FilterRegisters

namespace VoiceBank

/-- The number of registers in the window. -/
def windowSize : UInt16 :=
  32

/-- The chip after a reset. -/
def new (clockHz : Binary64) : VoiceBank where
  voices := Vector.replicate 3 ⟨{}, .new clockHz⟩
  filter := {}

/-- Changes one voice. -/
def modifyVoice (bank : VoiceBank) (v : Fin 3) (f : Voice → Voice) : VoiceBank :=
  { bank with voices := bank.voices.set v (f (bank.voices.get v)) }

/-- The chip after a write to a register. -/
def poke (bank : VoiceBank) (register value : UInt8) : VoiceBank :=
  if register < 21 then
    bank.modifyVoice (Fin.ofNat 3 (register.toNat / 7)) fun voice =>
      { voice with registers := voice.registers.write (register % 7) value }
  else
    { bank with filter := bank.filter.write (register - 21) value }

/-- Every voice's transcriber looks at its registers. -/
def finishFrame (bank : VoiceBank) (clock : FrameClock) : VoiceBank :=
  { bank with voices := bank.voices.map fun voice => voice.finishFrame clock }

/-- What the transcribers report at the end of a frame, voice by voice. -/
def frameEvents (bank : VoiceBank) (clock : FrameClock) : List TranscriberEvent :=
  bank.voices.toList.flatMap fun voice => voice.frameEvents clock

/-- Stops the current note of every voice. -/
def stop (bank : VoiceBank) (clock : FrameClock) : VoiceBank :=
  { bank with voices := bank.voices.map fun voice => voice.stop clock }

/-- The notes of every voice. -/
def notes (bank : VoiceBank) : List (List Note) :=
  bank.voices.toList.map fun voice => voice.transcriber.notes.toList

/-- The register behind an offset; the window repeats. -/
def register (offset : UInt16) : UInt8 :=
  (offset % windowSize).toUInt8

instance : Device VoiceBank where
  read _ _ := 0
  write bank offset value := bank.poke (register offset) value

end VoiceBank

end ChipScore
