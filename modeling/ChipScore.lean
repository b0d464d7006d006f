import ChipScore.CommandLine.Machine
import ChipScore.Main
import ChipScore.Player.Journal
import ChipScore.Proofs.Opcode.WellFormed
import ChipScore.Proofs.Bus.Routing
import ChipScore.Proofs.Cpu.Cost
import ChipScore.Proofs.Disassembly.Execution
import ChipScore.Proofs.Cpu.Call
import ChipScore.Proofs.Cpu.Faults
import ChipScore.Proofs.Cpu.Guarded
import ChipScore.Proofs.Cpu.InstructionRun
import ChipScore.Proofs.Midi.Alternation
import ChipScore.Proofs.Midi.HeldFrames
import ChipScore.Proofs.Midi.RoundTrip
import ChipScore.Proofs.Note.Durations
import ChipScore.Proofs.Note.Lifecycle
import ChipScore.Proofs.Note.Passages
import ChipScore.Proofs.Note.Timings
import ChipScore.Proofs.Note.Transcription
import ChipScore.Proofs.Player.Sessions
import ChipScore.Proofs.Sound.Independence
import ChipScore.Proofs.Bus.Board
import ChipScore.Proofs.Player.ChipWindow
import ChipScore.Proofs.Cpu.UnobservedFlags
import ChipScore.Proofs.Cpu.BreakFlag
import ChipScore.Proofs.Cpu.EffectiveAddress
import ChipScore.Proofs.Cpu.ArithmeticInstructions
import ChipScore.Proofs.Disassembly.Listing
import ChipScore.Proofs.Disassembly.Unambiguous
import ChipScore.Proofs.Cpu.Footprint
import ChipScore.Proofs.Cpu.Fusion
import ChipScore.Proofs.Bus.Regions
import ChipScore.Proofs.Sound.Latches
import ChipScore.Proofs.Midi.Sounding
import ChipScore.Proofs.Tune.Files
import ChipScore.Proofs.Player.Starting
import ChipScore.Proofs.Cpu.Nesting
import ChipScore.Proofs.Note.Clipping
import ChipScore.Proofs.Midi.Exportable
import ChipScore.Proofs.Note.Dump
import ChipScore.Proofs.Player.Songs
import ChipScore.Proofs.Player.FrameBoundaries
import ChipScore.Proofs.Midi.Distances
import ChipScore.Proofs.Midi.PrefixCode
import ChipScore.Proofs.Note.Settling
import ChipScore.Proofs.Bus.Images
import ChipScore.Proofs.Player.Seconds
