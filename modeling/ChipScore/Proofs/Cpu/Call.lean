import ChipScore.Proofs.Bus.Cells
import ChipScore.Proofs.Cpu.Cost

/-!
# Calling a routine

`Cpu.call` sets up a frame for the last return of the routine: the word that the return pulls lies
in front of the trap, and the trap holds a break.  `Bus.HoldsFrame` says that the three bytes are
in place.  Every run that writes to none of the three cells keeps them in place, whatever else it
does (`holdsFrame_of_run`), so the last return, once the stack pointer is back at the frame, leads
into the break (`halts_on_final_return`).

The frame is a matter of the bus alone.  That the cells stay plain cells is the invariant which
lets a later call set it up again.
-/

namespace ChipScore

namespace Bus

variable {β : Type} [Bus β]

/-- The cells of the frame: the trap, and the word in front of the trap. -/
def frameCells : List UInt16 :=
  [0x0100, 0x01FE, 0x01FF]

/-- The writes that set up the frame. -/
def frameWrites : List Access :=
  [⟨0x01FF, 0x00⟩, ⟨0x01FE, 0xFF⟩, ⟨0x0100, 0x00⟩]

/-- The frame of a call is in place. -/
structure HoldsFrame (bus : β) : Prop where
  /-- The trap is a break. -/
  trap : read bus 0x0100 = 0x00
  /-- The low byte of the address before the trap. -/
  low : read bus 0x01FE = 0xFF
  /-- The high byte of the address before the trap. -/
  high : read bus 0x01FF = 0x00

/-- The cells of the frame are plain cells. -/
def HasFrame (bus : β) : Prop :=
  ∀ address ∈ frameCells, IsCell bus address

/-- The cells of the frame stay plain cells, whatever is written. -/
lemma HasFrame.writeAll {bus : β} (h : HasFrame bus) (writes : List Access) :
    HasFrame (writeAll bus writes) := by
  intro address hmem
  exact (h address hmem).writeAll writes

/-- One write leaves the cells of the frame plain. -/
lemma HasFrame.write {bus : β} (address : UInt16) (value : UInt8) (h : HasFrame bus) :
    HasFrame (write bus address value) :=
  h.writeAll [⟨address, value⟩]

/-- The frame is in place once it has been written to plain cells. -/
lemma HasFrame.holdsFrame {bus : β} (h : HasFrame bus) :
    HoldsFrame (Bus.writeAll bus frameWrites) where
  trap := h 0x0100 (by decide) frameWrites
  low := h 0x01FE (by decide) frameWrites
  high := h 0x01FF (by decide) frameWrites

/-- Writes that spare the cells of the frame leave it in place. -/
lemma HoldsFrame.writeAll {bus : β} (h : HoldsFrame bus) (hcells : HasFrame bus)
    {writes : List Access} (hspared : ∀ w ∈ writes, w.address ∉ frameCells) :
    HoldsFrame (writeAll bus writes) := by
  have hkeep : ∀ address ∈ frameCells,
      read (Bus.writeAll bus writes) address = read bus address := by
    intro address hmem
    rw [hcells address hmem writes]
    refine lastWritten_of_forall_ne (fun w hw heq => hspared w hw ?_) _
    rwa [heq]
  constructor
  · rw [hkeep 0x0100 (by decide), h.trap]
  · rw [hkeep 0x01FE (by decide), h.low]
  · rw [hkeep 0x01FF (by decide), h.high]

end Bus

namespace Cpu

variable {β : Type} [Bus β] {s t : Cpu β} {address : UInt16}

/-- The processor is about to carry out a routine from its first instruction. -/
structure Starts (s : Cpu β) (address : UInt16) : Prop where
  /-- Dispatching is not stopped. -/
  halted : s.halted = false
  /-- No break has been met. -/
  brk : s.flags.brk = false
  /-- The stack holds a return address and nothing else. -/
  sp : s.sp = 0xFD
  /-- No instruction is in flight. -/
  pending : s.pending = 0
  /-- The first instruction is the next one. -/
  pc : s.pc = address

/-- A call starts the routine, whatever the processor was doing. -/
lemma starts_call (s : Cpu β) (address : UInt16) : (s.call address).Starts address where
  halted := rfl
  brk := rfl
  sp := by
    change (0xFF - 1 - 1 : UInt8) = 0xFD
    decide
  pending := rfl
  pc := rfl

/-- A call does nothing to the bus but write its frame. -/
lemma call_bus_eq_writeAll (s : Cpu β) (address : UInt16) :
    (s.call address).bus = Bus.writeAll s.bus Bus.frameWrites := by
  have hwrites : Bus.frameWrites = [⟨stackAddress 0xFF, Word.high (returnTrap - 1)⟩,
      ⟨stackAddress (0xFF - 1), Word.low (returnTrap - 1)⟩, ⟨returnTrap, 0⟩] := by
    decide
  rw [hwrites]
  rfl

/-- A call sets up the frame. -/
lemma holdsFrame_call (h : Bus.HasFrame s.bus) (address : UInt16) :
    Bus.HoldsFrame (s.call address).bus := by
  rw [call_bus_eq_writeAll]
  exact h.holdsFrame

/-- A run that spares the cells of the frame leaves it in place. -/
lemma holdsFrame_of_run (h : Bus.HoldsFrame s.bus) (hcells : Bus.HasFrame s.bus) {n : Nat}
    (hspared : ∀ w ∈ s.writes n, w.address ∉ Bus.frameCells) :
    Bus.HoldsFrame (s.run n).1.bus := by
  rw [run_bus_eq_writeAll]
  exact h.writeAll hcells hspared

/-! ### The last return -/

/-- The opcode of a return is bound to the return from a subroutine. -/
lemma binding?_return (hopcode : s.opcode = 0x60) :
    Opcode.binding? s.opcode = some ⟨.rts, .implicit, 6, false⟩ := by
  rw [hopcode]
  decide +kernel

/-- The opcode of the trap is bound to the break. -/
lemma binding?_break (hopcode : s.opcode = 0x00) :
    Opcode.binding? s.opcode = some ⟨.brk, .implicit, 7, false⟩ := by
  rw [hopcode]
  decide +kernel

/-- A return at the frame leads to the trap. -/
lemma dispatch_return (hframe : Bus.HoldsFrame s.bus) (hsp : s.sp = 0xFD)
    (hopcode : s.opcode = 0x60) :
    s.dispatch = { s with pc := returnTrap, sp := 0xFF, pending := 6 } := by
  have hlow : s.fetched.top = 0xFF := by
    change Bus.read s.bus (stackAddress (s.sp + 1)) = 0xFF
    have haddress : stackAddress (0xFD + 1) = 0x01FE := by decide
    rw [hsp, haddress, hframe.low]
  have hhigh : s.fetched.pop.top = 0x00 := by
    change Bus.read s.bus (stackAddress (s.sp + 1 + 1)) = 0x00
    have haddress : stackAddress (0xFD + 1 + 1) = 0x01FF := by decide
    rw [hsp, haddress, hframe.high]
  have hempty : s.sp + 1 + 1 = 0xFF := by
    rw [hsp]
    decide
  -- a return goes on behind the address that it pulls
  have htarget : Word.ofBytes 0xFF 0x00 + 1 = returnTrap := by decide
  rw [dispatch_of_binding? (binding?_return hopcode)]
  change { s.fetched.pop.pop with
    pc := Word.ofBytes s.fetched.top s.fetched.pop.top + 1, pending := 6 } = _
  rw [hlow, hhigh, htarget]
  change { s with sp := s.sp + 1 + 1, pc := returnTrap, pending := 6 } = _
  rw [hempty]

/-- A break stops dispatching behind it. -/
lemma dispatch_break (hopcode : s.opcode = 0x00) :
    s.dispatch =
      { s with
        pc := s.pc + 1, flags := { s.flags with brk := true }, halted := true, pending := 7 } := by
  rw [dispatch_of_binding? (binding?_break hopcode)]
  rfl

/-- Between instructions, a return at the frame takes six ticks to the trap. -/
lemma ticks_of_return (hpending : s.pending = 0) (hhalted : s.halted = false)
    (hframe : Bus.HoldsFrame s.bus) (hsp : s.sp = 0xFD) (hopcode : s.opcode = 0x60) :
    s.steps 6 = .ok { s with pc := returnTrap, sp := 0xFF, cycles := s.cycles + 6 } ∧
      s.stepInstruction =
        .ok (6, { s with pc := returnTrap, sp := 0xFF, cycles := s.cycles + 6 }) := by
  have hidle : s.dispatches = true := dispatches_of_idle hpending hhalted
  have hdispatch := dispatch_return hframe hsp hopcode
  have hticks : s.dispatch.pending = 6 := by rw [hdispatch]
  have hfault : s.fault? = none := fault?_of_binding? (binding?_return hopcode)
  have hsteps := steps_of_dispatches hidle hfault (n := 6) (by decide) hticks.ge
  have hstep := stepInstruction_of_dispatches hidle hfault (by rw [hticks]; decide)
  rw [hticks, hdispatch] at hsteps hstep
  constructor
  · rw [hsteps, hpending]
  · rw [hstep, hpending]

/-- Between instructions, a break stops dispatching in one tick. -/
lemma step_of_break (hpending : s.pending = 0) (hhalted : s.halted = false)
    (hopcode : s.opcode = 0x00) :
    s.step = .ok { s with
      pc := s.pc + 1, flags := { s.flags with brk := true }, halted := true, pending := 6,
      cycles := s.cycles + 1 } := by
  have hidle : s.dispatches = true := dispatches_of_idle hpending hhalted
  have hfault : s.fault? = none := fault?_of_binding? (binding?_break hopcode)
  rw [step_of_fault?_eq_none hfault, tick_of_dispatches hidle, dispatch_break hopcode]
  rfl

/-- **A called routine halts on its last return.**  Let the cells of the frame be plain cells, and
let a call, whatever it interrupts, be followed by any number of good ticks that write to none of
them.  If the processor is then between instructions, not halted, with the stack pointer where the
call has left it and before a return, the return takes six ticks to reach the trap, the next tick
dispatches the break there, and whenever the processor is called again it starts afresh. -/
theorem halts_on_final_return {n : Nat} (hcells : Bus.HasFrame s.bus)
    (hrun : (s.call address).run n = (t, none))
    (hspared : ∀ w ∈ (s.call address).writes n, w.address ∉ Bus.frameCells)
    (hpending : t.pending = 0) (hhalted : t.halted = false) (hsp : t.sp = 0xFD)
    (hreturn : t.opcode = 0x60) :
    ∃ r u, t.steps 6 = .ok r ∧ t.stepInstruction = .ok (6, r) ∧
      r = { t with pc := 0x0100, sp := 0xFF, cycles := t.cycles + 6 } ∧
      r.opcode = 0x00 ∧ r.step = .ok u ∧
      u = { t with
        pc := 0x0101, sp := 0xFF, flags := { t.flags with brk := true }, halted := true,
        pending := 6, cycles := t.cycles + 7 } ∧
      ∀ m next, ((u.run m).1.call next).Starts next ∧
        Bus.HoldsFrame ((u.run m).1.call next).bus := by
  -- the cells are still plain cells after the call, after the run and at any later time
  have hcalled : Bus.HasFrame (s.call address).bus :=
    call_bus (fun _ => Bus.HasFrame.write) hcells address
  have hframe : Bus.HoldsFrame t.bus := by
    have hkept := holdsFrame_of_run (holdsFrame_call hcells address) hcalled hspared
    rwa [hrun] at hkept
  have hlater : Bus.HasFrame t.bus := by
    have hkept := run_bus (fun _ => Bus.HasFrame.write) hcalled n
    rwa [hrun] at hkept
  obtain ⟨hsteps, hinstruction⟩ := ticks_of_return hpending hhalted hframe hsp hreturn
  refine ⟨_, _, hsteps, hinstruction, rfl, hframe.trap,
    step_of_break hpending hhalted hframe.trap, rfl, fun m next => ⟨starts_call _ next, ?_⟩⟩
  refine holdsFrame_call ?_ next
  exact run_bus (fun _ => Bus.HasFrame.write) (by exact hlater) m

/-- A processor that spends the last ticks of a break, before the routine `INX; RTS`. -/
def stoppedMidBreak : Cpu FlatMemory where
  pc := 0x2001
  pending := 3
  halted := true
  flags := ⟨false, false, true, false, true, false, false⟩
  bus := (Ram.zero 65536).load 0x1000 [0xE8, 0x60]

/-- The routine, called at once, halts on its return. -/
theorem halts_on_final_return_stoppedMidBreak :
    ∃ t r u, (stoppedMidBreak.call 0x1000).run 2 = (t, none) ∧ t.steps 6 = .ok r ∧
      r.step = .ok u ∧ u.halted = true ∧ u.pc = 0x0101 ∧ u.sp = 0xFF ∧
      ((u.run 6).1.call 0x1000).Starts 0x1000 := by
  obtain ⟨hgood, hspared, hpending, hhalted, hsp, hreturn⟩ :
      ((stoppedMidBreak.call 0x1000).run 2).2 = none ∧
        (∀ w ∈ (stoppedMidBreak.call 0x1000).writes 2, w.address ∉ Bus.frameCells) ∧
        ((stoppedMidBreak.call 0x1000).run 2).1.pending = 0 ∧
        ((stoppedMidBreak.call 0x1000).run 2).1.halted = false ∧
        ((stoppedMidBreak.call 0x1000).run 2).1.sp = 0xFD ∧
        ((stoppedMidBreak.call 0x1000).run 2).1.opcode = 0x60 := by
    decide +kernel
  have hrun : (stoppedMidBreak.call 0x1000).run 2 =
      (((stoppedMidBreak.call 0x1000).run 2).1, none) := by
    rw [← hgood]
  obtain ⟨r, u, hsteps, -, -, -, hstep, hu, hagain⟩ :=
    halts_on_final_return (fun address _ => isCell_flatMemory _ address) hrun hspared hpending
      hhalted hsp hreturn
  exact ⟨_, r, u, hrun, hsteps, hstep, by rw [hu], by rw [hu], by rw [hu],
    (hagain 6 0x1000).1⟩

end Cpu

end ChipScore
