import ChipScore.Proofs.Cpu.InstructionRun
import ChipScore.Proofs.Cpu.Stack

/-!
# Calls, and what is saved on the stack

The instructions that push keep bytes on the stack for the instructions that pull them: a call its
return address, less one and high byte first, and the other two the accumulator and the status.
What happens in between does not matter, as long as the stack holds the bytes again when they are
pulled (`Cpu.Holds`).

Calls can therefore be nested.  `Cpu.Nest` says that calls lie one inside the other in memory, and
which of their instruction bytes the pushes must spare.  A call takes two bytes, so that 128 calls
fill the stack page and go once round it, wherever the pointer starts.
-/

namespace ChipScore

/-- A status byte is read back as the flags that it was made of. -/
lemma Flags.ofByte_toByte (f : Flags) : ofByte f.toByte = f := by
  have hbits : ∀ n v b d i z c : Bool,
      ofByte (toByte ⟨n, v, b, d, i, z, c⟩) = ⟨n, v, b, d, i, z, c⟩ := by
    decide +kernel
  exact hbits f.negative f.overflow f.brk f.decimal f.interruptDisable f.zero f.carry

namespace Cpu

variable {β : Type} [Bus β] {s t u : Cpu β}

/-- The processor is about to carry out the instruction with an opcode. -/
structure About (s : Cpu β) (opcode : UInt8) : Prop where
  /-- No instruction is in flight. -/
  pending : s.pending = 0
  /-- Dispatching is not stopped. -/
  halted : s.halted = false
  /-- The opcode is at the program counter. -/
  opcode : s.opcode = opcode

/-- What a call pushes: the address of its last byte, high byte first. -/
def returnBytes (s : Cpu β) : List UInt8 :=
  [Word.high (s.pc + 2), Word.low (s.pc + 2)]

/-- The processor after a call. -/
def called (s : Cpu β) : Cpu β :=
  { s.pushAll s.returnBytes with
    pc := Bus.readWord s.bus (s.pc + 1), cycles := s.cycles + 6 }

/-- The byte that a push of the status pushes; the break flag is set in it. -/
def statusByte (s : Cpu β) : UInt8 :=
  { s.flags with brk := true }.toByte

/-- The instruction with a bound opcode is carried out. -/
lemma About.stepInstruction_eq {opcode : UInt8} {b : Binding} (h : s.About opcode)
    (hbound : Opcode.binding? opcode = some b) :
    s.stepInstruction = .ok (s.cost b,
      { s.fetched.perform b b.operation.effect with
        pending := 0, cycles := s.cycles + s.cost b }) :=
  stepInstruction_eq_perform h.pending h.halted (h.opcode ▸ hbound)

/-! ### The instructions that push -/

/-- A call pushes where it ends, goes on at its target and costs six cycles. -/
lemma stepInstruction_call (h : s.About 0x20) : s.stepInstruction = .ok (6, s.called) := by
  have hbound : Opcode.binding? 0x20 = some ⟨.jsr, .absolute, 6, false⟩ := by decide +kernel
  have hlast : s.pc + 2 = s.pc + 1 + 1 := (UInt16.add_assoc s.pc 1 1).symm
  have hcalled : s.called = { s.called with pending := 0 } := by
    rw [← h.pending]
    rfl
  rw [h.stepInstruction_eq hbound, hcalled, called, returnBytes, hlast]
  rfl

/-- Pushing the accumulator pushes one byte and costs three cycles. -/
lemma stepInstruction_pushAccumulator (h : s.About 0x48) :
    s.stepInstruction = .ok (3, { s.pushAll [s.a] with
      pc := s.pc + 1, cycles := s.cycles + 3 }) := by
  have hbound : Opcode.binding? 0x48 = some ⟨.pha, .implicit, 3, false⟩ := by decide +kernel
  rw [h.stepInstruction_eq hbound, ← h.pending]
  rfl

/-- Pushing the status pushes one byte, too, the flags with the break flag set. -/
lemma stepInstruction_pushStatus (h : s.About 0x08) :
    s.stepInstruction = .ok (3, { s.pushAll [s.statusByte] with
      pc := s.pc + 1, cycles := s.cycles + 3 }) := by
  have hbound : Opcode.binding? 0x08 = some ⟨.php, .implicit, 3, false⟩ := by decide +kernel
  rw [h.stepInstruction_eq hbound, ← h.pending]
  rfl

/-! ### The instructions that pull -/

/-- What is pulled from a stack that holds one byte. -/
lemma Holds.pull_one {sp byte : UInt8} (h : s.Holds sp [byte]) :
    s.top = byte ∧ s.pop = { s with sp := sp } := by
  have hpulled := h.pullAll
  change ([s.top], s.pop) = ([byte], _) at hpulled
  rw [Prod.mk.injEq, List.singleton_inj] at hpulled
  exact hpulled

/-- A return continues behind the call whose bytes the stack holds. -/
lemma stepInstruction_return (hholds : u.Holds s.sp s.returnBytes) (h : u.About 0x60) :
    u.stepInstruction =
      .ok (6, { u with pc := s.pc + 3, sp := s.sp, cycles := u.cycles + 6 }) := by
  have hbound : Opcode.binding? 0x60 = some ⟨.rts, .implicit, 6, false⟩ := by decide +kernel
  have hpulled := hholds.pullAll
  change ([u.top, u.pop.top], u.pop.pop) =
    ([Word.low (s.pc + 2), Word.high (s.pc + 2)], { u with sp := s.sp }) at hpulled
  simp only [Prod.mk.injEq, List.cons.injEq, and_true] at hpulled
  obtain ⟨⟨hlow, hhigh⟩, hpop⟩ := hpulled
  have hsp : u.sp + 1 + 1 = s.sp := congrArg Cpu.sp hpop
  have hnext : Word.ofBytes u.top u.pop.top + 1 = s.pc + 3 := by
    rw [hlow, hhigh, Word.ofBytes_low_high]
    exact UInt16.add_assoc s.pc 2 1
  have hreturned : u.stepInstruction = .ok (6, { u with
      pc := Word.ofBytes u.top u.pop.top + 1, sp := u.sp + 1 + 1, cycles := u.cycles + 6 }) := by
    rw [h.stepInstruction_eq hbound, h.pending]
    rfl
  rw [hreturned, hnext, hsp]

/-- A pull of the accumulator takes the byte that was pushed, and describes it by the flags. -/
lemma stepInstruction_pullAccumulator {sp a : UInt8} (hholds : u.Holds sp [a])
    (h : u.About 0x68) :
    u.stepInstruction = .ok (4, { u with
      a := a, flags := u.flags.describe a, pc := u.pc + 1, sp := sp, cycles := u.cycles + 4 }) := by
  have hbound : Opcode.binding? 0x68 = some ⟨.pla, .implicit, 4, false⟩ := by decide +kernel
  obtain ⟨htop, hpop⟩ := hholds.pull_one
  have hsp : u.sp + 1 = sp := congrArg Cpu.sp hpop
  rw [h.stepInstruction_eq hbound, ← htop, ← hsp, h.pending]
  rfl

/-- The status comes back with the flags that were pushed, all but the break flag. -/
lemma stepInstruction_pullStatus (hholds : u.Holds s.sp [s.statusByte]) (h : u.About 0x28) :
    u.stepInstruction = .ok (4, { u with
      flags := { s.flags with brk := u.flags.brk }, pc := u.pc + 1, sp := s.sp,
      cycles := u.cycles + 4 }) := by
  have hbound : Opcode.binding? 0x28 = some ⟨.plp, .implicit, 4, false⟩ := by decide +kernel
  obtain ⟨htop, hpop⟩ := hholds.pull_one
  have hsp : u.sp + 1 = s.sp := congrArg Cpu.sp hpop
  have hflags : u.flags.restore u.top = { s.flags with brk := u.flags.brk } := by
    rw [htop, statusByte, Flags.restore, Flags.ofByte_toByte]
  rw [h.stepInstruction_eq hbound, ← hflags, ← hsp, h.pending]
  rfl

/-! ### Calls in calls -/

/-- Where the return lies that ends a call of a nest.  The innermost routine consists of its return
only, and every other one has it behind its own call. -/
def returnSite (entry : Nat → UInt16) (depth i : Nat) : UInt16 :=
  if i + 1 = depth then entry depth else entry (i + 1) + 3

/-- Calls lie one inside the other in memory: at each entry down to a depth there is a call of the
next one, and a return ends each of these calls. -/
structure Nest (s : Cpu β) (depth : Nat) (entry : Nat → UInt16) : Prop where
  /-- No instruction is in flight. -/
  pending : s.pending = 0
  /-- Dispatching is not stopped. -/
  halted : s.halted = false
  /-- The outermost call is the next instruction. -/
  start : entry 0 = s.pc
  /-- The opcodes of the calls. -/
  calls : ∀ i < depth, Bus.read s.bus (entry i) = 0x20
  /-- Each call leads to the next entry. -/
  targets : ∀ i < depth, Bus.readWord s.bus (entry i + 1) = entry (i + 1)
  /-- The opcodes of the returns. -/
  returns : ∀ i < depth, Bus.read s.bus (returnSite entry depth i) = 0x60
  /-- The calls around a call do not push onto its bytes. -/
  calls_spared : ∀ i < depth, ∀ k < 2 * i, ∀ offset < 3,
    pushed s.sp k ≠ entry i + UInt16.ofNat offset
  /-- No call pushes onto a return. -/
  returns_spared : ∀ i < depth, ∀ k < 2 * depth, pushed s.sp k ≠ returnSite entry depth i

/-- Seen from the second entry of a nest, the returns are those of a nest that is one call less
deep. -/
lemma returnSite_succ (entry : Nat → UInt16) (depth i : Nat) :
    returnSite (fun j => entry (j + 1)) depth i = returnSite entry (depth + 1) (i + 1) := by
  simp only [returnSite, Nat.add_right_cancel_iff]

/-- What two bytes do not overwrite is read as before. -/
lemma read_called_of_ne (h : Bus.PlainStack s.bus) {address : UInt16}
    (hne : ∀ k < 2, pushed s.sp k ≠ address) :
    Bus.read s.called.bus address = Bus.read s.bus address := by
  change Bus.read (s.pushAll s.returnBytes).bus address = _
  rw [bus_pushAll]
  exact h.read_writeAll_of_ne hne

/-- A call has pushed two bytes, and what is pushed next goes below them. -/
lemma pushed_called (s : Cpu β) (k : Nat) : pushed s.called.sp k = pushed s.sp (2 + k) := by
  have hsp : s.called.sp = s.sp - UInt8.ofNat 2 :=
    congrArg Cpu.sp (pushAll_eq s s.returnBytes)
  rw [hsp, pushed_sub]

/-- After the outermost call the rest of a nest is a nest. -/
lemma Nest.inner {depth : Nat} {entry : Nat → UInt16} (hstack : Bus.PlainStack s.bus)
    (h : s.Nest (depth + 1) entry) : s.called.Nest depth fun i => entry (i + 1) := by
  -- the bytes of the inner instructions are not among the two that the call pushes
  have hcall : ∀ i < depth, ∀ offset < 3,
      Bus.read s.called.bus (entry (i + 1) + UInt16.ofNat offset) =
        Bus.read s.bus (entry (i + 1) + UInt16.ofNat offset) := fun i hi offset hoffset =>
    read_called_of_ne hstack fun k hk =>
      h.calls_spared (i + 1) (Nat.succ_lt_succ hi) k (by omega) offset hoffset
  constructor
  case pending => exact h.pending
  case halted => exact h.halted
  case start =>
    change entry 1 = Bus.readWord s.bus (s.pc + 1)
    rw [← h.start, h.targets 0 (Nat.succ_pos _)]
  case calls =>
    intro i hi
    have hfirst := hcall i hi 0 (by decide)
    change Bus.read s.called.bus (entry (i + 1) + 0) = Bus.read s.bus (entry (i + 1) + 0) at hfirst
    rw [UInt16.add_zero] at hfirst
    exact hfirst.trans (h.calls (i + 1) (Nat.succ_lt_succ hi))
  case targets =>
    intro i hi
    have hsecond := hcall i hi 1 (by decide)
    have hthird := hcall i hi 2 (by decide)
    have hoffset : entry (i + 1) + 1 + 1 = entry (i + 1) + UInt16.ofNat 2 :=
      UInt16.add_assoc _ 1 1
    rw [← h.targets (i + 1) (Nat.succ_lt_succ hi), Bus.readWord, Bus.readWord, hoffset, hthird]
    exact congrArg (Word.ofBytes · _) hsecond
  case returns =>
    intro i hi
    rw [returnSite_succ, ← h.returns (i + 1) (Nat.succ_lt_succ hi)]
    exact read_called_of_ne hstack fun k hk =>
      h.returns_spared (i + 1) (Nat.succ_lt_succ hi) k (by omega)
  case calls_spared =>
    intro i hi k hk
    rw [pushed_called]
    exact h.calls_spared (i + 1) (Nat.succ_lt_succ hi) (2 + k) (by omega)
  case returns_spared =>
    intro i hi k hk
    rw [pushed_called, returnSite_succ]
    exact h.returns_spared (i + 1) (Nat.succ_lt_succ hi) (2 + k) (by omega)

/-- One more instruction in front of a run of instructions. -/
lemma runInstructions_succ {c : Nat} (h : s.stepInstruction = .ok (c, t)) (k : Nat) :
    s.runInstructions (k + 1) = (c + (t.runInstructions k).1, (t.runInstructions k).2) := by
  rw [runInstructions, h]

/-- One more instruction behind a run of instructions. -/
lemma runInstructions_concat {k n c : Nat} (h : s.runInstructions k = (n, t, none))
    (hstep : t.stepInstruction = .ok (c, u)) :
    s.runInstructions (k + 1) = (n + c, u, none) := by
  induction k generalizing s n with
  | zero =>
    cases h
    rw [runInstructions_succ hstep, Nat.add_comm]
    rfl
  | succ k ih =>
    cases hfirst : s.stepInstruction with
    | error f =>
      rw [runInstructions, hfirst] at h
      cases h
    | ok r =>
      obtain ⟨d, v⟩ := r
      rw [runInstructions_succ hfirst, Prod.mk.injEq] at h
      obtain ⟨rfl, hrest⟩ := h
      rw [runInstructions_succ hfirst, ih (Prod.ext rfl hrest), Nat.add_assoc]

/-- A call is complete when its routine has come to a return, with all registers as the call has left
them and its two bytes still there. -/
lemma runInstructions_of_call {k n : Nat} {site : UInt16} {bus : β}
    (hstack : Bus.PlainStack s.bus) (hcall : s.About 0x20)
    (hrun : s.called.runInstructions k =
      (n, { s.called with pc := site, cycles := s.called.cycles + n, bus := bus }, none))
    (hstored : ∀ l < 2, Bus.read bus (pushed s.sp l) = Bus.read s.called.bus (pushed s.sp l))
    (hreturn : Bus.read bus site = 0x60) :
    s.runInstructions (k + 2) =
      (n + 12, { s with pc := s.pc + 3, cycles := s.cycles + (n + 12), bus := bus }, none) := by
  have hpushed : (s.pushAll s.returnBytes).Holds s.sp s.returnBytes :=
    holds_pushAll hstack (by decide : 2 ≤ 256)
  have hholds : Holds
      { s.called with pc := site, cycles := s.called.cycles + n, bus := bus } s.sp s.returnBytes :=
    ⟨hpushed.pointer, fun l hl => (hstored l hl).trans (hpushed.stored l hl)⟩
  have hreturned := stepInstruction_return hholds ⟨hcall.pending, hcall.halted, hreturn⟩
  have hticks : n + 12 = 6 + (n + 6) := by omega
  have hcycles : s.cycles + (n + 12) = s.cycles + 6 + n + 6 := by omega
  rw [runInstructions_succ (stepInstruction_call hcall), runInstructions_concat hrun hreturned,
    hcycles, hticks]
  rfl

/-- A nest of up to 128 calls is carried out and continues behind the outermost of them.  Nothing
has changed but the counters and the cells that the calls push onto. -/
lemma Nest.runInstructions {depth : Nat} {entry : Nat → UInt16} (hstack : Bus.PlainStack s.bus)
    (h : s.Nest depth entry) (hpos : 0 < depth) (hle : depth ≤ 128) :
    ∃ bus, s.runInstructions (2 * depth) =
        (12 * depth, { s with pc := s.pc + 3, cycles := s.cycles + 12 * depth, bus := bus },
          none) ∧
      ∀ address, (∀ k < 2 * depth, pushed s.sp k ≠ address) →
        Bus.read bus address = Bus.read s.bus address := by
  -- the outermost call comes first, and what is inside it is a nest of one call fewer
  induction depth generalizing s entry with
  | zero => exact absurd hpos (Nat.lt_irrefl 0)
  | succ depth ih =>
    have hopcode : s.opcode = 0x20 := by
      rw [opcode, ← h.start]
      exact h.calls 0 (Nat.succ_pos _)
    have hinner := h.inner hstack
    obtain ⟨bus, hrun, hframe⟩ : ∃ bus, s.called.runInstructions (2 * depth) =
          (12 * depth, { s.called with
            pc := returnSite entry (depth + 1) 0, cycles := s.called.cycles + 12 * depth,
            bus := bus }, none) ∧
        ∀ address, (∀ k < 2 * depth, pushed s.sp (2 + k) ≠ address) →
          Bus.read bus address = Bus.read s.called.bus address := by
      rcases Nat.eq_zero_or_pos depth with rfl | hpos'
      · have hpc : s.called.pc = returnSite entry 1 0 := hinner.start.symm
        refine ⟨s.called.bus, ?_, fun address _ => rfl⟩
        rw [← hpc]
        rfl
      · obtain ⟨bus, hrun, hframe⟩ :=
          ih (hstack.writeAll (pushWrites s.sp s.returnBytes)) hinner hpos'
            (Nat.le_of_succ_le hle)
        have hsite : returnSite entry (depth + 1) 0 = s.called.pc + 3 := by
          rw [← hinner.start, returnSite, if_neg (by omega)]
        exact ⟨bus, hsite ▸ hrun, fun address hne =>
          hframe address fun k hk => pushed_called s k ▸ hne k hk⟩
    -- the inner calls have left the two bytes of the outermost one and its return alone
    have hstored : ∀ l < 2,
        Bus.read bus (pushed s.sp l) = Bus.read s.called.bus (pushed s.sp l) := by
      refine fun l hl => hframe _ fun k hk heq => ?_
      have hsame := pushed_inj (by omega) (by omega) heq
      omega
    have hreturn : Bus.read bus (returnSite entry (depth + 1) 0) = 0x60 := by
      have hspared := h.returns_spared 0 (Nat.succ_pos _)
      rw [hframe _ fun k hk => hspared (2 + k) (by omega),
        read_called_of_ne hstack fun k hk => hspared k (by omega)]
      exact h.returns 0 (Nat.succ_pos _)
    refine ⟨bus, runInstructions_of_call hstack ⟨h.pending, h.halted, hopcode⟩ hrun hstored hreturn,
      fun address hne => ?_⟩
    rw [hframe address fun k hk => hne (2 + k) (by omega),
      read_called_of_ne hstack fun k hk => hne k (by omega)]

/-- **Stack discipline.**  Wherever the stack pointer stands, if the stack page is plain memory:

* up to 256 bytes that are pushed are pulled in the reverse order, which leads the pointer back to
  where it was, and no byte outside the stack page changes;
* up to 128 calls, one inside the other, are carried out and continue three bytes behind the
  outermost one, with the pointer where it was;
* a call pushes its return bytes and goes to its target, and a return continues three bytes behind
  any call whose bytes the stack holds, with the pointer where it was before that call;
* the accumulator that was pushed is what is pulled into the accumulator;
* the flags that were pushed are those that are pulled, except for the break flag, which does not
  change. -/
theorem stack_discipline (s : Cpu β) (hstack : Bus.PlainStack s.bus) :
    (∀ bytes : List UInt8, bytes.length ≤ 256 →
      (s.pushAll bytes).Holds s.sp bytes ∧
        (s.pushAll bytes).pullAll bytes.length =
          (bytes.reverse, { s with bus := (s.pushAll bytes).bus }) ∧
        ∀ address, ¬InStackPage address →
          Bus.read (s.pushAll bytes).bus address = Bus.read s.bus address) ∧
    (∀ depth entry, 0 < depth → depth ≤ 128 → s.Nest depth entry →
      ∃ bus, s.runInstructions (2 * depth) =
          (12 * depth, { s with pc := s.pc + 3, cycles := s.cycles + 12 * depth, bus := bus },
            none) ∧
        ∀ address, ¬InStackPage address → Bus.read bus address = Bus.read s.bus address) ∧
    (s.About 0x20 →
      s.stepInstruction = .ok (6, { s.pushAll s.returnBytes with
        pc := Bus.readWord s.bus (s.pc + 1), cycles := s.cycles + 6 }) ∧
      ∀ u : Cpu β, u.Holds s.sp s.returnBytes → u.About 0x60 →
        u.stepInstruction =
          .ok (6, { u with pc := s.pc + 3, sp := s.sp, cycles := u.cycles + 6 })) ∧
    (s.About 0x48 →
      s.stepInstruction = .ok (3, { s.pushAll [s.a] with
        pc := s.pc + 1, cycles := s.cycles + 3 }) ∧
      ∀ u : Cpu β, u.Holds s.sp [s.a] → u.About 0x68 →
        u.stepInstruction = .ok (4, { u with
          a := s.a, flags := u.flags.describe s.a, pc := u.pc + 1, sp := s.sp,
          cycles := u.cycles + 4 })) ∧
    (s.About 0x08 →
      s.stepInstruction = .ok (3, { s.pushAll [s.statusByte] with
        pc := s.pc + 1, cycles := s.cycles + 3 }) ∧
      ∀ u : Cpu β, u.Holds s.sp [s.statusByte] → u.About 0x28 →
        u.stepInstruction = .ok (4, { u with
          flags := { s.flags with brk := u.flags.brk }, pc := u.pc + 1, sp := s.sp,
          cycles := u.cycles + 4 })) := by
  have houtside : ∀ address, ¬InStackPage address → ∀ k, pushed s.sp k ≠ address :=
    fun address hout k heq => hout (heq ▸ inStackPage_pushed s.sp k)
  refine ⟨fun bytes hlength => ⟨holds_pushAll hstack hlength, pullAll_pushAll hstack hlength, ?_⟩,
    ?_, fun h => ⟨stepInstruction_call h, fun u => stepInstruction_return⟩,
    fun h => ⟨stepInstruction_pushAccumulator h, fun u => stepInstruction_pullAccumulator⟩,
    fun h => ⟨stepInstruction_pushStatus h, fun u => stepInstruction_pullStatus⟩⟩
  · intro address hout
    rw [bus_pushAll]
    exact hstack.read_writeAll_of_ne fun k _ => houtside address hout k
  · intro depth entry hpos hle hnest
    obtain ⟨bus, hrun, hframe⟩ := hnest.runInstructions hstack hpos hle
    exact ⟨bus, hrun, fun address hout => hframe address fun k _ => houtside address hout k⟩

/-- A flat memory is plain everywhere. -/
lemma plainStack_flatMemory (ram : FlatMemory) : Bus.PlainStack ram where
  cells _ := isCell_flatMemory ram _
  inert writes sp value other hother := by
    rw [FlatMemory.read_write, if_neg hother.symm]

/-- A call of a routine that calls another one, with the stack pointer at its lowest. -/
def callFromTheEdge : Cpu FlatMemory where
  pc := 0x0200
  sp := 0x00
  bus := (((Ram.zero 65536).load 0x0200 [0x20, 0x10, 0x02]).load 0x0210
    [0x20, 0x20, 0x02, 0x60]).load 0x0220 [0x60]

/-- The pointer goes round with the two calls, and back with the returns. -/
theorem stack_discipline_callFromTheEdge :
    (callFromTheEdge.runInstructions 4).1 = 24 ∧
      (callFromTheEdge.runInstructions 4).2.1.pc = 0x0203 ∧
      (callFromTheEdge.runInstructions 4).2.1.sp = 0x00 := by
  have hnest : callFromTheEdge.Nest 2 fun i => [0x0200, 0x0210, 0x0220].getD i 0 := by
    refine ⟨rfl, rfl, rfl, ?_, ?_, ?_, ?_, ?_⟩ <;> decide +kernel
  obtain ⟨bus, hrun, -⟩ := (stack_discipline callFromTheEdge (plainStack_flatMemory _)).2.1 2 _
    (by decide) (by decide) hnest
  rw [hrun]
  exact ⟨rfl, rfl, rfl⟩

end Cpu

end ChipScore
