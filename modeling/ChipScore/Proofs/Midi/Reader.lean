import Mathlib.Tactic
import ChipScore.Midi.Event

/-!
# Reading MIDI files

A reader of standard MIDI files that takes nothing from the writer.  A file is a sequence of chunks;
a chunk is a tag, a length and as many bytes as the length says.  The bytes of a track are messages,
each behind its distance in ticks from the message before it, and its last message, and no other, is
the end of the track.

A `Reader` takes a value off the front of a list of bytes.  All readers here are made of `byte`.
`Reader.message` knows every message that a file can hold, but it insists on a status byte: a
message that leaves it out because it is that of the message before is refused.
-/

namespace ChipScore.Midi

/-- What a track says. -/
inductive Message
  /-- A key is let go. -/
  | noteOff (channel : Nat) (key : Int) (velocity : UInt8)
  /-- A key is struck. -/
  | noteOn (channel : Nat) (key : Int) (velocity : UInt8)
  /-- The pressure on a key. -/
  | keyPressure (channel : Nat) (key : Int) (pressure : UInt8)
  /-- The value of a controller. -/
  | controlChange (channel : Nat) (controller value : UInt8)
  /-- A channel's program. -/
  | programChange (channel : Nat) (program : UInt8)
  /-- The pressure on all keys of a channel. -/
  | channelPressure (channel : Nat) (pressure : UInt8)
  /-- The position of the pitch wheel, in two groups of seven bits. -/
  | pitchWheel (channel : Nat) (low high : UInt8)
  /-- A message for one maker's devices, or a part of one. -/
  | exclusive (status : UInt8) (data : List UInt8)
  /-- A message about the music, which no device is sent. -/
  | metaEvent (kind : UInt8) (data : List UInt8)
  deriving DecidableEq

/-- The message that ends a track. -/
def Message.endOfTrack : Message :=
  .metaEvent 0x2F []

/-- A message and its tick. -/
structure TimedMessage where
  /-- The tick. -/
  tick : Nat
  /-- The message. -/
  message : Message
  deriving DecidableEq

/-- A part of a file, with the length that is written in front of it. -/
inductive Chunk
  /-- The header: the kind of file, the number of tracks and the ticks in a quarter note. -/
  | header (length format tracks division : Nat)
  /-- A track. -/
  | track (length : Nat) (messages : List TimedMessage)
  /-- A part of another kind. -/
  | other (length : Nat) (tag content : List UInt8)
  deriving DecidableEq

/-- Takes a value off the front of a list of bytes and gives back the bytes behind it. -/
abbrev Reader (α : Type) :=
  StateT (List UInt8) Option α

namespace Reader

variable {α β : Type}

/-- A byte. -/
def byte : Reader UInt8
  | [] => none
  | first :: rest => some (first, rest)

/-- Some bytes. -/
def bytes : Nat → Reader (List UInt8)
  | 0 => return []
  | count + 1 => do
    let first ← byte
    let others ← bytes count
    return first :: others

/-- The rest of a number behind bytes that stand for `n`, most significant byte first. -/
def number : Nat → Nat → Reader Nat
  | 0, n => return n
  | width + 1, n => do
    let digit ← byte
    number width (n * 256 + digit.toNat)

/-- The rest of a variable-length quantity behind groups that stand for `n`.  The high bit of a byte
says that there are more, and there is a bound for how many. -/
def groups : Nat → Nat → Reader Nat
  | 0, _ => failure
  | most + 1, n => do
    let group ← byte
    if group.toNat < 128 then
      return n * 128 + group.toNat
    else
      groups most (n * 128 + group.toNat % 128)

/-- A variable-length quantity, of at most four bytes. -/
def quantity : Reader Nat :=
  groups 4 0

/-- A byte of data; its high bit is not set. -/
def dataByte : Reader UInt8 := do
  let value ← byte
  if value.toNat < 128 then return value else failure

/-- A message with one byte of data. -/
def oneByte (make : UInt8 → Message) : Reader Message := do
  let value ← dataByte
  return make value

/-- A message with two bytes of data. -/
def twoBytes (make : UInt8 → UInt8 → Message) : Reader Message := do
  let first ← dataByte
  let second ← dataByte
  return make first second

/-- A message that says how many bytes of data it has. -/
def manyBytes (make : List UInt8 → Message) : Reader Message := do
  let length ← quantity
  let content ← bytes length
  return make content

/-- A message about the music. -/
def metaEvent : Reader Message := do
  let kind ← byte
  manyBytes (.metaEvent kind)

/-- What follows a status byte. -/
def afterStatus (status : UInt8) : Reader Message :=
  let channel := status.toNat % 16
  match status.toNat / 16 with
  | 0x8 => twoBytes fun key velocity => .noteOff channel key.toNat velocity
  | 0x9 => twoBytes fun key velocity => .noteOn channel key.toNat velocity
  | 0xA => twoBytes fun key pressure => .keyPressure channel key.toNat pressure
  | 0xB => twoBytes (.controlChange channel)
  | 0xC => oneByte (.programChange channel)
  | 0xD => oneByte (.channelPressure channel)
  | 0xE => twoBytes (.pitchWheel channel)
  | 0xF =>
    if status = 0xFF then metaEvent
    else if status = 0xF0 ∨ status = 0xF7 then manyBytes (.exclusive status)
    else failure
  | _ => failure

/-- A message. -/
def message : Reader Message := do
  let status ← byte
  afterStatus status

/-- A message behind its distance in ticks from the one before it. -/
def distantMessage : Reader (Nat × Message) := do
  let distance ← quantity
  let said ← message
  return (distance, said)

/-- All values of the input, one after another.  Each of them takes at least a byte. -/
def all (read : Reader α) : List UInt8 → Option (List α)
  | [] => some []
  | first :: others => do
    let (value, rest) ← read (first :: others)
    if rest.length ≤ others.length then
      let values ← all read rest
      return value :: values
    else
      failure
  termination_by input => input.length

/-- Messages at the ticks that their distances add up to, the first distance being from `now`. -/
def atTicks (now : Nat) : List (Nat × Message) → List TimedMessage
  | [] => []
  | (distance, said) :: rest => ⟨now + distance, said⟩ :: atTicks (now + distance) rest

/-- The messages of a track.  The last of them ends the track, and no other does. -/
def track (content : List UInt8) : Option (List TimedMessage) := do
  let messages ← all distantMessage content
  let (_, last) ← messages.getLast?
  if last = .endOfTrack ∧ ∀ earlier ∈ messages.dropLast, earlier.2 ≠ .endOfTrack then
    return atTicks 0 messages
  else
    failure

/-- The numbers of a header. -/
def header (length : Nat) : Reader Chunk := do
  let format ← number 2 0
  let tracks ← number 2 0
  let division ← number 2 0
  return .header length format tracks division

/-- What a chunk holds.  Nothing is left over of the content of a header or a track. -/
def content (tag : List UInt8) (length : Nat) (content : List UInt8) : Option Chunk :=
  if tag = [0x4D, 0x54, 0x68, 0x64] then do
    let (chunk, rest) ← header length content
    if rest = [] then return chunk else failure
  else if tag = [0x4D, 0x54, 0x72, 0x6B] then do
    let messages ← track content
    return .track length messages
  else
    return .other length tag content

/-- A chunk. -/
def chunk : Reader Chunk := do
  let tag ← bytes 4
  let length ← number 4 0
  let inner ← bytes length
  content tag length inner

/-- The chunks of a file. -/
def file : List UInt8 → Option (List Chunk) :=
  all chunk

/-! ### Values in front of other bytes -/

/-- A reader that is given some bytes in front of others takes a value off and leaves the others. -/
def Reads (read : Reader α) (piece : List UInt8) (value : α) : Prop :=
  ∀ rest, read (piece ++ rest) = some (value, rest)

/-- No bytes are taken for a value that is known. -/
lemma reads_pure (value : α) : Reads (pure value : Reader α) [] value :=
  fun _ => rfl

/-- Two values after each other. -/
lemma Reads.bind {read : Reader α} {next : α → Reader β} {first second : List UInt8} {value : α}
    {result : β} (hread : Reads read first value) (hnext : Reads (next value) second result) :
    Reads (read >>= next) (first ++ second) result := by
  intro rest
  rw [List.append_assoc]
  change (read (first ++ (second ++ rest))).bind (fun (value, rest) => next value rest) = _
  rw [hread]
  exact hnext rest

/-- A value behind one byte. -/
lemma Reads.cons {next : UInt8 → Reader α} {first : UInt8} {second : List UInt8} {result : α}
    (hnext : Reads (next first) second result) : Reads (byte >>= next) (first :: second) result :=
  fun rest => hnext rest

/-- A value made of another. -/
lemma Reads.map {read : Reader α} {piece : List UInt8} {value : α} (h : Reads read piece value)
    (make : α → β) : Reads (do let value ← read; return make value) piece (make value) := by
  intro rest
  change (read (piece ++ rest)).bind (fun (value, rest) => some (make value, rest)) = _
  rw [h]
  rfl

/-- As many bytes as there are. -/
lemma reads_bytes (piece : List UInt8) : Reads (bytes piece.length) piece piece := by
  induction piece with
  | nil => exact reads_pure []
  | cons first others ih => exact (ih.map (first :: ·)).cons

/-- A byte of data. -/
lemma reads_dataByte {value : UInt8} (h : value.toNat < 128) : Reads dataByte [value] value := by
  refine Reads.cons ?_
  rw [if_pos h]
  exact reads_pure value

/-- A value in front of others is the first of all. -/
lemma all_append {read : Reader α} {piece : List UInt8} {value : α} (h : Reads read piece value)
    (hne : piece ≠ []) (rest : List UInt8) :
    all read (piece ++ rest) = (all read rest).map (value :: ·) := by
  obtain ⟨first, others, rfl⟩ := List.exists_cons_of_ne_nil hne
  have hrest := h rest
  rw [List.cons_append] at hrest ⊢
  have hle : rest.length ≤ (others ++ rest).length := by
    rw [List.length_append]
    omega
  rw [all, hrest]
  simp only [Option.bind_eq_bind, Option.bind_some, if_pos hle]
  cases all read rest <;> rfl

end Reader

end ChipScore.Midi
