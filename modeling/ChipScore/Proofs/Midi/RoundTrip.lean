import Mathlib.Tactic
import ChipScore.Midi.File
import ChipScore.Proofs.Midi.Alternation
import ChipScore.Proofs.Midi.Reader

/-!
# MIDI files are read back

What `fileBytes` writes is read by `Reader.file`, which knows nothing of the writer, and nothing is
left over (`file_fileBytes`).

Each part of a file is read where it stands, in front of whatever follows: a number of fixed width
(`reads_bigEndian`), a variable-length quantity (`reads_quantity`), the message of an event
(`reads_event`), an event behind its distance (`reads_deltaEvent`) and a chunk (`reads_chunk`).  The
writer turns ticks into distances and the reader adds the distances up again.  This gives the ticks
back because time does not go back along a schedule (`isChain_ticks`), and `Followable` is what a
sequence of ticks needs for it.
-/

namespace ChipScore.Midi

/-- What an event says. -/
def Event.message : Event → Message
  | timeSignature numerator denominator clocks thirtySeconds =>
    .metaEvent 0x58 [numerator, denominator, clocks, thirtySeconds]
  | keySignature sharps major => .metaEvent 0x59 [sharps.toUInt8, if major then 0 else 1]
  | programChange channel program => .programChange channel program
  | noteOn channel key => .noteOn channel key 40
  | noteOff channel key => .noteOff channel key 40
  | endOfTrack => .endOfTrack

/-- What an event says, on its tick. -/
def TimedEvent.message (timed : TimedEvent) : TimedMessage :=
  ⟨timed.tick, timed.event.message⟩

/-- The tick of the last event, or `now` if there is none. -/
def lastTick (now : Nat) : List TimedEvent → Nat
  | [] => now
  | first :: rest => lastTick first.tick rest

/-- All events of a track: the preamble on tick zero, the events of the tune, and the end of the
track on the last tick. -/
def trackEvents (rate : Binary64) (voices : List (List Note)) : List TimedEvent :=
  preamble.map (fun event => ⟨0, event⟩) ++ events rate voices ++
    [⟨lastTick 0 (events rate voices), .endOfTrack⟩]

/-- Events whose ticks can be written as distances, the first of which is from `now` on: time does
not go back, and no distance is too long for a quantity of four bytes. -/
def Followable (now : Nat) (timed : List TimedEvent) : Prop :=
  (now :: timed.map TimedEvent.tick).IsChain fun a b => a ≤ b ∧ b < a + 2 ^ 28

/-! ### What is written -/

/-- A computation of two steps gives a result if both do. -/
lemma exists_of_bind_eq_ok {ε α β : Type} {first : Except ε α} {second : α → Except ε β}
    {result : β} (h : (first >>= second) = .ok result) :
    ∃ value, first = .ok value ∧ second value = .ok result := by
  cases first with
  | error fault => cases h
  | ok value => exact ⟨value, rfl, h⟩

/-- A result that is made of another one. -/
lemma exists_of_map_eq_ok {ε α β : Type} {first : Except ε α} {make : α → β} {result : β}
    (h : first.map make = .ok result) : ∃ value, first = .ok value ∧ make value = result := by
  cases first with
  | error fault => cases h
  | ok value => exact ⟨value, rfl, Except.ok.inj h⟩

/-- Only the end of a track says so. -/
lemma Event.message_eq_endOfTrack {event : Event} (h : event.message = .endOfTrack) :
    event = .endOfTrack := by
  cases event <;> simp_all [Event.message, Message.endOfTrack]

/-- A status byte is written if its channel fits. -/
lemma Event.status_eq_ok {high first : UInt8} {channel : Nat}
    (h : status high channel = .ok first) :
    channel ≤ 15 ∧ first = high ||| UInt8.ofNat channel := by
  rw [status] at h
  split_ifs at h with hchannel
  exact ⟨hchannel, (Except.ok.inj h).symm⟩

/-- A key is written if it fits. -/
lemma Event.keyByte_eq_ok {key : Int} {byte : UInt8} (h : keyByte key = .ok byte) :
    (byte.toNat : Int) = key ∧ byte.toNat < 128 := by
  rw [keyByte] at h
  split_ifs at h with hkey
  obtain rfl := Except.ok.inj h
  rw [UInt8.toNat_ofNat']
  omega

/-- An event on a key is written if its channel and its key fit. -/
lemma Event.keyEvent_eq_ok {high : UInt8} {channel : Nat} {key : Int} {piece : List UInt8}
    (h : keyEvent high channel key = .ok piece) :
    ∃ byte : UInt8, channel ≤ 15 ∧ (byte.toNat : Int) = key ∧ byte.toNat < 128 ∧
      piece = [high ||| UInt8.ofNat channel, byte, velocity] := by
  obtain ⟨first, hfirst, h⟩ := exists_of_bind_eq_ok h
  obtain ⟨byte, hbyte, h⟩ := exists_of_bind_eq_ok h
  obtain ⟨hchannel, rfl⟩ := status_eq_ok hfirst
  obtain ⟨hkey, hlt⟩ := keyByte_eq_ok hbyte
  exact ⟨byte, hchannel, hkey, hlt, (Except.ok.inj h).symm⟩

/-- A program is written if it and its channel fit. -/
lemma Event.bytes_programChange_eq_ok {channel : Nat} {program : UInt8} {piece : List UInt8}
    (h : bytes (.programChange channel program) = .ok piece) :
    program.toNat < 128 ∧ channel ≤ 15 ∧ piece = [0xC0 ||| UInt8.ofNat channel, program] := by
  rw [bytes] at h
  split_ifs at h with hprogram
  obtain ⟨first, hfirst, rfl⟩ := exists_of_map_eq_ok h
  obtain ⟨hchannel, rfl⟩ := status_eq_ok hfirst
  have hlt : program.toNat < 128 := by
    rw [UInt8.lt_iff_toNat_lt] at hprogram
    have h127 : (127 : UInt8).toNat = 127 := rfl
    omega
  exact ⟨hlt, hchannel, rfl⟩

namespace Reader

/-! ### Numbers -/

/-- As many digits as there are. -/
lemma reads_number (digits : List UInt8) (n : Nat) :
    Reads (number digits.length n) digits
      (digits.foldl (fun n digit => n * 256 + digit.toNat) n) := by
  induction digits generalizing n with
  | nil => exact reads_pure n
  | cons digit digits ih => exact (ih _).cons

/-- Numbers are written in as many bytes as are asked for. -/
lemma length_bigEndian (width n : Nat) : (bigEndian width n).length = width := by
  induction width generalizing n with
  | zero => rfl
  | succ width ih => rw [bigEndian, List.length_append, ih, List.length_singleton]

/-- The digits of a number stand for what fits into them. -/
lemma foldl_bigEndian (width n m : Nat) :
    (bigEndian width n).foldl (fun n digit => n * 256 + digit.toNat) m =
      m * 256 ^ width + n % 256 ^ width := by
  induction width generalizing n with
  | zero => simp [bigEndian, Nat.mod_one]
  | succ width ih =>
    have hdigit : (UInt8.ofNat (n % 256)).toNat = n % 256 := by simp
    have hmod : n % 256 ^ (width + 1) = n % 256 + 256 * (n / 256 % 256 ^ width) := by
      rw [Nat.pow_succ', Nat.mod_mul]
    rw [bigEndian, List.foldl_append, ih, List.foldl_cons, List.foldl_nil, hdigit, hmod,
      Nat.pow_succ]
    ring

/-- A number that fits is read back. -/
lemma reads_bigEndian {width n : Nat} (h : n < 256 ^ width) :
    Reads (number width 0) (bigEndian width n) n := by
  have hread := reads_number (bigEndian width n) 0
  rwa [length_bigEndian, foldl_bigEndian, Nat.zero_mul, Nat.zero_add, Nat.mod_eq_of_lt h] at hread

/-- A group in front of others has its high bit set. -/
lemma toNat_continued {group : Nat} (h : group < 128) :
    (0x80 ||| UInt8.ofNat group).toNat = 128 + group := by
  have hor := Nat.two_pow_add_eq_or_of_lt (i := 7) h 1
  have hmod : group % 2 ^ 8 = group := by omega
  rw [UInt8.toNat_or, UInt8.toNat_ofNat', hmod]
  simpa using hor.symm

/-- The groups in front of the last one add up. -/
lemma groups_leading (most n : Nat) (rest : List UInt8) :
    groups (most + (Quantity.leading n).length) 0 (Quantity.leading n ++ rest) =
      groups most n rest := by
  induction n using Quantity.leading.induct generalizing most rest with
  | case1 => simp [Quantity.leading]
  | case2 n hn ih =>
    have hgroup := toNat_continued (Nat.mod_lt n (show 0 < 128 by decide))
    have hlength : most + (Quantity.leading (n / 128) ++ [0x80 ||| UInt8.ofNat (n % 128)]).length =
        most + 1 + (Quantity.leading (n / 128)).length := by
      rw [List.length_append, List.length_singleton]
      omega
    rw [Quantity.leading, if_neg hn, hlength, List.append_assoc, ih]
    change (if _ then _ else _ : Reader Nat) rest = _
    rw [if_neg (by omega), hgroup]
    congr 1
    omega

/-- There are as many groups in front of the last one as the number needs. -/
lemma length_leading_le_iff {k n : Nat} : (Quantity.leading n).length ≤ k ↔ n < 128 ^ k := by
  induction k generalizing n with
  | zero =>
    rw [Quantity.leading]
    split_ifs with hzero
    · simp [hzero]
    · simp [hzero]
  | succ k ih =>
    rw [Quantity.leading]
    split_ifs with hzero
    · simp [hzero]
    · rw [List.length_append, List.length_singleton, Nat.add_le_add_iff_right, ih, Nat.pow_succ,
        Nat.div_lt_iff_lt_mul (by decide)]

/-- A quantity is read back by whoever allows for its groups. -/
lemma reads_groups {most n : Nat} (h : (Quantity.leading (n / 128)).length < most) :
    Reads (groups most 0) (Quantity.encode n) n := by
  intro rest
  obtain ⟨spare, rfl⟩ : ∃ spare, most = spare + 1 + (Quantity.leading (n / 128)).length :=
    ⟨most - 1 - (Quantity.leading (n / 128)).length, by omega⟩
  have hgroup : (UInt8.ofNat (n % 128)).toNat = n % 128 := by
    rw [UInt8.toNat_ofNat']
    omega
  rw [Quantity.encode, List.append_assoc, groups_leading]
  change (if _ then _ else _ : Reader Nat) rest = _
  rw [if_pos (by omega), hgroup, Nat.div_add_mod']
  rfl

/-- A quantity of at most four bytes is read back. -/
lemma reads_quantity {n : Nat} (h : n < 2 ^ 28) : Reads quantity (Quantity.encode n) n := by
  have hlength : (Quantity.leading (n / 128)).length ≤ 3 :=
    length_leading_le_iff.mpr (by norm_num; omega)
  exact reads_groups (Nat.lt_succ_of_le hlength)

/-! ### Messages -/

/-- A message with two bytes of data. -/
lemma reads_twoBytes (make : UInt8 → UInt8 → Message) {first second : UInt8}
    (hfirst : first.toNat < 128) (hsecond : second.toNat < 128) :
    Reads (twoBytes make) [first, second] (make first second) :=
  (reads_dataByte hfirst).bind ((reads_dataByte hsecond).map (make first))

/-- A message that begins with its status byte. -/
lemma reads_message {status : UInt8} {piece : List UInt8} {said : Message}
    (h : Reads (afterStatus status) piece said) : Reads message (status :: piece) said :=
  h.cons

/-- A message about the music. -/
lemma reads_metaEvent (kind : UInt8) (data : List UInt8) (h : data.length < 128) :
    Reads message (0xFF :: kind :: UInt8.ofNat data.length :: data) (.metaEvent kind data) := by
  have hencode : Quantity.encode data.length = [UInt8.ofNat data.length] := by
    rw [Quantity.encode, Nat.div_eq_of_lt h, Quantity.leading, if_pos rfl, Nat.mod_eq_of_lt h,
      List.nil_append]
  have hlength : Reads quantity [UInt8.ofNat data.length] data.length := by
    rw [← hencode]
    exact reads_quantity (by omega)
  have hdata := (reads_bytes data).map (Message.metaEvent kind)
  have hmany : Reads (manyBytes (.metaEvent kind)) (UInt8.ofNat data.length :: data)
      (.metaEvent kind data) := hlength.bind hdata
  have hkind : Reads metaEvent (kind :: UInt8.ofNat data.length :: data) (.metaEvent kind data) :=
    hmany.cons
  exact reads_message hkind

/-- A status byte holds the kind of its message in one half and the channel in the other. -/
lemma status_halves (high : UInt8) (kind : Nat) {channel : Nat} (hhigh : high.toNat = 16 * kind)
    (hchannel : channel ≤ 15) :
    (high ||| UInt8.ofNat channel).toNat / 16 = kind ∧
      (high ||| UInt8.ofNat channel).toNat % 16 = channel := by
  have hor := Nat.two_pow_add_eq_or_of_lt (i := 4) (b := channel) (by omega) kind
  have hmod : channel % 2 ^ 8 = channel := by omega
  have hsum : (high ||| UInt8.ofNat channel).toNat = 16 * kind + channel := by
    rw [UInt8.toNat_or, UInt8.toNat_ofNat', hmod, hhigh]
    exact hor.symm
  omega

/-- The bytes of an event are read as what it says. -/
lemma reads_event {event : Event} {piece : List UInt8} (h : event.bytes = .ok piece) :
    Reads message piece event.message := by
  cases event with
  | timeSignature numerator denominator clocks thirtySeconds =>
    cases h
    exact reads_metaEvent 0x58 [numerator, denominator, clocks, thirtySeconds]
      (show 4 < 128 by decide)
  | keySignature sharps major =>
    cases h
    exact reads_metaEvent 0x59 [sharps.toUInt8, if major then 0 else 1] (show 2 < 128 by decide)
  | programChange channel program =>
    obtain ⟨hprogram, hchannel, rfl⟩ := Event.bytes_programChange_eq_ok h
    obtain ⟨hkind, hlower⟩ := status_halves 0xC0 0xC rfl hchannel
    refine reads_message ?_
    rw [afterStatus, hkind, hlower]
    exact (reads_dataByte hprogram).map _
  | noteOn channel key =>
    obtain ⟨byte, hchannel, rfl, hlt, rfl⟩ := Event.keyEvent_eq_ok h
    obtain ⟨hkind, hlower⟩ := status_halves 0x90 0x9 rfl hchannel
    refine reads_message ?_
    rw [afterStatus, hkind, hlower]
    exact reads_twoBytes _ hlt (by decide)
  | noteOff channel key =>
    obtain ⟨byte, hchannel, rfl, hlt, rfl⟩ := Event.keyEvent_eq_ok h
    obtain ⟨hkind, hlower⟩ := status_halves 0x80 0x8 rfl hchannel
    refine reads_message ?_
    rw [afterStatus, hkind, hlower]
    exact reads_twoBytes _ hlt (by decide)
  | endOfTrack =>
    cases h
    exact reads_metaEvent 0x2F [] (by decide)

/-! ### Tracks -/

/-- An event is read behind its distance, which takes at least a byte. -/
lemma reads_deltaEvent {delta : Nat} {event : Event} {piece : List UInt8} (hdelta : delta < 2 ^ 28)
    (h : deltaEvent delta event = .ok piece) :
    piece ≠ [] ∧ Reads distantMessage piece (delta, event.message) := by
  have hmin : min delta maxDelta = delta := by
    have hmax : maxDelta = 2 ^ 32 - 1 := rfl
    omega
  rw [deltaEvent, hmin] at h
  obtain ⟨inner, hevent, rfl⟩ := exists_of_map_eq_ok h
  refine ⟨by simp [Quantity.encode], ?_⟩
  exact (reads_quantity hdelta).bind ((reads_event hevent).map (delta, ·))

/-- Events at their distances, the first of which is from `now` on. -/
def distances (now : Nat) : List TimedEvent → List (Nat × Message)
  | [] => []
  | timed :: rest => (timed.tick - now, timed.event.message) :: distances timed.tick rest

/-- Distances lead back to the ticks, if time does not go back. -/
lemma atTicks_distances {now : Nat} {timed : List TimedEvent} (h : Followable now timed) :
    atTicks now (distances now timed) = timed.map TimedEvent.message := by
  induction timed generalizing now with
  | nil => rfl
  | cons first rest ih =>
    obtain ⟨⟨hle, -⟩, hrest⟩ := List.isChain_cons_cons.mp h
    rw [distances, atTicks, Nat.add_sub_cancel' hle, ih hrest, List.map_cons, TimedEvent.message]

/-- One more event stands at its distance from the last of the others. -/
lemma distances_concat (now : Nat) (timed : List TimedEvent) (last : TimedEvent) :
    distances now (timed ++ [last]) =
      distances now timed ++ [(last.tick - lastTick now timed, last.event.message)] := by
  induction timed generalizing now with
  | nil => rfl
  | cons first rest ih =>
    rw [List.cons_append, distances, ih, distances, lastTick, List.cons_append]

/-- What stands at the distances are the events. -/
lemma exists_of_mem_distances {now : Nat} {timed : List TimedEvent} {distant : Nat × Message}
    (h : distant ∈ distances now timed) : ∃ t ∈ timed, distant.2 = t.event.message := by
  induction timed generalizing now with
  | nil => cases h
  | cons first rest ih =>
    rcases List.mem_cons.mp h with rfl | h
    · exact ⟨first, List.mem_cons_self, rfl⟩
    · obtain ⟨t, ht, hsaid⟩ := ih h
      exact ⟨t, List.mem_cons_of_mem first ht, hsaid⟩

/-- The bytes of events are read as the events at their distances. -/
lemma all_eventBytes {now : Nat} {timed : List TimedEvent} {content : List UInt8}
    (hticks : Followable now timed) (h : eventBytes now timed = .ok content) :
    all distantMessage content = some (distances now timed) := by
  induction timed generalizing now content with
  | nil =>
    cases h
    rw [all, distances]
  | cons first rest ih =>
    obtain ⟨⟨hle, hlt⟩, hrest⟩ := List.isChain_cons_cons.mp hticks
    obtain ⟨piece, hpiece, h⟩ := exists_of_bind_eq_ok h
    obtain ⟨others, hothers, h⟩ := exists_of_bind_eq_ok h
    obtain rfl := Except.ok.inj h
    obtain ⟨hne, hread⟩ := reads_deltaEvent (by omega) hpiece
    rw [all_append hread hne, ih hrest hothers, Option.map_some, distances]

/-- The bytes of events are read as a track if the last of them ends it and no other does. -/
lemma track_eventBytes {timed : List TimedEvent} {last : TimedEvent} {content : List UInt8}
    (hticks : Followable 0 (timed ++ [last])) (hlast : last.event = .endOfTrack)
    (hothers : ∀ t ∈ timed, t.event ≠ .endOfTrack)
    (h : eventBytes 0 (timed ++ [last]) = .ok content) :
    track content = some ((timed ++ [last]).map TimedEvent.message) := by
  have hall := all_eventBytes hticks h
  have hearlier : ∀ distant ∈ distances 0 timed, distant.2 ≠ .endOfTrack := by
    intro distant hdistant hsaid
    obtain ⟨t, ht, hmessage⟩ := exists_of_mem_distances hdistant
    exact hothers t ht (Event.message_eq_endOfTrack (hmessage.symm.trans hsaid))
  have hend : last.event.message = .endOfTrack := by
    rw [hlast]
    rfl
  rw [← atTicks_distances hticks, track, hall, distances_concat]
  simp only [Option.bind_eq_bind, Option.bind_some, List.getLast?_concat, List.dropLast_concat]
  exact if_pos ⟨hend, hearlier⟩

/-! ### Chunks -/

/-- A chunk is read as what its content is read as. -/
lemma reads_chunk {tag : String} {letters inner : List UInt8} {value : Chunk}
    (htag : tag.toUTF8.toList = letters) (hletters : letters.length = 4)
    (hlength : inner.length < 2 ^ 32) (h : content letters inner.length inner = some value) :
    Reads chunk (Midi.chunk tag inner) value := by
  have htagRead : Reads (bytes 4) letters letters := by
    rw [← hletters]
    exact reads_bytes letters
  have hlengthRead : Reads (number 4 0) (bigEndian 4 inner.length) inner.length :=
    reads_bigEndian (by norm_num; omega)
  have hvalue : Reads (content letters inner.length inner : Reader Chunk) [] value := by
    rw [h]
    exact fun rest => rfl
  have hinner : Reads (do let given ← bytes inner.length; content letters inner.length given)
      (inner ++ []) value := (reads_bytes inner).bind hvalue
  rw [List.append_nil] at hinner
  have hchunk : Reads chunk (letters ++ (bigEndian 4 inner.length ++ inner)) value :=
    htagRead.bind (hlengthRead.bind hinner)
  rwa [← List.append_assoc, ← htag] at hchunk

/-- Two chunks after each other are a file. -/
lemma file_append {first second : List UInt8} {header track : Chunk}
    (hfirst : Reads chunk first header) (hsecond : Reads chunk second track) (hne : first ≠ [])
    (hne' : second ≠ []) :
    file (first ++ second) = some [header, track] := by
  have hlast := all_append hsecond hne' []
  rw [List.append_nil, all, Option.map_some] at hlast
  rw [file, all_append hfirst hne, hlast, Option.map_some]

end Reader

/-! ### Files -/

/-- Events after others are written after their bytes. -/
lemma eventBytes_append {now : Nat} {first second : List TimedEvent} {front behind : List UInt8}
    (hfirst : eventBytes now first = .ok front)
    (hsecond : eventBytes (lastTick now first) second = .ok behind) :
    eventBytes now (first ++ second) = .ok (front ++ behind) := by
  induction first generalizing now front with
  | nil =>
    cases hfirst
    exact hsecond
  | cons timed rest ih =>
    obtain ⟨piece, hpiece, hfirst⟩ := exists_of_bind_eq_ok hfirst
    obtain ⟨others, hothers, hfirst⟩ := exists_of_bind_eq_ok hfirst
    obtain rfl := Except.ok.inj hfirst
    rw [List.cons_append, eventBytes, hpiece, ih hothers hsecond, List.append_assoc]
    rfl

/-- What relates the ticks of neighbours among events, and among those after them, relates the ticks
of all neighbours. -/
lemma isChain_append {R : Nat → Nat → Prop} {now : Nat} {first second : List TimedEvent}
    (hfirst : (now :: first.map TimedEvent.tick).IsChain R)
    (hsecond : (lastTick now first :: second.map TimedEvent.tick).IsChain R) :
    (now :: (first ++ second).map TimedEvent.tick).IsChain R := by
  induction first generalizing now with
  | nil => exact hsecond
  | cons timed rest ih =>
    obtain ⟨hstep, hrest⟩ := List.isChain_cons_cons.mp hfirst
    exact List.isChain_cons_cons.mpr ⟨hstep, ih hrest hsecond⟩

/-- What relates the ticks of neighbours among the events of a tune does so in the whole track. -/
lemma isChain_trackEvents {R : Nat → Nat → Prop} {rate : Binary64}
    {voices : List (List Note)} (hrefl : ∀ tick, R tick tick)
    (h : (0 :: (events rate voices).map TimedEvent.tick).IsChain R) :
    (0 :: (trackEvents rate voices).map TimedEvent.tick).IsChain R := by
  have hpreamble : (0 :: (preamble.map fun event => (⟨0, event⟩ : TimedEvent)).map
      TimedEvent.tick).IsChain R := by
    simp [preamble, channelCount, List.range_succ, hrefl]
  rw [trackEvents, List.append_assoc]
  exact isChain_append hpreamble (isChain_append h (List.isChain_pair.mpr (hrefl _)))

/-- The bytes of a track are those of its events. -/
lemma eventBytes_trackEvents {rate : Binary64} {voices : List (List Note)} {track : List UInt8}
    (h : trackBytes rate voices = .ok track) :
    eventBytes 0 (trackEvents rate voices) = .ok track := by
  rw [trackBytes] at h
  obtain ⟨opening, hopening, h⟩ := exists_of_bind_eq_ok h
  obtain ⟨body, hbody, h⟩ := exists_of_bind_eq_ok h
  obtain ⟨closing, hclosing, h⟩ := exists_of_bind_eq_ok h
  obtain rfl := Except.ok.inj h
  have hlast : eventBytes (lastTick 0 (events rate voices))
      [⟨lastTick 0 (events rate voices), .endOfTrack⟩] = .ok closing := by
    rw [eventBytes, Nat.sub_self, hclosing, eventBytes]
    exact congrArg Except.ok (List.append_nil closing)
  rw [trackEvents, List.append_assoc, List.append_assoc]
  exact eventBytes_append hopening (eventBytes_append hbody hlast)

/-- Time does not go back along the events of a tune. -/
lemma isChain_ticks (rate : Binary64) (voices : List (List Note)) :
    (0 :: (events rate voices).map TimedEvent.tick).IsChain (· ≤ ·) := by
  have hordered := (wellOrdered_schedule (.ofRate rate) voices).ordered
  have hticks : ((events rate voices).map TimedEvent.tick).Pairwise (· ≤ ·) :=
    List.pairwise_map.mpr (hordered.imp fun h => h.1)
  exact (List.pairwise_cons.mpr ⟨fun _ _ => Nat.zero_le _, hticks⟩).isChain

/-- All events of a track can be written as distances if those of the tune are near each other. -/
lemma followable_trackEvents {rate : Binary64} {voices : List (List Note)}
    (h : (0 :: (events rate voices).map TimedEvent.tick).IsChain fun a b => b < a + 2 ^ 28) :
    Followable 0 (trackEvents rate voices) := by
  have hticks := List.isChain_iff_getElem.mp (isChain_ticks rate voices)
  have hnear := List.isChain_iff_getElem.mp h
  refine isChain_trackEvents (fun tick => ⟨le_rfl, by omega⟩) ?_
  exact List.isChain_iff_getElem.mpr fun i hi => ⟨hticks i hi, hnear i hi⟩

/-- Only the last event of a track ends it. -/
lemma event_ne_endOfTrack {rate : Binary64} {voices : List (List Note)} {t : TimedEvent}
    (h : t ∈ preamble.map (fun event => ⟨0, event⟩) ++ events rate voices) :
    t.event ≠ .endOfTrack := by
  rcases List.mem_append.mp h with h | h
  · obtain ⟨event, hevent, rfl⟩ := List.mem_map.mp h
    have hpreamble : ∀ event ∈ preamble, event ≠ .endOfTrack := by decide
    exact hpreamble event hevent
  · obtain ⟨channel, key, hkey | hkey⟩ := (wellOrdered_schedule (.ofRate rate) voices).keys t h
    · rw [hkey]
      exact Event.noConfusion
    · rw [hkey]
      exact Event.noConfusion

/-- The tags of the two chunks. -/
lemma toUTF8_tags : "MThd".toUTF8.toList = [0x4D, 0x54, 0x68, 0x64] ∧
    "MTrk".toUTF8.toList = [0x4D, 0x54, 0x72, 0x6B] := by
  decide +kernel

/-- A chunk takes eight bytes more than its content. -/
lemma length_chunk {tag : String} (htag : tag.toUTF8.toList.length = 4) (inner : List UInt8) :
    (chunk tag inner).length = 8 + inner.length := by
  rw [chunk, List.length_append, List.length_append, htag, Reader.length_bigEndian]

/-- The content of the header. -/
def headerBytes : List UInt8 :=
  bigEndian 2 1 ++ bigEndian 2 declaredTracks ++ bigEndian 2 division

/-- A file is its header and its track. -/
lemma eq_of_fileBytes {rate : Binary64} {voices : List (List Note)} {bytes track : List UInt8}
    (hbytes : fileBytes rate voices = .ok bytes) (htrack : trackBytes rate voices = .ok track) :
    bytes = chunk "MThd" headerBytes ++ chunk "MTrk" track := by
  rw [fileBytes, htrack] at hbytes
  exact (Except.ok.inj hbytes).symm

/-- **Files are read back.**  A reader that knows nothing of the writer takes the file of a tune
apart and leaves nothing over: a header of six bytes for a file of format 1 with three tracks and 25
ticks in a quarter note, and one track with as many bytes as its length says.  The track holds the
fourteen events of the preamble on tick zero, the events of the tune on their ticks, and the end on
the last tick.  This needs events that are near each other and a track that is not too long; that
time does not go back from event to event is true of every tune. -/
theorem file_fileBytes {rate : Binary64} {voices : List (List Note)} {bytes track : List UInt8}
    (hbytes : fileBytes rate voices = .ok bytes) (htrack : trackBytes rate voices = .ok track)
    (hnear : (0 :: (events rate voices).map TimedEvent.tick).IsChain fun a b => b < a + 2 ^ 28)
    (hlength : track.length < 2 ^ 32) :
    Reader.file bytes = some [.header 6 1 3 25, .track track.length
        (preamble.map (fun event => ⟨0, event.message⟩) ++
          (events rate voices).map TimedEvent.message ++
          [⟨lastTick 0 (events rate voices), .endOfTrack⟩])] ∧
      preamble.length = 14 ∧ bytes.length = 22 + track.length ∧
      (0 :: (events rate voices).map TimedEvent.tick).IsChain (· ≤ ·) := by
  obtain ⟨hheaderTag, htrackTag⟩ := toUTF8_tags
  have hheaderLength := length_chunk (congrArg List.length hheaderTag) headerBytes
  have htrackLength := length_chunk (congrArg List.length htrackTag) track
  have hmessages := Reader.track_eventBytes (followable_trackEvents hnear) rfl
    (fun t => event_ne_endOfTrack) (eventBytes_trackEvents htrack)
  have hcontent : Reader.content [0x4D, 0x54, 0x72, 0x6B] track.length track =
      some (.track track.length ((trackEvents rate voices).map TimedEvent.message)) := by
    rw [Reader.content, hmessages]
    rfl
  have hheader : Reader.Reads Reader.chunk (chunk "MThd" headerBytes) (.header 6 1 3 25) :=
    Reader.reads_chunk hheaderTag rfl (by decide) rfl
  have hfile := Reader.file_append hheader (Reader.reads_chunk htrackTag rfl hlength hcontent)
    (List.ne_nil_of_length_pos (by omega)) (List.ne_nil_of_length_pos (by omega))
  rw [eq_of_fileBytes hbytes htrack]
  refine ⟨?_, rfl, ?_, isChain_ticks rate voices⟩
  · rw [hfile, trackEvents, List.map_append, List.map_append, List.map_map]
    rfl
  · rw [List.length_append, hheaderLength, htrackLength, ← Nat.add_assoc]
    rfl

/-- A note that is struck on frame 200 and changes its pitch ten frames later. -/
def bentNote : Note :=
  { Note.opened 200 69 .pulse (.ofRegisters 0x00 0x00) with
    sustain := .ofRatio 3 10, bends := #[⟨210, 81⟩] }

/-- The events of the bent note at fifty frames per second. -/
lemma events_bentNote : events (.ofNat 50) [[bentNote]] =
    [⟨200, .noteOn 2 69⟩, ⟨210, .noteOff 2 69⟩, ⟨210, .noteOn 2 81⟩, ⟨215, .noteOff 2 81⟩] := by
  have hunordered : unorderedEvents (.ofRate (.ofNat 50)) [[bentNote]] =
      [⟨200, .noteOn 2 69⟩, ⟨210, .noteOff 2 69⟩, ⟨210, .noteOn 2 81⟩, ⟨215, .noteOff 2 81⟩] := by
    decide +kernel
  rw [events, schedule, hunordered]
  exact List.mergeSort_of_pairwise (by decide)

/-- The file of the bent note is read back. -/
theorem file_fileBytes_bentNote : ∃ bytes, fileBytes (.ofNat 50) [[bentNote]] = .ok bytes ∧
    Reader.file bytes = some [.header 6 1 3 25, .track 71
      (preamble.map (fun event => ⟨0, event.message⟩) ++
        [⟨200, .noteOn 2 69 40⟩, ⟨210, .noteOff 2 69 40⟩, ⟨210, .noteOn 2 81 40⟩,
          ⟨215, .noteOff 2 81 40⟩] ++ [⟨215, .endOfTrack⟩])] := by
  have hwritten : ∃ track, trackBytes (.ofNat 50) [[bentNote]] = .ok track ∧ track.length = 71 := by
    rw [trackBytes, events_bentNote]
    exact ⟨_, rfl, by decide +kernel⟩
  obtain ⟨track, htrack, hlength⟩ := hwritten
  have hbytes : fileBytes (.ofNat 50) [[bentNote]] =
      .ok (chunk "MThd" headerBytes ++ chunk "MTrk" track) := by
    rw [fileBytes, htrack]
    rfl
  have hnear : (0 :: (events (.ofNat 50) [[bentNote]]).map TimedEvent.tick).IsChain
      fun a b => b < a + 2 ^ 28 := by
    rw [events_bentNote]
    decide
  have hread := (file_fileBytes hbytes htrack hnear (by omega)).1
  rw [events_bentNote, hlength] at hread
  exact ⟨_, hbytes, hread⟩

end ChipScore.Midi
