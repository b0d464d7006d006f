import Mathlib.Tactic
import ChipScore.Bus.AddressSpace
import ChipScore.Proofs.Bus.Cells

/-!
# Regions of an address space

Anything may happen to an address space, in any order: devices are attached, bytes are read, bytes
are written.  `AddressSpace.Operation` is one such thing, and `AddressSpace.after` is what many of
them leave behind.

`AnswersAt` says which region is meant by an address, the earliest one that covers it, and
`Uncovered` that there is none.  Both look at windows only.  A write changes no window and attaching
adds one at the end, so a region keeps its handle and its place in the order
(`Holds.perform`, `Holds.after`); what becomes of its device are the writes that are meant for it,
in their order, and nothing else.

`routing_law` puts this together.  What it says about memory behind a region is said of any device
that is a memory in a box (`Boxing`), so that memories of any sizes may stand beside other devices.
-/

namespace ChipScore

/-- An address lies in a window, both ends included. -/
def Window.Covers (w : Window) (address : UInt16) : Prop :=
  w.first ≤ address ∧ address ≤ w.last

instance (w : Window) (address : UInt16) : Decidable (w.Covers address) :=
  inferInstanceAs (Decidable (_ ∧ _))

/-- The test for a window accepts exactly the addresses that the window covers. -/
lemma Window.contains_iff {w : Window} {address : UInt16} :
    w.contains address = true ↔ w.Covers address := by
  simp [contains, Covers]

/-- Devices of one type in the boxes of another.  What is asked of the box is asked of the device in
it. -/
structure Boxing (ε δ : Type) [Device ε] [Device δ] where
  /-- Puts a device into its box. -/
  box : ε → δ
  /-- A box is read like the device in it. -/
  read_box : ∀ device offset, Device.read (box device) offset = Device.read device offset
  /-- A box is written like the device in it. -/
  write_box : ∀ device offset value,
    Device.write (box device) offset value = box (Device.write device offset value)

namespace AddressSpace

/-! ### Operations -/

/-- What can be done to an address space. -/
inductive Operation (δ : Type)
  /-- A device is attached. -/
  | attach (window : Window) (device : δ)
  /-- A byte is read. -/
  | read (address : UInt16)
  /-- A byte is written. -/
  | write (address : UInt16) (value : UInt8)

/-- What an address space answers. -/
inductive Answer
  /-- The device is attached, and the region has a handle. -/
  | attached (handle : Nat)
  /-- The device is not attached. -/
  | refused (error : AttachError)
  /-- The byte that was read. -/
  | byte (value : UInt8)
  /-- The byte is written. -/
  | written
  deriving DecidableEq

/-- The window that an operation attaches, unless its range is inverted. -/
def Operation.attached? {δ : Type} : Operation δ → Option Window
  | attach window _ => if window.first ≤ window.last then some window else none
  | _ => none

/-- The offset and the byte that an operation writes to a region, given its window and the windows
of the regions before it.  A write is meant for the region if it goes to an address that the region
covers and none before it does. -/
def Operation.writeTo? {δ : Type} (earlier : List Window) (window : Window) :
    Operation δ → Option (UInt16 × UInt8)
  | write address value =>
    if window.Covers address ∧ ∀ w ∈ earlier, ¬w.Covers address then
      some (address - window.first, value)
    else none
  | _ => none

variable {δ : Type}

/-- No region covers an address. -/
def Uncovered (space : AddressSpace δ) (address : UInt16) : Prop :=
  ∀ w ∈ space.windows, ¬w.Covers address

/-- A region answers at an address: it covers the address, and none that was attached before it
does. -/
structure AnswersAt (space : AddressSpace δ) (address : UInt16) (handle : Nat)
    (region : Region δ) : Prop where
  /-- The region is attached. -/
  attached : space.regions[handle]? = some region
  /-- It covers the address. -/
  covers : region.window.Covers address
  /-- No region before it does. -/
  earliest : ∀ w ∈ space.windows.take handle, ¬w.Covers address

/-- The windows that operations attach, in their order. -/
def attachedWindows (operations : List (Operation δ)) : List Window :=
  operations.filterMap Operation.attached?

/-- The writes that operations make to a region, in their order. -/
def writesTo (earlier : List Window) (window : Window) (operations : List (Operation δ)) :
    List (UInt16 × UInt8) :=
  operations.filterMap (Operation.writeTo? earlier window)

/-- The first operation may attach a window, in front of those of the rest. -/
lemma attachedWindows_cons (operation : Operation δ) (rest : List (Operation δ)) :
    attachedWindows (operation :: rest) =
      operation.attached?.toList ++ attachedWindows rest := by
  unfold attachedWindows
  cases hattached : operation.attached? with
  | none => simp [List.filterMap_cons_none hattached]
  | some window => simp [List.filterMap_cons_some hattached]

/-- The first operation may write to the region, before the rest does. -/
lemma writesTo_cons (earlier : List Window) (window : Window) (operation : Operation δ)
    (rest : List (Operation δ)) :
    writesTo earlier window (operation :: rest) =
      (operation.writeTo? earlier window).toList ++ writesTo earlier window rest := by
  unfold writesTo
  cases hwrite : operation.writeTo? earlier window with
  | none => simp [List.filterMap_cons_none hwrite]
  | some w => simp [List.filterMap_cons_some hwrite]

/-! ### Which region answers -/

section Answering

variable {space : AddressSpace δ} {address : UInt16} {handle : Nat} {region : Region δ}

lemma windows_getElem? (space : AddressSpace δ) (handle : Nat) :
    space.windows[handle]? = space.regions[handle]?.map Region.window := by
  simp [windows]

lemma length_windows (space : AddressSpace δ) : space.windows.length = space.regions.size := by
  simp [windows]

/-- The windows before a handle are those of the regions before it. -/
lemma mem_take_windows_iff {w : Window} :
    w ∈ space.windows.take handle ↔ ∃ j < handle, ∃ r, space.regions[j]? = some r ∧ r.window = w := by
  rw [List.mem_iff_getElem?]
  constructor
  · rintro ⟨j, hj⟩
    rw [List.getElem?_take] at hj
    split_ifs at hj with hlt
    rw [windows_getElem?, Option.map_eq_some_iff] at hj
    exact ⟨j, hlt, hj⟩
  · rintro ⟨j, hlt, r, hr, rfl⟩
    refine ⟨j, ?_⟩
    rw [List.getElem?_take, if_pos hlt, windows_getElem?, hr]
    rfl

/-- The search for a region that contains an address ends at the one that answers there. -/
lemma AnswersAt.route_eq (h : space.AnswersAt address handle region) :
    space.route address = some handle := by
  obtain ⟨hlt, hregion⟩ := Array.getElem?_eq_some_iff.mp h.attached
  refine Array.findIdx?_eq_some_iff_getElem.mpr ⟨hlt, ?_, ?_⟩
  · rw [hregion]
    exact Window.contains_iff.mpr h.covers
  · intro j hj hcontains
    have hearlier : space.regions[j].window ∈ space.windows.take handle :=
      mem_take_windows_iff.mpr ⟨j, hj, _, Array.getElem?_eq_getElem _, rfl⟩
    exact h.earliest _ hearlier (Window.contains_iff.mp hcontains)

/-- The search for a region finds the one that answers. -/
lemma AnswersAt.find?_eq (h : space.AnswersAt address handle region) :
    (space.regions.find? fun r => r.window.contains address) = some region := by
  obtain ⟨hlt, hregion⟩ := Array.getElem?_eq_some_iff.mp h.attached
  obtain ⟨_, hcontains, hearlier⟩ := Array.findIdx?_eq_some_iff_getElem.mp h.route_eq
  rw [hregion] at hcontains
  refine Array.find?_eq_some_iff_getElem.mpr ⟨hcontains, handle, hlt, hregion, ?_⟩
  intro j hj
  simpa using hearlier j hj

/-- Where some region covers an address, one answers. -/
lemma exists_answersAt (h : ¬space.Uncovered address) :
    ∃ handle region, space.AnswersAt address handle region := by
  have hroute : space.route address ≠ none := by
    intro hnone
    apply h
    intro w hw hcovers
    obtain ⟨r, hr, rfl⟩ := List.mem_map.mp hw
    have hcontains := Array.findIdx?_eq_none_iff.mp hnone r (Array.mem_toList_iff.mp hr)
    rw [Window.contains_iff.mpr hcovers] at hcontains
    cases hcontains
  obtain ⟨handle, hhandle⟩ := Option.ne_none_iff_exists'.mp hroute
  obtain ⟨hlt, hcontains, hearlier⟩ := Array.findIdx?_eq_some_iff_getElem.mp hhandle
  refine ⟨handle, space.regions[handle], Array.getElem?_eq_getElem hlt,
    Window.contains_iff.mp hcontains, ?_⟩
  intro w hw hcovers
  obtain ⟨j, hj, r, hr, rfl⟩ := mem_take_windows_iff.mp hw
  obtain ⟨hjlt, rfl⟩ := Array.getElem?_eq_some_iff.mp hr
  exact hearlier j hj (Window.contains_iff.mpr hcovers)

/-- Where no region covers an address, the search finds none. -/
lemma Uncovered.find?_eq (h : space.Uncovered address) :
    (space.regions.find? fun r => r.window.contains address) = none := by
  refine Array.find?_eq_none.mpr ?_
  intro r hr hcontains
  exact h r.window (List.mem_map_of_mem (Array.mem_toList_iff.mpr hr))
    (Window.contains_iff.mp hcontains)

lemma Uncovered.route_eq (h : space.Uncovered address) : space.route address = none := by
  rw [route, Array.findIdx?_eq_none_iff]
  intro r hr
  simpa using Array.find?_eq_none.mp h.find?_eq r hr

end Answering

/-! ### Attaching -/

section Attaching

variable {space next : AddressSpace δ} {window : Window} {device : δ}

/-- An inverted range is refused. -/
lemma attach_of_lt (h : window.last < window.first) :
    space.attach window device = .error (.invertedRange window) := by
  rw [attach, if_pos h]

/-- Every other range is accepted and becomes the last region. -/
lemma attach_of_le (h : window.first ≤ window.last) :
    space.attach window device = .ok ⟨space.regions.push ⟨window, device⟩⟩ := by
  rw [attach, if_neg (UInt16.not_lt.mpr h)]

/-- A region that is attached goes behind all others. -/
lemma regions_of_attach (h : space.attach window device = .ok next) :
    next.regions = space.regions.push ⟨window, device⟩ := by
  rw [attach] at h
  split_ifs at h
  exact congrArg regions (Except.ok.inj h).symm

/-- An attachment adds its window behind the others. -/
lemma windows_of_attach (h : space.attach window device = .ok next) :
    next.windows = space.windows ++ [window] := by
  simp [windows, regions_of_attach h]

end Attaching

/-! ### Holding a region -/

/-- An address space holds a region behind others: the regions before it have the windows `earlier`,
and their number is its handle. -/
structure Holds (space : AddressSpace δ) (earlier : List Window) (window : Window)
    (device : δ) : Prop where
  /-- The region. -/
  region : space.regions[earlier.length]? = some ⟨window, device⟩
  /-- The windows of the regions before it. -/
  windows : space.windows.take earlier.length = earlier

section Holding

variable {space next : AddressSpace δ} {earlier : List Window} {window : Window} {device : δ}
  {address : UInt16}

/-- A region that has just been attached is behind all others. -/
lemma holds_of_attach (h : space.attach window device = .ok next) :
    next.Holds space.windows window device where
  region := by
    rw [regions_of_attach h, length_windows, Array.getElem?_push, if_pos rfl]
  windows := by
    rw [windows_of_attach h, List.take_left]

/-- A region answers where it covers an address and none before it does. -/
lemma Holds.answersAt (h : space.Holds earlier window device) (hcovers : window.Covers address)
    (hearlier : ∀ w ∈ earlier, ¬w.Covers address) :
    space.AnswersAt address earlier.length ⟨window, device⟩ where
  attached := h.region
  covers := hcovers
  earliest := by
    rw [h.windows]
    exact hearlier

/-- A region that answers is held, behind as many others as its handle says. -/
lemma AnswersAt.holds {handle : Nat} {region : Region δ}
    (h : space.AnswersAt address handle region) :
    (space.windows.take handle).length = handle ∧
      space.Holds (space.windows.take handle) region.window region.device := by
  obtain ⟨hlt, -⟩ := Array.getElem?_eq_some_iff.mp h.attached
  have hlength : (space.windows.take handle).length = handle := by
    rw [List.length_take, length_windows]
    exact Nat.min_eq_left (Nat.le_of_lt hlt)
  refine ⟨hlength, ?_, ?_⟩
  · rw [hlength]
    exact h.attached
  · rw [hlength]

/-- Attaching another region leaves it where it is. -/
lemma Holds.of_attach {other : Window} {device' : δ} (h : space.Holds earlier window device)
    (hnext : space.attach other device' = .ok next) : next.Holds earlier window device := by
  obtain ⟨hlt, -⟩ := Array.getElem?_eq_some_iff.mp h.region
  constructor
  · rw [regions_of_attach hnext, Array.getElem?_push, if_neg (Nat.ne_of_lt hlt)]
    exact h.region
  · rw [windows_of_attach hnext,
      List.take_append_of_le_length (by rw [length_windows]; exact Nat.le_of_lt hlt)]
    exact h.windows

/-- An address is answered where it was answered before. -/
lemma AnswersAt.of_attach {handle : Nat} {region : Region δ}
    (h : space.AnswersAt address handle region)
    (hnext : space.attach window device = .ok next) : next.AnswersAt address handle region := by
  obtain ⟨hlength, hholds⟩ := h.holds
  have hanswers := (hholds.of_attach hnext).answersAt h.covers h.earliest
  rwa [hlength] at hanswers

end Holding

variable [Device δ]

/-- The address space after an operation, and its answer.  The handle of a region that has just been
attached is the last one. -/
def perform (space : AddressSpace δ) : Operation δ → AddressSpace δ × Answer
  | .attach window device =>
    match space.attach window device with
    | .ok next => (next, .attached (next.regions.size - 1))
    | .error e => (space, .refused e)
  | .read address => (space, .byte (Bus.read space address))
  | .write address value => (Bus.write space address value, .written)

/-- The address space after operations, the first one first. -/
def after (space : AddressSpace δ) (operations : List (Operation δ)) : AddressSpace δ :=
  operations.foldl (fun space operation => (space.perform operation).1) space

lemma after_append (space : AddressSpace δ) (operations later : List (Operation δ)) :
    space.after (operations ++ later) = (space.after operations).after later :=
  List.foldl_append

/-- A device after writes, the first one first. -/
def deviceAfter (device : δ) (writes : List (UInt16 × UInt8)) : δ :=
  writes.foldl (fun device w => Device.write device w.1 w.2) device

/-- What an access at an address comes to when a region answers there. -/
structure Serves (space : AddressSpace δ) (address : UInt16) (handle : Nat)
    (region : Region δ) : Prop where
  /-- The offset into the window does not wrap. -/
  offset : region.window.first.toNat + (address - region.window.first).toNat = address.toNat
  /-- A read asks the device of the region. -/
  read : Bus.read space address = Device.read region.device (address - region.window.first)
  /-- A write changes the device of the region and no other, and no window. -/
  write : ∀ value other, (Bus.write space address value).regions[other]? =
    if other = handle then
      some { region with
        device := Device.write region.device (address - region.window.first) value }
    else space.regions[other]?
  /-- A region that is attached later makes no difference to the address. -/
  attach : ∀ window device next, space.attach window device = .ok next →
    next.AnswersAt address handle region ∧ Bus.read next address = Bus.read space address
  /-- No other region will ever answer at the address. -/
  stays : ∀ later, ∃ device,
    (space.after later).AnswersAt address handle ⟨region.window, device⟩
  /-- Behind the address there may be a memory.  Then a byte that is written is read back at the
  address if it lies within the memory, and all other reads give what they gave before. -/
  memory : ∀ {size : Nat} (boxing : Boxing (Ram size) δ) (ram : Ram size),
    region.device = boxing.box ram → ∀ value other,
      Bus.read (Bus.write space address value) other =
        if other = address ∧ (address - region.window.first).toNat < size then value
        else Bus.read space other

/-! ### One access -/

section Access

variable {space : AddressSpace δ} {address : UInt16} {handle : Nat} {region : Region δ}

/-- A read that no region answers gives zero. -/
lemma Uncovered.read_eq (h : space.Uncovered address) : Bus.read space address = 0 := by
  change space.read address = 0
  rw [AddressSpace.read, h.find?_eq]

/-- A write that no region answers changes nothing. -/
lemma Uncovered.write_eq (h : space.Uncovered address) (value : UInt8) :
    Bus.write space address value = space := by
  change space.write address value = space
  rw [AddressSpace.write, h.route_eq]

/-- A read is answered by the device, at the offset into the window. -/
lemma AnswersAt.read_eq (h : space.AnswersAt address handle region) :
    Bus.read space address = Device.read region.device (address - region.window.first) := by
  change space.read address = _
  rw [AddressSpace.read, h.find?_eq]

/-- A write changes the device that answers and leaves every other region alone. -/
lemma AnswersAt.getElem?_write (h : space.AnswersAt address handle region) (value : UInt8)
    (other : Nat) :
    (Bus.write space address value).regions[other]? =
      if other = handle then
        some { region with
          device := Device.write region.device (address - region.window.first) value }
      else space.regions[other]? := by
  change (space.write address value).regions[other]? = _
  rw [AddressSpace.write, h.route_eq, Array.getElem?_modify]
  by_cases hother : other = handle
  · subst hother
    rw [if_pos rfl, if_pos rfl, h.attached]
    rfl
  · rw [if_neg (Ne.symm hother), if_neg hother]

/-- No write changes a window. -/
lemma windows_write (space : AddressSpace δ) (address : UInt16) (value : UInt8) :
    (Bus.write space address value).windows = space.windows := by
  by_cases huncovered : space.Uncovered address
  · rw [huncovered.write_eq]
  · obtain ⟨handle, region, h⟩ := exists_answersAt huncovered
    refine List.ext_getElem? fun other => ?_
    rw [windows_getElem?, windows_getElem?, h.getElem?_write]
    split_ifs with hother
    · rw [hother, h.attached]
      rfl
    · rfl

end Access

/-! ### Many operations -/

section Course

variable {space : AddressSpace δ} {earlier : List Window} {window : Window} {device : δ}

/-- A write that is meant for a region changes its device. -/
lemma Holds.write_meant (h : space.Holds earlier window device) {address : UInt16}
    (hcovers : window.Covers address) (hearlier : ∀ w ∈ earlier, ¬w.Covers address)
    (value : UInt8) :
    (Bus.write space address value).Holds earlier window
      (Device.write device (address - window.first) value) where
  region := by
    rw [(h.answersAt hcovers hearlier).getElem?_write, if_pos rfl]
  windows := by
    rw [windows_write]
    exact h.windows

/-- A write that is not meant for a region leaves its device alone. -/
lemma Holds.write_other (h : space.Holds earlier window device) {address : UInt16}
    (hother : ¬(window.Covers address ∧ ∀ w ∈ earlier, ¬w.Covers address)) (value : UInt8) :
    (Bus.write space address value).Holds earlier window device := by
  by_cases huncovered : space.Uncovered address
  · rwa [huncovered.write_eq]
  · obtain ⟨handle, region, hanswers⟩ := exists_answersAt huncovered
    have hne : earlier.length ≠ handle := by
      rintro rfl
      obtain rfl : region = ⟨window, device⟩ :=
        Option.some.inj (hanswers.attached.symm.trans h.region)
      exact hother ⟨hanswers.covers, h.windows ▸ hanswers.earliest⟩
    constructor
    · rw [hanswers.getElem?_write, if_neg hne]
      exact h.region
    · rw [windows_write]
      exact h.windows

/-- After an operation a region is where it was, and its device has absorbed the write that was meant
for it. -/
lemma Holds.perform (h : space.Holds earlier window device) (operation : Operation δ) :
    (space.perform operation).1.Holds earlier window
      (deviceAfter device (operation.writeTo? earlier window).toList) := by
  cases operation with
  | attach other device' =>
    rw [AddressSpace.perform]
    cases hnext : space.attach other device' with
    | ok next => exact h.of_attach hnext
    | error e => exact h
  | read address => exact h
  | write address value =>
    rw [Operation.writeTo?]
    split_ifs with hmeant
    · exact h.write_meant hmeant.1 hmeant.2 value
    · exact h.write_other hmeant value

/-- However much has been done, a region is where it was, and its device has absorbed the writes that
were meant for it. -/
lemma Holds.after (h : space.Holds earlier window device) (operations : List (Operation δ)) :
    (space.after operations).Holds earlier window
      (deviceAfter device (writesTo earlier window operations)) := by
  induction operations generalizing space device with
  | nil => exact h
  | cons operation rest ih =>
    rw [writesTo_cons, deviceAfter, List.foldl_append]
    exact ih (h.perform operation)

/-- Of all operations only attaching adds a window, unless the range is inverted. -/
lemma windows_perform (space : AddressSpace δ) (operation : Operation δ) :
    (space.perform operation).1.windows = space.windows ++ operation.attached?.toList := by
  cases operation with
  | attach window device =>
    rw [perform, Operation.attached?]
    split_ifs with hrange
    · rw [attach_of_le hrange]
      exact windows_of_attach (attach_of_le hrange)
    · rw [attach_of_lt (UInt16.not_le.mp hrange)]
      exact (List.append_nil _).symm
  | read address => exact (List.append_nil _).symm
  | write address value =>
    rw [perform, windows_write]
    exact (List.append_nil _).symm

/-- The windows of an address space are those that were attached, in their order. -/
lemma windows_after (space : AddressSpace δ) (operations : List (Operation δ)) :
    (space.after operations).windows = space.windows ++ attachedWindows operations := by
  induction operations generalizing space with
  | nil => exact (List.append_nil _).symm
  | cons operation rest ih =>
    rw [attachedWindows_cons, ← List.append_assoc, ← windows_perform]
    exact ih (space.perform operation).1

end Course

/-! ### Memory behind a region -/

section Memory

variable {space : AddressSpace δ} {address other : UInt16} {handle : Nat} {region : Region δ}

omit [Device δ] in
/-- The offset of an address in a window that covers it does not wrap. -/
lemma toNat_first_add_offset {w : Window} (h : w.Covers address) :
    w.first.toNat + (address - w.first).toNat = address.toNat := by
  have hle := UInt16.le_iff_toNat_le.mp h.1
  rw [UInt16.toNat_sub_of_le _ _ h.1]
  omega

omit [Device δ] in
/-- Two addresses of one window have different offsets. -/
lemma offset_eq_iff {w : Window} (h : w.Covers address) (hother : w.Covers other) :
    (address - w.first).toNat = (other - w.first).toNat ↔ other = address := by
  have haddress := toNat_first_add_offset h
  have hoffset := toNat_first_add_offset hother
  rw [← UInt16.toNat_inj]
  omega

omit [Device δ] in
/-- Only one region answers at an address. -/
lemma AnswersAt.unique {handle' : Nat} {region' : Region δ}
    (h : space.AnswersAt address handle region) (h' : space.AnswersAt address handle' region') :
    handle = handle' ∧ region = region' := by
  obtain rfl : handle = handle' := Option.some.inj (h.route_eq.symm.trans h'.route_eq)
  exact ⟨rfl, Option.some.inj (h.attached.symm.trans h'.attached)⟩

omit [Device δ] in
/-- An address at which a region answers is covered. -/
lemma AnswersAt.not_uncovered (h : space.AnswersAt address handle region) :
    ¬space.Uncovered address := by
  intro huncovered
  cases h.route_eq.symm.trans huncovered.route_eq

/-- The region at which a write is answered answers afterwards with the device that the write has
left. -/
lemma AnswersAt.write_same (h : space.AnswersAt address handle region)
    (hother : space.AnswersAt other handle region) (value : UInt8) :
    (Bus.write space address value).AnswersAt other handle
      { region with device := Device.write region.device (address - region.window.first) value } where
  attached := by
    rw [h.getElem?_write, if_pos rfl]
  covers := hother.covers
  earliest := by
    rw [windows_write]
    exact hother.earliest

/-- Any other region answers as it did before. -/
lemma AnswersAt.write_other {handle' : Nat} {region' : Region δ}
    (h : space.AnswersAt address handle region) (hother : space.AnswersAt other handle' region')
    (hne : handle' ≠ handle) (value : UInt8) :
    (Bus.write space address value).AnswersAt other handle' region' where
  attached := by
    rw [h.getElem?_write, if_neg hne]
    exact hother.attached
  covers := hother.covers
  earliest := by
    rw [windows_write]
    exact hother.earliest

/-- A byte that is written to a memory is read back, at its address and if it lies within the memory;
all other reads give what they gave before. -/
lemma AnswersAt.read_write (h : space.AnswersAt address handle region) {size : Nat}
    (boxing : Boxing (Ram size) δ) {ram : Ram size} (hbox : region.device = boxing.box ram)
    (value : UInt8) (other : UInt16) :
    Bus.read (Bus.write space address value) other =
      if other = address ∧ (address - region.window.first).toNat < size then value
      else Bus.read space other := by
  by_cases huncovered : space.Uncovered other
  · have hne : other ≠ address := by
      rintro rfl
      exact h.not_uncovered huncovered
    have hstill : (Bus.write space address value).Uncovered other := by
      rwa [Uncovered, windows_write]
    rw [if_neg (fun hboth => hne hboth.1), hstill.read_eq, huncovered.read_eq]
  obtain ⟨handle', region', h'⟩ := exists_answersAt huncovered
  by_cases hhandle : handle' = handle
  · -- the same memory answers at both addresses
    subst hhandle
    obtain rfl : region' = region := Option.some.inj (h'.attached.symm.trans h.attached)
    rw [(h.write_same h' value).read_eq, h'.read_eq, hbox, boxing.write_box, boxing.read_box,
      boxing.read_box]
    change (ram.write (address - region'.window.first).toNat value).read
      (other - region'.window.first).toNat = if _ then value else ram.read _
    by_cases hinside : (address - region'.window.first).toNat < size
    · rw [Ram.read_write ram hinside]
      simp only [hinside, and_true, offset_eq_iff h.covers h'.covers]
    · rw [Ram.write, dif_neg hinside, if_neg (fun hboth => hinside hboth.2)]
  · -- another device answers at the other address
    have hne : other ≠ address := by
      rintro rfl
      exact hhandle (h'.unique h).1
    rw [if_neg (fun hboth => hne hboth.1), (h.write_other h' hhandle value).read_eq, h'.read_eq]

end Memory

/-! ### The law -/

section Law

variable {space : AddressSpace δ} {address : UInt16} {handle : Nat} {region : Region δ}

/-- Whatever is done later, an address stays with the region that answers there. -/
lemma AnswersAt.after (h : space.AnswersAt address handle region)
    (later : List (Operation δ)) :
    ∃ device, (space.after later).AnswersAt address handle ⟨region.window, device⟩ := by
  obtain ⟨hlength, hholds⟩ := h.holds
  have hanswers := (hholds.after later).answersAt h.covers h.earliest
  rw [hlength] at hanswers
  exact ⟨_, hanswers⟩

/-- What an access comes to is decided by the region that answers. -/
lemma AnswersAt.serves (h : space.AnswersAt address handle region) :
    space.Serves address handle region where
  offset := toNat_first_add_offset h.covers
  read := h.read_eq
  write := h.getElem?_write
  attach window device next hnext :=
    ⟨h.of_attach hnext, by rw [(h.of_attach hnext).read_eq, h.read_eq]⟩
  stays := h.after
  memory boxing _ hbox := h.read_write boxing hbox

/-- **Accesses are routed to the earliest region.**  Let anything be done to an empty address space.
Its regions are then those that were attached, inverted ranges left out, in their order.  Where none
of them covers an address, a read gives zero and a write does nothing.  Where some do, the earliest
of them answers, and it alone.  A region with an inverted range is refused and changes nothing; any
other is attached and gets the number of the regions before it as its handle.  Behind a handle there
will always be the device that was attached with it, after those writes, and no others, that went to
an address which its region covers and none before it does. -/
theorem routing_law (operations : List (Operation δ)) :
    let space := (empty : AddressSpace δ).after operations
    space.windows = attachedWindows operations ∧
      (∀ address, space.Uncovered address →
        Bus.read space address = 0 ∧ ∀ value, Bus.write space address value = space) ∧
      (∀ address, ¬space.Uncovered address →
        ∃ handle region, space.AnswersAt address handle region ∧
          space.Serves address handle region) ∧
      (∀ window device, window.last < window.first →
        space.perform (.attach window device) = (space, .refused (.invertedRange window))) ∧
      (∀ window device, window.first ≤ window.last →
        (space.perform (.attach window device)).2 =
          .attached (attachedWindows operations).length) ∧
      ∀ before window device later, operations = before ++ .attach window device :: later →
        window.first ≤ window.last →
        space.device? (attachedWindows before).length =
          some (deviceAfter device (writesTo (attachedWindows before) window later)) := by
  intro space
  have hwindows (done : List (Operation δ)) :
      ((empty : AddressSpace δ).after done).windows = attachedWindows done :=
    windows_after empty done
  refine ⟨hwindows operations, ?_, ?_, ?_, ?_, ?_⟩
  · intro address huncovered
    exact ⟨huncovered.read_eq, huncovered.write_eq⟩
  · intro address hcovered
    obtain ⟨handle, region, hanswers⟩ := exists_answersAt hcovered
    exact ⟨handle, region, hanswers, hanswers.serves⟩
  · intro window device hinverted
    rw [perform, attach_of_lt hinverted]
  · intro window device hrange
    rw [perform, attach_of_le hrange, ← hwindows operations, length_windows]
    change Answer.attached ((space.regions.push _).size - 1) = .attached space.regions.size
    rw [Array.size_push, Nat.add_sub_cancel]
  · rintro before window device later rfl hrange
    let start := (empty : AddressSpace δ).after before
    obtain ⟨next, hnext⟩ : ∃ next, start.attach window device = .ok next :=
      ⟨_, attach_of_le hrange⟩
    have hspace : space = next.after later := by
      change (empty : AddressSpace δ).after (before ++ .attach window device :: later) = _
      rw [after_append]
      change ((start.perform (.attach window device)).1).after later = _
      rw [perform, hnext]
    have hheld := (holds_of_attach hnext).after later
    rw [hwindows before] at hheld
    rw [device?, hspace, hheld.region]
    rfl

/-- Two memories of sixteen bytes whose windows are larger and overlap, with an inverted range between
them.  Of the writes, the second finds the first memory where it was, the third goes to the second
memory, and the last one lies past the end of the first. -/
def shortMemories : List (Operation (Ram 16)) :=
  [.attach ⟨"near", 0x1000, 0x10FF⟩ (.zero 16), .write 0x1003 0x11,
    .attach ⟨"inverted", 0x2000, 0x1FFF⟩ (.zero 16), .attach ⟨"far", 0x0FFE, 0xFFFF⟩ (.zero 16),
    .write 0x1003 0x22, .write 0x0FFF 0x33, .write 0x1010 0x44]

/-- The second memory has the handle 1 and has seen one write, and a device with an inverted range is
still refused. -/
theorem routing_law_shortMemories :
    let space := (empty : AddressSpace (Ram 16)).after shortMemories
    space.device? 1 = some ((Ram.zero 16).write 1 0x33) ∧
      (space.perform (.attach ⟨"inverted", 0x0001, 0x0000⟩ (.zero 16))).2 =
        .refused (.invertedRange ⟨"inverted", 0x0001, 0x0000⟩) := by
  obtain ⟨-, -, -, hrefused, -, hdevice⟩ := routing_law shortMemories
  constructor
  · exact hdevice (shortMemories.take 3) ⟨"far", 0x0FFE, 0xFFFF⟩ (.zero 16) (shortMemories.drop 4)
      rfl (by decide)
  · rw [hrefused ⟨"inverted", 0x0001, 0x0000⟩ (.zero 16) (by decide)]

end Law

end AddressSpace

end ChipScore
