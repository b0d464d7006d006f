import ChipScore.Proofs.Midi.RoundTrip
import ChipScore.Proofs.Midi.Sounding

/-!
# What can be exported

A file is written unless an event of the tune has a channel or a key that does not fit, and then the
first such event in the order of the schedule is reported (`fileBytes_eq_error_iff`).

Which keys there are to be reported is a matter of the pitches that are left when the notes become
strokes.  A bend that lies outside its note is not among the points of the note, and a point whose
successor does not come later than it and all points before it passes its place on to the successor
and loses its own key.  The keys of the events on a channel are the keys of the points that survive
this (`exists_event_schedule_iff`), no more and no fewer.
-/

namespace ChipScore.Midi

/-- Why an event has no bytes, if it has none: the first of its numbers that does not fit. -/
def Event.flaw? : Event → Option EventError
  | programChange channel program =>
    if 127 < program then some (.programOutOfRange program)
    else if 15 < channel then some (.channelOutOfRange channel)
    else none
  | noteOn channel key | noteOff channel key =>
    if 15 < channel then some (.channelOutOfRange channel)
    else if key < 0 ∨ 127 < key then some (.keyOutOfRange key)
    else none
  | timeSignature .. | keySignature .. | endOfTrack => none

/-- An event strikes a key on a channel or lets it go. -/
def Event.IsOn (channel : Nat) (key : Int) (event : Event) : Prop :=
  event = .noteOn channel key ∨ event = .noteOff channel key

/-- Among some points a point keeps its key: the next one, if there is one, comes later than it and
than all points before it. -/
def Segment.Survives (points : List Segment) (p : Segment) : Prop :=
  ∃ before after, points = before ++ p :: after ∧
    ∀ next ∈ after.head?, ∀ q ∈ before ++ [p], q.tick < next.tick

/-- A point of a note on a channel keeps its key.  The channel is free for the note when the strokes
of the notes before it have ended. -/
def SurvivesOn (timing : Timing) (voices : List (List Note)) (channel : Nat) (p : Segment) : Prop :=
  ∃ before note later, notesOn channel voices = before ++ note :: later ∧
    Segment.Survives (points timing (freeAfter 0 (strokeGroups timing 0 before).flatten) note) p

/-! ### Errors -/

/-- A result is no error, as little as nothing is a flaw. -/
lemma ok_eq_error_iff {ε α : Type} {value : α} {e : ε} :
    (.ok value : Except ε α) = .error e ↔ none = some e := by
  constructor <;> intro h <;> cases h

/-- Errors are equal just if what they report is. -/
lemma error_eq_error_iff {ε α : Type} {f e : ε} :
    (.error f : Except ε α) = .error e ↔ some f = some e := by
  rw [Except.error.injEq, Option.some_inj]

/-- What is done with a result does not change the error. -/
lemma map_eq_error_iff {ε α β : Type} {f : α → β} {x : Except ε α} {e : ε} :
    x.map f = .error e ↔ x = .error e := by
  cases x with
  | error f => exact error_eq_error_iff.trans error_eq_error_iff.symm
  | ok value => exact ok_eq_error_iff.trans ok_eq_error_iff.symm

/-- A key event fails just if its channel or its key does not fit, and with that flaw. -/
lemma Event.keyEvent_eq_error_iff {high : UInt8} {channel : Nat} {key : Int} {e : EventError} :
    keyEvent high channel key = .error e ↔ (noteOn channel key).flaw? = some e := by
  rw [keyEvent, status, keyByte, flaw?]
  by_cases hchannel : channel ≤ 15
  · rw [if_pos hchannel, if_neg (Nat.not_lt.mpr hchannel)]
    by_cases hkey : 0 ≤ key ∧ key ≤ 127
    · rw [if_pos hkey, if_neg (by omega)]
      exact ok_eq_error_iff
    · rw [if_neg hkey, if_pos (by omega)]
      exact error_eq_error_iff
  · rw [if_neg hchannel, if_pos (Nat.lt_of_not_le hchannel)]
    exact error_eq_error_iff

/-- An event has no bytes exactly if it has a flaw, which is the error. -/
lemma Event.bytes_eq_error_iff {event : Event} {e : EventError} :
    event.bytes = .error e ↔ event.flaw? = some e := by
  cases event with
  | noteOn channel key => exact keyEvent_eq_error_iff
  | noteOff channel key => exact keyEvent_eq_error_iff
  | programChange channel program =>
    rw [bytes, flaw?, status]
    by_cases hprogram : 127 < program
    · rw [if_pos hprogram, if_pos hprogram]
      exact error_eq_error_iff
    · rw [if_neg hprogram, if_neg hprogram]
      by_cases hchannel : channel ≤ 15
      · rw [if_pos hchannel, if_neg (Nat.not_lt.mpr hchannel)]
        exact ok_eq_error_iff
      · rw [if_neg hchannel, if_pos (Nat.lt_of_not_le hchannel)]
        exact error_eq_error_iff
  | timeSignature _ _ _ _ | keySignature _ _ | endOfTrack => exact ok_eq_error_iff

/-- An event behind its distance fails just if the event has a flaw; the distance always has bytes.
-/
lemma deltaEvent_eq_error_iff {delta : Nat} {event : Event} {e : EventError} :
    deltaEvent delta event = .error e ↔ event.flaw? = some e :=
  map_eq_error_iff.trans Event.bytes_eq_error_iff

/-- Events are written until one has a flaw. -/
lemma eventBytes_eq_error_iff {now : Nat} {timed : List TimedEvent} {e : EventError} :
    eventBytes now timed = .error e ↔ timed.findSome? (fun t => t.event.flaw?) = some e := by
  induction timed generalizing now with
  | nil => exact ok_eq_error_iff
  | cons t rest ih =>
    have hfirst := @deltaEvent_eq_error_iff (t.tick - now) t.event
    rw [eventBytes, List.findSome?_cons]
    cases hflaw : t.event.flaw? with
    | some f =>
      rw [hfirst.mpr hflaw]
      exact error_eq_error_iff
    | none =>
      cases hdelta : deltaEvent (t.tick - now) t.event with
      | error f => exact absurd (hfirst.mp hdelta) (hflaw ▸ (Option.some_ne_none f).symm)
      | ok piece =>
        rw [← @ih t.tick]
        exact map_eq_error_iff

/-- The preamble can be written. -/
lemma exists_eventBytes_preamble :
    ∃ opening, eventBytes 0 (preamble.map fun event => ⟨0, event⟩) = .ok opening := by
  cases hopening : eventBytes 0 (preamble.map fun event => ⟨0, event⟩) with
  | ok opening => exact ⟨opening, rfl⟩
  | error e =>
    have hflaw := eventBytes_eq_error_iff.mp hopening
    have hnone : (preamble.map fun event => (⟨0, event⟩ : TimedEvent)).findSome?
        (fun t => t.event.flaw?) = none := by decide
    rw [hnone] at hflaw
    cases hflaw

/-- A file fails with the flaw of the first event of the tune that has one. -/
lemma fileBytes_eq_error_iff {rate : Binary64} {voices : List (List Note)} {e : EventError} :
    fileBytes rate voices = .error e ↔
      (events rate voices).findSome? (fun t => t.event.flaw?) = some e := by
  obtain ⟨opening, hopening⟩ := exists_eventBytes_preamble
  obtain ⟨closing, hclosing⟩ : ∃ closing, deltaEvent 0 .endOfTrack = .ok closing := ⟨_, rfl⟩
  have htrack : trackBytes rate voices =
      (eventBytes 0 (events rate voices)).map fun body => opening ++ body ++ closing := by
    rw [trackBytes, hopening, hclosing]
    cases eventBytes 0 (events rate voices) <;> rfl
  rw [fileBytes, map_eq_error_iff, htrack, map_eq_error_iff, eventBytes_eq_error_iff]

/-! ### The keys that are left -/

namespace Segment

variable {first : Segment} {rest : List Segment} {key : Int}

/-- The first of several points keeps its key if the second one comes later; a point behind it keeps
its key if it does so without the first one and what comes next is later than the first one, too. -/
lemma exists_survives_cons_iff :
    (∃ p, Survives (first :: rest) p ∧ p.key = key) ↔
      (first.key = key ∧ ∀ next ∈ rest.head?, first.tick < next.tick) ∨
        ∃ before p after, rest = before ++ p :: after ∧ p.key = key ∧
          ∀ next ∈ after.head?, first.tick < next.tick ∧ ∀ q ∈ before ++ [p], q.tick < next.tick := by
  constructor
  · rintro ⟨p, ⟨before, after, hpoints, hlater⟩, hkey⟩
    cases before with
    | nil =>
      obtain ⟨rfl, rfl⟩ := List.cons.inj hpoints
      exact .inl ⟨hkey, fun next hnext => hlater next hnext _ (List.mem_singleton_self _)⟩
    | cons head before =>
      obtain ⟨rfl, hrest⟩ := List.cons.inj hpoints
      exact .inr ⟨before, p, after, hrest, hkey, fun next hnext =>
        List.forall_mem_cons.mp (hlater next hnext)⟩
  · rintro (⟨hkey, hlater⟩ | ⟨before, p, after, rfl, hkey, hlater⟩)
    · refine ⟨first, ⟨[], rest, rfl, fun next hnext q hq => ?_⟩, hkey⟩
      rw [List.mem_singleton.mp hq]
      exact hlater next hnext
    · exact ⟨p, ⟨first :: before, after, rfl, fun next hnext =>
        List.forall_mem_cons.mpr (hlater next hnext)⟩, hkey⟩

/-- A point that comes no later than the first one takes its place. -/
lemma exists_survives_of_joined {next : Segment} (h : next.tick ≤ first.tick) :
    (∃ p, Survives (first :: next :: rest) p ∧ p.key = key) ↔
      ∃ p, Survives (⟨first.tick, next.key⟩ :: rest) p ∧ p.key = key := by
  rw [exists_survives_cons_iff, exists_survives_cons_iff]
  constructor
  · rintro (⟨-, hlater⟩ | ⟨before, p, after, hpoints, hkey, hlater⟩)
    · exact absurd (hlater next rfl) (Nat.not_lt.mpr h)
    · cases before with
      | nil =>
        obtain ⟨rfl, rfl⟩ := List.cons.inj hpoints
        exact .inl ⟨hkey, fun q hq => (hlater q hq).1⟩
      | cons head before =>
        obtain ⟨-, rfl⟩ := List.cons.inj hpoints
        exact .inr ⟨before, p, after, rfl, hkey, fun q hq =>
          ⟨(hlater q hq).1, (List.forall_mem_cons.mp (hlater q hq).2).2⟩⟩
  · rintro (⟨hkey, hlater⟩ | ⟨before, p, after, rfl, hkey, hlater⟩)
    · refine .inr ⟨[], next, rest, rfl, hkey, fun q hq => ⟨hlater q hq, fun r hr => ?_⟩⟩
      rw [List.mem_singleton.mp hr]
      exact h.trans_lt (hlater q hq)
    · exact .inr ⟨next :: before, p, after, rfl, hkey, fun q hq => ⟨(hlater q hq).1,
        List.forall_mem_cons.mpr ⟨h.trans_lt (hlater q hq).1, (hlater q hq).2⟩⟩⟩

/-- A point that comes later than the first one leaves it alone. -/
lemma exists_survives_of_apart {next : Segment} (h : first.tick < next.tick) :
    (∃ p, Survives (first :: next :: rest) p ∧ p.key = key) ↔
      first.key = key ∨ ∃ p, Survives (next :: rest) p ∧ p.key = key := by
  rw [exists_survives_cons_iff, exists_survives_cons_iff]
  constructor
  · rintro (⟨hkey, -⟩ | ⟨before, p, after, hpoints, hkey, hlater⟩)
    · exact .inl hkey
    · cases before with
      | nil =>
        obtain ⟨rfl, rfl⟩ := List.cons.inj hpoints
        exact .inr (.inl ⟨hkey, fun q hq => (hlater q hq).2 _ (List.mem_singleton_self _)⟩)
      | cons head before =>
        obtain ⟨rfl, rfl⟩ := List.cons.inj hpoints
        exact .inr (.inr ⟨before, p, after, rfl, hkey, fun q hq =>
          List.forall_mem_cons.mp (hlater q hq).2⟩)
  · rintro (hkey | ⟨hkey, hlater⟩ | ⟨before, p, after, rfl, hkey, hlater⟩)
    · refine .inl ⟨hkey, fun q hq => ?_⟩
      rwa [← Option.some_inj.mp hq]
    · refine .inr ⟨[], next, rest, rfl, hkey, fun q hq => ⟨h.trans (hlater q hq), fun r hr => ?_⟩⟩
      rw [List.mem_singleton.mp hr]
      exact hlater q hq
    · exact .inr ⟨next :: before, p, after, rfl, hkey, fun q hq =>
        ⟨h.trans (hlater q hq).1, List.forall_mem_cons.mpr (hlater q hq)⟩⟩

/-- Joining keeps the keys of the points that survive. -/
lemma exists_key_merge_iff :
    (∃ s ∈ merge first rest, s.key = key) ↔ ∃ p, Survives (first :: rest) p ∧ p.key = key := by
  induction rest generalizing first with
  | nil =>
    rw [exists_survives_cons_iff, merge, List.exists_mem_cons_iff]
    constructor
    · rintro (hkey | ⟨s, hs, -⟩)
      · exact .inl ⟨hkey, fun next hnext => by cases hnext⟩
      · cases hs
    · rintro (⟨hkey, -⟩ | ⟨before, p, after, hnil, -⟩)
      · exact .inl hkey
      · exact absurd hnil.symm (by simp)
  | cons next rest ih =>
    rw [merge]
    split_ifs with hjoin
    · rw [ih, exists_survives_of_joined hjoin]
    · rw [exists_survives_of_apart (Nat.lt_of_not_le hjoin), List.exists_mem_cons_iff, ih]

/-- Segments become strokes with the same keys. -/
lemma map_key_strokes (endTick : Nat) (segments : List Segment) :
    (strokes endTick segments).map Stroke.key = segments.map Segment.key := by
  fun_induction strokes endTick segments with
  | case1 => rfl
  | case2 last => rfl
  | case3 first next rest ih =>
    rw [List.map_cons, ih]
    rfl

end Segment

variable {timing : Timing}

/-- The keys of a note's strokes are those of its points that survive. -/
lemma exists_key_strokesOf_iff {free : Nat} {note : Note} {key : Int} :
    (∃ s ∈ strokesOf timing free note, s.key = key) ↔
      ∃ p, Segment.Survives (points timing free note) p ∧ p.key = key := by
  obtain ⟨first, rest, hpoints, -, hstrokes⟩ := exists_points_eq_cons timing free note
  rw [hpoints, hstrokes, ← Segment.exists_key_merge_iff, ← List.mem_map, ← List.mem_map,
    Segment.map_key_strokes]

/-- A stroke on a channel belongs to a note there, which waits for the notes before it. -/
lemma mem_flatten_strokeGroups_iff {free : Nat} {notes : List Note} {s : Stroke} :
    s ∈ (strokeGroups timing free notes).flatten ↔
      ∃ before note later, notes = before ++ note :: later ∧
        s ∈ strokesOf timing (freeAfter free (strokeGroups timing free before).flatten) note := by
  constructor
  · intro hs
    induction notes generalizing free with
    | nil => cases hs
    | cons note rest ih =>
      rcases List.mem_append.mp hs with hs | hs
      · exact ⟨[], note, rest, rfl, hs⟩
      · obtain ⟨before, other, later, rfl, hs⟩ := ih hs
        refine ⟨note :: before, other, later, rfl, ?_⟩
        rwa [strokeGroups, List.flatten_cons, freeAfter_append]
  · rintro ⟨before, note, later, rfl, hs⟩
    rw [strokeGroups_append, strokeGroups, List.flatten_append, List.flatten_cons]
    exact List.mem_append_right _ (List.mem_append_left _ hs)

/-- The events on a channel have the keys of the points that survive there. -/
lemma exists_event_schedule_iff {voices : List (List Note)} {channel : Nat} {key : Int} :
    (∃ t ∈ schedule timing voices, t.event.IsOn channel key) ↔
      ∃ p, SurvivesOn timing voices channel p ∧ p.key = key := by
  have hstrokes : (∃ t ∈ schedule timing voices, t.event.IsOn channel key) ↔
      ∃ s ∈ (strokeGroups timing 0 (notesOn channel voices)).flatten, s.key = key := by
    have hchannel := @onChannel_schedule timing channel voices
    constructor
    · rintro ⟨t, ht, hon⟩
      have hmem : t ∈ onChannel channel (schedule timing voices) := by
        refine List.mem_filter.mpr ⟨ht, ?_⟩
        rcases hon with hon | hon <;> rw [hon] <;> exact beq_self_eq_true _
      rw [hchannel] at hmem
      obtain ⟨s, hs, ht⟩ := List.mem_flatMap.mp hmem
      refine ⟨s, hs, ?_⟩
      rcases List.mem_pair.mp ht with rfl | rfl <;> rcases hon with hon | hon <;> cases hon <;> rfl
    · rintro ⟨s, hs, rfl⟩
      have hmem : (⟨s.struck, .noteOn channel s.key⟩ : TimedEvent) ∈
          onChannel channel (schedule timing voices) := by
        rw [hchannel]
        exact List.mem_flatMap.mpr ⟨s, hs, List.mem_cons_self⟩
      exact ⟨_, (List.mem_filter.mp hmem).1, .inl rfl⟩
  rw [hstrokes]
  constructor
  · rintro ⟨s, hs, hkey⟩
    obtain ⟨before, note, later, hnotes, hs⟩ := mem_flatten_strokeGroups_iff.mp hs
    obtain ⟨p, hp, hkey⟩ := exists_key_strokesOf_iff.mp ⟨s, hs, hkey⟩
    exact ⟨p, ⟨before, note, later, hnotes, hp⟩, hkey⟩
  · rintro ⟨p, ⟨before, note, later, hnotes, hp⟩, hkey⟩
    obtain ⟨s, hs, hkey⟩ := exists_key_strokesOf_iff.mpr ⟨p, hp, hkey⟩
    exact ⟨s, mem_flatten_strokeGroups_iff.mpr ⟨before, note, later, hnotes, hs⟩, hkey⟩

/-! ### Exporting -/

/-- A key event has a flaw in its channel or else in its key. -/
lemma Event.IsOn.flaw?_eq {event : Event} {channel : Nat} {key : Int}
    (h : event.IsOn channel key) :
    event.flaw? = if 15 < channel then some (.channelOutOfRange channel)
      else if key < 0 ∨ 127 < key then some (.keyOutOfRange key) else none := by
  rcases h with rfl | rfl <;> rfl

/-- The events of a tune strike keys and let them go. -/
lemma exists_isOn_of_mem_events {rate : Binary64} {voices : List (List Note)} {t : TimedEvent}
    (h : t ∈ events rate voices) : ∃ channel key, t.event.IsOn channel key :=
  (wellOrdered_schedule (.ofRate rate) voices).keys t h

/-- A file fails if a channel or a key of an event does not fit. -/
lemma exists_fileBytes_eq_error_iff {rate : Binary64} {voices : List (List Note)} :
    (∃ e, fileBytes rate voices = .error e) ↔
      ∃ t ∈ events rate voices, ∃ channel key,
        t.event.IsOn channel key ∧ (15 < channel ∨ key < 0 ∨ 127 < key) := by
  constructor
  · rintro ⟨e, he⟩
    obtain ⟨t, ht, hflaw⟩ := List.exists_of_findSome?_eq_some (fileBytes_eq_error_iff.mp he)
    obtain ⟨channel, key, hon⟩ := exists_isOn_of_mem_events ht
    refine ⟨t, ht, channel, key, hon, ?_⟩
    rw [hon.flaw?_eq] at hflaw
    split_ifs at hflaw with hchannel hkey
    · exact .inl hchannel
    · exact .inr hkey
  · rintro ⟨t, ht, channel, key, hon, hflaw⟩
    have hsome : t.event.flaw? ≠ none := by
      rw [hon.flaw?_eq]
      split_ifs
      · exact Option.some_ne_none _
      · exact Option.some_ne_none _
      · exact absurd hflaw (by omega)
    have hfirst : (events rate voices).findSome? (fun t => t.event.flaw?) ≠ none :=
      fun hnone => hsome (List.findSome?_eq_none_iff.mp hnone t ht)
    obtain ⟨e, he⟩ := Option.ne_none_iff_exists'.mp hfirst
    exact ⟨e, fileBytes_eq_error_iff.mpr he⟩

/-- Four voices have sixteen channels. -/
lemma channel_le_of_survivesOn {timing : Timing} {voices : List (List Note)} {channel : Nat}
    {p : Segment} (hvoices : voices.length ≤ 4) (h : SurvivesOn timing voices channel p) :
    channel ≤ 15 := by
  obtain ⟨before, note, later, hnotes, -⟩ := h
  by_contra hchannel
  have hnone : voices[channel / 4]? = none := List.getElem?_eq_none (by omega)
  have hempty : notesOn channel voices = [] := by
    rw [notesOn, List.getD_eq_getElem?_getD, hnone]
    rfl
  rw [hempty] at hnotes
  exact absurd hnotes.symm (by simp)

/-- **What can be exported.**  For the notes of some voices at a frame rate:

* there is no file exactly if an event of the tune has a channel above 15 or a key outside 0 to 127,
  and the error is that of the first such event in the order of the schedule, where the channel is
  looked at before the key;
* the keys of the events on a channel are the keys of the points that survive there, so that a bend
  which is dropped or replaced has no part in it: there is a file exactly if the points that survive
  have channels and keys that fit;
* with at most four voices every channel fits, and the preamble can always be written. -/
theorem fileBytes_export_law (rate : Binary64) (voices : List (List Note)) :
    (∀ e, fileBytes rate voices = .error e ↔
      ∃ before t after, events rate voices = before ++ t :: after ∧ t.event.flaw? = some e ∧
        ∀ b ∈ before, b.event.flaw? = none) ∧
    ((∃ e, fileBytes rate voices = .error e) ↔
      ∃ t ∈ events rate voices, ∃ channel key,
        t.event.IsOn channel key ∧ (15 < channel ∨ key < 0 ∨ 127 < key)) ∧
    (∀ channel key, (∃ t ∈ events rate voices, t.event.IsOn channel key) ↔
      ∃ p, SurvivesOn (.ofRate rate) voices channel p ∧ p.key = key) ∧
    ((∃ bytes, fileBytes rate voices = .ok bytes) ↔
      ∀ channel p, SurvivesOn (.ofRate rate) voices channel p →
        channel ≤ 15 ∧ 0 ≤ p.key ∧ p.key ≤ 127) ∧
    (voices.length ≤ 4 → ∀ channel, fileBytes rate voices ≠ .error (.channelOutOfRange channel)) ∧
    ∃ opening, eventBytes 0 (preamble.map fun event => ⟨0, event⟩) = .ok opening := by
  have hkeys (channel : Nat) (key : Int) :
      (∃ t ∈ events rate voices, t.event.IsOn channel key) ↔
        ∃ p, SurvivesOn (.ofRate rate) voices channel p ∧ p.key = key :=
    exists_event_schedule_iff
  refine ⟨fun e => fileBytes_eq_error_iff.trans List.findSome?_eq_some_iff,
    exists_fileBytes_eq_error_iff, hkeys, ⟨?_, ?_⟩, ?_, exists_eventBytes_preamble⟩
  · rintro ⟨bytes, hbytes⟩ channel p hp
    by_contra hflaw
    obtain ⟨t, ht, hon⟩ := (hkeys channel p.key).mpr ⟨p, hp, rfl⟩
    obtain ⟨e, he⟩ := exists_fileBytes_eq_error_iff.mpr ⟨t, ht, channel, p.key, hon, by omega⟩
    rw [hbytes] at he
    cases he
  · intro hfits
    cases hbytes : fileBytes rate voices with
    | ok bytes => exact ⟨bytes, rfl⟩
    | error e =>
      obtain ⟨t, ht, channel, key, hon, hflaw⟩ := exists_fileBytes_eq_error_iff.mp ⟨e, hbytes⟩
      obtain ⟨p, hp, rfl⟩ := (hkeys channel key).mp ⟨t, ht, hon⟩
      have hfit := hfits channel p hp
      omega
  · intro hvoices channel herror
    obtain ⟨t, ht, hflaw⟩ := List.exists_of_findSome?_eq_some (fileBytes_eq_error_iff.mp herror)
    obtain ⟨other, key, hon⟩ := exists_isOn_of_mem_events ht
    obtain ⟨p, hp, -⟩ := (hkeys other key).mp ⟨t, ht, hon⟩
    have hfits := channel_le_of_survivesOn hvoices hp
    rw [hon.flaw?_eq, if_neg (Nat.not_lt.mpr hfits)] at hflaw
    split_ifs at hflaw
    cases hflaw

/-- A note whose only bend that sounds has a key too high, among bends that are dropped. -/
def overbentNote : Note :=
  { bentNote with bends := #[⟨200, -5⟩, ⟨210, 128⟩, ⟨215, 300⟩] }

/-- The error is the key that sounds, not those of the bends at the start and at the end. -/
theorem fileBytes_export_law_overbentNote :
    fileBytes (.ofNat 50) [[overbentNote]] = .error (.keyOutOfRange 128) := by
  have hunordered : unorderedEvents (.ofRate (.ofNat 50)) [[overbentNote]] =
      [⟨200, .noteOn 2 69⟩, ⟨210, .noteOff 2 69⟩, ⟨210, .noteOn 2 128⟩, ⟨215, .noteOff 2 128⟩] := by
    decide +kernel
  have hevents : events (.ofNat 50) [[overbentNote]] =
      [⟨200, .noteOn 2 69⟩, ⟨210, .noteOff 2 69⟩, ⟨210, .noteOn 2 128⟩, ⟨215, .noteOff 2 128⟩] := by
    rw [events, schedule, hunordered]
    exact List.mergeSort_of_pairwise (by decide)
  refine ((fileBytes_export_law (.ofNat 50) [[overbentNote]]).1 _).mpr
    ⟨[⟨200, .noteOn 2 69⟩, ⟨210, .noteOff 2 69⟩], ⟨210, .noteOn 2 128⟩, [⟨215, .noteOff 2 128⟩],
      hevents, by decide, by decide⟩

end ChipScore.Midi
