import Mathlib.Tactic
import ChipScore.Player
import ChipScore.Proofs.Cpu.Halting

/-!
# Starting a tune

A tune is looked at before anything runs: it needs a play routine, the song, and an image that fits
(`Player.Playable`).  Then its init routine runs to the halt, within a budget of cycles.  The routine
has returned when the processor is halted for the first time, and it may use its budget to the last
cycle.  `Player.start_cases` turns each way in which such a run ends into what starting comes to, and
`Player.start_law` lists all of them.
-/

namespace ChipScore.Player

variable {tune : Tune} {config : Config}

/-- What a tune and its settings must be like for anything to run.  The song is that of the settings,
or else the first one of the tune; a tune has at least one song. -/
structure Playable (tune : Tune) (config : Config) : Prop where
  /-- There is a play routine. -/
  playAddress : tune.playAddress ≠ 0
  /-- Songs are counted from one. -/
  song_ne_zero : config.song.getD (max tune.startSong 1) ≠ 0
  /-- The tune has the song. -/
  song_le : config.song.getD (max tune.startSong 1) ≤ max tune.songs 1
  /-- The image ends at the last address at the latest. -/
  image : tune.loadAddress.toNat + tune.image.length ≤ 65536

/-- A player at frame zero. -/
def atFrameZero (tune : Tune) (config : Config) (cpu : Cpu Board) : Player where
  cpu := cpu
  clock := config.region.frameClock
  config := config
  playAddress := tune.playAddress
  song := config.song.getD (max tune.startSong 1)
  overruns := 0

/-- Nothing is wrong with what is playable. -/
lemma Playable.refusal? (h : Playable tune config) : refusal? tune config = none := by
  have hsong : ¬(chosenSong tune config = 0 ∨ songCount tune < chosenSong tune config) := by
    rintro (hzero | hlt)
    · exact h.song_ne_zero hzero
    · exact absurd h.song_le (UInt16.not_le.mpr hlt)
  unfold Player.refusal?
  rw [if_neg h.playAddress, if_neg hsong, if_neg (Nat.not_lt.mpr h.image)]

/-- What is wrong is reported, and nothing runs. -/
lemma start_of_refusal {e : Error} (h : refusal? tune config = some e) :
    start tune config = .error e := by
  unfold start
  rw [h]

/-! ### The init routine of a playable tune -/

section Outcomes

variable {t : Cpu Board} {f : IllegalOpcode} {n : Nat}

/-- Starting a playable tune is up to its init routine. -/
lemma start_of_playable (h : Playable tune config) :
    start tune config =
      match (initCall tune config).runToHalt config.initCycleLimit with
      | (_, some f) => .error (.execution 0 f)
      | (cpu, none) =>
        if cpu.halted then .ok (atFrameZero tune config cpu)
        else .error (.initTimeout config.initCycleLimit cpu.pc) := by
  unfold start
  rw [h.refusal?]
  rfl

/-- The tune starts if its init routine halts in time. -/
lemma start_of_halted (h : Playable tune config) (hle : n ≤ config.initCycleLimit)
    (hleast : IsLeast {n | (initCall tune config).HaltedAfter n} n)
    (hsteps : (initCall tune config).steps n = .ok t) :
    start tune config = .ok (atFrameZero tune config t) := by
  have hhalted : t.halted = true := (Cpu.haltedAfter_iff_of_steps hsteps).mp hleast.1
  rw [start_of_playable h, Cpu.runToHalt_eq_iff.mpr (.halted hle hleast hsteps)]
  exact if_pos hhalted

/-- The tune is refused if its init routine meets a fault before it halts. -/
lemma start_of_fault (h : Playable tune config) (hlt : n < config.initCycleLimit)
    (hfault : (initCall tune config).FaultsAfter n f)
    (hnever : ∀ i ≤ n, ¬(initCall tune config).HaltedAfter i) :
    start tune config = .error (.execution 0 f) := by
  obtain ⟨t, hsteps, hstep⟩ := hfault
  rw [start_of_playable h, Cpu.runToHalt_eq_iff.mpr (.fault hlt hsteps hstep hnever)]

/-- The tune is refused if the cycles for its init routine are spent before it halts. -/
lemma start_of_spent (h : Playable tune config)
    (hsteps : (initCall tune config).steps config.initCycleLimit = .ok t)
    (hnever : ∀ i ≤ config.initCycleLimit, ¬(initCall tune config).HaltedAfter i) :
    start tune config = .error (.initTimeout config.initCycleLimit t.pc) := by
  have hhalted : ¬t.halted = true := by
    rw [← Cpu.haltedAfter_iff_of_steps hsteps]
    exact hnever config.initCycleLimit le_rfl
  rw [start_of_playable h, Cpu.runToHalt_eq_iff.mpr (.spent hsteps hnever)]
  exact if_neg hhalted

/-- One of the three is always the case. -/
lemma start_cases (h : Playable tune config) :
    (∃ n ≤ config.initCycleLimit, IsLeast {n | (initCall tune config).HaltedAfter n} n ∧
      ∃ cpu, (initCall tune config).steps n = .ok cpu ∧
        start tune config = .ok (atFrameZero tune config cpu)) ∨
    (∃ n < config.initCycleLimit, ∃ f, (initCall tune config).FaultsAfter n f ∧
      (∀ i ≤ n, ¬(initCall tune config).HaltedAfter i) ∧
        start tune config = .error (.execution 0 f)) ∨
    ((∀ i ≤ config.initCycleLimit, ¬(initCall tune config).HaltedAfter i) ∧
      ∃ cpu, (initCall tune config).steps config.initCycleLimit = .ok cpu ∧
        start tune config = .error (.initTimeout config.initCycleLimit cpu.pc)) := by
  have hends := (initCall tune config).endsWithin_runToHalt config.initCycleLimit
  generalize (initCall tune config).runToHalt config.initCycleLimit = r at hends
  cases hends with
  | @halted n cpu hle hleast hsteps =>
    exact .inl ⟨n, hle, hleast, cpu, hsteps, start_of_halted h hle hleast hsteps⟩
  | @fault n cpu f hlt hsteps hstep hnever =>
    exact .inr (.inl ⟨n, hlt, f, ⟨cpu, hsteps, hstep⟩, hnever,
      start_of_fault h hlt ⟨cpu, hsteps, hstep⟩ hnever⟩)
  | @spent cpu hsteps hnever =>
    exact .inr (.inr ⟨hnever, cpu, hsteps, start_of_spent h hsteps hnever⟩)

end Outcomes

/-- **The init routine runs to its first halt within its budget.**  A tune without a play routine is
refused first, then one without the song that is asked for, then one whose image does not fit.  Of
any other tune let `s` be the processor about to run the init routine, with the song in the
accumulator:

* the tune starts exactly if some number of good steps, no more than the budget, leave the processor
  halted, and then it starts with the processor as the least such number of steps leaves it;
* a fault is reported exactly if one of the steps within the budget is a fault before which the
  processor has not been halted, and it is reported for frame zero;
* otherwise all steps of the budget are good, and the time is up where they have led. -/
theorem start_law (tune : Tune) (config : Config) :
    let song := config.song.getD (max tune.startSong 1)
    let songs := max tune.songs 1
    let s := initCall tune config
    let limit := config.initCycleLimit
    (tune.playAddress = 0 → start tune config = .error .unsupportedPlayAddress) ∧
    (tune.playAddress ≠ 0 → song = 0 ∨ songs < song →
      start tune config = .error (.invalidSong song songs)) ∧
    (tune.playAddress ≠ 0 → ¬(song = 0 ∨ songs < song) →
      65536 < tune.loadAddress.toNat + tune.image.length →
      start tune config = .error (.load ⟨tune.image.length, tune.loadAddress⟩)) ∧
    (Playable tune config →
      ((∃ p, start tune config = .ok p) ↔ ∃ n ≤ limit, s.HaltedAfter n) ∧
      (∀ p, start tune config = .ok p ↔ ∃ n ≤ limit, IsLeast {n | s.HaltedAfter n} n ∧
        ∃ cpu, s.steps n = .ok cpu ∧ p = atFrameZero tune config cpu) ∧
      (∀ frame f, start tune config = .error (.execution frame f) ↔
        frame = 0 ∧ ∃ n < limit, s.FaultsAfter n f ∧ ∀ i ≤ n, ¬s.HaltedAfter i) ∧
      ((¬∃ n ≤ limit, s.HaltedAfter n) →
        (¬∃ n < limit, ∃ f, s.FaultsAfter n f ∧ ∀ i ≤ n, ¬s.HaltedAfter i) →
        ∃ cpu, s.steps limit = .ok cpu ∧
          start tune config = .error (.initTimeout limit cpu.pc))) := by
  intro song songs s limit
  refine ⟨fun hplay => start_of_refusal ?_, fun hplay hsong => start_of_refusal ?_,
    fun hplay hsong himage => start_of_refusal ?_, fun h => ?_⟩
  · exact if_pos hplay
  · unfold refusal?
    rw [if_neg hplay]
    exact if_pos hsong
  · unfold refusal?
    rw [if_neg hplay]
    exact (if_neg hsong).trans (if_pos himage)
  have hok (p : Player) : start tune config = .ok p ↔ ∃ n ≤ limit,
      IsLeast {n | s.HaltedAfter n} n ∧
        ∃ cpu, s.steps n = .ok cpu ∧ p = atFrameZero tune config cpu := by
    constructor
    · intro hstart
      rcases start_cases h with ⟨n, hle, hleast, cpu, hsteps, hhalted⟩ |
        ⟨n, hlt, f, -, -, hfault⟩ | ⟨-, cpu, -, hspent⟩
      · exact ⟨n, hle, hleast, cpu, hsteps, Except.ok.inj (hstart.symm.trans hhalted)⟩
      · cases hstart.symm.trans hfault
      · cases hstart.symm.trans hspent
    · rintro ⟨n, hle, hleast, cpu, hsteps, rfl⟩
      exact start_of_halted h hle hleast hsteps
  refine ⟨⟨?_, ?_⟩, hok, fun frame f => ⟨fun hstart => ?_, ?_⟩, fun hreturns hfaults => ?_⟩
  · rintro ⟨p, hstart⟩
    obtain ⟨n, hle, hleast, -⟩ := (hok p).mp hstart
    exact ⟨n, hle, hleast.1⟩
  · rintro ⟨n, hle, hhalted⟩
    obtain ⟨m, hm, hleast⟩ := Cpu.exists_isLeast_haltedAfter hhalted
    obtain ⟨cpu, hsteps, -⟩ := hleast.1
    exact ⟨_, start_of_halted h (hm.trans hle) hleast hsteps⟩
  · rcases start_cases h with ⟨n, -, -, cpu, -, hhalted⟩ |
      ⟨n, hlt, g, hfault, hnever, hfaulted⟩ | ⟨-, cpu, -, hspent⟩
    · cases hstart.symm.trans hhalted
    · cases hstart.symm.trans hfaulted
      exact ⟨rfl, n, hlt, hfault, hnever⟩
    · cases hstart.symm.trans hspent
  · rintro ⟨rfl, n, hlt, hfault, hnever⟩
    exact start_of_fault h hlt hfault hnever
  · rcases start_cases h with ⟨n, hle, hleast, -⟩ | ⟨n, hlt, f, hfault, hnever, -⟩ |
      ⟨-, cpu, hsteps, hspent⟩
    · exact absurd ⟨n, hle, hleast.1⟩ hreturns
    · exact absurd ⟨n, hlt, f, hfault, hnever⟩ hfaults
    · exact ⟨cpu, hsteps, hspent⟩

/-- A tune whose init routine returns at once. -/
def briefTune : Tune where
  version := 2
  loadAddress := 0x1000
  initAddress := 0x1000
  playAddress := 0x1000
  songs := 1
  startSong := 1
  name := ""
  author := ""
  released := ""
  image := [0x60]

/-- The return takes six cycles and the break behind it halts on its first: seven cycles will do and
six will not. -/
theorem start_law_briefTune :
    (∃ p, start briefTune { initCycles := some 7 } = .ok p) ∧
      ¬∃ p, start briefTune { initCycles := some 6 } = .ok p := by
  have hseven : Playable briefTune { initCycles := some 7 } :=
    ⟨by decide, by decide, by decide, by decide⟩
  have hsix : Playable briefTune { initCycles := some 6 } :=
    ⟨by decide, by decide, by decide, by decide⟩
  constructor
  · rw [((start_law briefTune { initCycles := some 7 }).2.2.2 hseven).1]
    exact ⟨7, le_rfl, by decide +kernel⟩
  · rw [((start_law briefTune { initCycles := some 6 }).2.2.2 hsix).1]
    have hearly : ∀ n ≤ 6, ¬(initCall briefTune {}).HaltedAfter n := by decide +kernel
    rintro ⟨n, hle, hhalted⟩
    exact hearly n hle hhalted

end ChipScore.Player
