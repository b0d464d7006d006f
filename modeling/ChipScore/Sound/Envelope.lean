import ChipScore.Binary64

/-!
# Envelopes

The rates of a voice's envelope are four-bit numbers that stand for durations.  A decay and a
release of one rate last equally long, about three times as long as an attack of that rate.
-/

namespace ChipScore

/-- A rate that does not fit four bits. -/
inductive RateError
  /-- The rate of an attack. -/
  | attack (rate : Nat)
  /-- The rate of a decay or a release. -/
  | decayRelease (rate : Nat)
  deriving DecidableEq

/-- The text of an error. -/
def RateError.message : RateError → String
  | .attack rate => "attack rate " ++ toString rate ++ " is not a 4-bit value"
  | .decayRelease rate => "decay/release rate " ++ toString rate ++ " is not a 4-bit value"

/-- The nominal durations of a note, in seconds. -/
structure Envelope where
  /-- From silence to full volume. -/
  attack : Binary64
  /-- From full volume to the sustained one. -/
  decay : Binary64
  /-- From the sustained volume to silence. -/
  release : Binary64
  deriving DecidableEq, Inhabited

namespace Envelope

/-- The milliseconds of an attack, by rate. -/
def attackMillis : Vector Nat 16 :=
  #v[2, 8, 16, 24, 38, 56, 68, 80, 100, 250, 500, 800, 1000, 3000, 5000, 8000]

/-- The milliseconds of a decay or a release, by rate. -/
def decayReleaseMillis : Vector Nat 16 :=
  #v[6, 24, 48, 72, 114, 168, 204, 240, 300, 750, 1500, 2400, 3000, 9000, 15000, 24000]

/-- A number of milliseconds in seconds. -/
def seconds (millis : Nat) : Binary64 :=
  Binary64.ofRatio millis 1000

/-- The seconds of an attack. -/
def attackSeconds (rate : Fin 16) : Binary64 :=
  seconds (attackMillis.get rate)

/-- The seconds of a decay or a release. -/
def decayReleaseSeconds (rate : Fin 16) : Binary64 :=
  seconds (decayReleaseMillis.get rate)

/-- The seconds of an attack, if the rate has four bits. -/
def attackSeconds? (rate : Nat) : Except RateError Binary64 :=
  if h : rate < 16 then .ok (attackSeconds ⟨rate, h⟩) else .error (.attack rate)

/-- The seconds of a decay or a release, if the rate has four bits. -/
def decayReleaseSeconds? (rate : Nat) : Except RateError Binary64 :=
  if h : rate < 16 then .ok (decayReleaseSeconds ⟨rate, h⟩) else .error (.decayRelease rate)

/-- The lowest four bits of a number as a rate. -/
def rate (n : Nat) : Fin 16 :=
  ⟨n % 16, Nat.mod_lt n (by decide)⟩

/-- The envelope of the two envelope registers of a voice.  The upper half of the second register
is a volume and does not matter here. -/
def ofRegisters (attackDecay sustainRelease : UInt8) : Envelope where
  attack := attackSeconds (rate (attackDecay.toNat / 16))
  decay := decayReleaseSeconds (rate attackDecay.toNat)
  release := decayReleaseSeconds (rate sustainRelease.toNat)

end Envelope

end ChipScore
