import Mathlib.Tactic
import ChipScore.Proofs.Word
import ChipScore.Tune

/-!
# Which files are tunes

`Tune.parse` reads bytes that are not there as zeros and parts that are not there as empty.  A reader
that has no answer in these cases, `Tune.guardedParse`, gives the same answer for every file
(`guardedParse_eq`), so no file makes the parser look beyond its end.

The tests of a file stand in a list, each with its error, in the order in which they are made
(`Tune.tests`).  The first of them that fails decides; where none does, the file is `Acceptable` and
the answer is its `Tune.content` (`parse_eq`).
-/

namespace ChipScore.Tune

/-! ### A reader that stays within the file -/

/-- The part of some bytes from one offset to another, if they have it. -/
def slice? (bytes : List UInt8) (first last : Nat) : Option (List UInt8) :=
  if first ≤ last ∧ last ≤ bytes.length then some ((bytes.drop first).take (last - first)) else none

/-- The word at an offset, high byte first, if both its bytes are there. -/
def guardedWord (bytes : List UInt8) (offset : Nat) : Option UInt16 := do
  let high ← bytes[offset]?
  let low ← bytes[offset + 1]?
  return Word.ofBytes low high

/-- The text of the field at an offset, if the whole field is there. -/
def guardedText (bytes : List UInt8) (offset : Nat) : Option String := do
  let field ← slice? bytes offset (offset + textLength)
  let last := (field.findIdx? (· == 0)).getD textLength
  let text ← slice? field 0 last
  return String.ofList (latin1 text)

/-- The first four bytes of a file. -/
def magicBytes : List UInt8 :=
  [0x50, 0x53, 0x49, 0x44]

/-- The tune in a file, as found by a reader that asks for one byte or one part after the other.  It
has no answer if it asks for one that lies beyond the end. -/
def guardedParse (bytes : List UInt8) : Option (Except TuneError Tune) := do
  if bytes.length < headerLength then
    return .error (.tooSmall bytes.length)
  let start ← slice? bytes 0 4
  if start ≠ magicBytes then
    return .error (.unknownFormat (latin1 start))
  let version ← guardedWord bytes 0x04
  if version < 2 ∨ 4 < version then
    return .error (.unsupportedVersion version)
  let dataOffset ← guardedWord bytes 0x06
  if dataOffset.toNat ≠ headerLength then
    return .error (.invalidDataOffset dataOffset)
  let headerAddress ← guardedWord bytes 0x08
  if headerAddress ≠ 0 then
    return .error (.unsupportedLoadAddress headerAddress)
  let rest ← slice? bytes headerLength bytes.length
  if rest.length < 2 then
    return .error .missingLoadAddress
  let low ← rest[0]?
  let high ← rest[1]?
  let initAddress ← guardedWord bytes 0x0A
  let playAddress ← guardedWord bytes 0x0C
  let songs ← guardedWord bytes 0x0E
  let startSong ← guardedWord bytes 0x10
  let name ← guardedText bytes 0x16
  let author ← guardedText bytes 0x36
  let released ← guardedText bytes 0x56
  let image ← slice? rest 2 rest.length
  return .ok {
    version := version
    loadAddress := Word.ofBytes low high
    initAddress := initAddress
    playAddress := playAddress
    songs := songs
    startSong := startSong
    name := name
    author := author
    released := released
    image := image }

/-! ### Tests and content -/

/-- The number in two bytes of a file, high byte first. -/
def numberAt (bytes : List UInt8) (offset : Nat) : Nat :=
  256 * (bytes.getD offset 0).toNat + (bytes.getD (offset + 1) 0).toNat

/-- The tests that a file has to pass, in the order in which they are made, each with the error of
failing it. -/
def tests (bytes : List UInt8) : List (Bool × TuneError) :=
  [(124 ≤ bytes.length, .tooSmall bytes.length),
    (bytes.take 4 = magicBytes, .unknownFormat (latin1 (bytes.take 4))),
    (2 ≤ numberAt bytes 4 ∧ numberAt bytes 4 ≤ 4,
      .unsupportedVersion (UInt16.ofNat (numberAt bytes 4))),
    (numberAt bytes 6 = 0x7C, .invalidDataOffset (UInt16.ofNat (numberAt bytes 6))),
    (numberAt bytes 8 = 0, .unsupportedLoadAddress (UInt16.ofNat (numberAt bytes 8))),
    (126 ≤ bytes.length, .missingLoadAddress)]

/-- The error of the first test that fails. -/
def firstFailing (tests : List (Bool × TuneError)) : Option TuneError :=
  (tests.find? fun test => !test.1).map Prod.snd

/-- A file in which there is a tune. -/
structure Acceptable (bytes : List UInt8) : Prop where
  /-- There are a header and a load address. -/
  length : 126 ≤ bytes.length
  /-- The file begins with the name of the format. -/
  magic : bytes.take 4 = magicBytes
  /-- The version of the format is known. -/
  version : 2 ≤ numberAt bytes 4 ∧ numberAt bytes 4 ≤ 4
  /-- The image follows the header. -/
  dataOffset : numberAt bytes 6 = 0x7C
  /-- The header has no load address. -/
  loadAddress : numberAt bytes 8 = 0

/-- What a file says about its tune. -/
def content (bytes : List UInt8) : Tune where
  version := wordAt bytes 0x04
  loadAddress := Word.ofBytes (bytes.getD 0x7C 0) (bytes.getD 0x7D 0)
  initAddress := wordAt bytes 0x0A
  playAddress := wordAt bytes 0x0C
  songs := wordAt bytes 0x0E
  startSong := wordAt bytes 0x10
  name := textAt bytes 0x16
  author := textAt bytes 0x36
  released := textAt bytes 0x56
  image := bytes.drop 0x7E

/-- The number of a word is that in its two bytes. -/
lemma toNat_wordAt (bytes : List UInt8) (offset : Nat) :
    (wordAt bytes offset).toNat = numberAt bytes offset :=
  Word.toNat_ofBytes _ _

/-- A word of a file is made of the number in its two bytes. -/
lemma wordAt_eq (bytes : List UInt8) (offset : Nat) :
    wordAt bytes offset = UInt16.ofNat (numberAt bytes offset) := by
  rw [← toNat_wordAt, UInt16.ofNat_toNat]

/-- An unknown version is one that is not between two and four. -/
lemma unknown_version_iff (bytes : List UInt8) :
    (wordAt bytes 4 < 2 ∨ 4 < wordAt bytes 4) ↔
      ¬(2 ≤ numberAt bytes 4 ∧ numberAt bytes 4 ≤ 4) := by
  rw [UInt16.lt_iff_toNat_lt, UInt16.lt_iff_toNat_lt, toNat_wordAt]
  change (_ < 2 ∨ 4 < _) ↔ _
  omega

/-- A word is zero just if its number is. -/
lemma wordAt_eq_zero_iff (bytes : List UInt8) (offset : Nat) :
    wordAt bytes offset = 0 ↔ numberAt bytes offset = 0 := by
  rw [← UInt16.toNat_inj, toNat_wordAt]
  rfl

/-- A byte is determined by its character. -/
lemma toNat_ofNat_byte (byte : UInt8) : (Char.ofNat byte.toNat).toNat = byte.toNat := by
  revert byte
  exact forall_byte_of_forall_lt (by decide +kernel)

/-- Each byte has a character of its own. -/
lemma latin1_injective : Function.Injective latin1 := by
  refine List.map_injective_iff.mpr ?_
  intro a b hab
  have hnumbers := congrArg Char.toNat hab
  rw [toNat_ofNat_byte, toNat_ofNat_byte] at hnumbers
  exact UInt8.toNat_inj.mp hnumbers

/-- The first four characters spell the name of the format just if the first four bytes do. -/
lemma latin1_eq_magic_iff {bytes : List UInt8} : latin1 bytes = magic ↔ bytes = magicBytes :=
  latin1_injective.eq_iff' (by decide)

lemma getElem_eq_getD {bytes : List UInt8} {i : Nat} (h : i < bytes.length) :
    bytes[i] = bytes.getD i 0 := by
  rw [List.getD_eq_getElem?_getD, List.getElem?_eq_getElem h, Option.getD_some]

/-- Behind the header there are the two bytes of the load address and the image. -/
lemma drop_headerLength {bytes : List UInt8} (h : 126 ≤ bytes.length) :
    bytes.drop headerLength =
      bytes.getD 0x7C 0 :: bytes.getD 0x7D 0 :: bytes.drop 0x7E := by
  rw [headerLength, List.drop_eq_getElem_cons (by omega), List.drop_eq_getElem_cons (by omega),
    getElem_eq_getD, getElem_eq_getD]

/-- The error of the first test that fails, or else a tune. -/
def verdict (tests : List (Bool × TuneError)) (tune : Tune) : Except TuneError Tune :=
  match firstFailing tests with
  | some e => .error e
  | none => .ok tune

/-- A test in front of others decides the verdict if it fails, and leaves it to them if not. -/
lemma verdict_cons {p q : Prop} [Decidable p] [Decidable q] (h : q ↔ ¬p) (e : TuneError)
    (rest : List (Bool × TuneError)) (tune : Tune) :
    verdict ((decide p, e) :: rest) tune = if q then .error e else verdict rest tune := by
  by_cases hp : p
  · rw [if_neg (h.not.mpr (not_not_intro hp)), decide_eq_true hp]
    rfl
  · rw [if_pos (h.mpr hp), decide_eq_false hp]
    rfl

/-- The last test is made by looking for the two bytes of the load address. -/
lemma verdict_loadAddress (bytes : List UInt8) (version init play songs start : UInt16)
    (name author released : String) :
    (match bytes.drop headerLength with
      | low :: high :: image =>
        .ok ⟨version, Word.ofBytes low high, init, play, songs, start, name, author, released, image⟩
      | _ => .error .missingLoadAddress) =
      verdict [(126 ≤ bytes.length, .missingLoadAddress)]
        ⟨version, Word.ofBytes (bytes.getD 0x7C 0) (bytes.getD 0x7D 0), init, play, songs, start,
          name, author, released, bytes.drop 0x7E⟩ := by
  rw [verdict_cons (q := bytes.length < 126) (by omega)]
  by_cases hlong : bytes.length < 126
  · rw [if_pos hlong]
    split
    case h_1 low high image himage =>
      have hrest := congrArg List.length himage
      rw [List.length_drop, List.length_cons, List.length_cons, headerLength] at hrest
      omega
    case h_2 => rfl
  · rw [if_neg hlong, drop_headerLength (by omega)]
    rfl

/-- **A file is rejected by the first test that it fails.**  If it fails none, its content is
accepted. -/
lemma parse_eq (bytes : List UInt8) : parse bytes = verdict (tests bytes) (content bytes) := by
  have hlength : bytes.length < headerLength ↔ ¬124 ≤ bytes.length := Nat.not_le.symm
  have hmagic : latin1 (bytes.take 4) ≠ magic ↔ ¬bytes.take 4 = magicBytes :=
    latin1_eq_magic_iff.not
  have hoffset : (wordAt bytes 6).toNat ≠ headerLength ↔ ¬numberAt bytes 6 = 0x7C := by
    rw [toNat_wordAt]
    rfl
  have haddress : wordAt bytes 8 ≠ 0 ↔ ¬numberAt bytes 8 = 0 := (wordAt_eq_zero_iff bytes 8).not
  rw [tests, verdict_cons hlength, verdict_cons hmagic, verdict_cons (unknown_version_iff bytes),
    verdict_cons hoffset, verdict_cons haddress, content, ← verdict_loadAddress, ← wordAt_eq,
    ← wordAt_eq, ← wordAt_eq]
  rfl

/-- No test fails exactly if the file is acceptable. -/
lemma firstFailing_eq_none_iff {bytes : List UInt8} :
    firstFailing (tests bytes) = none ↔ Acceptable bytes := by
  simp only [firstFailing, tests, Option.map_eq_none_iff, List.find?_eq_none, List.forall_mem_cons,
    Bool.not_eq_true', Bool.not_eq_false, decide_eq_true_eq]
  constructor
  · rintro ⟨-, hmagic, hversion, hoffset, haddress, hlength, -⟩
    exact ⟨hlength, hmagic, hversion, hoffset, haddress⟩
  · rintro ⟨hlength, hmagic, hversion, hoffset, haddress⟩
    exact ⟨by omega, hmagic, hversion, hoffset, haddress, hlength, by simp⟩

/-- A file is refused with the error of the first test that it fails. -/
lemma parse_eq_error_iff {bytes : List UInt8} {e : TuneError} :
    parse bytes = .error e ↔ firstFailing (tests bytes) = some e := by
  rw [parse_eq, verdict]
  cases firstFailing (tests bytes) with
  | none => simp
  | some first => simp

/-- An acceptable file is read as its content, and no other file is read as a tune. -/
lemma parse_eq_ok_iff_content {bytes : List UInt8} {tune : Tune} :
    parse bytes = .ok tune ↔ Acceptable bytes ∧ content bytes = tune := by
  rw [parse_eq, verdict, ← firstFailing_eq_none_iff]
  cases firstFailing (tests bytes) with
  | none => simp
  | some first => simp

/-! ### No byte beyond the end -/

variable {bytes : List UInt8}

lemma slice?_of_le {first last : Nat} (h : first ≤ last) (hlast : last ≤ bytes.length) :
    slice? bytes first last = some ((bytes.drop first).take (last - first)) :=
  if_pos ⟨h, hlast⟩

lemma guardedWord_eq {offset : Nat} (h : offset + 1 < bytes.length) :
    guardedWord bytes offset = some (wordAt bytes offset) := by
  rw [guardedWord, List.getElem?_eq_getElem h, List.getElem?_eq_getElem (by omega),
    getElem_eq_getD, getElem_eq_getD]
  rfl

/-- The text up to the first zero byte lies within its field. -/
lemma guardedText_eq {offset : Nat} (h : offset + textLength ≤ bytes.length) :
    guardedText bytes offset = some (textAt bytes offset) := by
  have hfield : slice? bytes offset (offset + textLength) =
      some ((bytes.drop offset).take textLength) := by
    rw [slice?_of_le (Nat.le_add_right _ _) h, Nat.add_sub_cancel_left]
  rw [guardedText, hfield, textAt]
  set field := (bytes.drop offset).take textLength
  have hlength : field.length = textLength := by
    rw [List.length_take, List.length_drop]
    omega
  have hlast : (field.findIdx? (· == 0)).getD textLength = field.findIdx (· == 0) := by
    rw [List.findIdx_eq_getD_findIdx?, hlength]
  have htext : field.takeWhile (· != 0) = field.take (field.findIdx (· == 0)) := by
    have hzero : (fun a : UInt8 => !(a != 0)) = (· == 0) :=
      funext fun a => Bool.not_not (a == 0)
    rw [List.takeWhile_eq_take_findIdx_not, hzero]
  change (slice? field 0 ((field.findIdx? (· == 0)).getD textLength)).bind _ = _
  rw [hlast, slice?_of_le (Nat.zero_le _) List.findIdx_le_length, htext]
  rfl

/-- **The parser never looks beyond the end of a file.** -/
lemma guardedParse_eq (bytes : List UInt8) : guardedParse bytes = some (parse bytes) := by
  by_cases hlength : bytes.length < headerLength
  · rw [guardedParse, if_pos hlength, parse, if_pos hlength]
    rfl
  have hlong : 124 ≤ bytes.length := Nat.not_lt.mp hlength
  have hstart : slice? bytes 0 4 = some (bytes.take 4) := slice?_of_le (Nat.zero_le 4) (by omega)
  have hrest : slice? bytes headerLength bytes.length = some (bytes.drop headerLength) := by
    rw [slice?_of_le (Nat.not_lt.mp hlength) le_rfl, List.take_of_length_le]
    rw [List.length_drop]
  have hword {offset : Nat} (h : offset ≤ 0x10) :
      guardedWord bytes offset = some (wordAt bytes offset) :=
    guardedWord_eq (by omega)
  have htext {offset : Nat} (h : offset ≤ 0x56) :
      guardedText bytes offset = some (textAt bytes offset) :=
    guardedText_eq ((Nat.add_le_add_right h textLength).trans (by rw [textLength]; omega))
  simp only [guardedParse, parse, if_neg hlength, hstart, hword, htext, hrest, Nat.reduceLeDiff,
    Option.bind_eq_bind, Option.bind_some, apply_ite some]
  refine if_congr latin1_eq_magic_iff.not.symm rfl ?_
  rcases bytes.drop headerLength with _ | ⟨low, _ | ⟨high, image⟩⟩
  · rfl
  · rfl
  · have himage : slice? (low :: high :: image) 2 (low :: high :: image).length = some image :=
      (slice?_of_le (Nat.le_add_left 2 image.length) le_rfl).trans
        (congrArg some (List.take_of_length_le le_rfl))
    rw [himage]
    rfl

end ChipScore.Tune
