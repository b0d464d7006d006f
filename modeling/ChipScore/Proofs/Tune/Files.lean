import Mathlib.Data.List.TakeWhile
import Mathlib.Tactic
import ChipScore.Proofs.Tune.Acceptance

/-!
# The file of a tune

`Tune.fileBytes` puts a file together from a tune and from bytes that no tune depends on, the
`Filler`.  Each text is written over the bytes that its field had before, so what stands behind a
text is filler as well.

What is read from such a file is its tune (`content_fileBytes`), and every acceptable file is such a
file, that of its content and of its own filler (`Acceptable.fileBytes_content`).  So parsing and
putting together undo each other (`parse_eq_ok_iff`), and `parse_law` adds what the parser does with
all other files.
-/

namespace ChipScore.Tune

/-! ### Files of a tune -/

/-- A word's two bytes, high byte first. -/
def wordBytes (w : UInt16) : List UInt8 :=
  [UInt8.ofNat (w.toNat / 256), UInt8.ofNat (w.toNat % 256)]

/-- The characters of a text as bytes. -/
def textBytes (text : String) : List UInt8 :=
  text.toList.map fun c => UInt8.ofNat c.toNat

/-- A field into which a text has been written, over the bytes that it had before.  The text has a
zero byte behind it if there is room for one. -/
def fieldBytes (text : String) (old : List UInt8) : List UInt8 :=
  (textBytes text ++ 0 :: old.drop (text.length + 1)).take 32

/-- The bytes of a file that its tune does not depend on. -/
structure Filler where
  /-- The four bytes behind the start song. -/
  speed : List UInt8
  /-- The field of the name, before the name was written into it. -/
  name : List UInt8
  /-- The field of the author, likewise. -/
  author : List UInt8
  /-- The field of the release, likewise. -/
  released : List UInt8
  /-- The six bytes behind the texts. -/
  flags : List UInt8
  /-- Every part has its length. -/
  lengths : speed.length = 4 ∧ name.length = 32 ∧ author.length = 32 ∧ released.length = 32 ∧
    flags.length = 6

/-- The parts of the header up to the start song: the name of the format and seven words. -/
def headerWords (tune : Tune) : List (List UInt8) :=
  [magicBytes, wordBytes tune.version, wordBytes 0x7C, wordBytes 0, wordBytes tune.initAddress,
    wordBytes tune.playAddress, wordBytes tune.songs, wordBytes tune.startSong]

/-- The parts of the header behind the start song. -/
def headerRest (tune : Tune) (filler : Filler) : List (List UInt8) :=
  [filler.speed, fieldBytes tune.name filler.name, fieldBytes tune.author filler.author,
    fieldBytes tune.released filler.released, filler.flags]

/-- The file of a tune: a header, the load address with its low byte first, and the image. -/
def fileBytes (tune : Tune) (filler : Filler) : List UInt8 :=
  (headerWords tune ++ headerRest tune filler).flatten ++
    ((wordBytes tune.loadAddress).reverse ++ tune.image)

/-- A text that fits into a field: at most 32 characters, all from U+0001 to U+00FF. -/
structure FitsField (text : String) : Prop where
  /-- There are few enough characters. -/
  length : text.length ≤ 32
  /-- Every character is a byte, and not the one that ends a text. -/
  chars : ∀ c ∈ text.toList, 1 ≤ c.toNat ∧ c.toNat ≤ 255

/-- Whether a text fits into its field can be computed. -/
lemma fitsField_iff {text : String} : FitsField text ↔
    text.length ≤ 32 ∧ text.toList.all (fun c => 1 ≤ c.toNat && c.toNat ≤ 255) = true := by
  simp only [List.all_eq_true, Bool.and_eq_true, decide_eq_true_eq]
  exact ⟨fun h => ⟨h.length, h.chars⟩, fun h => ⟨h.1, h.2⟩⟩

instance (text : String) : Decidable (FitsField text) :=
  decidable_of_iff' _ fitsField_iff

/-- A tune that can be stored in a file. -/
structure Storable (tune : Tune) : Prop where
  /-- The version is known. -/
  version : 2 ≤ tune.version.toNat ∧ tune.version.toNat ≤ 4
  /-- The name fits into its field. -/
  name : FitsField tune.name
  /-- The author fits into its field. -/
  author : FitsField tune.author
  /-- The release fits into its field. -/
  released : FitsField tune.released

/-- Whether a tune can be stored can be computed. -/
lemma storable_iff {tune : Tune} : Storable tune ↔
    (2 ≤ tune.version.toNat ∧ tune.version.toNat ≤ 4) ∧ FitsField tune.name ∧
      FitsField tune.author ∧ FitsField tune.released :=
  ⟨fun h => ⟨h.version, h.name, h.author, h.released⟩, fun h => ⟨h.1, h.2.1, h.2.2.1, h.2.2.2⟩⟩

instance (tune : Tune) : Decidable (Storable tune) :=
  decidable_of_iff' _ storable_iff

/-! ### Texts and their fields -/

/-- A text has a byte for each of its characters. -/
lemma length_textBytes (text : String) : (textBytes text).length = text.length := by
  rw [textBytes, List.length_map, String.length_toList]

/-- A character of a byte's range is that byte. -/
lemma toNat_ofNat_char {c : Char} (h : c.toNat ≤ 255) : (UInt8.ofNat c.toNat).toNat = c.toNat :=
  UInt8.toNat_ofNat_of_lt (Nat.lt_succ_of_le h)

/-- The bytes of a text that fits into a field are its characters. -/
lemma latin1_textBytes {text : String} (h : FitsField text) :
    latin1 (textBytes text) = text.toList := by
  rw [latin1, textBytes, List.map_map]
  refine (List.map_congr_left ?_).trans (List.map_id _)
  intro c hc
  rw [Function.comp_apply, toNat_ofNat_char (h.chars c hc).2, Char.ofNat_toNat]
  rfl

/-- The bytes of a text that was read from bytes are these. -/
lemma textBytes_ofList_latin1 (bytes : List UInt8) :
    textBytes (String.ofList (latin1 bytes)) = bytes := by
  rw [textBytes, String.toList_ofList, latin1, List.map_map]
  refine (List.map_congr_left ?_).trans (List.map_id _)
  intro b _
  rw [Function.comp_apply, toNat_ofNat_byte, UInt8.ofNat_toNat]
  rfl

/-- The text in a field ends before the first zero byte. -/
lemma takeWhile_fieldBytes {text : String} (h : FitsField text) (old : List UInt8) :
    (fieldBytes text old).takeWhile (· != 0) = textBytes text := by
  have hnonzero : ∀ b ∈ textBytes text, (b != 0) = true := by
    intro b hb
    obtain ⟨c, hc, rfl⟩ := List.mem_map.mp hb
    obtain ⟨hone, hbyte⟩ := h.chars c hc
    refine bne_iff_ne.mpr fun hzero => ?_
    have hnumber := congrArg UInt8.toNat hzero
    rw [toNat_ofNat_char hbyte] at hnumber
    exact absurd hnumber (Nat.ne_of_gt hone)
  have hlength := h.length
  rw [fieldBytes, List.take_append, List.take_of_length_le (by rwa [length_textBytes]),
    List.takeWhile_append_of_pos hnonzero]
  cases 32 - (textBytes text).length with
  | zero => exact List.append_nil _
  | succ room => exact List.append_nil _

/-- A field keeps its length, whatever fitting text is written into it. -/
lemma length_fieldBytes {text : String} (h : FitsField text) {old : List UInt8}
    (hold : old.length = 32) : (fieldBytes text old).length = 32 := by
  have hlength := h.length
  rw [fieldBytes, List.length_take, List.length_append, List.length_cons, List.length_drop,
    length_textBytes, hold]
  omega

/-- What is read from a field fits into it. -/
lemma fitsField_ofList {field : List UInt8} (h : field.length = 32) :
    FitsField (String.ofList (latin1 (field.takeWhile (· != 0)))) := by
  refine ⟨?_, ?_⟩
  · rw [← String.length_toList, String.toList_ofList, latin1, List.length_map, ← h]
    exact (List.takeWhile_prefix _).length_le
  · intro c hc
    rw [String.toList_ofList] at hc
    obtain ⟨b, hb, rfl⟩ := List.mem_map.mp hc
    have hnonzero : b ≠ 0 := bne_iff_ne.mp (List.mem_takeWhile_imp (p := (· != 0)) hb)
    have hnumber : b.toNat ≠ 0 := fun hzero => hnonzero (UInt8.toNat_inj.mp hzero)
    have hbyte := b.toNat_lt
    rw [toNat_ofNat_byte]
    omega

/-- A field is what its text makes of it. -/
lemma fieldBytes_ofList {field : List UInt8} (h : field.length = 32) :
    fieldBytes (String.ofList (latin1 (field.takeWhile (· != 0)))) field = field := by
  rw [fieldBytes, ← length_textBytes, textBytes_ofList_latin1]
  have hsplit := List.takeWhile_append_dropWhile (p := (· != 0)) (l := field)
  set text := field.takeWhile (· != 0)
  cases hrest : field.dropWhile (· != 0) with
  | nil =>
    rw [hrest, List.append_nil] at hsplit
    rw [List.take_left' (hsplit ▸ h), hsplit]
  | cons b rest =>
    have hzero : b = 0 := by
      have hhead := List.head?_dropWhile_not (· != 0) field
      rw [hrest] at hhead
      simpa using hhead
    rw [hrest, hzero] at hsplit
    have hdrop : field.drop (text.length + 1) = rest := by
      rw [← hsplit, List.drop_append, List.drop_of_length_le (Nat.le_succ _),
        Nat.add_sub_cancel_left]
      rfl
    rw [hdrop, hsplit, List.take_of_length_le h.le]

/-! ### What is read from the file of a tune -/

variable {tune : Tune} {filler : Filler}

/-- The two bytes of a word give the word back. -/
lemma ofBytes_wordBytes (w : UInt16) :
    Word.ofBytes (UInt8.ofNat (w.toNat % 256)) (UInt8.ofNat (w.toNat / 256)) = w := by
  have hw := w.toNat_lt
  rw [← UInt16.toNat_inj, Word.toNat_ofBytes, UInt8.toNat_ofNat', UInt8.toNat_ofNat']
  omega

/-- The text in a field of a header is found behind the parts in front of it. -/
lemma textAt_flatten {text : String} (h : FitsField text) {old : List UInt8}
    (hold : old.length = 32) (front back : List (List UInt8)) (rest : List UInt8) :
    textAt ((front ++ fieldBytes text old :: back).flatten ++ rest) front.flatten.length = text := by
  rw [List.flatten_append, List.flatten_cons, List.append_assoc, List.append_assoc, textAt,
    List.drop_left, textLength, List.take_left' (length_fieldBytes h hold), takeWhile_fieldBytes h,
    latin1_textBytes h, String.ofList_toList]

/-- The header of a tune's file has the length of a header. -/
lemma length_header (h : Storable tune) (filler : Filler) :
    (headerWords tune ++ headerRest tune filler).flatten.length = 0x7C := by
  obtain ⟨hspeed, hname, hauthor, hreleased, hflags⟩ := filler.lengths
  have hwords : (headerWords tune).flatten.length = 0x12 := rfl
  simp only [List.flatten_append, List.length_append, hwords, headerRest, List.flatten_cons,
    List.flatten_nil, List.length_nil, hspeed, length_fieldBytes h.name hname,
    length_fieldBytes h.author hauthor, length_fieldBytes h.released hreleased, hflags]

/-- The texts of a tune are read from its file. -/
lemma textAt_fileBytes (h : Storable tune) (filler : Filler) :
    textAt (fileBytes tune filler) 0x16 = tune.name ∧
      textAt (fileBytes tune filler) 0x36 = tune.author ∧
      textAt (fileBytes tune filler) 0x56 = tune.released := by
  obtain ⟨hspeed, hname, hauthor, hreleased, hflags⟩ := filler.lengths
  have hwords : (headerWords tune).flatten.length = 0x12 := rfl
  have hnameLength := length_fieldBytes h.name hname
  have hauthorLength := length_fieldBytes h.author hauthor
  refine ⟨?_, ?_, ?_⟩
  · have htext := textAt_flatten h.name hname (headerWords tune ++ [filler.speed])
    rw [List.flatten_append, List.length_append, hwords, List.flatten_singleton, hspeed] at htext
    exact htext _ _
  · have htext := textAt_flatten h.author hauthor
      (headerWords tune ++ [filler.speed, fieldBytes tune.name filler.name])
    rw [List.flatten_append, List.length_append, hwords, List.flatten_cons, List.length_append,
      List.flatten_singleton, hspeed, hnameLength] at htext
    exact htext _ _
  · have htext := textAt_flatten h.released hreleased (headerWords tune ++ [filler.speed,
      fieldBytes tune.name filler.name, fieldBytes tune.author filler.author])
    rw [List.flatten_append, List.length_append, hwords, List.flatten_cons, List.length_append,
      List.flatten_cons, List.length_append, List.flatten_singleton, hspeed, hnameLength,
      hauthorLength] at htext
    exact htext _ _

/-- A tune's file has a header and a load address. -/
lemma le_length_fileBytes (h : Storable tune) (filler : Filler) :
    126 ≤ (fileBytes tune filler).length := by
  rw [fileBytes, List.length_append, length_header h, List.length_append, List.length_reverse]
  change 126 ≤ 124 + (2 + tune.image.length)
  omega

/-- The load address and the image are read from a tune's file. -/
lemma image_fileBytes (h : Storable tune) (filler : Filler) :
    Word.ofBytes ((fileBytes tune filler).getD 0x7C 0) ((fileBytes tune filler).getD 0x7D 0) =
        tune.loadAddress ∧
      (fileBytes tune filler).drop 0x7E = tune.image := by
  have hdrop : (fileBytes tune filler).drop headerLength =
      UInt8.ofNat (tune.loadAddress.toNat % 256) :: UInt8.ofNat (tune.loadAddress.toNat / 256) ::
        tune.image :=
    List.drop_left' (length_header h filler)
  rw [drop_headerLength (le_length_fileBytes h filler)] at hdrop
  obtain ⟨hlow, hrest⟩ := List.cons.inj hdrop
  obtain ⟨hhigh, himage⟩ := List.cons.inj hrest
  refine ⟨?_, himage⟩
  rw [hlow, hhigh]
  exact ofBytes_wordBytes tune.loadAddress

/-- The content of a tune's file is the tune. -/
lemma content_fileBytes (h : Storable tune) (filler : Filler) :
    content (fileBytes tune filler) = tune := by
  obtain ⟨hname, hauthor, hreleased⟩ := textAt_fileBytes h filler
  obtain ⟨hload, himage⟩ := image_fileBytes h filler
  have hversion : wordAt (fileBytes tune filler) 0x04 = tune.version := ofBytes_wordBytes _
  have hinit : wordAt (fileBytes tune filler) 0x0A = tune.initAddress := ofBytes_wordBytes _
  have hplay : wordAt (fileBytes tune filler) 0x0C = tune.playAddress := ofBytes_wordBytes _
  have hsongs : wordAt (fileBytes tune filler) 0x0E = tune.songs := ofBytes_wordBytes _
  have hstart : wordAt (fileBytes tune filler) 0x10 = tune.startSong := ofBytes_wordBytes _
  rw [content, hversion, hload, hinit, hplay, hsongs, hstart, hname, hauthor, hreleased, himage]

/-- The file of a tune is acceptable. -/
lemma acceptable_fileBytes (h : Storable tune) (filler : Filler) :
    Acceptable (fileBytes tune filler) where
  length := le_length_fileBytes h filler
  magic := rfl
  version := by
    have hversion : wordAt (fileBytes tune filler) 0x04 = tune.version := ofBytes_wordBytes _
    rw [← toNat_wordAt, hversion]
    exact h.version
  dataOffset := rfl
  loadAddress := rfl

/-! ### What files there are -/

variable {bytes : List UInt8}

/-- The part of a file at an offset. -/
def part (bytes : List UInt8) (offset length : Nat) : List UInt8 :=
  (bytes.drop offset).take length

lemma length_part {offset length : Nat} (h : offset + length ≤ bytes.length) :
    (part bytes offset length).length = length := by
  rw [part, List.length_take, List.length_drop]
  omega

/-- A part is cut off the front of what is left of a file. -/
lemma drop_eq_part_append (bytes : List UInt8) (offset length : Nat) :
    bytes.drop offset = part bytes offset length ++ bytes.drop (offset + length) := by
  rw [part, ← List.drop_drop, List.take_append_drop]

/-- A word that is made of two bytes has these two bytes. -/
lemma wordBytes_ofBytes (low high : UInt8) : wordBytes (Word.ofBytes low high) = [high, low] := by
  have hlow := low.toNat_lt
  have hhigh : (256 * high.toNat + low.toNat) / 256 = high.toNat := by
    omega
  have hlow' : (256 * high.toNat + low.toNat) % 256 = low.toNat := by
    omega
  rw [wordBytes, Word.toNat_ofBytes, hhigh, hlow', UInt8.ofNat_toNat, UInt8.ofNat_toNat]

/-- A word is cut off the front of what is left of a file. -/
lemma drop_eq_wordBytes_append {offset : Nat} (h : offset + 1 < bytes.length) :
    bytes.drop offset = wordBytes (wordAt bytes offset) ++ bytes.drop (offset + 2) := by
  rw [wordAt, wordBytes_ofBytes, List.drop_eq_getElem_cons (by omega),
    List.drop_eq_getElem_cons h, getElem_eq_getD, getElem_eq_getD]
  rfl

/-- The bytes of a header that its tune does not depend on. -/
def fillerOf (bytes : List UInt8) (h : 124 ≤ bytes.length) : Filler where
  speed := part bytes 0x12 4
  name := part bytes 0x16 32
  author := part bytes 0x36 32
  released := part bytes 0x56 32
  flags := part bytes 0x76 6
  lengths := ⟨length_part (by omega), length_part (by omega), length_part (by omega),
    length_part (by omega), length_part (by omega)⟩

/-- The text of a field fits into a field. -/
lemma fitsField_textAt {offset : Nat} (h : offset + 32 ≤ bytes.length) :
    FitsField (textAt bytes offset) :=
  fitsField_ofList (length_part h)

/-- A field's text, written over the field, gives the field back. -/
lemma fieldBytes_textAt {offset : Nat} (h : offset + 32 ≤ bytes.length) :
    fieldBytes (textAt bytes offset) (part bytes offset 32) = part bytes offset 32 :=
  fieldBytes_ofList (length_part h)

/-- Behind the words a header has the texts of its content and its own filler. -/
lemma flatten_headerRest (hlength : 124 ≤ bytes.length) :
    (headerRest (content bytes) (fillerOf bytes hlength)).flatten ++ bytes.drop 0x7C =
      bytes.drop 0x12 := by
  have hpart (offset length : Nat) :
      part bytes offset length ++ bytes.drop (offset + length) = bytes.drop offset :=
    (drop_eq_part_append bytes offset length).symm
  simp only [headerRest, content, fillerOf, List.flatten_cons, List.flatten_nil, List.append_nil,
    List.append_assoc]
  rw [fieldBytes_textAt (by omega), fieldBytes_textAt (by omega), fieldBytes_textAt (by omega),
    hpart 0x76 6, hpart 0x56 32, hpart 0x36 32, hpart 0x16 32, hpart 0x12 4]

namespace Acceptable

/-- What is read from an acceptable file can be stored. -/
lemma storable_content (h : Acceptable bytes) : Storable (content bytes) := by
  have hlength := h.length
  refine ⟨?_, fitsField_textAt (by omega), fitsField_textAt (by omega),
    fitsField_textAt (by omega)⟩
  have hversion : (content bytes).version.toNat = numberAt bytes 4 := toNat_wordAt bytes 4
  rw [hversion]
  exact h.version

/-- An acceptable file begins with the words of its content. -/
lemma flatten_headerWords (h : Acceptable bytes) :
    (headerWords (content bytes)).flatten ++ bytes.drop 0x12 = bytes := by
  have hlength := h.length
  have hoffset : wordAt bytes 0x06 = 0x7C := by
    rw [wordAt_eq, h.dataOffset]
    rfl
  have haddress : wordAt bytes 0x08 = 0 := (wordAt_eq_zero_iff bytes 8).mpr h.loadAddress
  have hword {offset : Nat} (hwithin : offset ≤ 0x10) :
      wordBytes (wordAt bytes offset) ++ bytes.drop (offset + 2) = bytes.drop offset :=
    (drop_eq_wordBytes_append (by omega)).symm
  have hwordOffset : wordBytes 0x7C ++ bytes.drop 0x08 = bytes.drop 0x06 :=
    hoffset ▸ hword (by decide)
  have hwordAddress : wordBytes 0 ++ bytes.drop 0x0A = bytes.drop 0x08 :=
    haddress ▸ hword (by decide)
  simp only [headerWords, content, List.flatten_cons, List.flatten_nil, List.append_nil,
    List.append_assoc]
  rw [hword (by decide), hword (by decide), hword (by decide), hword (by decide), hwordAddress,
    hwordOffset, hword (by decide), ← h.magic, List.take_append_drop]

/-- An acceptable file is a file of its content. -/
lemma fileBytes_content (h : Acceptable bytes) (hlength : 124 ≤ bytes.length) :
    fileBytes (content bytes) (fillerOf bytes hlength) = bytes := by
  have hload : (wordBytes (content bytes).loadAddress).reverse ++ (content bytes).image =
      bytes.drop 0x7C := by
    have hwords : wordBytes (content bytes).loadAddress =
        [bytes.getD 0x7D 0, bytes.getD 0x7C 0] := wordBytes_ofBytes _ _
    rw [hwords]
    exact (drop_headerLength h.length).symm
  rw [fileBytes, List.flatten_append, List.append_assoc, hload, flatten_headerRest,
    h.flatten_headerWords]

end Acceptable

/-- **The files that the parser accepts** are those that are put together from a tune, each of which
is read as that tune. -/
lemma parse_eq_ok_iff {tune : Tune} :
    parse bytes = .ok tune ↔ Storable tune ∧ ∃ filler, bytes = fileBytes tune filler := by
  rw [parse_eq_ok_iff_content]
  constructor
  · rintro ⟨h, rfl⟩
    have hlength : 124 ≤ bytes.length := (by decide : 124 ≤ 126).trans h.length
    exact ⟨h.storable_content, fillerOf bytes hlength, (h.fileBytes_content hlength).symm⟩
  · rintro ⟨h, filler, rfl⟩
    exact ⟨acceptable_fileBytes h filler, content_fileBytes h filler⟩

/-- **Acceptance and content of tune files.**  The parser never looks beyond the end of a file.  It
accepts a file exactly if it has at least 126 bytes, begins with the name of the format, and has a
known version, the offset 0x007C and no load address in its header; otherwise the error is that of the
first test that fails.  Parsing undoes building: from the file of a tune the parser gets the tune,
whatever stands where no field is and behind the texts, and there are no other files that it accepts. -/
theorem parse_law :
    (∀ bytes, guardedParse bytes = some (parse bytes)) ∧
      (∀ bytes, (∃ tune, parse bytes = .ok tune) ↔ Acceptable bytes) ∧
      (∀ bytes e, parse bytes = .error e ↔ firstFailing (tests bytes) = some e) ∧
      ∀ bytes tune, parse bytes = .ok tune ↔
        Storable tune ∧ ∃ filler, bytes = fileBytes tune filler := by
  refine ⟨guardedParse_eq, fun bytes => ?_, fun bytes e => parse_eq_error_iff, fun bytes tune =>
    parse_eq_ok_iff⟩
  constructor
  · rintro ⟨tune, h⟩
    exact (parse_eq_ok_iff_content.mp h).1
  · intro h
    exact ⟨content bytes, parse_eq_ok_iff_content.mpr ⟨h, rfl⟩⟩

/-- A tune whose name fills its field. -/
def wideTune : Tune where
  version := 3
  loadAddress := 0x2000
  initAddress := 0x2003
  playAddress := 0x2000
  songs := 7
  startSong := 5
  name := "A thirty-two character tune name"
  author := ""
  released := "\u00E9t\u00E9 2019"
  image := [1, 2, 3, 4]

/-- The wide tune is read from its file, whatever else stands in the header. -/
theorem parse_law_wideTune :
    Storable wideTune ∧ ∀ filler, parse (fileBytes wideTune filler) = .ok wideTune := by
  have hstorable : Storable wideTune := by
    decide +kernel
  exact ⟨hstorable, fun filler => (parse_law.2.2.2 _ wideTune).mpr ⟨hstorable, filler, rfl⟩⟩

end ChipScore.Tune
