import Mathlib.Tactic
import ChipScore.Proofs.Midi.Distances

/-!
# Quantities are a prefix code

A quantity is decoded group by group, most significant group first, up to the first byte whose high
bit is not set.  `Quantity.decode` does this without a bound on the number of groups, and it may be
given bytes that no writer would use: a group that is zero in front of all others changes nothing
about the number.

The bytes that are written are the ones without such a group (`Quantity.Encodes`).  They are decoded
in front of whatever follows, and of all bytes that are decoded as a number they are the only ones
that do not begin with an empty group (`eq_encode_of_decode`).  Since a reader knows where they end,
no number's bytes are the beginning of another's (`encode_prefix_code`).
-/

namespace ChipScore.Midi.Quantity

/-- Takes the rest of a quantity off the front of a list of bytes, behind groups that stand for
`n`. -/
def decodeFrom (n : Nat) : List UInt8 → Option (Nat × List UInt8)
  | [] => none
  | group :: rest =>
    if group.toNat < 128 then
      some (n * 128 + group.toNat, rest)
    else
      decodeFrom (n * 128 + group.toNat % 128) rest

/-- Takes a quantity off the front of a list of bytes and gives back the bytes behind it. -/
def decode : List UInt8 → Option (Nat × List UInt8) :=
  decodeFrom 0

/-- The bytes of a number, no more of them than it needs. -/
structure Encodes (bytes : List UInt8) (n : Nat) : Prop where
  /-- They are decoded as the number, and what stands behind them is left. -/
  decode_append : ∀ rest, decode (bytes ++ rest) = some (n, rest)
  /-- They do not begin with an empty group. -/
  head_ne : bytes.head? ≠ some 0x80
  /-- Other bytes that are decoded as the number do. -/
  unique : ∀ input rest, decode input = some (n, rest) → input.head? ≠ some 0x80 →
    input = bytes ++ rest

/-- The number of bytes of a number of thirty-two bits. -/
def width (n : Nat) : Nat :=
  if n < 2 ^ 7 then 1
  else if n < 2 ^ 14 then 2
  else if n < 2 ^ 21 then 3
  else if n < 2 ^ 28 then 4
  else 5

variable {m n : Nat} {input rest : List UInt8}

/-! ### What is written is decoded -/

/-- A reader that allows for enough groups decodes. -/
lemma decodeFrom_of_groups {most : Nat} {result : Nat × List UInt8}
    (h : Reader.groups most n input = some result) : decodeFrom n input = some result := by
  induction most generalizing n input with
  | zero => cases h
  | succ most ih =>
    cases input with
    | nil => cases h
    | cons group rest =>
      change (if _ then _ else _ : Reader Nat) rest = _ at h
      rw [decodeFrom]
      split_ifs at h ⊢
      · exact h
      · exact ih h

/-- A number is decoded from its bytes, and what stands behind them is left. -/
lemma decode_encode_append (n : Nat) (rest : List UInt8) :
    decode (encode n ++ rest) = some (n, rest) :=
  decodeFrom_of_groups (spells_encode n rest)

/-! ### No group is empty in front -/

/-- A group in front of others is the byte with its high bit set. -/
lemma continued_eq {group : UInt8} (h : ¬group.toNat < 128) :
    0x80 ||| UInt8.ofNat (group.toNat % 128) = group := by
  have hlt : group.toNat < 256 := group.toNat_lt
  rw [← UInt8.toNat_inj, Reader.toNat_continued (Nat.mod_lt _ (by decide))]
  omega

/-- One more group behind others, which is not the first one and empty. -/
lemma leading_concat {group : UInt8} (h : ¬group.toNat < 128) (hne : m ≠ 0 ∨ group ≠ 0x80) :
    leading (m * 128 + group.toNat % 128) = leading m ++ [group] := by
  have hpos : m * 128 + group.toNat % 128 ≠ 0 := by
    intro hzero
    have hlt : group.toNat < 256 := group.toNat_lt
    have hgroup : group = 0x80 := by
      rw [← UInt8.toNat_inj]
      change group.toNat = 128
      omega
    rcases hne with hm | hempty
    · omega
    · exact hempty hgroup
  have hdiv : (m * 128 + group.toNat % 128) / 128 = m := by omega
  have hmod : (m * 128 + group.toNat % 128) % 128 = group.toNat % 128 := by omega
  rw [leading, if_neg hpos, hdiv, hmod, continued_eq h]

/-- The first of the groups in front of the last one is not empty. -/
lemma head?_leading_ne (n : Nat) : (leading n).head? ≠ some 0x80 := by
  induction n using leading.induct with
  | case1 => simp [leading]
  | case2 n hn ih =>
    rw [leading, if_neg hn, List.head?_append]
    cases hhead : (leading (n / 128)).head? with
    | some group =>
      rw [hhead] at ih
      exact ih
    | none =>
      -- there are no other groups, so that this one is the whole number
      have hdiv : n / 128 = 0 := by
        by_contra hdiv
        rw [leading, if_neg hdiv] at hhead
        simp at hhead
      intro hempty
      have hgroup := congrArg UInt8.toNat (Option.some.inj hempty)
      rw [Reader.toNat_continued (Nat.mod_lt _ (by decide))] at hgroup
      change 128 + n % 128 = 128 at hgroup
      omega

/-- The bytes of a number do not begin with an empty group. -/
lemma head?_encode_ne (n : Nat) : (encode n).head? ≠ some 0x80 := by
  rw [encode, List.head?_append]
  cases hhead : (leading (n / 128)).head? with
  | some group =>
    have hleading := head?_leading_ne (n / 128)
    rw [hhead] at hleading
    exact hleading
  | none =>
    intro hempty
    have hgroup := congrArg UInt8.toNat (Option.some.inj hempty)
    rw [UInt8.toNat_ofNat'] at hgroup
    change n % 128 % 2 ^ 8 = 128 at hgroup
    omega

/-! ### There is one way to write a number -/

/-- What is decoded behind the groups of a number is the rest of what is written of another. -/
lemma leading_append_eq_of_decodeFrom (h : decodeFrom m input = some (n, rest))
    (hne : m ≠ 0 ∨ input.head? ≠ some 0x80) : leading m ++ input = encode n ++ rest := by
  induction input generalizing m with
  | nil => cases h
  | cons group others ih =>
    have hfirst : m ≠ 0 ∨ group ≠ 0x80 := hne.imp_right fun hhead hgroup => hhead (hgroup ▸ rfl)
    rw [decodeFrom] at h
    split_ifs at h with hlast
    · obtain ⟨rfl, rfl⟩ := Prod.mk.inj (Option.some.inj h)
      have hdiv : (m * 128 + group.toNat) / 128 = m := by omega
      have hmod : (m * 128 + group.toNat) % 128 = group.toNat := by omega
      rw [encode, hdiv, hmod, UInt8.ofNat_toNat, List.append_assoc, List.singleton_append]
    · have hgroups := leading_concat hlast hfirst
      have hnext : m * 128 + group.toNat % 128 ≠ 0 := by
        intro hzero
        rw [hzero, leading, if_pos rfl] at hgroups
        exact List.concat_ne_nil group _ hgroups.symm
      rw [← ih h (.inl hnext), hgroups, List.append_assoc, List.singleton_append]

/-- Bytes that do not begin with an empty group are those that are written. -/
lemma eq_encode_of_decode (h : decode input = some (n, rest)) (hne : input.head? ≠ some 0x80) :
    input = encode n ++ rest := by
  have happend := leading_append_eq_of_decodeFrom h (.inr hne)
  rwa [leading, if_pos rfl, List.nil_append] at happend

/-- The bytes of a number are all that `Encodes` asks for. -/
lemma encodes_encode (n : Nat) : Encodes (encode n) n where
  decode_append := decode_encode_append n
  head_ne := head?_encode_ne n
  unique _ _ h hne := eq_encode_of_decode h hne

/-- No number is written as the beginning of another. -/
lemma eq_of_encode_append (h : encode m <+: encode n) : m = n := by
  obtain ⟨rest, hrest⟩ := h
  have hdecode := decode_encode_append m rest
  have hdecode' := decode_encode_append n []
  rw [List.append_nil, ← hrest, hdecode] at hdecode'
  exact (Prod.mk.inj (Option.some.inj hdecode')).1

/-! ### How long it is -/

/-- A number is written in as many bytes as it has groups of seven bits. -/
lemma length_encode_eq_width (h : n < 2 ^ 32) : (encode n).length = width n := by
  have hle (k : Nat) := length_encode_le_iff (k := k) (n := n)
  have hone := hle 0
  have htwo := hle 1
  have hthree := hle 2
  have hfour := hle 3
  have hfive := hle 4
  have hpos : 0 < (encode n).length := by
    rw [length_encode]
    exact Nat.succ_pos _
  norm_num at hone htwo hthree hfour hfive
  rw [width]
  split_ifs <;> omega

/-- **Quantities are a prefix code.**  A number of thirty-two bits is written in the fewest groups
that hold it, from one for seven bits to five, and is decoded in front of any other bytes; no other
bytes that are decoded as the number do without an empty group in front.  Different numbers have
different bytes, and no number's bytes are the beginning of another's. -/
theorem encode_prefix_code :
    (∀ n : UInt32, Encodes (encode n.toNat) n.toNat ∧ (encode n.toNat).length = width n.toNat) ∧
      Function.Injective (fun n : UInt32 => encode n.toNat) ∧
      ∀ m n : UInt32, encode m.toNat <+: encode n.toNat → m = n := by
  have hprefix (m n : UInt32) (h : encode m.toNat <+: encode n.toNat) : m = n :=
    UInt32.toNat_inj.mp (eq_of_encode_append h)
  refine ⟨fun n => ⟨encodes_encode n.toNat, length_encode_eq_width n.toNat_lt⟩, ?_, hprefix⟩
  intro m n hsame
  change encode m.toNat = encode n.toNat at hsame
  refine hprefix m n ?_
  rw [hsame]

end ChipScore.Midi.Quantity
