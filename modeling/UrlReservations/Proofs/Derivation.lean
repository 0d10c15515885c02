/-
Identifiers that are derived.

A derived identifier is three letters and sixty-four digits, so it is a legal one whatever it was
derived from.  The letters tell the kind and the digits tell the digest, so two of them are the
same exactly if both are (`derive_eq_iff`).  Parts that were hashed differently can therefore
share an identifier in one way only, which is that the digest collides on them
(`Sha256.Collide`).

What is hashed can be taken apart again.  The mark before a part says how long it is, so a part
can be told from what follows it (`encodePart_append_inj`), and lists of parts of any lengths can
be told from one another (`encodeParts_eq_iff`).  A mark holds eight bytes, so this is for parts
whose length fits into them (`Markable`); and an absent part is hashed like an empty one.
-/
import Mathlib.Data.String.Basic
import UrlReservations.Identifier

namespace UrlReservations

/-- Two different messages have the same digest. -/
def Sha256.Collide (message message' : List UInt8) : Prop :=
  message ≠ message' ∧ Sha256.digest message = Sha256.digest message'

namespace Identifier

/-! ### Hexadecimal digits -/

theorem hex_cons (byte : UInt8) (rest : List UInt8) :
    hex (byte :: rest)
      = Numeral.lowerDigit (byte.toNat / 16 % 16) ::
          Numeral.lowerDigit (byte.toNat % 16) :: hex rest := by
  have hhigh : byte.toNat >>> 4 = byte.toNat / 16 := Nat.shiftRight_eq_div_pow byte.toNat 4
  rw [← hhigh]
  rfl

theorem lowerDigit_injective :
    ∀ m < 16, ∀ n < 16, Numeral.lowerDigit m = Numeral.lowerDigit n → m = n := by
  decide

theorem mem_hex {c : Char} {bytes : List UInt8} (h : c ∈ hex bytes) :
    ∃ n < 16, c = Numeral.lowerDigit n := by
  induction bytes with
  | nil => simp [hex] at h
  | cons byte rest ih =>
    rw [hex_cons, List.mem_cons, List.mem_cons] at h
    rcases h with rfl | rfl | h
    · exact ⟨_, Nat.mod_lt _ (by decide), rfl⟩
    · exact ⟨_, Nat.mod_lt _ (by decide), rfl⟩
    · exact ih h

theorem utf8Len_hex (bytes : List UInt8) : String.utf8Len (hex bytes) = 2 * bytes.length := by
  have hsize : ∀ n < 16, (Numeral.lowerDigit n).utf8Size = 1 := by decide
  induction bytes with
  | nil => rfl
  | cons byte rest ih =>
    rw [hex_cons, String.utf8Len_cons, String.utf8Len_cons, ih, hsize _ (Nat.mod_lt _ (by decide)),
      hsize _ (Nat.mod_lt _ (by decide)), List.length_cons]
    omega

/-- The digits of bytes give the bytes back. -/
theorem hex_injective {bytes bytes' : List UInt8} (h : hex bytes = hex bytes') :
    bytes = bytes' := by
  induction bytes generalizing bytes' with
  | nil =>
    cases bytes' with
    | nil => rfl
    | cons byte' rest' =>
      rw [hex_cons] at h
      simp [hex] at h
  | cons byte rest ih =>
    cases bytes' with
    | nil =>
      rw [hex_cons] at h
      simp [hex] at h
    | cons byte' rest' =>
      rw [hex_cons, hex_cons, List.cons.injEq, List.cons.injEq] at h
      obtain ⟨hhigh, hlow, hrest⟩ := h
      have hhigh :=
        lowerDigit_injective _ (Nat.mod_lt _ (by decide)) _ (Nat.mod_lt _ (by decide)) hhigh
      have hlow :=
        lowerDigit_injective _ (Nat.mod_lt _ (by decide)) _ (Nat.mod_lt _ (by decide)) hlow
      -- a byte is less than 256, so its two digits are all of it
      have hbyte : byte.toNat = byte'.toNat := by
        have hlt := byte.toNat_lt
        have hlt' := byte'.toNat_lt
        omega
      rw [UInt8.toNat_inj.mp hbyte, ih hrest]

/-! ### Derived identifiers -/

theorem Kind.mark_injective {kind kind' : Kind} (h : kind.mark = kind'.mark) : kind = kind' := by
  cases kind <;> cases kind' <;> simp [mark] at h ⊢

theorem Kind.length_mark (kind : Kind) : kind.mark.toList.length = 3 := by
  cases kind <;> rfl

theorem toList_derive (kind : Kind) (parts : List (Option String)) :
    (derive kind parts).text.toList
      = kind.mark.toList ++ hex (Sha256.digest (encodeParts parts)) := by
  rw [derive, String.toList_append, String.toList_ofList]

/-- **A derived identifier is legal**, whatever it is derived from. -/
theorem isLegal_derive (kind : Kind) (parts : List (Option String)) :
    isLegal (derive kind parts).text = true := by
  have hpart : ∀ n < 16, isPart (Numeral.lowerDigit n) = true := by decide
  have hdigits : (hex (Sha256.digest (encodeParts parts))).all isPart = true := by
    rw [List.all_eq_true]
    intro c hc
    obtain ⟨n, hn, rfl⟩ := mem_hex hc
    exact hpart n hn
  have hsize : (derive kind parts).text.utf8ByteSize = 67 := by
    rw [derive, String.utf8ByteSize_append, String.utf8ByteSize_ofList, utf8Len_hex,
      Sha256.length_digest]
    cases kind <;> rfl
  rw [isLegal, hsize, toList_derive, Bool.and_eq_true]
  refine ⟨rfl, ?_⟩
  cases kind <;> exact hdigits

/--
**Two derived identifiers are the same exactly if** they are of one
kind and from parts of one digest.
-/
theorem derive_eq_iff {kind kind' : Kind} {parts parts' : List (Option String)} :
    derive kind parts = derive kind' parts' ↔
      kind = kind' ∧ Sha256.digest (encodeParts parts) = Sha256.digest (encodeParts parts') := by
  refine ⟨?_, ?_⟩
  · intro h
    have htext : kind.mark.toList ++ hex (Sha256.digest (encodeParts parts))
        = kind'.mark.toList ++ hex (Sha256.digest (encodeParts parts')) := by
      rw [← toList_derive, h, toList_derive]
    obtain ⟨hmark, hdigits⟩ := List.append_inj htext (kind.length_mark.trans kind'.length_mark.symm)
    exact ⟨Kind.mark_injective (String.toList_inj.mp hmark), hex_injective hdigits⟩
  · intro h
    obtain ⟨rfl, hdigest⟩ := h
    rw [derive, derive, hdigest]

/-- A single part is hashed like no other. -/
theorem encodeParts_singleton_inj {part part' : String}
    (h : encodeParts [some part] = encodeParts [some part']) : part = part' := by
  have hmark : (lengthMark part.utf8ByteSize).length = (lengthMark part'.utf8ByteSize).length := rfl
  have hbytes : part.toByteArray.data.toList = part'.toByteArray.data.toList := by
    simp only [encodeParts, List.flatMap_cons, List.flatMap_nil, List.append_nil, Option.getD_some,
      encodePart] at h
    exact List.append_inj_right h hmark
  exact String.toByteArray_inj.mp (ByteArray.ext (Array.toList_inj.mp hbytes))

/--
So two identifiers derived from single parts are the same exactly if the parts are, or collide.
-/
theorem derive_singleton_eq_iff {kind : Kind} {part part' : String} :
    derive kind [some part] = derive kind [some part'] ↔
      part = part' ∨ Sha256.Collide (encodeParts [some part]) (encodeParts [some part']) := by
  rw [derive_eq_iff]
  refine ⟨?_, ?_⟩
  · intro h
    by_cases hpart : part = part'
    · exact .inl hpart
    · exact .inr ⟨fun hmessage => hpart (encodeParts_singleton_inj hmessage), h.2⟩
  · intro h
    rcases h with rfl | hcollide
    · exact ⟨rfl, rfl⟩
    · exact ⟨rfl, hcollide.2⟩

/-! ### Lists of parts -/

/-- A bit of a number is a bit of one of its bytes. -/
theorem testBit_eq_testBit_byte (n j : Nat) :
    n.testBit j = (n >>> (8 * (j / 8)) % 2 ^ 8).testBit (j % 8) := by
  have hj : 8 * (j / 8) + j % 8 = j := Nat.div_add_mod j 8
  rw [Nat.testBit_mod_two_pow, Nat.testBit_shiftRight, hj,
    decide_eq_true (Nat.mod_lt j (by decide)), Bool.true_and]

/-- The eight bytes of a length give it back, if it needs no more than eight. -/
theorem lengthMark_injective {m n : Nat} (hm : m < 2 ^ 64) (hn : n < 2 ^ 64)
    (h : lengthMark m = lengthMark n) : m = n := by
  have hbyte : ∀ i < 8, m >>> (8 * i) % 2 ^ 8 = n >>> (8 * i) % 2 ^ 8 := by
    intro i hi
    exact congrArg UInt8.toNat (List.map_inj_left.mp h i (List.mem_range.mpr hi))
  apply Nat.eq_of_testBit_eq
  intro j
  by_cases hj : j < 64
  · rw [testBit_eq_testBit_byte m, testBit_eq_testBit_byte n, hbyte (j / 8) (by omega)]
  · have hpow : 2 ^ 64 ≤ 2 ^ j := Nat.pow_le_pow_right (by decide) (Nat.not_lt.mp hj)
    rw [Nat.testBit_lt_two_pow (hm.trans_le hpow), Nat.testBit_lt_two_pow (hn.trans_le hpow)]

/-- A part can be told from what is hashed after it. -/
theorem encodePart_append_inj {part part' : String} (hpart : part.utf8ByteSize < 2 ^ 64)
    (hpart' : part'.utf8ByteSize < 2 ^ 64) {rest rest' : List UInt8}
    (h : encodePart part ++ rest = encodePart part' ++ rest') : part = part' ∧ rest = rest' := by
  have hmarks : (lengthMark part.utf8ByteSize).length = (lengthMark part'.utf8ByteSize).length :=
    rfl
  rw [encodePart, encodePart, List.append_assoc, List.append_assoc] at h
  obtain ⟨hmark, htext⟩ := List.append_inj h hmarks
  have hsize : part.toByteArray.data.toList.length = part'.toByteArray.data.toList.length :=
    lengthMark_injective hpart hpart' hmark
  obtain ⟨hbytes, hrest⟩ := List.append_inj htext hsize
  exact ⟨String.toByteArray_inj.mp (ByteArray.ext (Array.toList_inj.mp hbytes)), hrest⟩

/-- Every part is short enough for its length to be marked. -/
def Markable (parts : List (Option String)) : Prop :=
  ∀ part? ∈ parts, (part?.getD "").utf8ByteSize < 2 ^ 64

instance (parts : List (Option String)) : Decidable (Markable parts) :=
  inferInstanceAs (Decidable (∀ part? ∈ parts, (part?.getD "").utf8ByteSize < 2 ^ 64))

theorem encodeParts_cons (part? : Option String) (parts : List (Option String)) :
    encodeParts (part? :: parts) = encodePart (part?.getD "") ++ encodeParts parts := rfl

theorem encodeParts_cons_ne_nil (part? : Option String) (parts : List (Option String)) :
    encodeParts (part? :: parts) ≠ [] := by
  intro h
  have hlength := congrArg List.length h
  simp [encodeParts_cons, encodePart, lengthMark] at hlength

/--
**What is hashed tells the parts**, however many there are; only an
absent part is hashed like an empty one.
-/
theorem encodeParts_eq_iff {parts parts' : List (Option String)} (hparts : Markable parts)
    (hparts' : Markable parts') :
    encodeParts parts = encodeParts parts' ↔ parts.map (·.getD "") = parts'.map (·.getD "") := by
  induction parts generalizing parts' with
  | nil =>
    cases parts' with
    | nil => exact iff_of_true rfl rfl
    | cons part' rest' => exact iff_of_false (encodeParts_cons_ne_nil part' rest').symm (by simp)
  | cons part rest ih =>
    cases parts' with
    | nil => exact iff_of_false (encodeParts_cons_ne_nil part rest) (by simp)
    | cons part' rest' =>
      obtain ⟨hpart, hrest⟩ := List.forall_mem_cons.mp hparts
      obtain ⟨hpart', hrest'⟩ := List.forall_mem_cons.mp hparts'
      rw [encodeParts_cons, encodeParts_cons, List.map_cons, List.map_cons, List.cons.injEq,
        ← ih hrest hrest']
      refine ⟨encodePart_append_inj hpart hpart', ?_⟩
      rintro ⟨hsame, htail⟩
      rw [hsame, htail]

/--
**Identifiers derived from different parts are different, unless the digest collides.**

Two derived identifiers are the same exactly if they are of one kind and either the parts are the
same, where an absent part counts as an empty one, or what is hashed differs and has one digest.
The parts may be of any number on both sides, because what is hashed is the same for the same parts
only.
-/
theorem derive_eq_iff_or_collide {kind kind' : Kind} {parts parts' : List (Option String)}
    (hparts : Markable parts) (hparts' : Markable parts') :
    (derive kind parts = derive kind' parts' ↔ kind = kind' ∧
      (parts.map (·.getD "") = parts'.map (·.getD "") ∨
        Sha256.Collide (encodeParts parts) (encodeParts parts'))) ∧
    (encodeParts parts = encodeParts parts' ↔ parts.map (·.getD "") = parts'.map (·.getD "")) := by
  have hencode := encodeParts_eq_iff hparts hparts'
  refine ⟨?_, hencode⟩
  rw [derive_eq_iff, ← hencode]
  refine and_congr_right fun _ => ⟨?_, ?_⟩
  · intro hdigest
    by_cases hsame : encodeParts parts = encodeParts parts'
    · exact .inl hsame
    · exact .inr ⟨hsame, hdigest⟩
  · rintro (hsame | hcollide)
    · rw [hsame]
    · exact hcollide.2

/--
A part that ends in eight zero bytes looks like two parts, of which
the second is absent; the marks differ.
-/
theorem derive_eq_iff_or_collide_zeros :
    let parts := [some "a", none]
    let parts' := [some "a\x00\x00\x00\x00\x00\x00\x00\x00"]
    Markable parts ∧ Markable parts' ∧ (encodeParts parts).drop 8 = (encodeParts parts').drop 8 ∧
      (derive .urlAce parts = derive .urlAce parts' ↔
        Sha256.Collide (encodeParts parts) (encodeParts parts')) := by
  intro parts parts'
  have hparts : Markable parts := by decide
  have hparts' : Markable parts' := by decide
  refine ⟨hparts, hparts', by decide, ?_⟩
  rw [(derive_eq_iff_or_collide hparts hparts').1]
  simp [parts, parts']

end Identifier

end UrlReservations
