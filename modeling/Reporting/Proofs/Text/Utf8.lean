import Reporting.Text.Utf8

/-!
# Reading what is written in UTF-8

The bytes of a text in UTF-8 are read back as the characters of the text, with no byte left over
(`Text.decodeUtf8_toUTF8`).  The proof goes character by character: the lead byte tells how many
continuation bytes follow, and each of these carries six bits.
-/

namespace Reporting.Text

theorem continuation?_of_toNat {b : UInt8} {n : Nat} (hb : b.toNat = n + 128) (hn : n < 64) :
    continuation? b = some n := by
  have hlower : (0x80 : UInt8) ≤ b := by
    rw [UInt8.le_iff_toNat_le, hb]
    exact Nat.le_add_left 128 n
  have hupper : b < (0xC0 : UInt8) := by
    rw [UInt8.lt_iff_toNat_lt, hb]
    show n + 128 < 192
    omega
  unfold continuation?
  simp only [hlower, hupper, hb]
  simp

/-- The bits of a continuation byte go behind those that are there. -/
theorem continued?_cons {b : UInt8} {n : Nat} (hb : b.toNat = n + 128) (hn : n < 64)
    (count bits : Nat) (rest : List UInt8) :
    continued? (count + 1) bits (b :: rest) = continued? count (64 * bits + n) rest := by
  rw [continued?, continuation?_of_toNat hb hn]
  rfl

/-- A character is read from its code point. -/
theorem scalar?_toNat (c : Char) (least : Nat) (h : least ≤ c.toNat) :
    scalar? least c.toNat = some c := by
  have hvalid : c.toNat < 0xD800 ∨ (0xDFFF < c.toNat ∧ c.toNat < 0x110000) := c.valid
  unfold scalar?
  rw [if_pos, Char.ofNat_toNat]
  simp
  omega

/-- What a lead byte announces, told by its number. -/
theorem leading?_eq (a : UInt8) (rest : List UInt8) :
    leading? a rest
      = if a.toNat < 128 then some (Char.ofNat a.toNat, 0)
        else if a.toNat < 192 then none
        else if a.toNat < 224 then
          (continued? 1 (a.toNat - 192) rest).bind fun n =>
            (scalar? 0x80 n).bind fun c => some (c, 1)
        else if a.toNat < 240 then
          (continued? 2 (a.toNat - 224) rest).bind fun n =>
            (scalar? 0x800 n).bind fun c => some (c, 2)
        else if a.toNat < 248 then
          (continued? 3 (a.toNat - 240) rest).bind fun n =>
            (scalar? 0x10000 n).bind fun c => some (c, 3)
        else none := by
  unfold leading?
  simp only [UInt8.lt_iff_toNat_lt]
  rfl

theorem decodeFrom_append (bytes rest : List UInt8) :
    decodeFrom bytes.length (bytes ++ rest) = decodeFrom 0 rest := by
  induction bytes with
  | nil => rfl
  | cons b bytes ih => exact ih

/-- Continuation bytes are passed over once their character is read. -/
theorem decodeFrom_of_leading? {a : UInt8} (more : List UInt8) {rest : List UInt8} {c : Char}
    (h : leading? a (more ++ rest) = some (c, more.length)) :
    decodeFrom 0 (a :: (more ++ rest)) = some c :: decodeFrom 0 rest := by
  rw [decodeFrom, h]
  simp only [decodeFrom_append]

/-- **One character.**  The bytes of a character are read as the character, whatever follows. -/
theorem decodeFrom_utf8EncodeChar (c : Char) (rest : List UInt8) :
    decodeFrom 0 (String.utf8EncodeChar c ++ rest) = some c :: decodeFrom 0 rest := by
  have hvalid : c.toNat < 0x110000 := by
    rcases c.valid with h | h
    · exact Nat.lt_trans h (by decide)
    · exact h.2
  have hbyte : ∀ n : Nat, n < 256 → (UInt8.ofNat n).toNat = n := fun n hn => by
    rw [UInt8.toNat_ofNat']
    exact Nat.mod_eq_of_lt hn
  have htail : ∀ n : Nat, (UInt8.ofNat (n % 64 + 128)).toNat = n % 64 + 128 :=
    fun n => hbyte _ (by omega)
  have hbits : ∀ n : Nat, n % 64 < 64 := fun n => Nat.mod_lt n (by decide)
  have hval : c.val.toNat = c.toNat := rfl
  unfold String.utf8EncodeChar
  simp only [hval]
  -- How many bytes there are depends on the size of the code point.
  split
  · rename_i hone
    have hlead := hbyte c.toNat (by omega)
    refine decodeFrom_of_leading? [] ?_
    rw [leading?_eq, hlead, if_pos (by omega), Char.ofNat_toNat]
    rfl
  split
  · rename_i hone htwo
    have hlead := hbyte (c.toNat / 64 % 32 + 192) (by omega)
    have hscalar : 64 * (c.toNat / 64 % 32) + c.toNat % 64 = c.toNat := by omega
    refine decodeFrom_of_leading? [_] ?_
    rw [leading?_eq, hlead, if_neg (by omega), if_neg (by omega), if_pos (by omega),
      Nat.add_sub_cancel, List.cons_append, continued?_cons (htail _) (hbits _), hscalar]
    simp [continued?, scalar?_toNat c 0x80 (by omega)]
  split
  · rename_i hone htwo hthree
    have hlead := hbyte (c.toNat / 4096 % 16 + 224) (by omega)
    have hscalar : 64 * (64 * (c.toNat / 4096 % 16) + c.toNat / 64 % 64) + c.toNat % 64
        = c.toNat := by omega
    refine decodeFrom_of_leading? [_, _] ?_
    rw [leading?_eq, hlead, if_neg (by omega), if_neg (by omega), if_neg (by omega),
      if_pos (by omega), Nat.add_sub_cancel, List.cons_append,
      continued?_cons (htail _) (hbits _), List.cons_append,
      continued?_cons (htail _) (hbits _), hscalar]
    simp [continued?, scalar?_toNat c 0x800 (by omega)]
  · rename_i hone htwo hthree
    have hlead := hbyte (c.toNat / 262144 % 8 + 240) (by omega)
    have hscalar : 64 * (64 * (64 * (c.toNat / 262144 % 8) + c.toNat / 4096 % 64)
        + c.toNat / 64 % 64) + c.toNat % 64 = c.toNat := by omega
    refine decodeFrom_of_leading? [_, _, _] ?_
    rw [leading?_eq, hlead, if_neg (by omega), if_neg (by omega), if_neg (by omega),
      if_neg (by omega), if_pos (by omega), Nat.add_sub_cancel, List.cons_append,
      continued?_cons (htail _) (hbits _), List.cons_append,
      continued?_cons (htail _) (hbits _), List.cons_append,
      continued?_cons (htail _) (hbits _), hscalar]
    simp [continued?, scalar?_toNat c 0x10000 (by omega)]

/-- **Reading undoes writing.**  The bytes of a text in UTF-8 are read as its characters. -/
theorem decodeUtf8_toUTF8 (text : String) :
    decodeUtf8 text.toUTF8.data.toList = text.toList.map some := by
  have hbytes : text.toUTF8.data.toList = text.toList.flatMap String.utf8EncodeChar := by
    show text.toByteArray.data.toList = _
    rw [← String.utf8Encode_toList, List.utf8Encode, List.data_toByteArray]
  rw [hbytes]
  unfold decodeUtf8
  induction text.toList with
  | nil => rfl
  | cons c rest ih => rw [List.flatMap_cons, decodeFrom_utf8EncodeChar, ih, List.map_cons]

end Reporting.Text
