/-
  Flowprint.Text.Utf8
  ────────────────────────────────
  Texts as bytes: how many bytes a run of characters takes, and which bytes are a text.

  Main statements:

      ofBytes?_bytesOf      the bytes of a text hold that text
      ofBytes?_ones         bytes that begin with one of all ones are no text
-/

namespace Flowprint.Text

/-- The number of bytes that a run of characters takes. -/
def utf8Length (s : List Char) : Nat :=
  s.foldr (fun c length => c.utf8Size + length) 0

/-- The bytes of a text. -/
def bytesOf (s : String) : List UInt8 :=
  s.toUTF8.toList

/-- The text that bytes hold, if they hold one. -/
def ofBytes? (bytes : List UInt8) : Option String :=
  String.fromUTF8? ⟨bytes.toArray⟩

/-- The bytes listed from a number on, behind those listed before. -/
theorem toListLoop_eq (bytes : ByteArray) (i : Nat) (listed : List UInt8) :
    ByteArray.toList.loop bytes i listed = listed.reverse ++ bytes.data.toList.drop i := by
  rw [ByteArray.toList.loop.eq_1]
  split
  next h =>
    have hlast : i < bytes.data.toList.length := h
    have hbyte : bytes.get! i = bytes.data.toList[i] := by
      show bytes.data[i]! = _
      rw [getElem!_pos bytes.data i h, Array.getElem_toList]
    rw [toListLoop_eq bytes (i + 1), List.drop_eq_getElem_cons hlast, hbyte, List.reverse_cons,
      List.append_assoc]
    rfl
  next h =>
    rw [List.drop_of_length_le (Nat.le_of_not_lt h), List.append_nil]
termination_by bytes.size - i

/-- The bytes of a text hold that text. -/
theorem ofBytes?_bytesOf (s : String) : ofBytes? (bytesOf s) = some s := by
  have hbytes : (⟨(bytesOf s).toArray⟩ : ByteArray) = s.toByteArray := by
    rw [bytesOf, ByteArray.toList, toListLoop_eq]
    rfl
  rw [ofBytes?, hbytes, String.fromUTF8?, dif_pos s.isValidUTF8]
  rfl

theorem utf8Length_append (s more : List Char) :
    utf8Length (s ++ more) = utf8Length s + utf8Length more := by
  induction s with
  | nil => exact (Nat.zero_add _).symm
  | cons c s ih =>
    show c.utf8Size + utf8Length (s ++ more) = c.utf8Size + utf8Length s + utf8Length more
    rw [ih, Nat.add_assoc]

/-- No character begins with a byte of all ones. -/
theorem head_utf8EncodeChar (c : Char) : (String.utf8EncodeChar c).head? ≠ some 0xff := by
  have hlead : ∀ n, n < 255 → some (UInt8.ofNat n) ≠ some 0xff := by
    intro n hn heq
    have hnat := congrArg UInt8.toNat (Option.some.inj heq)
    rw [UInt8.toNat_ofNat_of_lt' (by show n < 256; omega)] at hnat
    have hones : (0xff : UInt8).toNat = 255 := rfl
    omega
  -- the four ranges of characters, by the number of their bytes
  unfold String.utf8EncodeChar
  dsimp only
  split
  · exact hlead _ (by omega)
  · split
    · exact hlead _ (by omega)
    · split
      · exact hlead _ (by omega)
      · exact hlead _ (by omega)

/-- Bytes that begin with one of all ones are no text. -/
theorem ofBytes?_ones (bytes : List UInt8) : ofBytes? (0xff :: bytes) = none := by
  unfold ofBytes? String.fromUTF8?
  split
  next hvalid =>
    obtain ⟨chars, hchars⟩ := hvalid
    have hbytes : 0xff :: bytes = chars.flatMap String.utf8EncodeChar := by
      have hlists := congrArg (fun bytes => bytes.data.toList) hchars
      simpa [List.utf8Encode] using hlists
    cases chars with
    | nil => exact absurd hbytes (by simp)
    | cons c rest =>
      have hhead := head_utf8EncodeChar c
      rw [List.flatMap_cons] at hbytes
      cases hfirst : String.utf8EncodeChar c with
      | nil => exact absurd hfirst String.utf8EncodeChar_ne_nil
      | cons byte more =>
        rw [hfirst] at hbytes hhead
        rw [List.cons_append] at hbytes
        exact absurd (congrArg some (List.cons.inj hbytes).1.symm) hhead
  next => rfl

end Flowprint.Text
