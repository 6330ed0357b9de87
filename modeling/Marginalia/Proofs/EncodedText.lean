import Marginalia.Text.Encoding
import Mathlib.Data.Char
import Mathlib.Data.List.Basic

namespace Marginalia

/-- Bytes become a list one after the other, from the front. -/
theorem toList_loop_eq (bytes : ByteArray) (place : Nat) (done : List UInt8) :
    ByteArray.toList.loop bytes place done = done.reverse ++ bytes.data.toList.drop place := by
  fun_induction ByteArray.toList.loop bytes place done with
  | case1 place done below ih =>
    have within : place < bytes.data.toList.length := by simpa using below
    rw [ih, List.drop_eq_getElem_cons within]
    simp [ByteArray.get!, below]
  | case2 place done past =>
    rw [List.drop_eq_nil_of_le (by simpa using Nat.le_of_not_lt past), List.append_nil]

theorem encodeUtf8_eq (text : String) : encodeUtf8 text = text.toList.flatMap String.utf8EncodeChar := by
  conv_lhs => rw [← @String.ofList_toList text]
  rw [encodeUtf8, String.toUTF8, String.toByteArray_ofList, List.utf8Encode, ByteArray.toList, toList_loop_eq]
  simp

variable {char : Char} {bytes : List UInt8}

/-- A byte that goes on with an open character, when more of them have to follow. -/
theorem decodeUtf8From_later {bits low high later byte : Nat} (small : byte < 256) (fits : low ≤ byte ∧ byte ≤ high) :
    decodeUtf8From (some ⟨bits, low, high, later + 1⟩) (UInt8.ofNat byte :: bytes) =
      decodeUtf8From (some ⟨bits * 64 + (byte - 0x80), 0x80, 0xBF, later⟩) bytes := by
  have value : (UInt8.ofNat byte).toNat = byte := UInt8.toNat_ofNat_of_lt' small
  rw [decodeUtf8From, stepUtf8, value, if_pos fits]
  rfl

/-- The byte that completes a character. -/
theorem decodeUtf8From_last {bits low high byte : Nat} (small : byte < 256) (fits : low ≤ byte ∧ byte ≤ high) :
    decodeUtf8From (some ⟨bits, low, high, 0⟩) (UInt8.ofNat byte :: bytes) =
      some (Char.ofNat (bits * 64 + (byte - 0x80))) :: decodeUtf8From none bytes := by
  have value : (UInt8.ofNat byte).toNat = byte := UInt8.toNat_ofNat_of_lt' small
  rw [decodeUtf8From, stepUtf8, value, if_pos fits]
  rfl

/-- The first byte of a character of several bytes. -/
theorem decodeUtf8From_lead {byte : Nat} {pending : Utf8Pending} (small : byte < 256) (multiple : 0x80 ≤ byte)
    (leads : Utf8Pending.ofLead? byte = some pending) :
    decodeUtf8From none (UInt8.ofNat byte :: bytes) = decodeUtf8From (some pending) bytes := by
  have value : (UInt8.ofNat byte).toNat = byte := UInt8.toNat_ofNat_of_lt' small
  rw [decodeUtf8From, stepUtf8, startUtf8, value, if_neg (Nat.not_lt.mpr multiple), leads]
  rfl

theorem Utf8Pending.ofLead?_two {top : Nat} (low : 2 ≤ top) (high : top < 32) :
    ofLead? (top + 192) = some ⟨top, 0x80, 0xBF, 0⟩ := by
  rw [ofLead?, if_pos (by omega), Nat.add_sub_cancel]

/-- Of three bytes the second one is bounded so that no shorter form and no half of a pair is written. -/
theorem Utf8Pending.ofLead?_three {top second : Nat} (fits : top < 16) (within : second < 64)
    (long : top = 0 → 32 ≤ second) (whole : top = 13 → second < 32) : ∃ low high,
      ofLead? (top + 224) = some ⟨top, low, high, 1⟩ ∧ low ≤ second + 128 ∧ second + 128 ≤ high := by
  unfold ofLead?
  rw [if_neg (by omega), Nat.add_sub_cancel]
  by_cases first : top = 0
  · exact ⟨_, _, if_pos (by omega), by have := long first; omega, by omega⟩
  · by_cases halves : top = 13
    · exact ⟨_, _, (if_neg (by omega)).trans (if_pos (by omega)), by omega, by have := whole halves; omega⟩
    · exact ⟨_, _, (if_neg (by omega)).trans ((if_neg (by omega)).trans (if_pos (by omega))), by omega, by omega⟩

/-- Of four bytes the second one is bounded so that no shorter form and nothing behind the last character is written. -/
theorem Utf8Pending.ofLead?_four {top second : Nat} (fits : top ≤ 4) (within : second < 64)
    (long : top = 0 → 16 ≤ second) (known : top = 4 → second < 16) : ∃ low high,
      ofLead? (top + 240) = some ⟨top, low, high, 2⟩ ∧ low ≤ second + 128 ∧ second + 128 ≤ high := by
  unfold ofLead?
  rw [if_neg (by omega), if_neg (by omega), if_neg (by omega), if_neg (by omega), Nat.add_sub_cancel]
  by_cases first : top = 0
  · exact ⟨_, _, if_pos (by omega), by have := long first; omega, by omega⟩
  · by_cases last : top = 4
    · exact ⟨_, _, (if_neg (by omega)).trans ((if_neg (by omega)).trans (if_pos (by omega))), by omega,
        by have := known last; omega⟩
    · exact ⟨_, _, (if_neg (by omega)).trans (if_pos (by omega)), by omega, by omega⟩

/-- The bytes of a character are read as that character. -/
theorem decodeUtf8From_char (char : Char) (bytes : List UInt8) :
    decodeUtf8From none (String.utf8EncodeChar char ++ bytes) = some char :: decodeUtf8From none bytes := by
  have valid : char.toNat < 0xD800 ∨ 0xDFFF < char.toNat ∧ char.toNat < 0x110000 := char.valid
  have code : char.val.toNat = char.toNat := rfl
  have whole {value : Nat} (same : value = char.toNat) : Char.ofNat value = char := same ▸ Char.ofNat_toNat char
  unfold String.utf8EncodeChar
  simp only [code]
  split
  · rename_i ascii
    have value : (UInt8.ofNat char.toNat).toNat = char.toNat :=
      UInt8.toNat_ofNat_of_lt' (Nat.lt_of_le_of_lt ascii (by decide))
    rw [List.singleton_append, decodeUtf8From, stepUtf8, startUtf8, value, if_pos (Nat.lt_succ_of_le ascii), whole rfl]
    rfl
  · split
    · have top : char.toNat / 64 % 32 = char.toNat / 64 := by omega
      have leads := @Utf8Pending.ofLead?_two (char.toNat / 64) (by omega) (by omega)
      rw [top, List.cons_append, List.singleton_append, decodeUtf8From_lead (by omega) (by omega) leads,
        decodeUtf8From_last (by omega) (by omega), whole (by omega)]
    · split
      · have top : char.toNat / 4096 % 16 = char.toNat / 4096 := by omega
        obtain ⟨low, high, leads, fits⟩ := @Utf8Pending.ofLead?_three (char.toNat / 4096) (char.toNat / 64 % 64)
          (by omega) (by omega) (by omega) (by omega)
        rw [top, List.cons_append, List.cons_append, List.singleton_append,
          decodeUtf8From_lead (by omega) (by omega) leads, decodeUtf8From_later (by omega) fits,
          decodeUtf8From_last (by omega) (by omega), whole (by omega)]
      · have top : char.toNat / 262144 % 8 = char.toNat / 262144 := by omega
        obtain ⟨low, high, leads, fits⟩ := @Utf8Pending.ofLead?_four (char.toNat / 262144) (char.toNat / 4096 % 64)
          (by omega) (by omega) (by omega) (by omega)
        rw [top, List.cons_append, List.cons_append, List.cons_append, List.singleton_append,
          decodeUtf8From_lead (by omega) (by omega) leads, decodeUtf8From_later (by omega) fits,
          decodeUtf8From_later (by omega) (by omega), decodeUtf8From_last (by omega) (by omega), whole (by omega)]

theorem decodeUtf8_encodeUtf8 (text : String) : decodeUtf8 (encodeUtf8 text) = text.toList.map some := by
  rw [encodeUtf8_eq, decodeUtf8]
  induction text.toList with
  | nil => rfl
  | cons char rest ih => rw [List.flatMap_cons, decodeUtf8From_char, ih, List.map_cons]

theorem mapM_id_some {α : Type} (items : List α) : (items.map some).mapM id = some items := by
  induction items with
  | nil => rfl
  | cons item rest ih => simp [ih]

/-- A text is read back from its bytes. -/
theorem Encoding.read?_encodeUtf8 (text : String) : Encoding.utf8.read? (encodeUtf8 text) = some text.toList := by
  rw [read?, decode, decodeUtf8_encodeUtf8, mapM_id_some]

end Marginalia
