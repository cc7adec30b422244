import WorkflowCatalog.Text.Utf8

/-!
# Texts as bytes

The bytes of a text are read as that text: each character takes one to four bytes, of which the first tells how many
there are and in which range the second must be.
-/
namespace WorkflowCatalog.Text

theorem toNat_byte {n : Nat} (h : n < 256) : (UInt8.ofNat n).toNat = n := by
  rw [UInt8.toNat_ofNat']
  exact Nat.mod_eq_of_lt h

/-! ## The first byte of a character -/

theorem lead_one : ∀ n < 128, lead (UInt8.ofNat n) = .char (Char.ofNat n) := by decide

theorem lead_two : ∀ n < 32, 2 ≤ n → lead (UInt8.ofNat (n + 192)) = .begun ⟨n, 0x80, 0xBF, 0⟩ := by decide

/-- Of three bytes, the second is within a shorter range where the value would be too small, or half of a surrogate
pair. -/
theorem lead_three : ∀ n < 16, lead (UInt8.ofNat (n + 224)) =
    .begun ⟨n, if n = 0 then 0xA0 else 0x80, if n = 13 then 0x9F else 0xBF, 1⟩ := by decide

/-- Of four bytes, the second is within a shorter range where the value would be too small, or too large. -/
theorem lead_four : ∀ n < 5, lead (UInt8.ofNat (n + 240)) =
    .begun ⟨n, if n = 0 then 0x90 else 0x80, if n = 4 then 0x8F else 0xBF, 2⟩ := by decide

/-! ## The bytes that follow it -/

section Followed

variable {value t : Nat} {low high b : UInt8} (byte : b.toNat = t + 128) (above : low.toNat ≤ t + 128)
  (below : t + 128 ≤ high.toNat)
include byte above below

theorem in_range : low ≤ b ∧ b ≤ high := by
  rw [UInt8.le_iff_toNat_le, UInt8.le_iff_toNat_le, byte]
  exact ⟨above, below⟩

/-- The last byte completes the value. -/
theorem decodeFrom_last (bs : List UInt8) :
    decodeFrom (some ⟨value, low, high, 0⟩) (b :: bs) = Char.ofNat (value * 64 + t) :: decodeFrom none bs := by
  rw [decodeFrom, if_pos (in_range byte above below), byte, Nat.add_sub_cancel]

theorem decodeFrom_more (after : Nat) (bs : List UInt8) : decodeFrom (some ⟨value, low, high, after + 1⟩) (b :: bs) =
    decodeFrom (some ⟨value * 64 + t, 0x80, 0xBF, after⟩) bs := by
  rw [decodeFrom, if_pos (in_range byte above below), byte, Nat.add_sub_cancel]

end Followed

/-! ## Characters and texts -/

theorem decodeFrom_begun {b : UInt8} {p : Begun} (h : lead b = .begun p) (bs : List UInt8) :
    decodeFrom none (b :: bs) = decodeFrom (some p) bs := by
  rw [decodeFrom, h]

section Lengths

variable {v : Nat}

theorem toNat_bits (n : Nat) : (UInt8.ofNat (n % 64 + 128)).toNat = n % 64 + 128 := toNat_byte (by omega)

/-- Six bits are always within the whole range of bytes that follow. -/
theorem bits_above (n : Nat) : (0x80 : UInt8).toNat ≤ n % 64 + 128 := Nat.le_add_left 128 _

theorem bits_below (n : Nat) : n % 64 + 128 ≤ (0xBF : UInt8).toNat := by
  change n % 64 + 128 ≤ 191
  omega

theorem decodeFrom_two (long : 127 < v) (short : v ≤ 2047) (bs : List UInt8) :
    decodeFrom none (UInt8.ofNat (v / 64 % 32 + 192) :: UInt8.ofNat (v % 64 + 128) :: bs) =
      Char.ofNat v :: decodeFrom none bs := by
  have first := lead_two (v / 64 % 32) (by omega) (by omega)
  have value : v / 64 % 32 * 64 + v % 64 = v := by omega
  rw [decodeFrom_begun first, decodeFrom_last (toNat_bits v) (bits_above v) (bits_below v), value]

theorem decodeFrom_three (long : 2047 < v) (short : v ≤ 65535) (valid : v < 0xD800 ∨ 0xDFFF < v) (bs : List UInt8) :
    decodeFrom none (UInt8.ofNat (v / 4096 % 16 + 224) :: UInt8.ofNat (v / 64 % 64 + 128) ::
      UInt8.ofNat (v % 64 + 128) :: bs) = Char.ofNat v :: decodeFrom none bs := by
  have first := lead_three (v / 4096 % 16) (by omega)
  have value : (v / 4096 % 16 * 64 + v / 64 % 64) * 64 + v % 64 = v := by omega
  rw [decodeFrom_begun first, decodeFrom_more (toNat_bits (v / 64)) ?above ?below,
    decodeFrom_last (toNat_bits v) (bits_above v) (bits_below v), value]
  case above =>
    split
    · change 160 ≤ _
      omega
    · exact bits_above (v / 64)
  case below =>
    split
    · change _ ≤ 159
      omega
    · exact bits_below (v / 64)

theorem decodeFrom_four (long : 65535 < v) (short : v < 0x110000) (bs : List UInt8) :
    decodeFrom none (UInt8.ofNat (v / 262144 % 8 + 240) :: UInt8.ofNat (v / 4096 % 64 + 128) ::
      UInt8.ofNat (v / 64 % 64 + 128) :: UInt8.ofNat (v % 64 + 128) :: bs) = Char.ofNat v :: decodeFrom none bs := by
  have first := lead_four (v / 262144 % 8) (by omega)
  have value : ((v / 262144 % 8 * 64 + v / 4096 % 64) * 64 + v / 64 % 64) * 64 + v % 64 = v := by omega
  rw [decodeFrom_begun first, decodeFrom_more (toNat_bits (v / 4096)) ?above ?below,
    decodeFrom_more (toNat_bits (v / 64)) (bits_above _) (bits_below _),
    decodeFrom_last (toNat_bits v) (bits_above v) (bits_below v), value]
  case above =>
    split
    · change 144 ≤ _
      omega
    · exact bits_above (v / 4096)
  case below =>
    split
    · change _ ≤ 143
      omega
    · exact bits_below (v / 4096)

end Lengths

/-- A character is read from its bytes. -/
theorem decodeFrom_encoded (c : Char) (bs : List UInt8) :
    decodeFrom none (String.utf8EncodeChar c ++ bs) = c :: decodeFrom none bs := by
  have valid : c.val.toNat < 0xD800 ∨ 0xDFFF < c.val.toNat ∧ c.val.toNat < 0x110000 := c.valid
  have same : Char.ofNat c.val.toNat = c := Char.ofNat_toNat c
  simp only [String.utf8EncodeChar]
  generalize c.val.toNat = v at valid same
  subst same
  split
  · rename_i one
    rw [List.cons_append, decodeFrom, lead_one v (by omega)]
    rfl
  · split
    · exact decodeFrom_two (by omega) (by omega) bs
    · split
      · exact decodeFrom_three (by omega) (by omega) (by omega) bs
      · exact decodeFrom_four (by omega) (by omega) bs

theorem decodeFrom_flatMap (cs : List Char) : decodeFrom none (cs.flatMap String.utf8EncodeChar) = cs := by
  induction cs with
  | nil => rfl
  | cons c cs ih => rw [List.flatMap_cons, decodeFrom_encoded, ih]

theorem toList_loop (bytes : ByteArray) (i : Nat) (before : List UInt8) :
    ByteArray.toList.loop bytes i before = before.reverse ++ bytes.data.toList.drop i := by
  induction i, before using ByteArray.toList.loop.induct bytes with
  | case1 i before inside ih =>
    have bound : i < bytes.data.toList.length := by simpa using inside
    have byte : bytes.get! i = bytes.data.toList[i] := getElem!_pos bytes.data i (by simpa using inside)
    rw [ByteArray.toList.loop, if_pos inside, ih, List.drop_eq_getElem_cons bound, byte]
    simp
  | case2 i before outside =>
    have bound : bytes.data.toList.length ≤ i := by simpa using outside
    rw [ByteArray.toList.loop, if_neg outside, List.drop_eq_nil_of_le bound, List.append_nil]

theorem toList_toUTF8 (s : String) : s.toUTF8.toList = s.toList.flatMap String.utf8EncodeChar := by
  rw [ByteArray.toList, toList_loop, String.toUTF8_eq_toByteArray, ← String.utf8Encode_toList, List.utf8Encode,
    List.toList_data_toByteArray]
  rfl

/-- A text is read from its bytes. -/
theorem ofBytes_toUTF8 (s : String) : ofBytes s.toUTF8 = s := by
  rw [ofBytes, toList_toUTF8, decodeFrom_flatMap, String.ofList_toList]

end WorkflowCatalog.Text
