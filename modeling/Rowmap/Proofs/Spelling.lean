import Rowmap.Field.Type

/-! Texts and the bytes that spell them. Reading gives back every text that was written, in a fixed number
of bytes too as long as it fits; a zero byte stands for the zero character and for nothing else, so cutting
the bytes at the first zero is cutting the text there. -/

namespace Rowmap
namespace Text

theorem bytes_cons (c : Char) (s : List Char) : bytes (c :: s) = String.utf8EncodeChar c ++ bytes s := by
  simp only [bytes, List.flatMap_cons]

theorem bytes_append (s u : List Char) : bytes (s ++ u) = bytes s ++ bytes u := List.flatMap_append

theorem length_bytes_cons (c : Char) (s : List Char) :
    (bytes (c :: s)).length = c.utf8Size + (bytes s).length := by
  rw [bytes_cons, List.length_append, String.length_utf8EncodeChar]

theorem ofBytes?_bytes (s : List Char) : ofBytes? (bytes s) = some (String.ofList s) := by
  have hs : (⟨(bytes s).toArray⟩ : ByteArray) = s.utf8Encode :=
    ByteArray.ext List.data_toByteArray.symm
  rw [ofBytes?, String.fromUTF8?, hs, dif_pos ByteArray.isValidUTF8_utf8Encode]
  rfl

theorem readable_bytes (s : List Char) : readable (bytes s) = String.ofList s := by
  cases s with
  | nil => rfl
  | cons c s =>
    have hpos : 0 < (bytes (c :: s)).length := by
      have := c.utf8Size_pos
      rw [length_bytes_cons]
      omega
    obtain ⟨k, hk⟩ := Nat.exists_eq_add_one_of_ne_zero (Nat.ne_of_gt hpos)
    rw [readable, hk, readableUpTo, ← hk, List.take_length, ofBytes?_bytes, Option.getD_some]

theorem bytes_of_ofBytes? {bs : List UInt8} {s : String} (h : ofBytes? bs = some s) : bytes s.toList = bs := by
  unfold ofBytes? String.fromUTF8? at h
  split at h
  · next hv =>
    have hs : s.toByteArray = ⟨bs.toArray⟩ := congrArg String.toByteArray (Option.some.inj h).symm
    have hbytes : (⟨(bytes s.toList).toArray⟩ : ByteArray) = ⟨bs.toArray⟩ := by
      rw [← hs, ← String.utf8Encode_toList]
      exact ByteArray.ext List.data_toByteArray.symm
    exact List.toArray_inj (ByteArray.mk.inj hbytes)
  · cases h

theorem bytes_readableUpTo_prefix (bs : List UInt8) (k : Nat) : bytes (readableUpTo bs k).toList <+: bs := by
  induction k with
  | zero => exact List.nil_prefix
  | succ k ih =>
    unfold readableUpTo
    cases h : ofBytes? (bs.take (k + 1)) with
    | none => exact ih
    | some s =>
      rw [Option.getD_some, bytes_of_ofBytes? h]
      exact List.take_prefix _ _

theorem length_le_bytes (s : List Char) : s.length ≤ (bytes s).length := by
  induction s with
  | nil => exact Nat.le_refl 0
  | cons c s ih =>
    have hc := c.utf8Size_pos
    rw [length_bytes_cons, List.length_cons]
    omega

theorem fitting_of_le {n : Nat} {s : List Char} (h : (bytes s).length ≤ n) : fitting n s = s := by
  induction s generalizing n with
  | nil => rfl
  | cons c s ih =>
    rw [length_bytes_cons] at h
    rw [fitting, if_pos (by omega), ih (by omega)]

theorem encode_zero : String.utf8EncodeChar '\x00' = [0] := by decide

theorem ofNat_ne_zero {n : Nat} (h0 : n ≠ 0) (h : n < 256) : (0 : UInt8) ≠ UInt8.ofNat n := by
  intro he
  have hn := congrArg UInt8.toNat he
  rw [UInt8.toNat_ofNat_of_lt' h] at hn
  exact h0 hn.symm

theorem zero_notMem_encode {c : Char} (h : c ≠ '\x00') : (0 : UInt8) ∉ String.utf8EncodeChar c := by
  have hc : c.val.toNat ≠ 0 := fun h0 => h (Char.ext (UInt32.toNat.inj h0))
  -- a byte of a longer form has its first bit set
  fun_cases String.utf8EncodeChar c with
  | case1 v hv => simpa using ofNat_ne_zero (show v ≠ 0 from hc) (by omega)
  | case2 v =>
    simp only [List.mem_cons, List.not_mem_nil, or_false, not_or]
    exact ⟨ofNat_ne_zero (by omega) (by omega), ofNat_ne_zero (by omega) (by omega)⟩
  | case3 v =>
    simp only [List.mem_cons, List.not_mem_nil, or_false, not_or]
    exact ⟨ofNat_ne_zero (by omega) (by omega), ofNat_ne_zero (by omega) (by omega),
      ofNat_ne_zero (by omega) (by omega)⟩
  | case4 v =>
    simp only [List.mem_cons, List.not_mem_nil, or_false, not_or]
    exact ⟨ofNat_ne_zero (by omega) (by omega), ofNat_ne_zero (by omega) (by omega),
      ofNat_ne_zero (by omega) (by omega), ofNat_ne_zero (by omega) (by omega)⟩

theorem zero_notMem_bytes {s : List Char} (h : '\x00' ∉ s) : (0 : UInt8) ∉ bytes s := by
  intro hb
  obtain ⟨c, hc, hb⟩ := List.mem_flatMap.1 hb
  exact zero_notMem_encode (fun h0 => h (h0 ▸ hc)) hb

theorem fitting_prefix (n : Nat) (s : List Char) : fitting n s <+: s := by
  induction s generalizing n with
  | nil => exact List.prefix_refl _
  | cons c s ih =>
    rw [fitting]
    split
    · exact List.cons_prefix_cons.2 ⟨rfl, ih _⟩
    · exact List.nil_prefix

theorem takeWhile_bytes (s : List Char) :
    (bytes s).takeWhile (· ≠ 0) = bytes (s.takeWhile (· ≠ '\x00')) := by
  induction s with
  | nil => rfl
  | cons c s ih =>
    rw [bytes_cons]
    by_cases hc : c = '\x00'
    · subst hc
      rw [encode_zero, List.takeWhile_cons_of_neg (by simp)]
      exact List.takeWhile_cons_of_neg (by simp)
    · have hall : ∀ b ∈ String.utf8EncodeChar c, decide (b ≠ 0) = true := by
        intro b hb
        exact decide_eq_true fun h0 => zero_notMem_encode hc (h0 ▸ hb)
      rw [List.takeWhile_append_of_pos hall, ih, List.takeWhile_cons_of_pos (by simpa using hc), bytes_cons]

theorem bytes_replicate_zero (k : Nat) : bytes (List.replicate k '\x00') = List.replicate k 0 := by
  induction k with
  | zero => rfl
  | succ k ih => rw [List.replicate_succ, bytes_cons, encode_zero, ih]; rfl

end Text

namespace FixedText

variable {n : Nat}

/-- Made from a text, as every value of the type is. -/
def IsMade (x : FixedText n) : Prop := ∃ s : String, x = ofString n s

theorem bytes_text_prefix (x : FixedText n) : Text.bytes x.text.toList <+: x.bytes.takeWhile (· ≠ 0) :=
  Text.bytes_readableUpTo_prefix _ _

theorem length_takeWhile_le (x : FixedText n) : (x.bytes.takeWhile (· ≠ 0)).length ≤ n := by
  have hle := (List.takeWhile_prefix (l := x.bytes) (· ≠ 0)).length_le
  rwa [x.length_bytes] at hle

theorem length_bytes_text_le (x : FixedText n) : (Text.bytes x.text.toList).length ≤ n :=
  Nat.le_trans x.bytes_text_prefix.length_le x.length_takeWhile_le

theorem length_text_le (x : FixedText n) : x.text.length ≤ n :=
  calc x.text.length = x.text.toList.length := String.length_toList.symm
    _ ≤ (Text.bytes x.text.toList).length := Text.length_le_bytes _
    _ ≤ n := x.length_bytes_text_le

/-- The bytes before the first zero byte, and zeros behind them. -/
def cut (x : FixedText n) : FixedText n where
  bytes := x.bytes.takeWhile (· ≠ 0) ++ List.replicate (n - (x.bytes.takeWhile (· ≠ 0)).length) 0
  length_bytes := by
    have hle := x.length_takeWhile_le
    rw [List.length_append, List.length_replicate]
    omega

/-- Whether there are only zeros behind the first zero byte. -/
def isPadded (x : FixedText n) : Bool := (x.bytes.dropWhile (· ≠ 0)).all (· = 0)

theorem IsMade.bytes {x : FixedText n} (h : x.IsMade) : ∃ s, x.bytes = Text.bytes s := by
  obtain ⟨s, rfl⟩ := h
  refine ⟨Text.fitting n s.toList ++
    List.replicate (n - (Text.bytes (Text.fitting n s.toList)).length) '\x00', ?_⟩
  rw [Text.bytes_append, Text.bytes_replicate_zero]
  rfl

/-- What is read from a value that was made from a text, and made into one again. -/
theorem ofString_text {x : FixedText n} (h : x.IsMade) : ofString n x.text = x.cut := by
  obtain ⟨s, hs⟩ := h.bytes
  have htake : x.bytes.takeWhile (· ≠ 0) = Text.bytes (s.takeWhile (· ≠ '\x00')) := by
    rw [hs, Text.takeWhile_bytes]
  have hlen : (Text.bytes (s.takeWhile (· ≠ '\x00'))).length ≤ n := by
    rw [← htake]
    exact x.length_takeWhile_le
  simp only [ofString, cut, text, htake, Text.readable_bytes, String.toList_ofList,
    Text.fitting_of_le hlen]

theorem isPadded_ofString (n : Nat) {s : String} (h : '\x00' ∉ s.toList) : (ofString n s).isPadded = true := by
  have hfit : '\x00' ∉ Text.fitting n s.toList := fun hm => h ((Text.fitting_prefix n s.toList).subset hm)
  have hpos : ∀ b ∈ Text.bytes (Text.fitting n s.toList), decide (b ≠ 0) = true := by
    intro b hb
    exact decide_eq_true fun h0 => Text.zero_notMem_bytes hfit (h0 ▸ hb)
  rw [isPadded, ofString, List.dropWhile_append_of_pos hpos, List.dropWhile_replicate]
  simp

theorem cut_eq_self_iff {x : FixedText n} : x.cut = x ↔ x.isPadded = true := by
  have hsplit := List.takeWhile_append_dropWhile (l := x.bytes) (p := (· ≠ 0))
  have hlen : n - (x.bytes.takeWhile (· ≠ 0)).length = (x.bytes.dropWhile (· ≠ 0)).length := by
    have := congrArg List.length hsplit
    rw [List.length_append, x.length_bytes] at this
    omega
  have hbytes : x.cut = x ↔ x.cut.bytes = x.bytes := by
    obtain ⟨bs, hbs⟩ := x
    simp only [cut, FixedText.mk.injEq]
  rw [hbytes, isPadded, List.all_eq_true]
  conv => lhs; rhs; rw [← hsplit]
  simp only [cut, hlen, List.append_cancel_left_eq]
  rw [eq_comm, List.eq_replicate_iff]
  simp

end FixedText
end Rowmap
