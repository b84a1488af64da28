import Rowmap.Proofs.Boundary

/-! Fixed texts that are equal and fixed texts that are read alike. Two of them are compared byte by byte, and read
and bound up to the first zero byte. The one is the other where there is nothing but zeros behind that byte; a text
with a zero character before its end is copied with what follows it, and makes a value that no column gives
back. -/

namespace Rowmap

namespace Text

theorem dropWhile_bytes (s : List Char) :
    (bytes s).dropWhile (· ≠ 0) = bytes (s.dropWhile (· ≠ '\x00')) := by
  have hbytes := List.takeWhile_append_dropWhile (p := (· ≠ (0 : UInt8))) (l := bytes s)
  have htext := List.takeWhile_append_dropWhile (p := (· ≠ '\x00')) (l := s)
  have hsplit : bytes (s.takeWhile (· ≠ '\x00')) ++ bytes (s.dropWhile (· ≠ '\x00')) = bytes s := by
    rw [← bytes_append, htext]
  rw [takeWhile_bytes, ← hsplit] at hbytes
  rw [← hsplit]
  exact List.append_cancel_left hbytes

/-- Zero bytes spell zero characters. -/
theorem bytes_zero_iff {s : List Char} : (∀ b ∈ bytes s, b = 0) ↔ ∀ c ∈ s, c = '\x00' := by
  constructor
  · intro h c hc
    by_cases hzero : c = '\x00'
    · exact hzero
    · obtain ⟨b, bs, henc, -, -⟩ := encode_leading c
      have hb : b ∈ String.utf8EncodeChar c := henc ▸ List.mem_cons_self ..
      have hb0 : b = 0 := h b (List.mem_flatMap.2 ⟨c, hc, hb⟩)
      exact absurd (hb0 ▸ hb) (zero_notMem_encode hzero)
  · intro h b hb
    obtain ⟨c, hc, hb⟩ := List.mem_flatMap.1 hb
    rw [h c hc, encode_zero] at hb
    exact List.mem_singleton.1 hb

end Text

namespace FixedText

variable {n : Nat}

theorem eq_of_bytes {x y : FixedText n} (h : x.bytes = y.bytes) : x = y := by
  obtain ⟨bs, hbs⟩ := x
  obtain ⟨cs, hcs⟩ := y
  cases h
  rfl

/-- The first zero byte and all that is behind it. -/
def behind (x : FixedText n) : List UInt8 := x.bytes.dropWhile (· ≠ 0)

/-- Values that are read alike have the same bytes as far as they are read. -/
theorem cut_eq_cut_iff {x y : FixedText n} (hx : x.IsMade) (hy : y.IsMade) : x.cut = y.cut ↔ x.text = y.text := by
  constructor
  · intro h
    rw [← text_cut x, h, text_cut]
  · intro h
    rw [← ofString_text hx, h, ofString_text hy]

/-- To be equal is to be read alike and to be alike behind that. -/
theorem eq_iff_text_behind {x y : FixedText n} (hx : x.IsMade) (hy : y.IsMade) :
    x = y ↔ x.text = y.text ∧ x.behind = y.behind := by
  constructor
  · rintro rfl
    exact ⟨rfl, rfl⟩
  · rintro ⟨htext, hbehind⟩
    have hcut := (cut_eq_cut_iff hx hy).2 htext
    apply eq_of_bytes
    calc x.bytes = x.bytes.takeWhile (· ≠ 0) ++ x.behind := List.takeWhile_append_dropWhile.symm
      _ = y.bytes.takeWhile (· ≠ 0) ++ y.behind := by
          rw [← takeWhile_bytes_cut x, hcut, takeWhile_bytes_cut, hbehind]
      _ = y.bytes := List.takeWhile_append_dropWhile

theorem eq_iff_text {x y : FixedText n} (hx : x.IsMade) (hy : y.IsMade) (hxp : x.isPadded = true)
    (hyp : y.isPadded = true) : x = y ↔ x.text = y.text := by
  rw [← cut_eq_cut_iff hx hy, cut_eq_self_iff.2 hxp, cut_eq_self_iff.2 hyp]

/-- What is bound of a value is read to the value without what is behind its first zero byte. -/
theorem ofValue_toValue_of_isMade {x : FixedText n} (hx : x.IsMade) :
    (FieldType.fixedText n).ofValue ((FieldType.fixedText n).toValue x) = .ok x.cut :=
  congrArg Except.ok (ofString_text hx)

theorem ofValue_toValue_eq_iff {x : FixedText n} (hx : x.IsMade) :
    (FieldType.fixedText n).ofValue ((FieldType.fixedText n).toValue x) = .ok x ↔ x.isPadded = true := by
  rw [ofValue_toValue_of_isMade hx, ← cut_eq_self_iff]
  exact ⟨Except.ok.inj, congrArg Except.ok⟩

/-- There are only zeros behind the first one exactly if this is so in the beginning of the text that fits. -/
theorem isPadded_ofString_iff {s : String} : (ofString n s).isPadded = true ↔
    ∀ c ∈ (Text.fitting n s.toList).dropWhile (· ≠ '\x00'), c = '\x00' := by
  rw [isPadded, List.all_eq_true, bytes_ofString, Text.dropWhile_bytes, List.dropWhile_append]
  simp only [decide_eq_true_eq, Text.bytes_zero_iff]
  split
  · next h =>
    rw [List.isEmpty_iff.1 h, List.dropWhile_replicate]
    simp
  · simp [or_imp]

theorem toValue_eq_toValue_iff {x y : FixedText n} :
    (FieldType.fixedText n).toValue x = (FieldType.fixedText n).toValue y ↔ x.text = y.text :=
  ⟨Value.text.inj, congrArg Value.text⟩

/-- Fixed texts are equal exactly if they are read as the same text and hold the same behind it. Where there is
nothing but zeros behind what is read, equality is that of the texts. -/
theorem equal_as_read (n : Nat) :
    (∀ s t : String, ofString n s = ofString n t ↔
      (ofString n s).text = (ofString n t).text ∧ (ofString n s).behind = (ofString n t).behind) ∧
    (∀ s t : String, (ofString n s).isPadded = true → (ofString n t).isPadded = true →
      (ofString n s = ofString n t ↔ (ofString n s).text = (ofString n t).text)) ∧
    (∀ x : FixedText n, Obtained x →
      (FieldType.fixedText n).ofValue ((FieldType.fixedText n).toValue x) = .ok x.cut ∧
      ((FieldType.fixedText n).ofValue ((FieldType.fixedText n).toValue x) = .ok x ↔ x.isPadded = true)) ∧
    (∀ x y : FixedText n, Obtained x → Obtained y → x.isPadded = true → y.isPadded = true →
      (FieldType.fixedText n).toValue x = (FieldType.fixedText n).toValue y → x = y) ∧
    ∀ s : String, (ofString n s).isPadded = true ↔
      ∀ c ∈ (Text.fitting n s.toList).dropWhile (· ≠ '\x00'), c = '\x00' := by
  refine ⟨?_, ?_, ?_, ?_, fun s => isPadded_ofString_iff⟩
  · intro s t
    exact eq_iff_text_behind ⟨s, rfl⟩ ⟨t, rfl⟩
  · intro s t hs ht
    exact eq_iff_text ⟨s, rfl⟩ ⟨t, rfl⟩ hs ht
  · intro x hx
    exact ⟨ofValue_toValue_of_isMade hx.isMade, ofValue_toValue_eq_iff hx.isMade⟩
  · intro x y hx hy hxp hyp h
    exact (eq_iff_text hx.isMade hy.isMade hxp hyp).2 (toValue_eq_toValue_iff.1 h)

/-- Two characters that fit and one that does not, with zeros between them, are the same as the first alone. -/
theorem equal_as_read_cut :
    ofString 4 "é\x00\x00語" = ofString 4 "é" ∧
    (FieldType.fixedText 4).ofValue ((FieldType.fixedText 4).toValue (ofString 4 "é\x00\x00語")) =
      .ok (ofString 4 "é\x00\x00語") := by
  obtain ⟨-, hequal, hread, -, hpadded⟩ := equal_as_read 4
  have hzeros : (Text.fitting 4 "é\x00\x00語".toList).dropWhile (· ≠ '\x00') = ['\x00', '\x00'] := by decide
  have hs : (ofString 4 "é\x00\x00語").isPadded = true := by
    rw [hpadded, hzeros]
    simp
  have ht : (ofString 4 "é").isPadded = true := isPadded_ofString 4 (by decide)
  refine ⟨(hequal _ _ hs ht).2 ?_, (hread _ (.made _)).2.2 hs⟩
  rw [text_ofString, text_ofString]
  decide

/-- A character behind a zero is kept, and neither read nor bound. -/
theorem behind_unread :
    (ofString 3 "a\x00b").text = (ofString 3 "a").text ∧
    (FieldType.fixedText 3).toValue (ofString 3 "a\x00b") = (FieldType.fixedText 3).toValue (ofString 3 "a") ∧
    ofString 3 "a\x00b" ≠ ofString 3 "a" ∧ [ofString 3 "a\x00b", ofString 3 "a"].Nodup ∧
    (FieldType.fixedText 3).ofValue ((FieldType.fixedText 3).toValue (ofString 3 "a\x00b")) =
      .ok (ofString 3 "a") := by
  have htext : (ofString 3 "a\x00b").text = (ofString 3 "a").text := by
    rw [text_ofString, text_ofString]
    decide
  have hne : ofString 3 "a\x00b" ≠ ofString 3 "a" := by decide
  have hcut := (cut_eq_cut_iff ⟨"a\x00b", rfl⟩ ⟨"a", rfl⟩).2 htext
  have hpadded : (ofString 3 "a").isPadded = true := isPadded_ofString 3 (by decide)
  refine ⟨htext, toValue_eq_toValue_iff.2 htext, hne, by simpa using hne, ?_⟩
  rw [ofValue_toValue_of_isMade ⟨"a\x00b", rfl⟩, hcut, cut_eq_self_iff.2 hpadded]

end FixedText
end Rowmap
