import Rowmap.Field.Conversion
import Rowmap.Proofs.Spelling

/-! Where a text is cut that is too long. A place in its bytes divides no character if the byte there begins
one, and looking for such a place byte by byte backwards comes to the end of the longest beginning that fits in
whole characters. Cutting again at a zero byte keeps to whole characters too, so what a fixed text is read as is
never cut short by bytes that spell nothing. -/

namespace Rowmap
namespace Text

/-- Whether a byte begins a character: only those from 0x80 to 0xBF never do. -/
def isLeading (b : UInt8) : Bool := b.toNat < 0x80 || 0xC0 ≤ b.toNat

/-- Whether a place in bytes divides no character. -/
def isBoundary (bs : List UInt8) (k : Nat) : Bool :=
  k = 0 || match bs[k]? with
    | some b => isLeading b
    | none => k = bs.length

/-- The last boundary up to a place, looked for byte by byte backwards. There is none if the search leaves the
bytes at their beginning. -/
def boundary? (bs : List UInt8) : Nat → Option Nat
  | 0 => if isBoundary bs 0 then some 0 else none
  | k + 1 => if isBoundary bs (k + 1) then some (k + 1) else boundary? bs k

/-- As many zero bytes as are asked for, the first of them overwritten with the bytes up to a place. Neither may
be shorter than that. -/
def copied? (n : Nat) (bs : List UInt8) (k : Nat) : Option (List UInt8) :=
  if k ≤ n ∧ k ≤ bs.length then some (bs.take k ++ (List.replicate n 0).drop k) else none

theorem isLeading_ofNat {n : Nat} (h : n < 0x80 ∨ 0xC0 ≤ n) (hn : n < 256) : isLeading (UInt8.ofNat n) = true := by
  rw [isLeading, UInt8.toNat_ofNat_of_lt' hn]
  simpa using h

theorem not_isLeading_ofNat {n : Nat} (h : 0x80 ≤ n) (hn : n < 0xC0) : isLeading (UInt8.ofNat n) = false := by
  rw [isLeading, UInt8.toNat_ofNat_of_lt' (by omega : n < 256)]
  simp; omega

/-- The first byte of a character begins it, and no other does. -/
theorem encode_leading (c : Char) : ∃ b bs, String.utf8EncodeChar c = b :: bs ∧ isLeading b = true ∧
    ∀ d ∈ bs, isLeading d = false := by
  fun_cases String.utf8EncodeChar c with
  | case1 v hv => exact ⟨_, _, rfl, isLeading_ofNat (by omega) (by omega), nofun⟩
  | case2 v =>
    refine ⟨_, _, rfl, isLeading_ofNat (by omega) (by omega), ?_⟩
    simp only [List.mem_cons, List.not_mem_nil, or_false, forall_eq]
    exact not_isLeading_ofNat (by omega) (by omega)
  | case3 v =>
    refine ⟨_, _, rfl, isLeading_ofNat (by omega) (by omega), ?_⟩
    simp only [List.mem_cons, List.not_mem_nil, or_false, forall_eq_or_imp, forall_eq]
    exact ⟨not_isLeading_ofNat (by omega) (by omega), not_isLeading_ofNat (by omega) (by omega)⟩
  | case4 v =>
    refine ⟨_, _, rfl, isLeading_ofNat (by omega) (by omega), ?_⟩
    simp only [List.mem_cons, List.not_mem_nil, or_false, forall_eq_or_imp, forall_eq]
    exact ⟨not_isLeading_ofNat (by omega) (by omega), not_isLeading_ofNat (by omega) (by omega),
      not_isLeading_ofNat (by omega) (by omega)⟩

theorem isBoundary_zero (bs : List UInt8) : isBoundary bs 0 = true := rfl

theorem leading_of_bytes (s : List Char) : ∀ b ∈ (bytes s)[0]?, isLeading b = true := by
  cases s with
  | nil => nofun
  | cons c s =>
    obtain ⟨b, bs, hc, hb, -⟩ := encode_leading c
    rw [bytes_cons, hc]
    rintro _ ⟨⟩
    exact hb

theorem isBoundary_within {c : Char} {s : List Char} {k : Nat} (hk : 0 < k) (hc : k < c.utf8Size) :
    isBoundary (bytes (c :: s)) k = false := by
  obtain ⟨b, bs, henc, -, hbs⟩ := encode_leading c
  have hlen : k < (b :: bs).length := by rwa [← henc, String.length_utf8EncodeChar]
  obtain ⟨j, rfl⟩ := Nat.exists_eq_add_one_of_ne_zero (Nat.ne_of_gt hk)
  have hj : j < bs.length := Nat.lt_of_succ_lt_succ hlen
  have hget : (bytes (c :: s))[j + 1]? = some bs[j] := by
    rw [bytes_cons, henc, List.getElem?_append_left hlen, List.getElem?_cons_succ, List.getElem?_eq_getElem hj]
  rw [isBoundary, hget]
  simpa using hbs _ (List.getElem_mem hj)

theorem isBoundary_behind (c : Char) (s : List Char) (k : Nat) :
    isBoundary (bytes (c :: s)) (c.utf8Size + k) = isBoundary (bytes s) k := by
  have hpos := c.utf8Size_pos
  have hget : (bytes (c :: s))[c.utf8Size + k]? = (bytes s)[k]? := by
    rw [bytes_cons, List.getElem?_append_right (by rw [String.length_utf8EncodeChar]; omega),
      String.length_utf8EncodeChar, Nat.add_sub_cancel_left]
  rw [isBoundary, isBoundary, hget, length_bytes_cons]
  cases k with
  | zero =>
    have hlead := leading_of_bytes s
    cases hb : (bytes s)[0]? with
    | some b => simp [hlead b hb]
    | none =>
      have hnil : bytes s = [] := by simpa using hb
      simp [hnil]
  | succ k => simp

/-- The boundaries of a text are the places where its beginnings end. -/
theorem isBoundary_bytes_iff {s : List Char} {k : Nat} :
    isBoundary (bytes s) k = true ↔ ∃ p, p <+: s ∧ (bytes p).length = k := by
  induction s generalizing k with
  | nil =>
    simp [isBoundary, bytes, eq_comm]
  | cons c s ih =>
    rcases Nat.eq_zero_or_pos k with rfl | hk
    · exact ⟨fun _ => ⟨[], List.nil_prefix, rfl⟩, fun _ => isBoundary_zero _⟩
    · by_cases hc : k < c.utf8Size
      · rw [isBoundary_within hk hc]
        refine ⟨fun h => absurd h Bool.false_ne_true, ?_⟩
        rintro ⟨p, hp, rfl⟩
        cases p with
        | nil => cases hk
        | cons d p =>
          obtain ⟨rfl, -⟩ := List.cons_prefix_cons.1 hp
          rw [length_bytes_cons] at hc
          omega
      · obtain ⟨j, rfl⟩ := Nat.exists_eq_add_of_le (Nat.not_lt.1 hc)
        rw [isBoundary_behind, ih]
        constructor
        · rintro ⟨p, hp, rfl⟩
          exact ⟨c :: p, List.cons_prefix_cons.2 ⟨rfl, hp⟩, length_bytes_cons c p⟩
        · rintro ⟨p, hp, hlen⟩
          cases p with
          | nil =>
            exact absurd hlen (by simp [bytes]; omega)
          | cons d p =>
            obtain ⟨rfl, hrest⟩ := List.cons_prefix_cons.1 hp
            rw [length_bytes_cons] at hlen
            exact ⟨p, hrest, by omega⟩

/-- The search ends at a boundary, and passes none. -/
theorem boundary?_spec (bs : List UInt8) (m : Nat) : ∃ k, boundary? bs m = some k ∧ k ≤ m ∧
    isBoundary bs k = true ∧ ∀ j ≤ m, isBoundary bs j = true → j ≤ k := by
  induction m with
  | zero => exact ⟨0, rfl, Nat.le_refl 0, rfl, fun j hj _ => hj⟩
  | succ m ih =>
    rw [boundary?]
    by_cases h : isBoundary bs (m + 1) = true
    · exact ⟨m + 1, if_pos h, Nat.le_refl _, h, fun j hj _ => hj⟩
    · obtain ⟨k, hk, hle, hb, hmax⟩ := ih
      refine ⟨k, (if_neg h).trans hk, Nat.le_succ_of_le hle, hb, fun j hj hjb => ?_⟩
      rcases Nat.lt_or_eq_of_le hj with hlt | rfl
      · exact hmax j (Nat.le_of_lt_succ hlt) hjb
      · exact absurd hjb h

theorem prefix_fitting {n : Nat} {s q : List Char} (hq : q <+: s) (hn : (bytes q).length ≤ n) :
    q <+: fitting n s := by
  induction s generalizing n q with
  | nil => rwa [fitting]
  | cons c s ih =>
    cases q with
    | nil => exact List.nil_prefix
    | cons d q =>
      obtain ⟨rfl, hrest⟩ := List.cons_prefix_cons.1 hq
      rw [length_bytes_cons] at hn
      rw [fitting, if_pos (by omega)]
      exact List.cons_prefix_cons.2 ⟨rfl, ih hrest (by omega)⟩

theorem length_bytes_mono {p s : List Char} (h : p <+: s) : (bytes p).length ≤ (bytes s).length := by
  obtain ⟨r, rfl⟩ := h
  rw [bytes_append, List.length_append]
  exact Nat.le_add_right _ _

theorem take_bytes_beginning {p s : List Char} (h : p <+: s) : (bytes s).take (bytes p).length = bytes p := by
  obtain ⟨r, rfl⟩ := h
  rw [bytes_append, List.take_left]

/-- Byte by byte the search comes to where the longest beginning that fits ends. -/
theorem boundary?_fitting (n : Nat) (s : List Char) :
    boundary? (bytes s) (min (bytes s).length n) = some (bytes (fitting n s)).length := by
  obtain ⟨k, hk, hle, hb, hmax⟩ := boundary?_spec (bytes s) (min (bytes s).length n)
  obtain ⟨p, hp, rfl⟩ := isBoundary_bytes_iff.1 hb
  have hfit := fitting_prefix n s
  have hlower : (bytes (fitting n s)).length ≤ (bytes p).length :=
    hmax _ (Nat.le_min.2 ⟨length_bytes_mono hfit, length_bytes_fitting n s⟩)
      (isBoundary_bytes_iff.2 ⟨_, hfit, rfl⟩)
  have hupper : (bytes p).length ≤ (bytes (fitting n s)).length :=
    length_bytes_mono (prefix_fitting hp (Nat.le_trans hle (Nat.min_le_right _ _)))
  rw [hk, Nat.le_antisymm hupper hlower]

theorem copied?_fitting (n : Nat) (s : List Char) :
    copied? n (bytes s) (bytes (fitting n s)).length =
      some (bytes (fitting n s) ++ List.replicate (n - (bytes (fitting n s)).length) 0) := by
  have hfit := fitting_prefix n s
  rw [copied?, if_pos ⟨length_bytes_fitting n s, length_bytes_mono hfit⟩, take_bytes_beginning hfit,
    List.drop_replicate]

theorem takeWhile_append_replicate {α : Type} [DecidableEq α] (a : α) (xs : List α) (k : Nat) :
    (xs ++ List.replicate k a).takeWhile (· ≠ a) = xs.takeWhile (· ≠ a) := by
  induction xs with
  | nil => cases k <;> simp [List.replicate_succ]
  | cons x xs ih => rw [List.cons_append, List.takeWhile_cons, List.takeWhile_cons, ih]

end Text

namespace FixedText

variable {n : Nat}

/-- The values that there are: those made from a text, the empty one, and those read from a column. -/
inductive Obtained : FixedText n → Prop where
  | made (s : String) : Obtained (ofString n s)
  | empty : Obtained (empty n)
  | read {v : Value} {x : FixedText n} (h : (FieldType.fixedText n).ofValue v = .ok x) : Obtained x

theorem empty_eq_ofString (n : Nat) : empty n = ofString n "" := by
  simp [empty, ofString, Text.fitting, Text.bytes]

theorem isMade_of_ofValue {v : Value} {x : FixedText n} (h : (FieldType.fixedText n).ofValue v = .ok x) :
    x.IsMade := by
  cases v with
  | null =>
    cases h
    exact ⟨"", empty_eq_ofString n⟩
  | text s =>
    cases h
    exact ⟨s, rfl⟩
  | _ => cases h

theorem Obtained.isMade {x : FixedText n} (h : Obtained x) : x.IsMade := by
  cases h with
  | made s => exact ⟨s, rfl⟩
  | empty => exact ⟨"", empty_eq_ofString n⟩
  | read h => exact isMade_of_ofValue h

theorem bytes_ofString (n : Nat) (s : String) : (ofString n s).bytes =
    Text.bytes (Text.fitting n s.toList ++
      List.replicate (n - (Text.bytes (Text.fitting n s.toList)).length) '\x00') := by
  rw [Text.bytes_append, Text.bytes_replicate_zero]
  rfl

theorem takeWhile_bytes_ofString (n : Nat) (s : String) : (ofString n s).bytes.takeWhile (· ≠ 0) =
    Text.bytes ((Text.fitting n s.toList).takeWhile (· ≠ '\x00')) := by
  rw [bytes_ofString, Text.takeWhile_bytes, Text.takeWhile_append_replicate]

/-- What is read of a text is its longest beginning that fits, up to the first zero character. -/
theorem text_ofString (n : Nat) (s : String) :
    (ofString n s).text = String.ofList ((Text.fitting n s.toList).takeWhile (· ≠ '\x00')) := by
  rw [text, takeWhile_bytes_ofString, Text.readable_bytes]

theorem ofBytes?_of_isMade {x : FixedText n} (h : x.IsMade) :
    Text.ofBytes? (x.bytes.takeWhile (· ≠ 0)) = some x.text := by
  obtain ⟨s, rfl⟩ := h
  rw [text_ofString, takeWhile_bytes_ofString, Text.ofBytes?_bytes]

theorem takeWhile_bytes_cut (x : FixedText n) : x.cut.bytes.takeWhile (· ≠ 0) = x.bytes.takeWhile (· ≠ 0) := by
  have hall : ∀ b ∈ x.bytes.takeWhile (· ≠ 0), decide (b ≠ 0) = true := List.all_eq_true.1 List.all_takeWhile
  rw [cut, List.takeWhile_append_of_pos hall, List.takeWhile_replicate]
  simp

theorem text_cut (x : FixedText n) : x.cut.text = x.text := by
  rw [text, takeWhile_bytes_cut, text]

/-- A fixed text holds the longest beginning of its text, in whole characters, that its bytes are enough for, and
zeros behind it. It is read up to its first zero character. -/
theorem ofString_longest (n : Nat) (s : String) :
    (∃ p, p <+: s.toList ∧ (Text.bytes p).length ≤ n ∧
      (∀ q, q <+: s.toList → (Text.bytes q).length ≤ n → q <+: p) ∧
      Text.boundary? (Text.bytes s.toList) (min (Text.bytes s.toList).length n) = some (Text.bytes p).length ∧
      Text.copied? n (Text.bytes s.toList) (Text.bytes p).length = some (ofString n s).bytes ∧
      (ofString n s).bytes = Text.bytes p ++ List.replicate (n - (Text.bytes p).length) 0 ∧
      (ofString n s).text = String.ofList (p.takeWhile (· ≠ '\x00'))) ∧
    ∀ x : FixedText n, Obtained x →
      Text.ofBytes? (x.bytes.take (x.bytes.findIdx (· = 0))) = some x.text ∧
      (ofString n x.text).text = x.text := by
  refine ⟨⟨Text.fitting n s.toList, Text.fitting_prefix n _, Text.length_bytes_fitting n _, ?_,
    Text.boundary?_fitting n _, Text.copied?_fitting n _, rfl, text_ofString n s⟩, ?_⟩
  · intro q hq hn
    exact Text.prefix_fitting hq hn
  · intro x hx
    have hmade := hx.isMade
    have hbefore : x.bytes.take (x.bytes.findIdx (· = 0)) = x.bytes.takeWhile (· ≠ 0) := by
      rw [List.takeWhile_eq_take_findIdx_not]
      simp
    refine ⟨?_, ?_⟩
    · rw [hbefore, ofBytes?_of_isMade hmade]
    · rw [ofString_text hmade, text_cut]

/-- Three bytes, three bytes, a zero, and three bytes of which one would fit. -/
def divided : String := "日本\x00語"

theorem ofString_longest_divided :
    Obtained (ofString 8 divided) ∧
    (∃ p, p <+: divided.toList ∧ Text.boundary? (Text.bytes divided.toList) 8 = some (Text.bytes p).length ∧
      (ofString 8 divided).bytes = Text.bytes p ++ List.replicate (8 - (Text.bytes p).length) 0) ∧
    Text.ofBytes? ((ofString 8 divided).bytes.take ((ofString 8 divided).bytes.findIdx (· = 0))) =
      some (ofString 8 divided).text ∧
    (ofString 8 (ofString 8 divided).text).text = (ofString 8 divided).text := by
  have hread : (FieldType.fixedText 8).ofValue (.text divided) = .ok (ofString 8 divided) := rfl
  obtain ⟨⟨p, hp, -, -, hsearch, -, hbytes, -⟩, hall⟩ := ofString_longest 8 divided
  exact ⟨.read hread, ⟨p, hp, hsearch, hbytes⟩, hall _ (.read hread)⟩

end FixedText
end Rowmap
