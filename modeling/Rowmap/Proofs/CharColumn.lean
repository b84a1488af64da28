import Mathlib.Data.List.DropRight
import Rowmap.Backend.Remote
import Rowmap.Proofs.Members
import Rowmap.Proofs.Padding

/-! Fixed texts that come back from a server. A column of so many characters fills its texts up with blanks. They are
taken off under the name that the catalogue has for the type of the column. The driver has another name for it, and
under that one they are read with the text: the value gets as many as it has bytes left. So a text comes back as it
was if it leaves no byte, whether or not it ends in blanks of its own, and longer if it leaves one. -/

namespace Rowmap

namespace Text

/-- A text as it stands in a column of so many characters. -/
def blankPadded (n : Nat) (s : String) : String :=
  String.ofList (s.toList ++ List.replicate (n - s.toList.length) ' ')

theorem toList_stripped (s : String) : (stripped s).toList = s.toList.rdropWhile (· = ' ') := String.toList_ofList

theorem prefix_stripped (s : String) : (stripped s).toList <+: s.toList := by
  rw [toList_stripped]
  exact List.rdropWhile_prefix _ _

theorem stripped_eq_self_iff {s : String} : stripped s = s ↔ s.toList.getLast? ≠ some ' ' := by
  have hlist : stripped s = s ↔ s.toList.rdropWhile (· = ' ') = s.toList := by
    rw [← String.toList_inj, toList_stripped]
  rw [hlist, List.rdropWhile_eq_self_iff]
  cases h : s.toList with
  | nil => simp
  | cons c s => simp [List.getLast?_eq_some_getLast]

theorem append_blanks_eq_stripped_iff {s : String} {k : Nat} :
    s ++ String.ofList (List.replicate k ' ') = stripped s ↔ k = 0 ∧ s.toList.getLast? ≠ some ' ' := by
  rw [← stripped_eq_self_iff]
  constructor
  · intro h
    have hlengths := congrArg (fun s => s.toList.length) h
    have hle := (prefix_stripped s).length_le
    simp only [String.toList_append, String.toList_ofList, List.length_append, List.length_replicate] at hlengths
    obtain rfl : k = 0 := by omega
    exact ⟨rfl, by simpa using h.symm⟩
  · rintro ⟨rfl, h⟩
    rw [h]
    simp

/-- Padding is taken off with the blanks that the text itself ends in. -/
theorem stripped_blankPadded (n : Nat) (s : String) : stripped (blankPadded n s) = stripped s := by
  rw [stripped, stripped, blankPadded, String.toList_ofList, List.reverse_append, List.reverse_replicate,
    List.dropWhile_append_of_pos]
  intro c hc
  exact decide_eq_true (List.eq_of_mem_replicate hc)

theorem fitting_blanks {n k : Nat} (h : n ≤ k) : fitting n (List.replicate k ' ') = List.replicate n ' ' := by
  have hsize : Char.utf8Size ' ' = 1 := by decide
  induction n generalizing k with
  | zero =>
    cases k with
    | zero => rfl
    | succ k => rw [List.replicate_succ, fitting, if_neg (by omega), List.replicate_zero]
  | succ n ih =>
    obtain ⟨k, rfl⟩ := Nat.exists_eq_add_one_of_ne_zero (show k ≠ 0 by omega)
    rw [List.replicate_succ, fitting, hsize, if_pos (by omega), Nat.add_sub_cancel, ih (by omega),
      List.replicate_succ]

/-- As many blanks fit behind a text as it leaves bytes. -/
theorem fitting_append_blanks {n k : Nat} {s : List Char} (hs : (bytes s).length ≤ n)
    (hk : n - (bytes s).length ≤ k) :
    fitting n (s ++ List.replicate k ' ') = s ++ List.replicate (n - (bytes s).length) ' ' := by
  induction s generalizing n with
  | nil => exact fitting_blanks hk
  | cons c s ih =>
    rw [length_bytes_cons] at hs hk
    rw [List.cons_append, fitting, if_pos (by omega), ih (by omega) (by omega), length_bytes_cons, Nat.sub_sub]
    rfl

end Text

namespace FixedText

variable {n : Nat}

def spare (x : FixedText n) : Nat := n - (Text.bytes x.text.toList).length

theorem zero_notMem_text (x : FixedText n) : '\x00' ∉ x.text.toList := by
  intro h
  have hbyte : (0 : UInt8) ∈ Text.bytes x.text.toList :=
    List.mem_flatMap.2 ⟨'\x00', h, by rw [Text.encode_zero]; exact List.mem_singleton_self 0⟩
  have hbefore := List.mem_takeWhile_imp (x.bytes_text_prefix.subset hbyte)
  simp at hbefore

theorem fitting_blankPadded (x : FixedText n) :
    Text.fitting n (Text.blankPadded n x.text).toList = x.text.toList ++ List.replicate x.spare ' ' := by
  have hle := Text.length_le_bytes x.text.toList
  rw [Text.blankPadded, String.toList_ofList]
  exact Text.fitting_append_blanks x.length_bytes_text_le (by omega)

theorem text_ofString_blankPadded (x : FixedText n) :
    (ofString n (Text.blankPadded n x.text)).text = x.text ++ String.ofList (List.replicate x.spare ' ') := by
  have hzero : ∀ c ∈ x.text.toList ++ List.replicate x.spare ' ', decide (c ≠ '\x00') = true := by
    intro c hc
    rcases List.mem_append.1 hc with hc | hc
    · exact decide_eq_true fun h0 => x.zero_notMem_text (h0 ▸ hc)
    · rw [List.eq_of_mem_replicate hc]
      decide
  rw [text_ofString, fitting_blankPadded, List.takeWhile_eq_self_iff.2 hzero, String.ofList_append,
    String.ofList_toList]

theorem bytes_text_of_full {x : FixedText n} (h : x.spare = 0) : Text.bytes x.text.toList = x.bytes := by
  have hprefix := x.bytes_text_prefix.trans (List.takeWhile_prefix _)
  have hle := x.length_bytes_text_le
  refine hprefix.eq_of_length ?_
  rw [x.length_bytes]
  rw [spare] at h
  omega

theorem ofString_blankPadded_eq_iff (x : FixedText n) : ofString n (Text.blankPadded n x.text) = x ↔ x.spare = 0 := by
  constructor
  · intro h
    have htext := x.text_ofString_blankPadded
    rw [h] at htext
    simpa using congrArg (fun s => s.toList.length) htext
  · intro h
    apply eq_of_bytes
    have hbytes := bytes_text_of_full h
    simp only [ofString, fitting_blankPadded, h, List.replicate_zero, List.append_nil, hbytes, x.length_bytes,
      Nat.sub_self]

theorem text_ofString_stripped (x : FixedText n) : (ofString n (Text.stripped x.text)).text = Text.stripped x.text := by
  have hprefix := Text.prefix_stripped x.text
  have hzero : ∀ c ∈ (Text.stripped x.text).toList, decide (c ≠ '\x00') = true :=
    fun c hc => decide_eq_true fun h0 => x.zero_notMem_text (h0 ▸ hprefix.subset hc)
  have hle := (Text.length_bytes_mono hprefix).trans x.length_bytes_text_le
  rw [text_ofString, Text.fitting_of_le hle, List.takeWhile_eq_self_iff.2 hzero, String.ofList_toList]

theorem ofString_stripped_eq_iff {x : FixedText n} (hx : x.IsMade) :
    ofString n (Text.stripped x.text) = x ↔ x.text.toList.getLast? ≠ some ' ' ∧ x.isPadded = true := by
  rw [← Text.stripped_eq_self_iff, ← cut_eq_self_iff, ← ofString_text hx]
  constructor
  · intro h
    have htext : Text.stripped x.text = x.text := by rw [← x.text_ofString_stripped, h]
    rw [htext] at h
    exact ⟨htext, h⟩
  · rintro ⟨htext, h⟩
    rw [htext, h]

end FixedText

namespace Datum

variable {typeName : RemoteType → String}

theorem read_char (h : typeName .bpchar = "CHAR") (s : String) :
    read typeName ⟨.bpchar, some s⟩ = .ok (.text s) := by
  simp only [read, RemoteType.read, h]
  rfl

theorem read_bpchar (h : typeName .bpchar = "BPCHAR") (s : String) :
    read typeName ⟨.bpchar, some s⟩ = .ok (.text (Text.stripped s)) := by
  simp only [read, RemoteType.read, h]
  rfl

/-- What a column is read as, and null if it cannot be read. -/
def value (typeName : RemoteType → String) (d : Datum) : Value :=
  match d.read typeName with
  | .ok v => v
  | .error _ => .null

end Datum

namespace Remote

section

variable {typeName : RemoteType → String} {columns : List (String × Datum)} {name : String}

theorem readRow_eq (h : ∀ c ∈ columns, ∃ v, c.2.read typeName = .ok v) :
    readRow typeName columns = .ok (.ofList (columns.map fun c => (c.1, c.2.value typeName))) := by
  have hall : columns.mapM (fun c => do return (c.1, ← c.2.read typeName)) =
      (Except.ok (columns.map fun c => (c.1, c.2.value typeName)) : Except Error (List (String × Value))) := by
    induction columns with
    | nil => rfl
    | cons c columns ih =>
      obtain ⟨v, hv⟩ := h c (List.mem_cons_self ..)
      rw [List.mapM_cons, ih fun c' hc' => h c' (List.mem_cons_of_mem _ hc'), List.map_cons, Datum.value, hv]
      rfl
  rw [readRow, hall]
  rfl

theorem lookup_map_value (columns : List (String × Datum)) (name : String) :
    (columns.map fun c => (c.1, c.2.value typeName)).lookup name =
      (columns.lookup name).map (Datum.value typeName) := by
  induction columns with
  | nil => rfl
  | cons c columns ih =>
    rw [List.map_cons, List.lookup_cons, List.lookup_cons, ih]
    split <;> rfl

/-- A row in which every column can be read has, under each name, what the last column of that name is read as. -/
theorem value?_of_readRow {d : Datum} {v : Value} (h : ∀ c ∈ columns, ∃ v, c.2.read typeName = .ok v)
    (hlast : columns.reverse.lookup name = some d) (hd : d.read typeName = .ok v) :
    ∃ row, readRow typeName columns = .ok row ∧ row.value? name = some v := by
  refine ⟨_, readRow_eq h, ?_⟩
  rw [Row.value?_ofList, ← List.map_reverse, lookup_map_value, hlast, Option.map_some, Datum.value, hd]

variable {n : Nat} (x : FixedText n)

/-- Under the name of the catalogue a text comes back without the blanks at its end and with all the others, and the
value as it was exactly if there are none there and nothing is behind the text but zeros. -/
theorem bpcharColumn_read (hbpchar : typeName .bpchar = "BPCHAR")
    (hread : ∀ c ∈ columns, ∃ v, c.2.read typeName = .ok v)
    (hlast : columns.reverse.lookup name = some ⟨.bpchar, some (Text.blankPadded n x.text)⟩) :
    ∃ row v y, readRow typeName columns = .ok row ∧ row.value? name = some v ∧
      (FieldType.fixedText n).ofValue v = .ok y ∧ y.text = Text.stripped x.text ∧
      (x.IsMade → (y = x ↔ x.text.toList.getLast? ≠ some ' ' ∧ x.isPadded = true)) := by
  obtain ⟨row, hrow, hvalue⟩ := value?_of_readRow hread hlast (Datum.read_bpchar hbpchar _)
  rw [Text.stripped_blankPadded] at hvalue
  exact ⟨row, _, .ofString n (Text.stripped x.text), hrow, hvalue, rfl, x.text_ofString_stripped,
    FixedText.ofString_stripped_eq_iff⟩

/-- Where the driver calls the type of the column CHAR, a text is read with its padding: without blanks at its end
only if it leaves no byte and ends in none, and as the same value exactly if it leaves no byte. -/
theorem charColumn_read (hchar : typeName .bpchar = "CHAR")
    (hread : ∀ c ∈ columns, ∃ v, c.2.read typeName = .ok v)
    (hlast : columns.reverse.lookup name = some ⟨.bpchar, some (Text.blankPadded n x.text)⟩) :
    x.text.length ≤ n ∧ ∃ row v y, readRow typeName columns = .ok row ∧ row.value? name = some v ∧
      (FieldType.fixedText n).ofValue v = .ok y ∧
      y.text = x.text ++ String.ofList (List.replicate x.spare ' ') ∧
      (y.text = Text.stripped x.text ↔ x.spare = 0 ∧ x.text.toList.getLast? ≠ some ' ') ∧
      (y = x ↔ x.spare = 0) := by
  obtain ⟨row, hrow, hvalue⟩ := value?_of_readRow hread hlast (Datum.read_char hchar _)
  have htext := x.text_ofString_blankPadded
  refine ⟨x.length_text_le, row, _, .ofString n (Text.blankPadded n x.text), hrow, hvalue, rfl, htext, ?_,
    x.ofString_blankPadded_eq_iff⟩
  rw [htext]
  exact Text.append_blanks_eq_stripped_iff

end

/-- A blank of its own and one that fits behind it, in the last of two columns of the name. -/
theorem charColumn_read_short :
    (FixedText.ofString 4 "é ").text = "é " ∧ RemoteType.label .bpchar = "CHAR" ∧
    ∃ row v y, readRow RemoteType.label
        [("code", ⟨.int4, none⟩), ("code", ⟨.bpchar, some "é   "⟩), ("seen", ⟨.date, none⟩)] = .ok row ∧
      row.value? "code" = some v ∧ (FieldType.fixedText 4).ofValue v = .ok y ∧ y.text = "é  " ∧
      y ≠ FixedText.ofString 4 "é " := by
  have htext : (FixedText.ofString 4 "é ").text = "é " := by
    rw [FixedText.text_ofString]
    decide
  have hspare : (FixedText.ofString 4 "é ").spare = 1 := by
    rw [FixedText.spare, htext]
    decide
  have hpadded : Text.blankPadded 4 (FixedText.ofString 4 "é ").text = "é   " := by
    rw [htext]
    decide
  have hread : ∀ c ∈ [("code", (⟨.int4, none⟩ : Datum)), ("code", ⟨.bpchar, some "é   "⟩), ("seen", ⟨.date, none⟩)],
      ∃ v, c.2.read RemoteType.label = .ok v := by
    simp only [List.forall_mem_cons, List.not_mem_nil, false_implies, implies_true, and_true]
    exact ⟨⟨.null, rfl⟩, ⟨_, Datum.read_char rfl _⟩, ⟨.null, rfl⟩⟩
  obtain ⟨-, row, v, y, hrow, hvalue, hy, hytext, -, hsame⟩ := @charColumn_read RemoteType.label
    [("code", ⟨.int4, none⟩), ("code", ⟨.bpchar, some "é   "⟩), ("seen", ⟨.date, none⟩)] "code" 4 (.ofString 4 "é ")
    rfl hread (by rw [hpadded]; rfl)
  refine ⟨htext, rfl, row, v, y, hrow, hvalue, hy, ?_, fun h => ?_⟩
  · rw [hytext, htext, hspare]
    decide
  · have hzero := hsame.1 h
    rw [hspare] at hzero
    cases hzero

/-- One character in a column of three comes back with two blanks behind it, and is another value. Two characters
and a blank are the value they were. -/
theorem blanks_unstripped :
    RemoteType.label .bpchar = "CHAR" ∧ (FixedText.ofString 3 "a").text = "a" ∧ Text.stripped "a" = "a" ∧
    readRow RemoteType.label [("code", ⟨.bpchar, some (Text.blankPadded 3 "a")⟩)] =
      .ok (.ofList [("code", .text "a  ")]) ∧
    (FieldType.fixedText 3).ofValue (.text "a  ") = .ok (.ofString 3 "a  ") ∧
    (FixedText.ofString 3 "a  ").text = "a  " ∧ FixedText.ofString 3 "a  " ≠ FixedText.ofString 3 "a" ∧
    readRow RemoteType.label [("code", ⟨.bpchar, some (Text.blankPadded 3 "ab ")⟩)] =
      .ok (.ofList [("code", .text "ab ")]) ∧
    (FieldType.fixedText 3).ofValue (.text "ab ") = .ok (.ofString 3 "ab ") := by
  have hpadded : Text.blankPadded 3 "a" = "a  " := by decide
  have hfull : Text.blankPadded 3 "ab " = "ab " := by decide
  have hread : ∀ s, readRow RemoteType.label [("code", ⟨.bpchar, some s⟩)] = .ok (.ofList [("code", .text s)]) := by
    intro s
    have hcolumn : Datum.read RemoteType.label ⟨.bpchar, some s⟩ = .ok (.text s) := Datum.read_char rfl s
    simp only [readRow, List.mapM_cons, List.mapM_nil, hcolumn]
    rfl
  refine ⟨rfl, ?_, by decide, ?_, rfl, ?_, by decide, ?_, rfl⟩
  · rw [FixedText.text_ofString]
    decide
  · rw [hpadded, hread]
  · rw [FixedText.text_ofString]
    decide
  · rw [hfull, hread]

end Remote

end Rowmap
