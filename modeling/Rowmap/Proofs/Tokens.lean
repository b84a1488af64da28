import Rowmap.Command.Token

/-! What a statement's text is read as, piece by piece. A piece is read by itself as long as a blank, a comma or
a parenthesis follows it, so the tokens of a text that is put together from such pieces are theirs in turn. -/

namespace Rowmap
namespace Token

/-- The tokens of a text, zero characters or not. -/
def tokensOf (s : List Char) : List Token := (scanFrom (afterBlanks s)).map Lexeme.token

/-- A name that is read as itself. A byte order mark at its start would be a blank. -/
def isIdentifier (s : String) : Bool :=
  s.toList.head?.any (fun c => isWordStart c && c != '\ufeff') && s.toList.all isWordPart &&
    !reservedWords.contains s.toUpper

/-- A text in front of which a piece ends. -/
def Ends (s : List Char) : Prop := ∀ c ∈ s.head?, c = ' ' ∨ c = ',' ∨ c = '(' ∨ c = ')'

/-- The text is a piece that is read as the tokens, also behind a blank. -/
structure Spells (w : List Char) (ts : List Token) : Prop where
  read : ∀ rest, Ends rest → tokensOf (w ++ rest) = ts ++ tokensOf rest
  readSpaced : ∀ rest, Ends rest → tokensOf (' ' :: (w ++ rest)) = ts ++ tokensOf rest

theorem ends_nil : Ends [] := nofun

theorem ends_space (s : List Char) : Ends (' ' :: s) := by
  intro c hc
  exact Or.inl (Option.some.inj hc).symm

theorem not_wordPart_of_ends {rest : List Char} (h : Ends rest) : ∀ c ∈ rest.head?, isWordPart c = false := by
  intro c hc
  rcases h c hc with rfl | rfl | rfl | rfl <;> decide

theorem dropWhile_append_ends {α : Type} {p : α → Bool} {w rest : List α} (hw : ∀ c ∈ w, p c = true)
    (hr : ∀ c ∈ rest.head?, p c = false) : (w ++ rest).dropWhile p = rest := by
  rw [List.dropWhile_append_of_pos hw]
  cases rest with
  | nil => rfl
  | cons c s => rw [List.dropWhile_cons_of_neg (by simp [hr c rfl])]

theorem takeWhile_append_ends {α : Type} {p : α → Bool} {w rest : List α} (hw : ∀ c ∈ w, p c = true)
    (hr : ∀ c ∈ rest.head?, p c = false) : (w ++ rest).takeWhile p = w := by
  rw [List.takeWhile_append_of_pos hw]
  cases rest with
  | nil => simp
  | cons c s => rw [List.takeWhile_cons_of_neg (by simp [hr c rfl]), List.append_nil]

theorem length_afterComment_le (s : List Char) : (afterComment s).length ≤ s.length := by
  fun_induction afterComment s with
  | case1 => exact Nat.le_refl _
  | case2 s => simp only [List.length_cons]; omega
  | case3 c s h ih => simp only [List.length_cons]; omega

theorem length_blank? {s r : List Char} (h : blank? s = some r) : r.length < s.length := by
  unfold blank? at h
  split at h
  · cases h
  · cases h
    exact Nat.lt_succ_self _
  · next s =>
    cases h
    have hle := (List.dropWhile_sublist (l := s) (fun x : Char => decide (x ≠ '\n'))).length_le
    simp only [List.length_cons]
    omega
  · next c s =>
    cases h
    have hle := length_afterComment_le (c :: s)
    simp only [List.length_cons] at hle ⊢
    omega
  · next c s _ _ _ =>
    split at h
    · cases h
      have hle := (List.dropWhile_sublist (l := s) isMoreSpace).length_le
      simp only [List.length_cons]
      omega
    · cases h

theorem length_afterBlanks_le (s : List Char) : (afterBlanks s).length ≤ s.length := by
  fun_induction afterBlanks s with
  | case1 s r h hlt ih => omega
  | case2 s r h hlt => exact Nat.le_of_lt (length_blank? h)
  | case3 s h => exact Nat.le_refl _

theorem afterBlanks_of_none {s : List Char} (h : blank? s = none) : afterBlanks s = s := by
  rw [afterBlanks, h]

theorem afterBlanks_space {s : List Char} (h : blank? s = none) (hm : ∀ c ∈ s.head?, isMoreSpace c = false) :
    afterBlanks (' ' :: s) = s := by
  have hb : blank? (' ' :: s) = some s := by
    have hd : s.dropWhile isMoreSpace = s := dropWhile_append_ends (w := []) nofun hm
    show some (s.dropWhile isMoreSpace) = some s
    rw [hd]
  rw [afterBlanks, hb]
  simp only [List.length_cons, Nat.lt_succ_self, if_true]
  exact afterBlanks_of_none h

theorem tokensOf_nil : tokensOf [] = [] := by
  rw [tokensOf, afterBlanks_of_none rfl, scanFrom, if_pos rfl]
  rfl

theorem scanFrom_of_next {s r : List Char} {t : Token} (h : next? s = some (t, r))
    (hlt : r.length < s.length) : (scanFrom s).map Lexeme.token = t :: tokensOf r := by
  have hs : s ≠ [] := by
    rintro rfl
    cases h
  have hle := length_afterBlanks_le r
  rw [scanFrom, if_neg hs, h]
  simp only
  rw [if_pos (by omega), List.map_cons]
  rfl

/-- A character that no blank begins with, or is followed by. -/
def isSolid (c : Char) : Bool := !isMoreSpace c && c != '\ufeff' && c != '-' && c != '/'

theorem blank?_solid {c : Char} (h : isSolid c = true) (s : List Char) : blank? (c :: s) = none := by
  unfold isSolid isMoreSpace at h
  unfold blank?
  split <;> simp_all

theorem spells_of_next {c : Char} {w : List Char} {t : Token} (hc : isMoreSpace c = false)
    (hb : ∀ rest, Ends rest → blank? (c :: w ++ rest) = none)
    (hn : ∀ rest, Ends rest → next? (c :: w ++ rest) = some (t, rest)) : Spells (c :: w) [t] where
  read rest hr := by
    rw [tokensOf, afterBlanks_of_none (hb rest hr)]
    exact scanFrom_of_next (hn rest hr) (by rw [List.length_append, List.length_cons]; omega)
  readSpaced rest hr := by
    rw [tokensOf, afterBlanks_space (hb rest hr) (fun d hd => by cases hd; exact hc)]
    exact scanFrom_of_next (hn rest hr) (by rw [List.length_append, List.length_cons]; omega)

/-- Two pieces with a blank between them. -/
theorem Spells.append {v w : List Char} {ts us : List Token} (hv : Spells v ts) (hw : Spells w us) :
    Spells (v ++ ' ' :: w) (ts ++ us) where
  read rest hr := by
    rw [List.append_assoc, List.cons_append, hv.read _ (ends_space _), hw.readSpaced rest hr,
      List.append_assoc]
  readSpaced rest hr := by
    rw [List.append_assoc, List.cons_append, hv.readSpaced _ (ends_space _), hw.readSpaced rest hr,
      List.append_assoc]

theorem ends_cases {s : List Char} (h : Ends s) :
    s = [] ∨ (∃ r, s = ' ' :: r) ∨ (∃ r, s = ',' :: r) ∨ (∃ r, s = '(' :: r) ∨ ∃ r, s = ')' :: r := by
  cases s with
  | nil => exact Or.inl rfl
  | cons c r => simpa using h c rfl

theorem not_digit_of_ends {rest : List Char} (h : Ends rest) : ∀ c ∈ rest.head?, c.isDigit = false := by
  intro c hc
  rcases h c hc with rfl | rfl | rfl | rfl <;> decide

theorem not_quote_of_ends {rest : List Char} (h : Ends rest) : rest.head? ≠ some '\'' := by
  intro hc
  rcases h _ hc with hc | hc | hc | hc <;> cases hc

theorem isSolid_of_wordStart {c : Char} (h : isWordStart c = true) (hb : c ≠ '\ufeff') :
    isSolid c = true := by
  simp only [isSolid, isMoreSpace, isSpace, Bool.and_eq_true, Bool.not_eq_true', Bool.or_eq_false_iff,
    decide_eq_false_iff_not, bne_iff_ne]
  refine ⟨⟨⟨⟨⟨⟨⟨⟨?_, ?_⟩, ?_⟩, ?_⟩, ?_⟩, ?_⟩, hb⟩, ?_⟩, ?_⟩ <;> rintro rfl <;> revert h <;> decide

theorem word?_append {w rest : List Char} (hw : ∀ c ∈ w, isWordPart c = true) (hr : Ends rest) :
    word? (w ++ rest) = some (ofWord (String.ofList w), rest) := by
  have hpart := not_wordPart_of_ends hr
  simp only [word?, takeWhile_append_ends hw hpart, dropWhile_append_ends hw hpart,
    not_quote_of_ends hr, false_and, if_false]

theorem spells_ofWord {s : String}
    (hstart : s.toList.head?.any (fun c => isWordStart c && c != '\ufeff') = true)
    (hpart : s.toList.all isWordPart = true) : Spells s.toList [ofWord s] := by
  cases hs : s.toList with
  | nil => simp [hs] at hstart
  | cons c w =>
    have hof : String.ofList (c :: w) = s := by rw [← hs, String.ofList_toList]
    rw [hs] at hstart hpart
    simp only [List.head?_cons, Option.any_some, Bool.and_eq_true, bne_iff_ne] at hstart
    have hsolid := isSolid_of_wordStart hstart.1 hstart.2
    refine spells_of_next ?_ (fun rest hr => blank?_solid hsolid _) (fun rest hr => ?_)
    · simp only [isSolid, Bool.and_eq_true, Bool.not_eq_true'] at hsolid
      exact hsolid.1.1.1
    · have hword := word?_append (List.all_eq_true.1 hpart) hr
      rw [hof] at hword
      rw [List.cons_append, next?, if_pos hstart.1, ← List.cons_append, hword]

theorem spells_identifier {s : String} (h : isIdentifier s = true) : Spells s.toList [.word s] := by
  simp only [isIdentifier, Bool.and_eq_true] at h
  have hw : ofWord s = .word s := by
    rw [ofWord, if_neg (by simpa using h.2)]
  rw [← hw]
  exact spells_ofWord h.1.1 h.1.2

theorem spells_symbol {op : Operator} (h : op.isComparison = true) :
    Spells op.symbol.toList [.compare op] := by
  cases op
  case and => cases h
  case assign => cases h
  all_goals
    refine spells_of_next (by decide) (fun rest hr => blank?_solid (by decide) _) (fun rest hr => ?_)
    rcases ends_cases hr with rfl | ⟨r, rfl⟩ | ⟨r, rfl⟩ | ⟨r, rfl⟩ | ⟨r, rfl⟩ <;> rfl

theorem spells_text (s : String) : Spells (Text.quote s).toList [.text s] := by
  rw [Text.quote, String.toList_ofList, Text.Quoted.quoted]
  refine spells_of_next (by decide) (fun rest hr => blank?_solid (by decide) _) (fun rest hr => ?_)
  have hbody := Text.Quoted.body?_encode s.toList (not_quote_of_ends hr)
  rw [List.cons_append, List.append_assoc, List.singleton_append]
  show enclosed? '\'' _ = _
  simp only [enclosed?, Char.reduceEq, if_false, hbody, Option.map_some, if_true, String.ofList_toList]

theorem decimal?_append {ds rest : List Char} (hd : ∀ c ∈ ds, c.isDigit = true) (hr : Ends rest) :
    afterNumeral?.decimal? (ds ++ rest) = some rest := by
  rw [afterNumeral?.decimal?, dropWhile_append_ends hd (not_digit_of_ends hr)]
  rcases ends_cases hr with rfl | ⟨r, rfl⟩ | ⟨r, rfl⟩ | ⟨r, rfl⟩ | ⟨r, rfl⟩ <;> rfl

/-- The second character is no letter, so the digits are not taken for a prefix. -/
theorem afterNumeral?_append {ds rest : List Char} (hd : ∀ c ∈ ds, c.isDigit = true) (hr : Ends rest) :
    afterNumeral? (ds ++ rest) = some rest := by
  have hdec := decimal?_append hd hr
  cases ds with
  | nil => rcases ends_cases hr with rfl | ⟨r, rfl⟩ | ⟨r, rfl⟩ | ⟨r, rfl⟩ | ⟨r, rfl⟩ <;> exact hdec
  | cons c ds =>
    have hx : ∀ x ∈ (ds ++ rest).head?, x ≠ 'x' ∧ x ≠ 'X' := by
      intro x hx
      cases ds with
      | nil => rcases hr x hx with rfl | rfl | rfl | rfl <;> decide
      | cons d ds =>
        have hdig : x.isDigit = true := by
          cases hx
          exact hd x (by simp)
        constructor <;> rintro rfl <;> cases hdig
    rw [List.cons_append] at hdec ⊢
    unfold afterNumeral?
    split
    · next x d r hs =>
      rw [(List.cons.inj hs).2] at hx
      rw [if_neg (by simp [hx x rfl]), hdec]
    · exact hdec

theorem before_append (w rest : List Char) : before (w ++ rest) rest = String.ofList w := by
  simp [before]

theorem number?_append {ds rest : List Char} (hd : ∀ c ∈ ds, c.isDigit = true) (hr : Ends rest) :
    number? (ds ++ rest) = some (.number (String.ofList ds), rest) := by
  rw [number?, afterNumeral?_append hd hr, Option.map_some, before_append]

theorem isSolid_of_isDigit {c : Char} (h : c.isDigit = true) : isSolid c = true ∧ isWordStart c = false := by
  have hall : ∀ n < 58, 48 ≤ n →
      isSolid (Char.ofNat n) = true ∧ isWordStart (Char.ofNat n) = false := by decide
  obtain ⟨hge, hle⟩ := Char.isDigit_iff_toNat.1 h
  have hc := hall c.toNat (Nat.lt_succ_of_le hle) hge
  rwa [Char.ofNat_toNat] at hc

theorem spells_digits {ds : List Char} (h : ds ≠ []) (hd : ∀ c ∈ ds, c.isDigit = true) :
    Spells ds [.number (String.ofList ds)] := by
  cases ds with
  | nil => exact absurd rfl h
  | cons c ds =>
    have hc : c.isDigit = true := hd c (List.mem_cons_self ..)
    obtain ⟨hsolid, hword⟩ := isSolid_of_isDigit hc
    refine spells_of_next ?_ (fun rest hr => blank?_solid hsolid _) (fun rest hr => ?_)
    · simp only [isSolid, Bool.and_eq_true, Bool.not_eq_true'] at hsolid
      exact hsolid.1.1.1
    · have hnum := number?_append hd hr
      rw [List.cons_append] at hnum ⊢
      rw [next?, if_neg (by simp [hword]), if_pos (by simp [hc]), hnum]

def ofInt (n : Int) : List Token :=
  if n < 0 then [.minus, .number (String.ofList (Decimal.natText n.natAbs))]
  else [.number (String.ofList (Decimal.natText n.natAbs))]

theorem spells_natText (n : Nat) : Spells (Decimal.natText n) (ofInt n) := by
  rw [ofInt, if_neg (by omega)]
  exact spells_digits Nat.toDigits_ne_nil fun c hc => Decimal.isDigit_of_mem_natText hc

/-- Behind the minus stands no other, so no comment begins. -/
theorem spells_minus {c : Char} {w : List Char} {ts : List Token} (hc : c ≠ '-') (hw : Spells (c :: w) ts) :
    Spells ('-' :: c :: w) (.minus :: ts) := by
  have hb : ∀ s, blank? ('-' :: c :: s) = none := by
    intro s
    unfold blank?
    split
    · next h => cases h
    · next h => cases h
    · next h =>
      cases h
      exact absurd rfl hc
    · next h => cases h
    · next h =>
      cases h
      rfl
  have hn : ∀ s, next? ('-' :: s) = some (.minus, s) := fun s => rfl
  constructor <;> intro rest hr
  · rw [tokensOf, List.cons_append, List.cons_append, afterBlanks_of_none (hb _), ← List.cons_append,
      scanFrom_of_next (hn _) (Nat.lt_succ_self _), hw.read rest hr]
    rfl
  · rw [tokensOf, List.cons_append, List.cons_append, afterBlanks_space (hb _) (fun d hd => by cases hd; rfl),
      ← List.cons_append, scanFrom_of_next (hn _) (Nat.lt_succ_self _), hw.read rest hr]
    rfl

theorem spells_intText (n : Int) : Spells (Decimal.intText n) (ofInt n) := by
  by_cases hn : n < 0
  · rw [Decimal.intText, if_pos hn, ofInt, if_pos hn]
    have hdigits := spells_natText n.natAbs
    rw [ofInt, if_neg (by omega), Int.natAbs_natCast] at hdigits
    cases hs : Decimal.natText n.natAbs with
    | nil => exact absurd hs Nat.toDigits_ne_nil
    | cons c w =>
      have hc : c.isDigit = true := Decimal.isDigit_of_mem_natText (by rw [hs]; simp)
      rw [hs] at hdigits
      refine spells_minus ?_ hdigits
      rintro rfl
      cases hc
  · have h := spells_natText n.natAbs
    rw [Decimal.intText, if_neg hn]
    rwa [show ((n.natAbs : Nat) : Int) = n by omega] at h

end Token
end Rowmap
