import Mathlib.Logic.Function.Basic
import Rowmap.Command.Token

/-! Where a quoted text ends. A reader takes it character by character and is open until behind a quote something
other than a quote comes. Through the quoted form of a text it stays open to the last character, so whatever the
text is, it is read back whole and what follows is left; and nothing else is read as that text. -/

namespace Rowmap.Text

namespace Quoted

/-- Where a reader of one quoted text stands, with the contents so far. -/
inductive Reader where
  | start
  | inside (contents : List Char)
  /-- Behind a quote, which ends the text unless another one follows. -/
  | behindQuote (contents : List Char)
  | closed (contents rest : List Char)
  | refused
deriving DecidableEq, Repr

namespace Reader

def step : Reader → Char → Reader
  | start, c => if c = '\'' then inside [] else refused
  | inside s, c => if c = '\'' then behindQuote s else inside (s ++ [c])
  | behindQuote s, c => if c = '\'' then inside (s ++ ['\'']) else closed s [c]
  | closed s r, c => closed s (r ++ [c])
  | refused, _ => refused

def run (a : Reader) (cs : List Char) : Reader := cs.foldl step a

/-- The contents and what is left, if the text may end here. -/
def result? : Reader → Option (List Char × List Char)
  | behindQuote s => some (s, [])
  | closed s r => some (s, r)
  | _ => none

def isClosed : Reader → Bool
  | closed _ _ => true
  | _ => false

@[simp] theorem run_nil (a : Reader) : a.run [] = a := rfl

@[simp] theorem run_cons (a : Reader) (c : Char) (cs : List Char) : a.run (c :: cs) = (a.step c).run cs := rfl

theorem run_append (a : Reader) (cs ds : List Char) : a.run (cs ++ ds) = (a.run cs).run ds :=
  List.foldl_append

theorem run_closed (s r cs : List Char) : (closed s r).run cs = closed s (r ++ cs) := by
  induction cs generalizing r with
  | nil => simp
  | cons c cs ih => rw [run_cons, step, ih, List.append_assoc, List.singleton_append]

theorem run_refused (cs : List Char) : refused.run cs = refused := by
  induction cs with
  | nil => rfl
  | cons c cs ih => rw [run_cons, step, ih]

end Reader

theorem encode_append (s t : List Char) : encode (s ++ t) = encode s ++ encode t := by
  induction s with
  | nil => rfl
  | cons c s ih =>
    rw [List.cons_append, encode, encode, ih]
    split <;> rfl

namespace Reader

/-- The text that has been read when the reader stands there. -/
def Reads : Reader → List Char → Prop
  | start, cs => cs = []
  | inside s, cs => cs = '\'' :: encode s
  | behindQuote s, cs => cs = quoted s
  | closed s r, cs => cs = quoted s ++ r ∧ r ≠ [] ∧ r.head? ≠ some '\''
  | refused, _ => True

theorem reads_step {a : Reader} {cs : List Char} (h : a.Reads cs) (c : Char) : (a.step c).Reads (cs ++ [c]) := by
  cases a with
  | start =>
    cases h
    rw [step]
    split
    · next hc => rw [hc]; rfl
    · trivial
  | inside s =>
    cases h
    rw [step]
    split
    · next hc => rw [hc]; rfl
    · next hc =>
      show _ = '\'' :: encode (s ++ [c])
      rw [encode_append, encode, if_neg hc]
      rfl
  | behindQuote s =>
    cases h
    rw [step]
    split
    · next hc =>
      -- the quote before was not the closing one: the two stand for one
      show _ = '\'' :: encode (s ++ ['\''])
      rw [hc, encode_append, quoted, List.cons_append, List.append_assoc]
      rfl
    · next hc => exact ⟨rfl, by simp, fun h => hc (Option.some.inj h)⟩
  | closed s r =>
    obtain ⟨rfl, hne, hr⟩ := h
    refine ⟨List.append_assoc .., by simp, ?_⟩
    cases r with
    | nil => exact absurd rfl hne
    | cons d r => exact hr
  | refused => trivial

theorem reads_run {a : Reader} {cs : List Char} (h : a.Reads cs) (ds : List Char) :
    (a.run ds).Reads (cs ++ ds) := by
  induction ds generalizing a cs with
  | nil => simpa using h
  | cons d ds ih => simpa using ih (reads_step h d)

theorem run_encode (t s : List Char) : (inside t).run (encode s) = inside (t ++ s) := by
  induction s generalizing t with
  | nil => simp [encode]
  | cons c s ih =>
    have hone : (inside t).run (encode [c]) = inside (t ++ [c]) := by
      by_cases hc : c = '\''
      · simp [encode, hc, step]
      · simp [encode, hc, step]
    rw [← List.singleton_append, encode_append, run_append, hone, ih, List.append_assoc]

theorem run_quoted (s : List Char) : start.run (quoted s) = behindQuote s := by
  rw [quoted, run_cons, step, if_pos rfl, run_append, run_encode]
  rfl

/-- A reader that has closed the text stays so, and at the end of a quoted form it is still open. -/
theorem isClosed_of_isPrefix {s p : List Char} (h : p <+: quoted s) : (start.run p).isClosed = false := by
  obtain ⟨q, hq⟩ := h
  cases hp : start.run p with
  | closed t r =>
    have hend := run_quoted s
    rw [← hq, run_append, hp, run_closed] at hend
    cases hend
  | _ => rfl

theorem result?_run_inside (t cs : List Char) :
    ((inside t).run cs).result? = (body? '\'' cs).map fun p => (t ++ p.1, p.2) := by
  fun_induction body? '\'' cs generalizing t with
  | case1 => rfl
  | case2 => simp [step, result?]
  | case3 r ih => simp [step, ih, Function.comp_def]
  | case4 d r hd => simp [step, hd, run_closed, result?]
  | case5 c s hc ih => simp [step, hc, ih, Function.comp_def]

end Reader

theorem read?_eq_result? (cs : List Char) : read? cs = (Reader.start.run cs).result? := by
  cases cs with
  | nil => rfl
  | cons c cs =>
    by_cases hc : c = '\''
    · simp [hc, read?, Reader.step, Reader.result?_run_inside]
    · have hread : read? (c :: cs) = none := by
        unfold read?
        split
        · next h => exact absurd (List.cons.inj h).1 hc
        · rfl
      rw [hread, Reader.run_cons, Reader.step, if_neg hc, Reader.run_refused]
      rfl

theorem read?_quoted_append (s : List Char) {r : List Char} (h : r.head? ≠ some '\'') :
    read? (quoted s ++ r) = some (s, r) := by
  rw [quoted, List.cons_append, List.append_assoc]
  exact body?_encode s h

theorem eq_quoted_append_of_read? {cs s r : List Char} (h : read? cs = some (s, r)) :
    cs = quoted s ++ r ∧ r.head? ≠ some '\'' := by
  have hstart : Reader.start.Reads [] := rfl
  have hreads := Reader.reads_run hstart cs
  rw [read?_eq_result?] at h
  rw [List.nil_append] at hreads
  cases hrun : Reader.start.run cs with
  | behindQuote t =>
    rw [hrun] at h hreads
    cases h
    exact ⟨hreads.trans (List.append_nil _).symm, by simp⟩
  | closed t q =>
    rw [hrun] at h hreads
    cases h
    exact ⟨hreads.1, hreads.2.2⟩
  | _ =>
    -- at any other stage the text may not end
    rw [hrun] at h
    cases h

theorem read?_eq_some_iff {cs s r : List Char} :
    read? cs = some (s, r) ↔ cs = quoted s ++ r ∧ r.head? ≠ some '\'' := by
  refine ⟨eq_quoted_append_of_read?, ?_⟩
  rintro ⟨rfl, hr⟩
  exact read?_quoted_append s hr

/-- Two quoted forms side by side are one, with a quote where they meet. -/
theorem quoted_append_quoted (s t : List Char) : quoted s ++ quoted t = quoted (s ++ '\'' :: t) := by
  have hmark : encode ('\'' :: t) = '\'' :: '\'' :: encode t := by rw [encode, if_pos rfl]
  simp only [quoted, encode_append, hmark, List.cons_append, List.append_assoc, List.nil_append]

/-- Where a token begins with a single quote, it is the text that is read here. -/
theorem next?_quote (cs : List Char) :
    Token.next? ('\'' :: cs) = (read? ('\'' :: cs)).map fun p => (.text (String.ofList p.1), p.2) :=
  rfl

end Quoted

theorem toList_quote (s : String) : (quote s).toList = Quoted.quoted s.toList := String.toList_ofList

theorem read?_quote_append (s : String) {r : String} (h : r.toList.head? ≠ some '\'') :
    Quoted.read? (quote s ++ r).toList = some (s.toList, r.toList) := by
  rw [String.toList_append, toList_quote]
  exact Quoted.read?_quoted_append s.toList h

theorem next?_quote_append (s : String) {r : String} (h : r.toList.head? ≠ some '\'') :
    Token.next? (quote s ++ r).toList = some (.text s, r.toList) := by
  have hread := read?_quote_append s h
  have hcons : (quote s ++ r).toList = '\'' :: (Quoted.encode s.toList ++ ['\''] ++ r.toList) := by
    rw [String.toList_append, toList_quote]
    rfl
  rw [hcons] at hread ⊢
  rw [Quoted.next?_quote, hread, Option.map_some, String.ofList_toList]

theorem quote_injective : Function.Injective quote := by
  intro s t h
  have hs := read?_quote_append s (r := "") (by decide)
  have ht := read?_quote_append t (r := "") (by decide)
  rw [h, ht] at hs
  exact String.toList_inj.1 (Prod.mk.inj (Option.some.inj hs)).1.symm

/-- A quoted text is read back whole, and what follows is left as long as it does not begin with a quote. Nothing else
is read as it, so no two texts are quoted alike. -/
theorem quote_read :
    (∀ s r : String, r.toList.head? ≠ some '\'' →
      Quoted.read? (quote s ++ r).toList = some (s.toList, r.toList) ∧
      Token.next? (quote s ++ r).toList = some (.text s, r.toList)) ∧
    (∀ cs s r : List Char, Quoted.read? cs = some (s, r) ↔ cs = Quoted.quoted s ++ r ∧ r.head? ≠ some '\'') ∧
    Function.Injective quote ∧
    (∀ cs : List Char, Quoted.read? cs = (Quoted.Reader.start.run cs).result?) ∧
    (∀ (s : String) (p : List Char), p <+: (quote s).toList → (Quoted.Reader.start.run p).isClosed = false) ∧
    ∀ s t : String, quote s ++ quote t = quote (s ++ "'" ++ t) := by
  refine ⟨?_, fun _ _ _ => Quoted.read?_eq_some_iff, quote_injective, Quoted.read?_eq_result?, ?_, ?_⟩
  · intro s r hr
    exact ⟨read?_quote_append s hr, next?_quote_append s hr⟩
  · intro s p hp
    rw [toList_quote] at hp
    exact Quoted.Reader.isClosed_of_isPrefix hp
  · intro s t
    apply String.toList_inj.1
    simp only [String.toList_append, toList_quote, Quoted.quoted_append_quoted]
    simp

/-- Quotes at both ends and in the middle, and a statement behind them that would be another. -/
theorem quote_read_hostile :
    " OR '1' = '1'".toList.head? ≠ some '\'' ∧
    Token.next? (quote "'' OR '''x'" ++ " OR '1' = '1'").toList =
      some (.text "'' OR '''x'", " OR '1' = '1'".toList) ∧
    "''''' OR '".toList <+: (quote "'' OR '''x'").toList ∧
    (Quoted.Reader.start.run "''''' OR '".toList).isClosed = false := by
  obtain ⟨hread, -, -, -, hopen, -⟩ := quote_read
  have hr : " OR '1' = '1'".toList.head? ≠ some '\'' := by decide
  have hp : "''''' OR '".toList <+: (quote "'' OR '''x'").toList := by decide
  exact ⟨hr, (hread _ _ hr).2, hp, hopen _ _ hp⟩

end Rowmap.Text
