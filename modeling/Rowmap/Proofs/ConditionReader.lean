import Rowmap.Command.Reader
import Rowmap.Proofs.Tokens

/-! A reader of conditions. Comparisons that are joined by `AND` hold together, and of those groups, joined
by `OR`, one has to hold. It reads as far as a condition goes and gives back the tokens behind. -/

namespace Rowmap

inductive Constant where
  | number (n : Int)
  | text (s : String)
deriving DecidableEq, Repr

structure ColumnTest where
  column : String
  op : Operator
  constant : Constant
deriving DecidableEq, Repr

namespace Reading

def constant? : List Token → Option (Constant × List Token)
  | .text s :: ts => some (.text s, ts)
  | .number s :: ts => (Command.integer? s).map fun n : Nat => (.number n, ts)
  | .plus :: .number s :: ts => (Command.integer? s).map fun n : Nat => (.number n, ts)
  | .minus :: .number s :: ts => (Command.integer? s).map fun n : Nat => (.number (-n), ts)
  | _ => none

def test? : List Token → Option (ColumnTest × List Token)
  | .word n :: .compare op :: ts => (constant? ts).map fun p => (⟨n, op, p.1⟩, p.2)
  | _ => none

def afterWord? (w : String) : List Token → Option (List Token)
  | .reserved v :: ts => if v = w then some ts else none
  | _ => none

/-- One item, and one more after each such word. -/
def separated? {α : Type} (item? : List Token → Option (α × List Token)) (w : String) (ts : List Token) :
    Option (List α × List Token) :=
  match item? ts with
  | none => none
  | some (a, rest) =>
    match afterWord? w rest with
    | none => some ([a], rest)
    | some more =>
      if more.length < ts.length then (separated? item? w more).map fun p => (a :: p.1, p.2) else none
termination_by ts.length

def condition? : List Token → Option (List (List ColumnTest) × List Token) :=
  separated? (separated? test? "AND") "OR"

end Reading

def Constant.tokens : Constant → List Token
  | number n => Token.ofInt n
  | text s => [.text s]

def ColumnTest.tokens (x : ColumnTest) : List Token := .word x.column :: .compare x.op :: x.constant.tokens

/-- Items with a word between them. -/
def wordsBetween {α : Type} (w : String) (print : α → List Token) (as : List α) : List Token :=
  [.reserved w].intercalate (as.map print)

def groupTokens : List ColumnTest → List Token := wordsBetween "AND" ColumnTest.tokens

def conditionTokens : List (List ColumnTest) → List Token := wordsBetween "OR" groupTokens

section WordsBetween

variable {α : Type} {w : String} {print : α → List Token}

theorem wordsBetween_cons (a : α) {as : List α} (h : as ≠ []) :
    wordsBetween w print (a :: as) = print a ++ .reserved w :: wordsBetween w print as := by
  simp only [wordsBetween, List.map_cons]
  rw [List.intercalate_cons_of_ne_nil (by simpa using h), List.append_assoc, List.singleton_append]

theorem wordsBetween_append {as bs : List α} (ha : as ≠ []) (hb : bs ≠ []) :
    wordsBetween w print (as ++ bs) = wordsBetween w print as ++ .reserved w :: wordsBetween w print bs := by
  induction as with
  | nil => exact absurd rfl ha
  | cons a as ih =>
    cases as with
    | nil =>
      rw [List.singleton_append, wordsBetween_cons a hb]
      simp [wordsBetween]
    | cons c as =>
      rw [List.cons_append, wordsBetween_cons a (by simp), ih (by simp), wordsBetween_cons a (by simp),
        List.append_assoc, List.cons_append]

end WordsBetween

theorem conditionTokens_append_cons {xs ys : List ColumnTest} (hx : xs ≠ []) (hy : ys ≠ [])
    (gs : List (List ColumnTest)) :
    conditionTokens ((xs ++ ys) :: gs) = groupTokens xs ++ .reserved "AND" :: conditionTokens (ys :: gs) := by
  have hgroup : groupTokens (xs ++ ys) = groupTokens xs ++ .reserved "AND" :: groupTokens ys :=
    wordsBetween_append hx hy
  cases gs with
  | nil => simpa [conditionTokens, wordsBetween] using hgroup
  | cons g gs =>
    rw [conditionTokens, wordsBetween_cons (xs ++ ys) (List.cons_ne_nil g gs), hgroup,
      wordsBetween_cons ys (List.cons_ne_nil g gs), List.append_assoc, List.cons_append]

namespace Reading

/-- If the items are read back, so is the list of them, up to where the word is missing. What may follow
an item is in `P`. -/
theorem separated?_wordsBetween {α : Type} {item? : List Token → Option (α × List Token)} {w : String}
    {print : α → List Token} {P : List Token → Prop} (hw : ∀ ts, P (.reserved w :: ts)) {as : List α}
    (hitem : ∀ a ∈ as, ∀ rest, P rest → item? (print a ++ rest) = some (a, rest)) (hne : as ≠ [])
    {rest : List Token} (hP : P rest) (hend : afterWord? w rest = none) :
    separated? item? w (wordsBetween w print as ++ rest) = some (as, rest) := by
  induction as with
  | nil => exact absurd rfl hne
  | cons a as ih =>
    have ha := hitem a (List.mem_cons_self ..)
    cases as with
    | nil =>
      have hone : wordsBetween w print [a] = print a := by simp [wordsBetween]
      rw [separated?, hone, ha rest hP]
      simp only [hend]
    | cons b as =>
      have hrest := ih (fun c hc => hitem c (List.mem_cons_of_mem _ hc)) (by simp)
      rw [separated?, wordsBetween_cons a (by simp), List.append_assoc, List.cons_append, ha _ (hw _)]
      simp only [afterWord?, if_true, hrest, Option.map_some]
      rw [if_pos (by simp; omega)]

theorem integer?_natText (n : Nat) : Command.integer? (String.ofList (Decimal.natText n)) = some n := by
  have hall : (Decimal.natText n).all Char.isDigit = true :=
    List.all_eq_true.2 fun c hc => Decimal.isDigit_of_mem_natText hc
  simp only [Command.integer?, String.toList_ofList, hall, if_true, Decimal.natOf_natText]

theorem constant?_tokens (c : Constant) (rest : List Token) :
    constant? (c.tokens ++ rest) = some (c, rest) := by
  cases c with
  | text s => rfl
  | number n =>
    rw [Constant.tokens, Token.ofInt]
    split
    · have hn : -(n.natAbs : Int) = n := by omega
      simp only [List.cons_append, List.nil_append, constant?, integer?_natText, Option.map_some, hn]
    · have hn : (n.natAbs : Int) = n := by omega
      simp only [List.cons_append, List.nil_append, constant?, integer?_natText, Option.map_some, hn]

theorem test?_tokens (x : ColumnTest) (rest : List Token) : test? (x.tokens ++ rest) = some (x, rest) := by
  simp only [ColumnTest.tokens, List.cons_append, test?, constant?_tokens, Option.map_some]

theorem group?_tokens {xs : List ColumnTest} (hne : xs ≠ []) {rest : List Token}
    (hend : afterWord? "AND" rest = none) :
    separated? test? "AND" (groupTokens xs ++ rest) = some (xs, rest) :=
  separated?_wordsBetween (P := fun _ => True) (fun _ => trivial) (fun x _ r _ => test?_tokens x r) hne
    trivial hend

theorem condition?_tokens {gs : List (List ColumnTest)} (hne : gs ≠ []) (hgs : ∀ g ∈ gs, g ≠ [])
    {rest : List Token} (hand : afterWord? "AND" rest = none) (hor : afterWord? "OR" rest = none) :
    condition? (conditionTokens gs ++ rest) = some (gs, rest) :=
  separated?_wordsBetween (P := fun r => afterWord? "AND" r = none) (fun _ => by simp [afterWord?])
    (fun g hg r hr => group?_tokens (hgs g hg) hr) hne hand hor

end Reading

end Rowmap
