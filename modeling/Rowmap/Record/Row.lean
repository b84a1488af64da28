import Rowmap.Error
/-! One row of a query's answer: values by column name. The columns stand in the order of their
names, so two rows with the same columns and values are the same row. -/

namespace Rowmap

structure Row where
  columns : List (String × Value)

namespace Row

def empty : Row := ⟨[]⟩

/-- Sets a column; an earlier value of the same name is replaced. -/
def insert (r : Row) (name : String) (v : Value) : Row := ⟨Value.insertMember name v r.columns⟩

def ofList (cs : List (String × Value)) : Row := cs.foldl (fun r c => r.insert c.1 c.2) empty

def value? (r : Row) (name : String) : Option Value := r.columns.lookup name

theorem lookup_insertMember {α : Type} (name other : String) (v : α) (cs : List (String × α)) :
    (Value.insertMember name v cs).lookup other =
      if other = name then some v else cs.lookup other := by
  by_cases h : other = name
  · subst h
    rw [if_pos rfl]
    induction cs with
    | nil => simp [Value.insertMember]
    | cons c cs ih =>
      obtain ⟨n, w⟩ := c
      simp only [Value.insertMember]
      split
      · simp
      · split
        · rename_i hn; subst hn; simp
        · rename_i hn
          have hb : (other == n) = false := beq_eq_false_iff_ne.2 hn
          simp [List.lookup_cons, hb, ih]
  · have hb : (other == name) = false := beq_eq_false_iff_ne.2 h
    rw [if_neg h]
    induction cs with
    | nil => simp [Value.insertMember, List.lookup_cons, hb]
    | cons c cs ih =>
      obtain ⟨n, w⟩ := c
      simp only [Value.insertMember]
      split
      · simp [List.lookup_cons, hb]
      · split
        · rename_i hn; subst hn; simp [List.lookup_cons, hb]
        · simp [List.lookup_cons, ih]

@[simp] theorem value?_empty (name : String) : empty.value? name = none := rfl

theorem value?_insert (r : Row) (name other : String) (v : Value) :
    (r.insert name v).value? other = if other = name then some v else r.value? other :=
  lookup_insertMember name other v r.columns

def isNull (r : Row) (name : String) : Bool := (r.value? name).any Value.isNull

def word? (r : Row) (name : String) : Option Int := (r.value? name).bind Value.word?

def double? (r : Row) (name : String) : Option Double := (r.value? name).bind Value.double?

def text? (r : Row) (name : String) : Option String := (r.value? name).bind Value.text?

def first? (r : Row) : Option Value := r.columns.head?.map Prod.snd

end Row

/-- What a caller can ask a column for. -/
inductive Reading where
  | integer (t : IntegerType)
  | double
  | bool
  | text
  | optional (r : Reading)
  | list (r : Reading)

namespace Reading

@[reducible] def Val : Reading → Type
  | integer t => t.Val
  | double => Double
  | bool => Bool
  | text => String
  | optional r => Option r.Val
  | list r => List r.Val

/-- The value as the type asked for, without any conversion but that of a number to a float. -/
def decode? : (r : Reading) → Value → Option r.Val
  | integer t, .integer n => t.val? n
  | integer _, _ => none
  | double, v => v.double?
  | bool, .bool b => some b
  | bool, _ => none
  | text, v => v.text?
  | optional _, .null => some none
  | optional r, v => (r.decode? v).map some
  | list r, .array vs => vs.mapM r.decode?
  | list _, _ => none

end Reading

namespace Row

/-- The column as the type asked for; none when there is no such column. -/
def read? (r : Row) (name : String) (as : Reading) : Except Error (Option as.Val) :=
  match r.value? name with
  | none => .ok none
  | some v =>
    match as.decode? v with
    | some x => .ok (some x)
    | none => .error .decoding

def get? (r : Row) (name : String) (as : Reading) : Option as.Val :=
  match r.read? name as with
  | .ok x => x
  | .error _ => none

end Row

end Rowmap
