import Rowmap.Action
import Rowmap.Proofs.Members

/-! Fields that are set by name, one setting after another. A name stands for the first field that has it, and a
setting that fails, for want of such a field or because the value does not convert, changes nothing. So a field holds
the last value that it accepted, the fields that are no first of their name hold what they did, and settings of
different names do not meet. -/

namespace Rowmap

open Rowmap.Action

namespace Members

theorem ext_at? {fs : List Field} {xs ys : Members fs}
    (h : ∀ k f x, at? fs xs k = some ⟨f, x⟩ → at? fs ys k = some ⟨f, x⟩) : xs = ys := by
  induction fs with
  | nil => rfl
  | cons f fs ih =>
    obtain ⟨x, xs⟩ := xs
    obtain ⟨y, ys⟩ := ys
    cases h 0 f x rfl
    rw [ih fun k => h (k + 1)]

/-- All that a setting can come to: the name is not known, the first field of the name refuses the value, or that
field holds it and all others hold what they did. -/
theorem set_cases (table name : String) (v : Value) {fs : List Field} (xs : Members fs) :
    (name ∉ fs.map Field.name ∧ set table name v fs xs = .error (.fieldNotFound table name)) ∨
    ∃ k f, fs.findIdx? (fun f => f.name = name) = some k ∧ fs.find? (fun f => f.name = name) = some f ∧
      fs[k]? = some f ∧
      ((∃ e, f.type.ofValue v = .error e ∧ set table name v fs xs = .error e) ∨
        ∃ x ys, f.type.ofValue v = .ok x ∧ set table name v fs xs = .ok ys ∧
          ∀ j, at? fs ys j = if j = k then some ⟨f, x⟩ else at? fs xs j) := by
  induction fs with
  | nil => exact Or.inl ⟨by simp, rfl⟩
  | cons g fs ih =>
    obtain ⟨y, ys⟩ := xs
    by_cases hname : g.name = name
    · refine Or.inr ⟨0, g, by simp [List.findIdx?_cons, hname], by simp [hname], rfl, ?_⟩
      rw [set, if_pos hname]
      cases hv : g.type.ofValue v with
      | error e => exact Or.inl ⟨e, rfl, rfl⟩
      | ok x =>
        refine Or.inr ⟨x, (x, ys), rfl, rfl, fun j => ?_⟩
        cases j <;> rfl
    · rw [set, if_neg hname]
      rcases ih ys with ⟨hnone, hset⟩ | ⟨k, f, hk, hf, hget, hcase⟩
      · refine Or.inl ⟨?_, by rw [hset]; rfl⟩
        rw [List.map_cons, List.mem_cons, not_or]
        exact ⟨Ne.symm hname, hnone⟩
      · refine Or.inr ⟨k + 1, f, by simp [List.findIdx?_cons, hname, hk], by simp [hname, hf], hget, ?_⟩
        rcases hcase with ⟨e, he, hset⟩ | ⟨x, zs, hx, hset, hall⟩
        · exact Or.inl ⟨e, he, by rw [hset]; rfl⟩
        · refine Or.inr ⟨x, (y, zs), hx, by rw [hset]; rfl, fun j => ?_⟩
          cases j with
          | zero => rfl
          | succ j => simpa [at?] using hall j

end Members

namespace Field

/-- The value that a setting gives to the first field of a name, if it is this name and the value converts. -/
def accepts? (f : Field) (s : String × Value) : Option f.type.Val :=
  if s.1 = f.name then (f.type.ofValue s.2).toOption else none

theorem accepts?_of_ne {f : Field} {s : String × Value} (h : s.1 ≠ f.name) : f.accepts? s = none := if_neg h

theorem accepts?_of_error {f : Field} {s : String × Value} {e : Error} (h : f.type.ofValue s.2 = .error e) :
    f.accepts? s = none := by
  rw [accepts?, h]
  exact ite_self none

theorem accepts?_of_ok {f : Field} {s : String × Value} {x : f.type.Val} (hname : s.1 = f.name)
    (h : f.type.ofValue s.2 = .ok x) : f.accepts? s = some x := by
  rw [accepts?, if_pos hname, h]
  rfl

/-- The values that a field accepts of several settings, in their order. -/
def accepted (f : Field) (steps : List (String × Value)) : List f.type.Val := steps.filterMap f.accepts?

theorem accepted_filter (f : Field) (steps : List (String × Value)) :
    f.accepted (steps.filter (·.1 = f.name)) = f.accepted steps := by
  rw [accepted, accepted, List.filterMap_filter]
  refine congrArg (List.filterMap · steps) (funext fun s => ?_)
  by_cases h : s.1 = f.name <;> simp [accepts?, h]

theorem getLast?_accepted_cons (f : Field) (s : String × Value) (steps : List (String × Value)) (x : f.type.Val) :
    (f.accepted (s :: steps)).getLast?.getD x = (f.accepted steps).getLast?.getD ((f.accepts? s).getD x) := by
  rw [accepted, accepted]
  cases h : f.accepts? s with
  | none =>
    rw [List.filterMap_cons_none h]
    rfl
  | some y =>
    rw [List.filterMap_cons_some h, List.getLast?_cons]
    rfl

end Field

namespace RecordType

/-- Whether a setting succeeds: the field is looked up, and then its type asked. The record is not. -/
def verdict (t : RecordType) (s : String × Value) : Except Error Unit :=
  (t.field s.1).bind fun f => (f.type.ofValue s.2).map fun _ => ()

theorem field?_eq_none_iff {t : RecordType} {name : String} : t.field? name = none ↔ name ∉ t.memberNames := by
  simp [field?, memberNames]

theorem verdict_eq_error_iff {t : RecordType} {s : String × Value} {e : Error} : t.verdict s = .error e ↔
    (s.1 ∉ t.memberNames ∧ e = .fieldNotFound t.tableName s.1) ∨
      ∃ f, t.field? s.1 = some f ∧ f.type.ofValue s.2 = .error e := by
  rw [verdict, field, ← field?_eq_none_iff]
  cases t.field? s.1 with
  | none => simp [orNotFound, Except.bind, eq_comm]
  | some f => simp [orNotFound, Except.bind, map_eq_error]

end RecordType

namespace Record

variable {t : RecordType}

/-- Sets the first field of a name. If that fails, the record is what it was. -/
def assign (s : String × Value) : Action (Record t) Unit := fun o =>
  match o.set s.1 s.2 with
  | .ok o' => .ok () o'
  | .error e => .error e o

theorem assign_of_ok {o o' : Record t} {s : String × Value} (h : o.set s.1 s.2 = .ok o') :
    assign s o = .ok () o' := by
  rw [assign, h]

theorem assign_of_error {o : Record t} {s : String × Value} {e : Error} (h : o.set s.1 s.2 = .error e) :
    assign s o = .error e o := by
  rw [assign, h]

theorem outcome_assign (o : Record t) (s : String × Value) : outcome (assign s o) = t.verdict s := by
  rw [RecordType.verdict, RecordType.field, RecordType.field?]
  rcases Members.set_cases t.tableName s.1 s.2 o with ⟨hnone, hset⟩ | ⟨k, f, -, hf, -, hcase⟩
  · have hfind : t.fields.find? (fun f => f.name = s.1) = none := by
      simpa using hnone
    rw [assign_of_error hset, hfind]
    rfl
  rw [hf]
  rcases hcase with ⟨e, he, hset⟩ | ⟨x, o', hx, hset, -⟩
  · rw [assign_of_error hset]
    simp only [RecordType.orNotFound, Except.bind, he]
    rfl
  · rw [assign_of_ok hset]
    simp only [RecordType.orNotFound, Except.bind, hx]
    rfl

theorem after_assign_of_error {o : Record t} {s : String × Value} {e : Error} (h : outcome (assign s o) = .error e) :
    after (assign s o) = o := by
  cases hset : o.set s.1 s.2 with
  | ok o' =>
    rw [assign_of_ok hset] at h
    cases h
  | error e' => rw [assign_of_error hset, after]

/-- What the field at a place holds after a setting, if it held a value before. -/
def held (t : RecordType) (k : Nat) (f : Field) (accepted? : Option f.type.Val) (x : f.type.Val) : f.type.Val :=
  if t.position? f.name = some k then accepted?.getD x else x

theorem held_none (k : Nat) (f : Field) (x : f.type.Val) : held t k f none x = x := ite_self x

theorem held_of_ne {s : String × Value} {j k : Nat} {f : Field} {x : f.type.Val} (hj : t.position? s.1 = some j)
    (hne : k ≠ j) : held t k f (f.accepts? s) x = x := by
  by_cases hname : s.1 = f.name
  · have hk : t.position? f.name ≠ some k := by
      rw [← hname, hj]
      exact fun h => hne (Option.some.inj h).symm
    exact if_neg hk
  · rw [Field.accepts?_of_ne hname, held_none]

theorem at?_after_assign (s : String × Value) {o : Record t} {k : Nat} {f : Field} {x : f.type.Val}
    (hx : Members.at? t.fields o k = some ⟨f, x⟩) :
    Members.at? t.fields (after (assign s o)) k = some ⟨f, held t k f (f.accepts? s) x⟩ := by
  have hget := Members.getElem?_of_at? hx
  rcases Members.set_cases t.tableName s.1 s.2 o with ⟨hnone, hset⟩ | ⟨j, g, hj, hg, hgetj, hcase⟩
  · have hname : s.1 ≠ f.name := fun h => hnone (h ▸ List.mem_map_of_mem (List.mem_of_getElem? hget))
    rw [assign_of_error hset, after, hx, Field.accepts?_of_ne hname, held_none]
  have hname : g.name = s.1 := by simpa using List.find?_some hg
  rcases hcase with ⟨e, he, hset⟩ | ⟨y, o', hy, hset, hall⟩
  · rw [assign_of_error hset, after, hx]
    by_cases hk : k = j
    · obtain rfl : f = g := Option.some.inj (hget.symm.trans (hk ▸ hgetj))
      rw [Field.accepts?_of_error he, held_none]
    · rw [held_of_ne hj hk]
  · rw [assign_of_ok hset, after, hall]
    by_cases hk : k = j
    · obtain rfl : f = g := Option.some.inj (hget.symm.trans (hk ▸ hgetj))
      have hfirst : t.position? f.name = some k := by rw [hname, hk]; exact hj
      rw [if_pos hk, Field.accepts?_of_ok hname.symm hy, held, if_pos hfirst]
      rfl
    · rw [if_neg hk, hx, held_of_ne hj hk]

/-- One setting more in front gives the others a value to begin with. -/
theorem held_cons (k : Nat) (f : Field) (s : String × Value) (steps : List (String × Value)) (x : f.type.Val) :
    held t k f (f.accepted (s :: steps)).getLast? x =
      held t k f (f.accepted steps).getLast? (held t k f (f.accepts? s) x) := by
  unfold held
  split
  · exact f.getLast?_accepted_cons s steps x
  · rfl

theorem at?_inTurn (steps : List (String × Value)) {o : Record t} {k : Nat} {f : Field} {x : f.type.Val}
    (hx : Members.at? t.fields o k = some ⟨f, x⟩) :
    Members.at? t.fields (inTurn assign steps o).2 k = some ⟨f, held t k f (f.accepted steps).getLast? x⟩ := by
  induction steps generalizing o x with
  | nil =>
    rw [inTurn, hx, Field.accepted, List.filterMap_nil, List.getLast?_nil, held_none]
  | cons s steps ih => rw [inTurn, ih (at?_after_assign s hx), held_cons]

theorem outcomes_inTurn (steps : List (String × Value)) (o : Record t) :
    (inTurn assign steps o).1 = steps.map t.verdict := by
  induction steps generalizing o with
  | nil => rfl
  | cons s steps ih => rw [inTurn, List.map_cons, outcome_assign, ih]

/-- What a record comes to is settled name by name. -/
theorem inTurn_congr {steps steps' : List (String × Value)}
    (h : ∀ n, steps.filter (·.1 = n) = steps'.filter (·.1 = n)) (o : Record t) :
    (inTurn assign steps o).2 = (inTurn assign steps' o).2 := by
  refine Members.ext_at? fun k f y hy => ?_
  obtain ⟨x, hx⟩ := Members.exists_at? (Members.getElem?_of_at? hy) o
  have hsame : f.accepted steps = f.accepted steps' := by
    rw [← f.accepted_filter, h, f.accepted_filter]
  rw [← hy, at?_inTurn steps hx, at?_inTurn steps' hx, hsame]

theorem filter_exchanged {a b : String × Value} (h : a.1 ≠ b.1) (before after : List (String × Value)) (n : String) :
    (before ++ a :: b :: after).filter (·.1 = n) = (before ++ b :: a :: after).filter (·.1 = n) := by
  rw [List.filter_append, List.filter_append, List.append_cancel_left_eq]
  by_cases ha : a.1 = n
  · have hb : b.1 ≠ n := fun hb => h (ha.trans hb.symm)
    simp [ha, hb]
  · simp [List.filter_cons, ha]

/-- Each setting fails exactly if no field has its name or the first that has it does not take the value. In the end a
field that is the first of its name holds the last value accepted for it, and others hold what they did. -/
theorem set_in_turn (steps : List (String × Value)) (o : Record t) :
    (inTurn assign steps o).1 = steps.map t.verdict ∧
    (∀ s e, t.verdict s = .error e ↔ (s.1 ∉ t.memberNames ∧ e = .fieldNotFound t.tableName s.1) ∨
      ∃ f, t.field? s.1 = some f ∧ f.type.ofValue s.2 = .error e) ∧
    (∀ s e (o' : Record t), outcome (assign s o') = .error e → after (assign s o') = o') ∧
    (∀ k f x, Members.at? t.fields o k = some ⟨f, x⟩ → Members.at? t.fields (inTurn assign steps o).2 k =
      some ⟨f, if t.position? f.name = some k then (f.accepted steps).getLast?.getD x else x⟩) ∧
    (∀ steps', (∀ n, steps.filter (·.1 = n) = steps'.filter (·.1 = n)) →
      (inTurn assign steps o).2 = (inTurn assign steps' o).2) ∧
    ∀ before a b behind, a.1 ≠ b.1 → steps = before ++ a :: b :: behind →
      (inTurn assign steps o).2 = (inTurn assign (before ++ b :: a :: behind) o).2 := by
  refine ⟨outcomes_inTurn steps o, fun s e => RecordType.verdict_eq_error_iff, fun s e o' => after_assign_of_error,
    fun k f x => at?_inTurn steps, fun steps' h => inTurn_congr h o, ?_⟩
  rintro before a b behind hne rfl
  exact inTurn_congr (filter_exchanged hne before behind) o

def labelled : RecordType :=
  ⟨0, "Labelled", 3, [⟨"label", .text, 0⟩, ⟨"seen", .optional .bool, 0⟩, ⟨"label", .integer .int8, 0⟩]⟩

def unlabelled : Record labelled := ("", none, ⟨5, by decide⟩, ())

def relabelling : List (String × Value) :=
  [("label", .text "x"), ("seen", .integer 2), ("label", .array []), ("other", .null), ("label", .integer 7),
    ("seen", .text "no")]

theorem set_in_turn_labelled :
    (inTurn assign relabelling unlabelled).1 = [.ok (), .ok (), .error (.mismatch (.array []) "String"),
      .error (.fieldNotFound "Labelled" "other"), .ok (), .error (.mismatch (.text "no") "bool")] ∧
    (inTurn assign relabelling unlabelled).2 = ("7", some true, ⟨5, by decide⟩, ()) ∧
    (inTurn assign relabelling unlabelled).2 = (inTurn assign [("seen", .integer 2), ("label", .text "x"),
      ("label", .array []), ("other", .null), ("label", .integer 7), ("seen", .text "no")] unlabelled).2 := by
  obtain ⟨houtcomes, -, -, hfields, -, hexchange⟩ := set_in_turn relabelling unlabelled
  refine ⟨houtcomes.trans rfl, ?_, hexchange [] _ _ _ (by decide) rfl⟩
  have hlabel := hfields 0 _ _ rfl
  have hseen := hfields 1 _ _ rfl
  have hsecond := hfields 2 _ _ rfl
  refine Members.ext_at? fun k f x hx => ?_
  rw [← hx]
  rcases k with _ | _ | _ | k
  · exact (hlabel.trans rfl).symm
  · exact (hseen.trans rfl).symm
  · exact (hsecond.trans rfl).symm
  · rfl

end Record

end Rowmap
