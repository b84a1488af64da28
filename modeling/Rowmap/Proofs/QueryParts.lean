import Rowmap.Proofs.WhereClause

/-! A query by its parts. Whatever the order in which its steps are taken, a query is made of the filters since
they were last begun anew, all sort keys in turn, the last limit and the last offset; a step touches one of
these parts only. So steps of different parts change places freely, and what a later step of its part replaces
may as well be left out. The first filter opens the condition of the text, and no other does. -/

namespace Rowmap
namespace Query

inductive Part where
  | filters
  | order
  | limit
  | offset
deriving DecidableEq

namespace Step

/-- The part of the query that a step works on. -/
def part : Step → Part
  | filter _ | join _ _ => .filters
  | orderBy _ _ => .order
  | limit _ => .limit
  | offset _ => .offset

def filters : Step → List Filter
  | filter e => [⟨none, e⟩]
  | join c e => [⟨some c, e⟩]
  | orderBy _ _ | limit _ | offset _ => []

def sortKeys : Step → List SortKey
  | orderBy d fs => fs.map (⟨·, d⟩)
  | filter _ | join _ _ | limit _ | offset _ => []

def limits : Step → List Nat
  | limit n => [n]
  | filter _ | join _ _ | orderBy _ _ | offset _ => []

def offsets : Step → List Nat
  | offset n => [n]
  | filter _ | join _ _ | orderBy _ _ | limit _ => []

/-- Whether a step replaces what its part was before. -/
def replaces : Step → Bool
  | filter _ | limit _ | offset _ => true
  | join _ _ | orderBy _ _ => false

theorem filters_eq_nil {s : Step} (h : s.part ≠ .filters) : s.filters = [] := by
  cases s with
  | filter e => exact absurd rfl h
  | join c e => exact absurd rfl h
  | _ => rfl

theorem sortKeys_eq_nil {s : Step} (h : s.part ≠ .order) : s.sortKeys = [] := by
  cases s with
  | orderBy d fs => exact absurd rfl h
  | _ => rfl

theorem limits_eq_nil {s : Step} (h : s.part ≠ .limit) : s.limits = [] := by
  cases s with
  | limit n => exact absurd rfl h
  | _ => rfl

theorem offsets_eq_nil {s : Step} (h : s.part ≠ .offset) : s.offsets = [] := by
  cases s with
  | offset n => exact absurd rfl h
  | _ => rfl

end Step

/-- Filters from the last one on that stands without a connective; all of them, if there is none. -/
def fromLast : List Filter → List Filter
  | [] => []
  | f :: fs => if fs.any (·.connective.isNone) then fromLast fs else f :: fs

/-- The first filter has nothing to be joined to. -/
def opened : List Filter → List Filter
  | [] => []
  | f :: fs => ⟨none, f.predicate⟩ :: fs

/-- The query that steps make, each part from its own. -/
def ofParts (steps : List Step) : Query where
  filters := opened (fromLast (steps.flatMap Step.filters))
  order := steps.flatMap Step.sortKeys
  limit := (steps.flatMap Step.limits).getLast?
  offset := (steps.flatMap Step.offsets).getLast?

theorem fromLast_append_cons {f : Filter} (hf : f.connective = none) (fs gs : List Filter) :
    fromLast (fs ++ f :: gs) = fromLast (f :: gs) := by
  induction fs with
  | nil => rfl
  | cons g fs ih =>
    have hany : (fs ++ f :: gs).any (·.connective.isNone) = true := by simp [hf]
    rw [List.cons_append, fromLast, if_pos hany, ih]

theorem fromLast_concat {f : Filter} (hf : f.connective ≠ none) (fs : List Filter) :
    fromLast (fs ++ [f]) = fromLast fs ++ [f] := by
  induction fs with
  | nil => rfl
  | cons g fs ih =>
    have hany : (fs ++ [f]).any (·.connective.isNone) = fs.any (·.connective.isNone) := by
      simp [hf]
    rw [List.cons_append, fromLast, fromLast, hany, ih]
    split <;> rfl

theorem opened_concat (fs : List Filter) (c : Option Connective) (e : Expr) :
    opened (fs ++ [⟨c, e⟩]) = opened fs ++ [⟨if (opened fs).isEmpty then none else c, e⟩] := by
  cases fs <;> rfl

theorem ofParts_concat (steps : List Step) (s : Step) : ofParts (steps ++ [s]) = (ofParts steps).step s := by
  cases s with
  | filter e =>
    have hfilters : opened (fromLast (steps.flatMap Step.filters ++ [⟨none, e⟩])) = [⟨none, e⟩] := by
      rw [fromLast_append_cons rfl]
      rfl
    simpa [ofParts, step, Query.filter, Step.filters, Step.sortKeys, Step.limits, Step.offsets] using hfilters
  | join c e =>
    have hfilters := fromLast_concat (f := ⟨some c, e⟩) (Option.some_ne_none c) (steps.flatMap Step.filters)
    simp [ofParts, step, join, Step.filters, Step.sortKeys, Step.limits, Step.offsets, hfilters, opened_concat]
  | orderBy d fs => simp [ofParts, step, orderBy, Step.filters, Step.sortKeys, Step.limits, Step.offsets]
  | limit n => simp [ofParts, step, Step.filters, Step.sortKeys, Step.limits, Step.offsets]
  | offset n => simp [ofParts, step, Step.filters, Step.sortKeys, Step.limits, Step.offsets]

theorem foldl_step_ofParts (done steps : List Step) :
    steps.foldl step (ofParts done) = ofParts (done ++ steps) := by
  induction steps generalizing done with
  | nil => rw [List.append_nil, List.foldl_nil]
  | cons s steps ih => rw [List.foldl_cons, ← ofParts_concat, ih, List.append_assoc, List.singleton_append]

theorem ofSteps_eq_ofParts (steps : List Step) : ofSteps steps = ofParts steps := foldl_step_ofParts [] steps

theorem flatMap_filter_step {α : Type} {g : Step → List α} {keep : Step → Bool}
    (h : ∀ s, keep s = false → g s = []) (steps : List Step) : (steps.filter keep).flatMap g = steps.flatMap g := by
  induction steps with
  | nil => rfl
  | cons s steps ih =>
    cases hs : keep s with
    | true => rw [List.filter_cons_of_pos hs, List.flatMap_cons, List.flatMap_cons, ih]
    | false =>
      rw [List.filter_cons_of_neg (by simp [hs]), List.flatMap_cons, h s hs, ih, List.nil_append]

section

variable {α : Type} {g : Step → List α} {p : Part} (hg : ∀ s : Step, s.part ≠ p → g s = [])
  {as bs : List Step}

include hg

theorem flatMap_of_same_part (h : as.filter (·.part = p) = bs.filter (·.part = p)) :
    as.flatMap g = bs.flatMap g := by
  have hkeep : ∀ s : Step, decide (s.part = p) = false → g s = [] := fun s hs => hg s (by simpa using hs)
  rw [← flatMap_filter_step hkeep as, h, flatMap_filter_step hkeep]

theorem flatMap_of_other_parts {q : Part} (hq : p ≠ q) (h : as.filter (·.part ≠ q) = bs.filter (·.part ≠ q)) :
    as.flatMap g = bs.flatMap g := by
  have hkeep : ∀ s : Step, decide (s.part ≠ q) = false → g s = [] := by
    intro s hs
    have hsq : s.part = q := by simpa using hs
    exact hg s (hsq ▸ Ne.symm hq)
  rw [← flatMap_filter_step hkeep as, h, flatMap_filter_step hkeep]

end

theorem ofSteps_congr {as bs : List Step} (h : ∀ p, as.filter (·.part = p) = bs.filter (·.part = p)) :
    ofSteps as = ofSteps bs := by
  rw [ofSteps_eq_ofParts, ofSteps_eq_ofParts, ofParts, ofParts,
    flatMap_of_same_part (fun _ => Step.filters_eq_nil) (h .filters),
    flatMap_of_same_part (fun _ => Step.sortKeys_eq_nil) (h .order),
    flatMap_of_same_part (fun _ => Step.limits_eq_nil) (h .limit),
    flatMap_of_same_part (fun _ => Step.offsets_eq_nil) (h .offset)]

/-- Of the steps before one that replaces its part, only those of other parts matter. -/
theorem ofSteps_replaced {s : Step} (hs : s.replaces = true) {before before' : List Step}
    (h : before.filter (·.part ≠ s.part) = before'.filter (·.part ≠ s.part)) (after : List Step) :
    ofSteps (before ++ s :: after) = ofSteps (before' ++ s :: after) := by
  have hfilters (hp : Part.filters ≠ s.part) : before.flatMap Step.filters = before'.flatMap Step.filters :=
    flatMap_of_other_parts (fun _ => Step.filters_eq_nil) hp h
  have horder (hp : Part.order ≠ s.part) : before.flatMap Step.sortKeys = before'.flatMap Step.sortKeys :=
    flatMap_of_other_parts (fun _ => Step.sortKeys_eq_nil) hp h
  have hlimit (hp : Part.limit ≠ s.part) : before.flatMap Step.limits = before'.flatMap Step.limits :=
    flatMap_of_other_parts (fun _ => Step.limits_eq_nil) hp h
  have hoffset (hp : Part.offset ≠ s.part) : before.flatMap Step.offsets = before'.flatMap Step.offsets :=
    flatMap_of_other_parts (fun _ => Step.offsets_eq_nil) hp h
  simp only [ofSteps_eq_ofParts, ofParts, List.flatMap_append, List.flatMap_cons]
  cases s with
  | filter e =>
    rw [horder nofun, hlimit nofun, hoffset nofun]
    simp only [Step.filters, List.singleton_append, fromLast_append_cons]
  | limit n =>
    rw [hfilters nofun, horder nofun, hoffset nofun]
    simp [Step.limits, List.getLast?_append, List.getLast?_cons]
  | offset n =>
    rw [hfilters nofun, horder nofun, hlimit nofun]
    simp [Step.offsets, List.getLast?_append, List.getLast?_cons]
  | join c e => cases hs
  | orderBy d fs => cases hs

theorem ofSteps_split (before after : List Step) (d : Direction) (fs gs : List Nat) :
    ofSteps (before ++ .orderBy d (fs ++ gs) :: after) =
      ofSteps (before ++ .orderBy d fs :: .orderBy d gs :: after) := by
  simp [ofSteps_eq_ofParts, ofParts, Step.filters, Step.sortKeys, Step.limits, Step.offsets]

variable {t : RecordType}

/-- Conditions that follow others, each behind its connective. -/
inductive Joined (t : RecordType) : List Filter → String → Prop where
  | nil : Joined t [] ""
  | cons {k : Connective} {e : Expr} {fs : List Filter} {c rest : String} (hc : e.condition t = .ok c)
      (hrest : Joined t fs rest) : Joined t (⟨some k, e⟩ :: fs) (" " ++ k.sql ++ " " ++ c ++ rest)

/-- The condition of a statement, with the one word that opens it in front of the first filter. -/
inductive WhereClause (t : RecordType) : List Filter → String → Prop where
  | nil : WhereClause t [] ""
  | cons {e : Expr} {fs : List Filter} {c rest : String} (hc : e.condition t = .ok c)
      (hrest : Joined t fs rest) : WhereClause t (⟨none, e⟩ :: fs) (" WHERE " ++ c ++ rest)

theorem joined_of_conditions {fs : List Filter} (hfs : ∀ f ∈ fs, f.connective ≠ none) {w : String}
    (h : conditions t fs = .ok w) : Joined t fs w := by
  induction fs generalizing w with
  | nil =>
    cases h
    exact .nil
  | cons f fs ih =>
    rw [List.forall_mem_cons] at hfs
    obtain ⟨c, rest, -, hc, hrest, rfl⟩ := conditions_cons h
    obtain ⟨k | k, e⟩ := f
    · exact absurd rfl hfs.1
    · exact .cons hc (ih hfs.2 hrest)

theorem whereClause_of_conditions {fs : List Filter} (hfs : Headed fs) {w : String}
    (h : conditions t fs = .ok w) : WhereClause t fs w := by
  cases fs with
  | nil =>
    cases h
    exact .nil
  | cons f fs =>
    obtain ⟨hnone, hsome⟩ := hfs
    obtain ⟨c, rest, -, hc, hrest, rfl⟩ := conditions_cons h
    obtain ⟨k, e⟩ := f
    subst hnone
    exact .cons hc (joined_of_conditions hsome hrest)

/-- A query is made by the filters since they were last begun anew, the sort keys of all steps, the last limit and the
last offset. Hence the order of steps matters within a part only, and a text has one condition at most. -/
theorem ofSteps_by_parts :
    (∀ steps, ofSteps steps = ofParts steps) ∧
    (∀ as bs : List Step, (∀ p, as.filter (·.part = p) = bs.filter (·.part = p)) → ofSteps as = ofSteps bs) ∧
    (∀ (s : Step) (before before' after : List Step), s.replaces = true →
      before.filter (·.part ≠ s.part) = before'.filter (·.part ≠ s.part) →
        ofSteps (before ++ s :: after) = ofSteps (before' ++ s :: after)) ∧
    (∀ before after d fs gs, ofSteps (before ++ .orderBy d (fs ++ gs) :: after) =
      ofSteps (before ++ .orderBy d fs :: .orderBy d gs :: after)) ∧
    ∀ (t : RecordType) (steps : List Step), Headed (ofSteps steps).filters ∧
      (∀ sql, select t (ofSteps steps) = .ok sql → ∃ w o, WhereClause t (ofSteps steps).filters w ∧
        orderClause t (ofSteps steps).order = .ok o ∧
        sql = selectHeader t ++ w ++ o ++ limitClause (ofSteps steps).limit ++
          offsetClause (ofSteps steps).offset) ∧
      ∀ sql, count t (ofSteps steps) = .ok sql → ∃ w, WhereClause t (ofSteps steps).filters w ∧
        sql = countHeader t ++ w := by
  refine ⟨ofSteps_eq_ofParts, ?_, ?_, ofSteps_split, ?_⟩
  · intro as bs h
    exact ofSteps_congr h
  · intro s before before' after hs h
    exact ofSteps_replaced hs h after
  · intro t steps
    have hheaded := headed_ofSteps steps
    refine ⟨hheaded, ?_, ?_⟩
    · intro sql h
      obtain ⟨w, hw, h⟩ := bind_eq_ok.1 h
      obtain ⟨o, ho, h⟩ := bind_eq_ok.1 h
      cases h
      exact ⟨w, o, whereClause_of_conditions hheaded hw, ho, rfl⟩
    · intro sql h
      obtain ⟨w, hw, h⟩ := bind_eq_ok.1 h
      cases h
      exact ⟨w, whereClause_of_conditions hheaded hw, rfl⟩

def adult : Expr := .binary .ge (.field 1) (.literal (.integer 18))

def unnamed : Expr := .binary .eq (.field 0) (.literal (.text ""))

def wandering : List Step :=
  [.join .or unnamed, .limit 1, .filter adult, .orderBy .descending [1, 0], .join .and unnamed, .limit 5]

def straight : List Step :=
  [.filter adult, .join .and unnamed, .orderBy .descending [1], .orderBy .descending [0], .limit 5]

theorem ofSteps_by_parts_wandering :
    ofSteps wandering = ofSteps straight ∧
    ∃ w, WhereClause person [⟨none, adult⟩, ⟨some .and, unnamed⟩] w ∧
      select person (ofSteps wandering) =
        .ok ("SELECT name, age FROM Person" ++ w ++ " ORDER BY age DESC, name DESC" ++ " LIMIT 5" ++ "") := by
  obtain ⟨-, hreorder, hreplace, hsplit, htext⟩ := ofSteps_by_parts
  have hlimit : ofSteps wandering = ofSteps ([.join .or unnamed, .filter adult, .orderBy .descending [1, 0],
      .join .and unnamed] ++ [.limit 5]) :=
    hreplace (.limit 5) [.join .or unnamed, .limit 1, .filter adult, .orderBy .descending [1, 0],
      .join .and unnamed] _ [] rfl rfl
  have hfilter : ofSteps ([.join .or unnamed] ++ .filter adult :: [.orderBy .descending [1, 0],
      .join .and unnamed, .limit 5]) = ofSteps ([] ++ .filter adult :: [.orderBy .descending [1, 0],
      .join .and unnamed, .limit 5]) :=
    hreplace (.filter adult) _ _ _ rfl rfl
  have hkeys := hsplit [.filter adult] [.join .and unnamed, .limit 5] .descending [1] [0]
  have horder : ofSteps ([.filter adult] ++ .orderBy .descending [1] :: .orderBy .descending [0] ::
      [.join .and unnamed, .limit 5]) = ofSteps straight := hreorder _ _ fun p => by cases p <;> rfl
  have hsame : ofSteps wandering = ofSteps straight := hlimit.trans (hfilter.trans (hkeys.trans horder))
  refine ⟨hsame, ?_⟩
  rw [hsame]
  obtain ⟨w, o, hw, ho, hsql⟩ := (htext person straight).2.1 _ rfl
  cases ho
  exact ⟨w, hw, congrArg Except.ok hsql⟩

end Query
end Rowmap
