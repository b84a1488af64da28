import Rowmap.Proofs.Header
import Rowmap.Proofs.Predicates

/-! What the condition of a query's text means. Filters are pasted one behind the other without
parentheses, so the groups are not the trees that were handed in but the stretches between disjunctions;
and a text that is compared with stays one text, whatever is in it. -/

namespace Rowmap

/-- The tokens of a filter behind others. -/
def Filter.tokens (t : RecordType) (f : Filter) : List Token :=
  f.connective.toList.map (fun k => .reserved k.sql) ++ groupTokens (f.predicate.tests t)

namespace Query

/-- The filters in groups: each disjunction begins a new one. -/
def groups : List Filter → List (List Filter)
  | [] => []
  | f :: fs =>
    match groups fs with
    | [] => [[f]]
    | g :: gs => if fs.head?.bind Filter.connective = some .or then [f] :: g :: gs else (f :: g) :: gs

/-- Of the groups one has to hold, and of a group all comparisons. -/
def meaning (t : RecordType) (fs : List Filter) : List (List ColumnTest) :=
  (groups fs).map fun g => g.flatMap (·.predicate.tests t)

/-- Only the first filter stands without a connective. -/
def Headed : List Filter → Prop
  | [] => True
  | f :: fs => f.connective = none ∧ ∀ g ∈ fs, g.connective ≠ none

theorem headed_step {q : Query} (h : Headed q.filters) (s : Step) : Headed (q.step s).filters := by
  cases s with
  | filter e => exact ⟨rfl, nofun⟩
  | join c e =>
    cases hf : q.filters with
    | nil =>
      simp only [step, join, hf, List.isEmpty_nil, if_true, List.nil_append]
      exact ⟨rfl, nofun⟩
    | cons f fs =>
      rw [hf] at h
      simp only [step, join, hf, List.isEmpty_cons, Bool.false_eq_true, if_false, List.cons_append]
      refine ⟨h.1, fun g hg => ?_⟩
      rcases List.mem_append.1 hg with hg | hg
      · exact h.2 g hg
      · rw [List.mem_singleton.1 hg]
        exact nofun
  | orderBy d ks => exact h
  | limit n => exact h
  | offset n => exact h

theorem headed_ofSteps (steps : List Step) : Headed (ofSteps steps).filters := by
  have hrun : ∀ q : Query, Headed q.filters → Headed (steps.foldl step q).filters := by
    induction steps with
    | nil => exact fun q h => h
    | cons s steps ih => exact fun q h => ih (q.step s) (headed_step h s)
  exact hrun {} trivial

variable {t : RecordType}

theorem conditions_cons {f : Filter} {fs : List Filter} {w : String} (h : conditions t (f :: fs) = .ok w) :
    ∃ c rest, Expr.IsQuery t.declared f.predicate ∧ f.predicate.condition t = .ok c ∧
      conditions t fs = .ok rest ∧
      w = (match f.connective with | none => " WHERE " | some k => " " ++ k.sql ++ " ") ++ c ++ rest := by
  rw [conditions] at h
  obtain ⟨_, hcheck, h⟩ := bind_eq_ok.1 h
  obtain ⟨c, hc, h⟩ := bind_eq_ok.1 h
  obtain ⟨rest, hrest, h⟩ := bind_eq_ok.1 h
  cases h
  exact ⟨c, rest, Expr.isQuery_of_checkQuery hcheck, hc, hrest, rfl⟩

theorem isQuery_of_conditions {fs : List Filter} {w : String} (h : conditions t fs = .ok w) :
    ∀ f ∈ fs, Expr.IsQuery t.declared f.predicate := by
  induction fs generalizing w with
  | nil => exact nofun
  | cons f fs ih =>
    obtain ⟨c, rest, hq, hc, hrest, rfl⟩ := conditions_cons h
    exact List.forall_mem_cons.2 ⟨hq, ih hrest⟩

/-- Filters behind a piece make it a longer one. -/
theorem spells_conditions (hnames : ∀ n ∈ t.memberNames, Token.isIdentifier n = true) {fs : List Filter}
    (hfs : ∀ f ∈ fs, f.connective ≠ none) {w : String} (h : conditions t fs = .ok w) {p : List Char}
    {ts : List Token} (hp : Token.Spells p ts) :
    Token.Spells (p ++ w.toList) (ts ++ fs.flatMap (Filter.tokens t)) := by
  induction fs generalizing w p ts with
  | nil =>
    cases h
    simpa using hp
  | cons f fs ih =>
    obtain ⟨c, rest, hq, hc, hrest, rfl⟩ := conditions_cons h
    cases hk : f.connective with
    | none => exact absurd hk (hfs f (List.mem_cons_self ..))
    | some k =>
      have hcond := Expr.spells_condition hnames hq hc
      have hlonger := (hp.append (Token.spells_connective k)).append hcond
      have hall := ih (fun g hg => hfs g (List.mem_cons_of_mem _ hg)) hrest hlonger
      have hblank : " ".toList = [' '] := rfl
      simpa [Filter.tokens, hk, hblank] using hall

theorem meaning_single (f : Filter) : meaning t [f] = [f.predicate.tests t] := by
  simp [meaning, groups]

theorem meaning_cons_cons (f g : Filter) (fs : List Filter) :
    ∃ xs rest, meaning t (g :: fs) = xs :: rest ∧
      meaning t (f :: g :: fs) =
        if g.connective = some .or then f.predicate.tests t :: xs :: rest
        else (f.predicate.tests t ++ xs) :: rest := by
  cases hg : groups (g :: fs) with
  | nil =>
    rw [groups] at hg
    split at hg
    · cases hg
    · split at hg <;> cases hg
  | cons h hs =>
    refine ⟨_, _, by rw [meaning, hg, List.map_cons], ?_⟩
    rw [meaning, groups, hg]
    by_cases hor : g.connective = some .or
    · simp [hor]
    · simp [hor]

theorem meaning_cons_ne_nil (f : Filter) (fs : List Filter) : meaning t (f :: fs) ≠ [] := by
  cases fs with
  | nil => simp [meaning_single]
  | cons g fs =>
    obtain ⟨xs, rest, -, h⟩ := meaning_cons_cons (t := t) f g fs
    rw [h]
    split <;> simp

/-- Conjunctions bind what stands between disjunctions. -/
theorem tokens_meaning (f : Filter) {fs : List Filter} (hfs : ∀ g ∈ fs, g.connective ≠ none)
    (hq : ∀ g ∈ f :: fs, g.predicate.tests t ≠ []) :
    groupTokens (f.predicate.tests t) ++ fs.flatMap (Filter.tokens t) =
        conditionTokens (meaning t (f :: fs)) ∧
      ∀ xs ∈ meaning t (f :: fs), xs ≠ [] := by
  induction fs generalizing f with
  | nil =>
    rw [meaning_single]
    exact ⟨by simp [conditionTokens, wordsBetween], by simpa using hq⟩
  | cons g fs ih =>
    obtain ⟨xs, rest, hg, hfg⟩ := meaning_cons_cons (t := t) f g fs
    obtain ⟨htokens, hne⟩ := ih g (fun e he => hfs e (List.mem_cons_of_mem _ he))
      (fun e he => hq e (List.mem_cons_of_mem _ he))
    have hf : f.predicate.tests t ≠ [] := hq f (List.mem_cons_self ..)
    rw [hg] at htokens hne
    have hx : xs ≠ [] := hne xs (List.mem_cons_self ..)
    cases hk : g.connective with
    | none => exact absurd hk (hfs g (List.mem_cons_self ..))
    | some k =>
      have hmore : (g :: fs).flatMap (Filter.tokens t) = .reserved k.sql :: conditionTokens (xs :: rest) := by
        rw [← htokens, List.flatMap_cons, Filter.tokens, hk]
        simp
      rw [hmore, hfg, hk]
      cases k with
      | or =>
        rw [if_pos rfl]
        exact ⟨(wordsBetween_cons _ (by simp)).symm, List.forall_mem_cons.2 ⟨hf, hne⟩⟩
      | and =>
        rw [if_neg (by decide)]
        refine ⟨?_, List.forall_mem_cons.2 ⟨by simp [hf], (List.forall_mem_cons.1 hne).2⟩⟩
        exact (conditionTokens_append_cons hf hx rest).symm

def clauses (q : Query) (o : String) : List Char := (o ++ limitClause q.limit ++ offsetClause q.offset).toList

/-- The clauses begin with a word that joins no comparisons. -/
theorem clauses_cases {q : Query} {o : String} (h : orderClause t q.order = .ok o) :
    q.clauses o = [] ∨
      ∃ w ∈ ["ORDER", "LIMIT", "OFFSET"], ∃ s, q.clauses o = ' ' :: (w.toList ++ ' ' :: s) := by
  rw [orderClause] at h
  split at h
  · cases h
    cases hl : q.limit with
    | some n =>
      have hlimit : " LIMIT ".toList = ' ' :: ("LIMIT".toList ++ [' ']) := rfl
      refine Or.inr ⟨"LIMIT", by simp, (toString n ++ offsetClause q.offset).toList, ?_⟩
      simp only [clauses, hl, limitClause, String.toList_append, hlimit, List.cons_append, List.append_assoc,
        List.nil_append, String.toList_empty]
    | none =>
      cases ho : q.offset with
      | some k =>
        have hoffset : " OFFSET ".toList = ' ' :: ("OFFSET".toList ++ [' ']) := rfl
        refine Or.inr ⟨"OFFSET", by simp, (toString k).toList, ?_⟩
        simp only [clauses, hl, ho, limitClause, offsetClause, String.toList_append, hoffset,
          List.cons_append, List.append_assoc, List.nil_append, String.toList_empty]
      | none =>
        left
        rw [clauses, hl, ho]
        rfl
  · cases hk : sortKeys t q.order with
    | error x => rw [hk] at h; cases h
    | ok cs =>
      rw [hk] at h
      cases h
      have horder : " ORDER BY ".toList = ' ' :: ("ORDER".toList ++ ' ' :: "BY ".toList) := rfl
      refine Or.inr ⟨"ORDER", by simp, "BY ".toList ++ q.clauses (Table.commas cs), ?_⟩
      simp only [clauses, String.toList_append, horder, List.cons_append, List.append_assoc]

theorem spells_clauseWord {w : String} (h : w ∈ ["ORDER", "LIMIT", "OFFSET"]) :
    Token.Spells w.toList [Token.ofWord w] ∧ Token.ofWord w ≠ .reserved "AND" ∧
      Token.ofWord w ≠ .reserved "OR" := by
  simp only [List.mem_cons, List.not_mem_nil, or_false] at h
  rcases h with rfl | rfl | rfl <;> exact ⟨Token.spells_ofWord rfl rfl, by decide +kernel, by decide +kernel⟩

theorem afterWord?_of_ne {w : String} {u : Token} (h : u ≠ .reserved w) (ts : List Token) :
    Reading.afterWord? w (u :: ts) = none := by
  cases u with
  | reserved v =>
    have hv : v ≠ w := fun hv => h (hv ▸ rfl)
    rw [Reading.afterWord?, if_neg hv]
  | _ => rfl

theorem clauses_end {q : Query} {o : String} (h : orderClause t q.order = .ok o) :
    Token.Ends (q.clauses o) ∧
      ∀ w ∈ ["AND", "OR"], Reading.afterWord? w (Token.tokensOf (q.clauses o)) = none := by
  rcases clauses_cases h with hs | ⟨w, hw, s, hs⟩
  · rw [hs, Token.tokensOf_nil]
    exact ⟨Token.ends_nil, fun _ _ => rfl⟩
  · obtain ⟨hspells, hand, hor⟩ := spells_clauseWord hw
    rw [hs, hspells.readSpaced _ (Token.ends_space s)]
    refine ⟨Token.ends_space _, fun v hv => ?_⟩
    simp only [List.mem_cons, List.not_mem_nil, or_false] at hv
    rcases hv with rfl | rfl
    · exact afterWord?_of_ne hand _
    · exact afterWord?_of_ne hor _

theorem select_eq_ok {q : Query} {sql : String} (h : select t q = .ok sql) :
    ∃ w o, conditions t q.filters = .ok w ∧ orderClause t q.order = .ok o ∧
      sql.toList = (selectHeader t).toList ++ (w.toList ++ q.clauses o) := by
  rw [select] at h
  obtain ⟨w, hw, h⟩ := bind_eq_ok.1 h
  obtain ⟨o, ho, h⟩ := bind_eq_ok.1 h
  cases h
  exact ⟨w, o, hw, ho, by simp only [clauses, String.toList_append, List.append_assoc]⟩

/-- However a query is built, its text behind the first ` WHERE ` is read as its filters mean, up to the
clauses that follow, if names are read as themselves. -/
theorem condition_read (htable : Token.isIdentifier t.tableName = true)
    (hnames : ∀ n ∈ t.memberNames, Token.isIdentifier n = true) (steps : List Step)
    (hfilters : (ofSteps steps).filters ≠ []) {sql : String} (h : select t (ofSteps steps) = .ok sql) :
    ∃ s o, afterFirst? " WHERE ".toList sql.toList = some s ∧
      orderClause t (ofSteps steps).order = .ok o ∧
      Reading.condition? (Token.tokensOf s) =
        some (meaning t (ofSteps steps).filters, Token.tokensOf ((ofSteps steps).clauses o)) := by
  have hheaded := headed_ofSteps steps
  generalize ofSteps steps = q at *
  obtain ⟨w, o, hw, ho, hsql⟩ := select_eq_ok h
  cases hq : q.filters with
  | nil => exact absurd hq hfilters
  | cons f fs =>
    rw [hq] at hw hheaded
    obtain ⟨hnone, hsome⟩ := hheaded
    have hqueries := isQuery_of_conditions hw
    obtain ⟨c, rest, hquery, hc, hrest, hwtext⟩ := conditions_cons hw
    have hspells := spells_conditions hnames hsome hrest (Expr.spells_condition hnames hquery hc)
    obtain ⟨htokens, hgroups⟩ := tokens_meaning f hsome fun g hg => Expr.tests_ne_nil (hqueries g hg)
    obtain ⟨hends, hnext⟩ := clauses_end ho
    refine ⟨c.toList ++ rest.toList ++ q.clauses o, o, ?_, ho, ?_⟩
    · have hlead := afterFirst?_select htable hnames (c.toList ++ rest.toList ++ q.clauses o)
      have htext : w.toList = lead ++ (c.toList ++ rest.toList) := by
        rw [hwtext, hnone, String.toList_append, String.toList_append, List.append_assoc]
        rfl
      rw [hsql, htext, List.append_assoc]
      exact hlead
    · have hand := hnext "AND" (by simp)
      have hor := hnext "OR" (by simp)
      rw [hspells.read _ hends, htokens]
      exact Reading.condition?_tokens (meaning_cons_ne_nil f fs) hgroups hand hor

def person : RecordType := ⟨0, "Person", 2, [⟨"name", .text, 0⟩, ⟨"age", .integer .int32, 0⟩]⟩

/-- Texts that look like the end of a text and the beginning of another comparison. -/
def hostileSteps : List Step :=
  [.filter (.binary .eq (.field 0) (.literal (.text "x' OR age > '"))),
    .join .and (.binary .ge (.field 1) (.literal (.integer (-3)))),
    .join .or (.binary .ne (.field 0) (.literal (.text " AND "))), .limit 5]

theorem condition_read_hostile :
    ∃ sql s, select person (ofSteps hostileSteps) = .ok sql ∧
      afterFirst? " WHERE ".toList sql.toList = some s ∧
      Reading.condition? (Token.tokensOf s) =
        some ([[⟨"name", .eq, .text "x' OR age > '"⟩, ⟨"age", .ge, .number (-3)⟩],
            [⟨"name", .ne, .text " AND "⟩]],
          Token.tokensOf " LIMIT 5".toList) := by
  obtain ⟨sql, hsql⟩ : ∃ sql, select person (ofSteps hostileSteps) = .ok sql := ⟨_, rfl⟩
  obtain ⟨s, o, hs, ho, hread⟩ :=
    condition_read (t := person) (by decide +kernel) (by decide +kernel) hostileSteps (by decide) hsql
  cases ho
  exact ⟨sql, s, hsql, hs, hread⟩

end Query
end Rowmap
