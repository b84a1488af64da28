import Rowmap.Proofs.WhereClause

/-! A selection by its grammar. A sentence has columns, a table, and up to three clauses behind them: comparisons
with connectives between them, columns to order by, and a limit, which alone may be followed by an offset. The
text of a query is put together of pieces with blanks in front, so its tokens are read off piece by piece; and they
are those of a sentence unless there is an offset and no limit. -/

namespace Rowmap

def commasBetween {α : Type} (print : α → List Token) (as : List α) : List Token :=
  [.comma].intercalate (as.map print)

/-- What stands in a list of pieces is of a piece or stands between them. -/
theorem mem_intercalate {α : Type} {b u : α} {ps : List (List α)} (h : u ∈ [b].intercalate ps) :
    u = b ∨ ∃ p ∈ ps, u ∈ p := by
  induction ps with
  | nil => cases h
  | cons p ps ih =>
    cases ps with
    | nil => exact Or.inr ⟨p, by simp, by simpa using h⟩
    | cons q ps =>
      rw [List.intercalate_cons_cons, List.append_assoc, List.singleton_append] at h
      rcases List.mem_append.1 h with h | h
      · exact Or.inr ⟨p, List.mem_cons_self .., h⟩
      · rcases List.mem_cons.1 h with h | h
        · exact Or.inl h
        · exact (ih h).imp_right fun ⟨r, hr, hu⟩ => ⟨r, List.mem_cons_of_mem _ hr, hu⟩

theorem mem_commasBetween {α : Type} {print : α → List Token} {as : List α} {u : Token}
    (h : u ∈ commasBetween print as) : u = .comma ∨ ∃ a ∈ as, u ∈ print a := by
  refine (mem_intercalate h).imp_right fun ⟨p, hp, hu⟩ => ?_
  obtain ⟨a, ha, rfl⟩ := List.mem_map.1 hp
  exact ⟨a, ha, hu⟩

theorem notMem_commasBetween {α : Type} {print : α → List Token} {as : List α} {u : Token} (hcomma : u ≠ .comma)
    (h : ∀ a ∈ as, u ∉ print a) : u ∉ commasBetween print as := by
  intro hu
  rcases mem_commasBetween hu with hu | ⟨a, ha, hu⟩
  · exact hcomma hu
  · exact h a ha hu

def Token.numeral (n : Nat) : Token := .number (String.ofList (Decimal.natText n))

/-- `SELECT column {, column} FROM table [WHERE comparison {(AND | OR) comparison}]
[ORDER BY column (ASC | DESC) {, column (ASC | DESC)}] [LIMIT n [OFFSET m]]` -/
structure Sentence where
  columns : List String
  columns_ne_nil : columns ≠ []
  table : String
  condition : Option (ColumnTest × List (Connective × ColumnTest))
  order : List (String × Direction)
  paging : Option (Nat × Option Nat)

namespace Sentence

def joined (xs : List (Connective × ColumnTest)) : List Token :=
  xs.flatMap fun x => .reserved x.1.sql :: x.2.tokens

def conditionClause : Option (ColumnTest × List (Connective × ColumnTest)) → List Token
  | none => []
  | some (x, xs) => .reserved "WHERE" :: (x.tokens ++ joined xs)

def orderClause (ks : List (String × Direction)) : List Token :=
  if ks = [] then []
  else .reserved "ORDER" :: .word "BY" :: commasBetween (fun k => [.word k.1, .word k.2.sql]) ks

def limitClause : Option Nat → List Token
  | none => []
  | some n => [.reserved "LIMIT", .numeral n]

def offsetClause : Option Nat → List Token
  | none => []
  | some m => [.word "OFFSET", .numeral m]

def pagingClause : Option (Nat × Option Nat) → List Token
  | none => []
  | some (n, m) => limitClause (some n) ++ offsetClause m

def header (columns : List String) (table : String) : List Token :=
  .reserved "SELECT" :: (commasBetween (fun n => [.word n]) columns ++ [.reserved "FROM", .word table])

def tokens (s : Sentence) : List Token :=
  header s.columns s.table ++ conditionClause s.condition ++ orderClause s.order ++ pagingClause s.paging

end Sentence

namespace Token

/-- The text, a piece for itself, makes a piece longer that stands in front of it. -/
def Lengthens (w : List Char) (us : List Token) : Prop :=
  ∀ p ts, Spells p ts → Spells (p ++ w) (ts ++ us)

theorem lengthens_nil : Lengthens [] [] := by
  intro p ts hp
  simpa using hp

theorem Lengthens.append {v w : List Char} {ts us : List Token} (hv : Lengthens v ts) (hw : Lengthens w us) :
    Lengthens (v ++ w) (ts ++ us) := by
  intro p rs hp
  rw [← List.append_assoc, ← List.append_assoc]
  exact hw _ _ (hv _ _ hp)

theorem Spells.lengthens {w : List Char} {us : List Token} (h : Spells w us) : Lengthens (' ' :: w) us :=
  fun _ _ hp => hp.append h

theorem ends_comma (s : List Char) : Ends (',' :: s) := by
  intro c hc
  exact Or.inr (Or.inl (Option.some.inj hc).symm)

theorem tokensOf_comma (s : List Char) : tokensOf (',' :: s) = .comma :: tokensOf s := by
  rw [tokensOf, afterBlanks_of_none (blank?_solid (by decide) s)]
  exact scanFrom_of_next rfl (Nat.lt_succ_self _)

theorem Spells.comma {v w : List Char} {ts us : List Token} (hv : Spells v ts) (hw : Spells w us) :
    Spells (v ++ ',' :: ' ' :: w) (ts ++ .comma :: us) where
  read rest hr := by
    rw [List.append_assoc, List.cons_append, List.cons_append, hv.read _ (ends_comma _), tokensOf_comma,
      hw.readSpaced rest hr, List.append_assoc, List.cons_append]
  readSpaced rest hr := by
    rw [List.append_assoc, List.cons_append, List.cons_append, hv.readSpaced _ (ends_comma _), tokensOf_comma,
      hw.readSpaced rest hr, List.append_assoc, List.cons_append]

theorem commasBetween_cons {α : Type} (print : α → List Token) (a : α) {as : List α} (h : as ≠ []) :
    commasBetween print (a :: as) = print a ++ .comma :: commasBetween print as := by
  simp only [commasBetween, List.map_cons]
  rw [List.intercalate_cons_of_ne_nil (by simpa using h), List.append_assoc, List.singleton_append]

theorem spells_commas {α : Type} (text : α → String) (print : α → List Token) {as : List α} (hne : as ≠ [])
    (h : ∀ a ∈ as, Spells (text a).toList (print a)) :
    Spells (Table.commas (as.map text)).toList (commasBetween print as) := by
  induction as with
  | nil => exact absurd rfl hne
  | cons a as ih =>
    have ha := h a (List.mem_cons_self ..)
    cases as with
    | nil => simpa [Table.commas, commasBetween] using ha
    | cons b as =>
      have hcomma : ", ".toList = [',', ' '] := rfl
      have hrest := ih (List.cons_ne_nil b as) fun c hc => h c (List.mem_cons_of_mem _ hc)
      rw [commasBetween_cons print a (List.cons_ne_nil b as)]
      simpa [Table.commas, String.intercalate_cons_cons, hcomma] using ha.comma hrest

theorem Spells.tokensOf_eq {w : List Char} {ts : List Token} (h : Spells w ts) : tokensOf w = ts := by
  have hread := h.read [] ends_nil
  rwa [List.append_nil, tokensOf_nil, List.append_nil] at hread

/-- Nothing is read from a text with a zero character, and all of any other. -/
theorem tokens_scan (s : List Char) :
    (scan s).map Lexeme.token = if '\x00' ∈ s then [.unknown] else tokensOf s := by
  unfold scan
  split <;> rfl

end Token

namespace Sentence

theorem mem_header {columns : List String} {table : String} {u : Token} (h : u ∈ header columns table) :
    u = .reserved "SELECT" ∨ u = .reserved "FROM" ∨ u = .comma ∨ ∃ n, u = .word n := by
  simp only [header, List.mem_cons, List.mem_append, List.not_mem_nil, or_false] at h
  rcases h with h | h | h | h
  · exact Or.inl h
  · rcases mem_commasBetween h with h | ⟨n, -, h⟩
    · exact Or.inr (Or.inr (Or.inl h))
    · exact Or.inr (Or.inr (Or.inr ⟨n, List.mem_singleton.1 h⟩))
  · exact Or.inr (Or.inl h)
  · exact Or.inr (Or.inr (Or.inr ⟨table, h⟩))

theorem mem_orderClause {ks : List (String × Direction)} {u : Token} (h : u ∈ orderClause ks) :
    u = .reserved "ORDER" ∨ u = .comma ∨ ∃ n, u = .word n := by
  unfold orderClause at h
  split at h
  · cases h
  · rcases List.mem_cons.1 h with h | h
    · exact Or.inl h
    · rcases List.mem_cons.1 h with h | h
      · exact Or.inr (Or.inr ⟨_, h⟩)
      · rcases mem_commasBetween h with h | ⟨k, -, h⟩
        · exact Or.inr (Or.inl h)
        · simp only [List.mem_cons, List.not_mem_nil, or_false] at h
          exact Or.inr (Or.inr (h.elim (⟨_, ·⟩) (⟨_, ·⟩)))

theorem mem_tokens {x : ColumnTest} {u : Token} (h : u ∈ x.tokens) :
    u = .word x.column ∨ u = .compare x.op ∨ u = .minus ∨ (∃ v, u = .number v) ∨ ∃ v, u = .text v := by
  rcases List.mem_cons.1 h with h | h
  · exact Or.inl h
  · rcases List.mem_cons.1 h with h | h
    · exact Or.inr (Or.inl h)
    · cases hc : x.constant with
      | text v =>
        rw [hc] at h
        exact Or.inr (Or.inr (Or.inr (Or.inr ⟨v, List.mem_singleton.1 h⟩)))
      | number k =>
        rw [hc, Constant.tokens, Token.ofInt] at h
        split at h
        · rcases List.mem_cons.1 h with h | h
          · exact Or.inr (Or.inr (Or.inl h))
          · exact Or.inr (Or.inr (Or.inr (Or.inl ⟨_, List.mem_singleton.1 h⟩)))
        · exact Or.inr (Or.inr (Or.inr (Or.inl ⟨_, List.mem_singleton.1 h⟩)))

theorem reserved_notMem_tokens (x : ColumnTest) (w : String) : .reserved w ∉ x.tokens := by
  intro h
  rcases mem_tokens h with h | h | h | ⟨v, h⟩ | ⟨v, h⟩ <;> cases h

theorem mem_conditionClause {c : Option (ColumnTest × List (Connective × ColumnTest))} {u : Token}
    (h : u ∈ conditionClause c) :
    u = .reserved "WHERE" ∨ (∃ k : Connective, u = .reserved k.sql) ∨ ∃ x : ColumnTest, u ∈ x.tokens := by
  cases c with
  | none => cases h
  | some p =>
    obtain ⟨x, xs⟩ := p
    simp only [conditionClause, joined, List.mem_cons, List.mem_append, List.mem_flatMap] at h
    rcases h with h | h | ⟨y, -, h | h⟩
    · exact Or.inl h
    · exact Or.inr (Or.inr ⟨x, h⟩)
    · exact Or.inr (Or.inl ⟨y.1, h⟩)
    · exact Or.inr (Or.inr ⟨y.2, h⟩)

/-- A reserved word that is in none of the clauses before the limit. -/
theorem reserved_notMem_conditionClause (c : Option (ColumnTest × List (Connective × ColumnTest))) {w : String}
    (hw : w ≠ "WHERE") (hk : ∀ k : Connective, w ≠ k.sql) : .reserved w ∉ conditionClause c := by
  intro h
  rcases mem_conditionClause h with h | ⟨k, h⟩ | ⟨x, h⟩
  · exact hw (Token.reserved.inj h)
  · exact hk k (Token.reserved.inj h)
  · exact reserved_notMem_tokens x w h

theorem order_limit_notMem (c : Option (ColumnTest × List (Connective × ColumnTest))) :
    .reserved "ORDER" ∉ conditionClause c ∧ .reserved "LIMIT" ∉ conditionClause c :=
  ⟨reserved_notMem_conditionClause c (by decide) (by rintro (_ | _) <;> decide),
    reserved_notMem_conditionClause c (by decide) (by rintro (_ | _) <;> decide)⟩

theorem limit_notMem_orderClause (ks : List (String × Direction)) : .reserved "LIMIT" ∉ orderClause ks := by
  intro h
  rcases mem_orderClause h with h | h | ⟨n, h⟩
  · exact absurd (Token.reserved.inj h) (by decide)
  · cases h
  · cases h

theorem limit_notMem {s : Sentence} (hs : s.paging = none) : .reserved "LIMIT" ∉ s.tokens := by
  intro h
  simp only [tokens, hs, pagingClause, List.append_nil, List.mem_append] at h
  rcases h with (h | h) | h
  · rcases mem_header h with h | h | h | ⟨n, h⟩
    · exact absurd (Token.reserved.inj h) (by decide)
    · exact absurd (Token.reserved.inj h) (by decide)
    · cases h
    · cases h
  · exact (order_limit_notMem _).2 h
  · exact limit_notMem_orderClause _ h

theorem constant_ends (op : Operator) (c : Constant) :
    ∃ ts u v, .compare op :: c.tokens = ts ++ [u, v] ∧ ∀ n, u ≠ .word n := by
  cases c with
  | text s => exact ⟨[], _, _, rfl, nofun⟩
  | number k =>
    by_cases hk : k < 0
    · exact ⟨[.compare op], .minus, _, by rw [Constant.tokens, Token.ofInt, if_pos hk]; rfl, nofun⟩
    · exact ⟨[], .compare op, _, by rw [Constant.tokens, Token.ofInt, if_neg hk]; rfl, nofun⟩

/-- A condition ends with a constant, and no word stands in front of the last token of that. -/
theorem conditionClause_ends (x : ColumnTest) (xs : List (Connective × ColumnTest)) :
    ∃ ts u v, conditionClause (some (x, xs)) = ts ++ [u, v] ∧ ∀ n, u ≠ .word n := by
  rcases List.eq_nil_or_concat xs with rfl | ⟨ys, y, rfl⟩
  · obtain ⟨ts, u, v, hends, hu⟩ := constant_ends x.op x.constant
    refine ⟨.reserved "WHERE" :: .word x.column :: ts, u, v, ?_, hu⟩
    simp [conditionClause, joined, ColumnTest.tokens, hends]
  · obtain ⟨ts, u, v, hends, hu⟩ := constant_ends y.2.op y.2.constant
    refine ⟨.reserved "WHERE" :: (x.tokens ++ joined ys ++ .reserved y.1.sql :: .word y.2.column :: ts), u, v,
      ?_, hu⟩
    simp [conditionClause, joined, ColumnTest.tokens, hends]

theorem paging_ne_none_of_offset {s : Sentence} {ts : List Token} {m : Nat}
    (h : s.tokens = ts ++ [.word "OFFSET", .numeral m]) : s.paging ≠ none := by
  intro hs
  have hlast : s.tokens.getLast? = some (.numeral m) := by rw [h]; simp
  simp only [tokens, hs, pagingClause, List.append_nil] at h hlast
  by_cases horder : orderClause s.order = []
  · rw [horder, List.append_nil] at h hlast
    cases hc : s.condition with
    | none =>
      rw [hc, conditionClause, List.append_nil] at hlast
      rcases mem_header (List.mem_of_getLast? hlast) with h | h | h | ⟨n, h⟩ <;> cases h
    | some p =>
      obtain ⟨us, u, v, hcondition, hu⟩ := conditionClause_ends p.1 p.2
      rw [hc, hcondition, ← List.append_assoc] at h
      exact hu _ (List.cons.inj (List.append_inj' h rfl).2).1
  · rw [List.getLast?_append, List.getLast?_eq_some_getLast horder, Option.some_or] at hlast
    rcases mem_orderClause (List.mem_of_getLast? ((List.getLast?_eq_some_getLast horder).trans hlast))
      with h | h | ⟨n, h⟩ <;> cases h

theorem limit_mem {s : Sentence} (hs : s.paging ≠ none) : .reserved "LIMIT" ∈ s.tokens := by
  obtain ⟨⟨n, m⟩, hp⟩ := Option.ne_none_iff_exists'.1 hs
  simp [tokens, hp, pagingClause, limitClause]

/-- What follows a sentence without paging makes it another one only if an offset comes behind a limit. -/
theorem limited_of_tokens {s r : Sentence} (hr : r.paging = none) {limit offset : Option Nat}
    (h : s.tokens = r.tokens ++ (limitClause limit ++ offsetClause offset)) : limit = none → offset = none := by
  rintro rfl
  cases offset with
  | none => rfl
  | some m =>
    have hlimit := limit_mem (paging_ne_none_of_offset h)
    rw [h] at hlimit
    simp [limitClause, offsetClause, limit_notMem hr, Token.numeral] at hlimit

end Sentence

theorem groupTokens_cons (x : ColumnTest) (xs : List ColumnTest) :
    groupTokens (x :: xs) = x.tokens ++ Sentence.joined (xs.map (Connective.and, ·)) := by
  induction xs generalizing x with
  | nil => simp [groupTokens, wordsBetween, Sentence.joined]
  | cons y ys ih =>
    have hys : groupTokens (y :: ys) = y.tokens ++ Sentence.joined (ys.map (Connective.and, ·)) := ih y
    rw [groupTokens, wordsBetween_cons x (List.cons_ne_nil y ys), ← groupTokens, hys]
    rfl

/-- The comparisons of a filter, each with the connective in front of it. -/
def Filter.links (t : RecordType) (f : Filter) : List (Connective × ColumnTest) :=
  match f.predicate.tests t with
  | [] => []
  | x :: xs => (f.connective.getD .and, x) :: xs.map (Connective.and, ·)

theorem Filter.tokens_eq_joined {t : RecordType} {f : Filter} (hk : f.connective ≠ none)
    (hne : f.predicate.tests t ≠ []) : f.tokens t = Sentence.joined (f.links t) := by
  obtain ⟨k, hk⟩ := Option.ne_none_iff_exists'.1 hk
  cases hx : f.predicate.tests t with
  | nil => exact absurd hx hne
  | cons x xs =>
    simp only [Filter.tokens, links, hk, hx, groupTokens_cons]
    rfl

namespace Query

def comparisons (t : RecordType) (fs : List Filter) : Option (ColumnTest × List (Connective × ColumnTest)) :=
  match fs.flatMap (Filter.links t) with
  | [] => none
  | (_, x) :: xs => some (x, xs)

/-- The columns that rows are ordered by. -/
def keys (t : RecordType) (ks : List SortKey) : List (String × Direction) :=
  ks.map fun k => ((t.fieldName? k.field).getD "", k.direction)

/-- The sentence that a query is meant to be. -/
def sentence (t : RecordType) (hne : t.memberNames ≠ []) (q : Query) : Sentence where
  columns := t.memberNames
  columns_ne_nil := hne
  table := t.tableName
  condition := comparisons t q.filters
  order := keys t q.order
  paging := q.limit.map (·, q.offset)

variable {t : RecordType}

theorem spells_reserved {w : String}
    (hw : w ∈ ["SELECT", "FROM", "WHERE", "ORDER", "LIMIT", "INSERT", "INTO", "VALUES", "CREATE", "DROP", "TABLE",
      "NOT", "EXISTS"]) : Token.Spells w.toList [.reserved w] := by
  simp only [List.mem_cons, List.not_mem_nil, or_false] at hw
  have hof : Token.ofWord w = .reserved w := by
    rcases hw with rfl | rfl | rfl | rfl | rfl | rfl | rfl | rfl | rfl | rfl | rfl | rfl | rfl <;> decide +kernel
  rw [← hof]
  rcases hw with rfl | rfl | rfl | rfl | rfl | rfl | rfl | rfl | rfl | rfl | rfl | rfl | rfl <;>
    exact Token.spells_ofWord rfl rfl

theorem spells_header (hne : t.memberNames ≠ []) (htable : Token.isIdentifier t.tableName = true)
    (hnames : ∀ n ∈ t.memberNames, Token.isIdentifier n = true) :
    Token.Spells (selectHeader t).toList (Sentence.header t.memberNames t.tableName) := by
  have hcolumns := Token.spells_commas id (fun n => [.word n]) hne
    fun n hn => Token.spells_identifier (hnames n hn)
  rw [List.map_id] at hcolumns
  have hall := (((spells_reserved (w := "SELECT") (by simp)).append hcolumns).append
    (spells_reserved (w := "FROM") (by simp))).append (Token.spells_identifier htable)
  have hselect : "SELECT ".toList = "SELECT".toList ++ [' '] := rfl
  have hfrom : " FROM ".toList = ' ' :: "FROM".toList ++ [' '] := rfl
  simpa [selectHeader, Sentence.header, hselect, hfrom] using hall

theorem conditionClause_comparisons (f : Filter) {fs : List Filter} (hfs : ∀ g ∈ fs, g.connective ≠ none)
    (hne : ∀ g ∈ f :: fs, g.predicate.tests t ≠ []) :
    Sentence.conditionClause (comparisons t (f :: fs)) =
      .reserved "WHERE" :: (groupTokens (f.predicate.tests t) ++ fs.flatMap (Filter.tokens t)) := by
  have hjoined : fs.flatMap (Filter.tokens t) = Sentence.joined (fs.flatMap (Filter.links t)) := by
    rw [Sentence.joined, List.flatMap_assoc]
    exact congrArg List.flatten (List.map_congr_left fun g hg =>
      Filter.tokens_eq_joined (hfs g hg) (hne g (List.mem_cons_of_mem _ hg)))
  cases hx : f.predicate.tests t with
  | nil => exact absurd hx (hne f (List.mem_cons_self ..))
  | cons x xs =>
    rw [groupTokens_cons, hjoined]
    simp [comparisons, Filter.links, hx, Sentence.conditionClause, Sentence.joined]

theorem lengthens_conditions (hnames : ∀ n ∈ t.memberNames, Token.isIdentifier n = true) {fs : List Filter}
    (hheaded : Headed fs) {w : String} (h : conditions t fs = .ok w) :
    Token.Lengthens w.toList (Sentence.conditionClause (comparisons t fs)) := by
  cases fs with
  | nil =>
    cases h
    exact Token.lengthens_nil
  | cons f fs =>
    obtain ⟨hnone, hsome⟩ := hheaded
    have hqueries := isQuery_of_conditions h
    obtain ⟨c, rest, hquery, hc, hrest, rfl⟩ := conditions_cons h
    intro p ts hp
    have hcond := (hp.append (spells_reserved (w := "WHERE") (by simp))).append
      (Expr.spells_condition hnames hquery hc)
    have hall := spells_conditions hnames hsome hrest hcond
    have hwhere : " WHERE ".toList = ' ' :: "WHERE".toList ++ [' '] := rfl
    rw [conditionClause_comparisons f hsome fun g hg => Expr.tests_ne_nil (hqueries g hg)]
    simpa [hnone, hwhere] using hall

theorem sortKeys_eq_ok {ks : List SortKey} {cs : List String} (h : sortKeys t ks = .ok cs) :
    cs = (keys t ks).map (fun k => k.1 ++ " " ++ k.2.sql) ∧ ∀ k ∈ keys t ks, k.1 ∈ t.memberNames := by
  induction ks generalizing cs with
  | nil =>
    cases h
    exact ⟨rfl, nofun⟩
  | cons k ks ih =>
    rw [sortKeys] at h
    obtain ⟨n, hn, h⟩ := bind_eq_ok.1 h
    obtain ⟨rest, hrest, h⟩ := bind_eq_ok.1 h
    cases h
    obtain ⟨rfl, hmem⟩ := ih hrest
    have hname := Expr.fieldNameAt_eq_ok hn
    simp only [keys, List.map_cons, hname, Option.getD_some, List.forall_mem_cons]
    exact ⟨trivial, RecordType.mem_memberNames_of_fieldName? hname, hmem⟩

theorem lengthens_order (hnames : ∀ n ∈ t.memberNames, Token.isIdentifier n = true) {ks : List SortKey}
    {o : String} (h : orderClause t ks = .ok o) :
    Token.Lengthens o.toList (Sentence.orderClause (keys t ks)) := by
  cases ks with
  | nil =>
    cases h
    exact Token.lengthens_nil
  | cons k ks =>
    cases hcs : sortKeys t (k :: ks) with
    | error x =>
      rw [orderClause, hcs] at h
      cases h
    | ok cs =>
      rw [orderClause, hcs] at h
      cases h
      obtain ⟨rfl, hmem⟩ := sortKeys_eq_ok hcs
      have hdirection (d : Direction) : Token.isIdentifier d.sql = true := by cases d <;> decide +kernel
      have hne : keys t (k :: ks) ≠ [] := List.cons_ne_nil _ _
      have hkeys := Token.spells_commas (fun k => k.1 ++ " " ++ k.2.sql)
        (fun k => [.word k.1, .word k.2.sql]) hne fun k hk => by
          rw [Expr.toList_spaced]
          exact (Token.spells_identifier (hnames _ (hmem k hk))).append
            (Token.spells_identifier (hdirection k.2))
      have hlengthens := ((spells_reserved (w := "ORDER") (by simp)).append
        ((Token.spells_identifier (s := "BY") (by decide +kernel)).append hkeys)).lengthens
      have horder : " ORDER BY ".toList = ' ' :: ("ORDER".toList ++ ' ' :: ("BY".toList ++ [' '])) := rfl
      simpa [Sentence.orderClause, hne, horder] using hlengthens

theorem spells_numeral (n : Nat) : Token.Spells (toString n).toList [.numeral n] := by
  have htext : (toString n).toList = Decimal.natText n := String.toList_ofList
  have hspells := Token.spells_natText n
  rw [Token.ofInt, if_neg (by omega), Int.natAbs_natCast] at hspells
  rw [htext]
  exact hspells

theorem lengthens_limit (n : Option Nat) : Token.Lengthens (limitClause n).toList (Sentence.limitClause n) := by
  cases n with
  | none => exact Token.lengthens_nil
  | some n =>
    have hlimit : " LIMIT ".toList = ' ' :: ("LIMIT".toList ++ [' ']) := rfl
    have hall := ((spells_reserved (w := "LIMIT") (by simp)).append (spells_numeral n)).lengthens
    simpa [limitClause, Sentence.limitClause, hlimit] using hall

theorem lengthens_offset (m : Option Nat) :
    Token.Lengthens (offsetClause m).toList (Sentence.offsetClause m) := by
  cases m with
  | none => exact Token.lengthens_nil
  | some m =>
    have hoffset : " OFFSET ".toList = ' ' :: ("OFFSET".toList ++ [' ']) := rfl
    have hword := Token.spells_identifier (s := "OFFSET") (by decide +kernel)
    have hall := (hword.append (spells_numeral m)).lengthens
    simpa [offsetClause, Sentence.offsetClause, hoffset] using hall

/-- Every part of a query in turn, whether or not they make a sentence. -/
theorem tokensOf_select (hne : t.memberNames ≠ []) (htable : Token.isIdentifier t.tableName = true)
    (hnames : ∀ n ∈ t.memberNames, Token.isIdentifier n = true) {q : Query} (hheaded : Headed q.filters)
    {sql : String} (h : select t q = .ok sql) :
    Token.tokensOf sql.toList = { sentence t hne q with paging := none }.tokens ++
      (Sentence.limitClause q.limit ++ Sentence.offsetClause q.offset) := by
  obtain ⟨w, o, hw, ho, hsql⟩ := select_eq_ok h
  have hclauses := (((lengthens_conditions hnames hheaded hw).append (lengthens_order hnames ho)).append
    (lengthens_limit q.limit)).append (lengthens_offset q.offset)
  have hall := (hclauses _ _ (spells_header hne htable hnames)).tokensOf_eq
  rw [hsql]
  simpa [clauses, Sentence.tokens, sentence, Sentence.pagingClause] using hall

theorem scan_select (hne : t.memberNames ≠ []) (htable : Token.isIdentifier t.tableName = true)
    (hnames : ∀ n ∈ t.memberNames, Token.isIdentifier n = true) {q : Query} (hheaded : Headed q.filters)
    {sql : String} (h : select t q = .ok sql) (hzero : '\x00' ∉ sql.toList)
    (hpaging : q.limit = none → q.offset = none) :
    (Token.scan sql.toList).map Lexeme.token = (sentence t hne q).tokens := by
  rw [Token.tokens_scan, if_neg hzero, tokensOf_select hne htable hnames hheaded h]
  cases hl : q.limit with
  | none => simp [Sentence.tokens, sentence, hl, hpaging hl, Sentence.limitClause, Sentence.offsetClause,
      Sentence.pagingClause]
  | some n => simp [Sentence.tokens, sentence, hl, Sentence.pagingClause]

theorem limited_of_scan (hne : t.memberNames ≠ []) (htable : Token.isIdentifier t.tableName = true)
    (hnames : ∀ n ∈ t.memberNames, Token.isIdentifier n = true) {q : Query} (hheaded : Headed q.filters)
    {sql : String} (h : select t q = .ok sql) {s : Sentence}
    (hs : (Token.scan sql.toList).map Lexeme.token = s.tokens) :
    '\x00' ∉ sql.toList ∧ (q.limit = none → q.offset = none) := by
  rw [Token.tokens_scan] at hs
  split at hs
  · simp [Sentence.tokens, Sentence.header] at hs
  · next hzero =>
    rw [tokensOf_select hne htable hnames hheaded h] at hs
    exact ⟨hzero, Sentence.limited_of_tokens rfl hs.symm⟩

end Query

end Rowmap
