import Rowmap.Proofs.Sentence

/-! What a database makes of the text of a query. It cuts the lexemes at words and commas before it looks at a
piece, so every piece is found again where the sentence has put it, and what is read is the query. If an offset
stands behind anything but a limit, the piece that it ends is none that can be read. -/

namespace Rowmap

def Constant.operand : Constant → Operand
  | number n => .integer n
  | text s => .text s

def ColumnTest.comparison (x : ColumnTest) : Comparison :=
  ⟨.column ⟨none, x.column, false⟩, x.op, x.constant.operand⟩

/-- The column that is shown as it is. -/
def Item.column? : Item → Option String
  | .value (.column ⟨none, n, false⟩) none _ => some n
  | _ => none

namespace Command

section Cut

variable {α β : Type} {cuts : α → Bool}

theorem cutAt_eq_splitOnP (cuts : α → Bool) (as : List α) : cutAt cuts as = as.splitOnP cuts := by
  induction as with
  | nil => rfl
  | cons a as ih =>
    have hne := List.splitOnP_ne_nil cuts as
    rw [cutAt, List.splitOnP_cons_eq_if_modifyHead, ih]
    split
    · rfl
    · cases hs : as.splitOnP cuts with
      | nil => exact absurd hs hne
      | cons p ps => rfl

theorem cutAt_intercalate [DecidableEq α] {b : α} {ps : List (List α)} (hne : ps ≠ [])
    (h : ∀ p ∈ ps, b ∉ p) : cutAt (· = b) ([b].intercalate ps) = ps := by
  rw [cutAt_eq_splitOnP]
  exact List.splitOn_intercalate b h hne

/-- What is added behind, if nothing in it cuts, is added to the last piece. -/
theorem cutAt_append {bs : List α} (h : ∀ b ∈ bs, cuts b = false) (as : List α) :
    ∃ ps p, cutAt cuts (as ++ bs) = ps ++ [p ++ bs] := by
  induction as with
  | nil => exact ⟨[], [], by rw [cutAt_eq_splitOnP]; exact List.splitOnP_eq_singleton h⟩
  | cons a as ih =>
    obtain ⟨ps, p, hps⟩ := ih
    rw [List.cons_append, cutAt, hps]
    split
    · exact ⟨[] :: ps, p, rfl⟩
    · cases ps with
      | nil => exact ⟨[], a :: p, rfl⟩
      | cons q ps => exact ⟨(a :: q) :: ps, p, rfl⟩

/-- What stands in front, if nothing in it cuts, is the beginning of the first piece. -/
theorem cutAt_prefix {bs : List α} (h : ∀ b ∈ bs, cuts b = false) (as : List α) :
    ∃ p ps, cutAt cuts (bs ++ as) = (bs ++ p) :: ps := by
  induction bs with
  | nil =>
    cases hcut : cutAt cuts as with
    | nil =>
      rw [cutAt_eq_splitOnP] at hcut
      exact absurd hcut (List.splitOnP_ne_nil cuts as)
    | cons p ps => exact ⟨p, ps, hcut⟩
  | cons b bs ih =>
    obtain ⟨hb, hbs⟩ := List.forall_mem_cons.1 h
    obtain ⟨p, ps, hcut⟩ := ih hbs
    refine ⟨p, ps, ?_⟩
    rw [List.cons_append, cutAt, hb, if_neg Bool.false_ne_true, hcut]
    rfl

theorem map_cutAt (g : α → β) (cuts : β → Bool) (as : List α) :
    (cutAt (fun a => cuts (g a)) as).map (List.map g) = cutAt cuts (as.map g) := by
  induction as with
  | nil => rfl
  | cons a as ih =>
    rw [List.map_cons, cutAt, cutAt, ← ih]
    split
    · rfl
    · cases cutAt (fun a => cuts (g a)) as <;> rfl

theorem mapM_map_eq_some {γ : Type} {f : β → Option γ} {g : α → β} {k : α → γ} {as : List α}
    (h : ∀ a ∈ as, f (g a) = some (k a)) : (as.map g).mapM f = some (as.map k) := by
  induction as with
  | nil => rfl
  | cons a as ih =>
    rw [List.map_cons, List.mapM_cons, h a (List.mem_cons_self ..),
      ih fun b hb => h b (List.mem_cons_of_mem _ hb)]
    rfl

theorem cutAt_commasBetween {print : α → List Token} {as : List α} (hne : as ≠ [])
    (h : ∀ a ∈ as, .comma ∉ print a) : cutAt (· = .comma) (commasBetween print as) = as.map print :=
  cutAt_intercalate (by simpa using hne) (List.forall_mem_map.2 h)

theorem mapM_concat_eq_none {f : α → Option β} {a : α} (h : f a = none) (as : List α) :
    (as ++ [a]).mapM f = none := by
  rw [List.mapM_append, List.mapM_cons, h]
  cases as.mapM f <;> rfl

end Cut

/-! Comparisons -/

theorem operand?_tokens (c : Constant) : operand? c.tokens = some c.operand := by
  cases c with
  | text s => rfl
  | number n =>
    rw [Constant.tokens, Token.ofInt]
    split
    · have hn : -(n.natAbs : Int) = n := by omega
      simp only [operand?, Reading.integer?_natText, Constant.operand, Option.bind_eq_bind, Option.bind_some, hn]
      rfl
    · have hn : (n.natAbs : Int) = n := by omega
      simp only [operand?, Reading.integer?_natText, Constant.operand, Option.bind_eq_bind, Option.bind_some, hn]
      rfl

theorem scalar?_word {n : String} (h : n.toUpper ∉ startWords) :
    scalar? [.word n] = some (.column ⟨none, n, false⟩) := by
  have hname : nameBut? startWords (.word n) = some n := if_neg h
  simp only [scalar?, columnName?, hname, Option.bind_eq_bind, Option.bind_some]
  rfl

theorem comparison?_tokens {x : ColumnTest} (h : x.column.toUpper ∉ startWords) :
    comparison? x.tokens = some x.comparison := by
  have hdrop : x.tokens.dropWhile (!isComparison ·) = .compare x.op :: x.constant.tokens := rfl
  have htake : x.tokens.takeWhile (!isComparison ·) = [.word x.column] := rfl
  simp only [comparison?, hdrop, htake, scalar?_word h, operand?_tokens, Option.bind_eq_bind, Option.bind_some]
  rfl

theorem groups_condition? {gs : List (List ColumnTest)} (hne : gs ≠ []) (hgs : ∀ g ∈ gs, g ≠ [])
    (hnames : ∀ g ∈ gs, ∀ x ∈ g, x.column.toUpper ∉ startWords)
    (hdepth : Condition.depth (gs.map (·.map ColumnTest.comparison)) ≤ depthLimit) :
    condition? (conditionTokens gs) = some (gs.map (·.map ColumnTest.comparison)) := by
  have hgroup : ∀ g ∈ gs, (cutAt (· = .reserved "AND") (groupTokens g)).mapM comparison? =
      some (g.map ColumnTest.comparison) := by
    intro g hg
    have hcut : cutAt (· = .reserved "AND") (groupTokens g) = g.map ColumnTest.tokens := by
      refine cutAt_intercalate (by simpa using hgs g hg) fun p hp => ?_
      obtain ⟨x, -, rfl⟩ := List.mem_map.1 hp
      exact Sentence.reserved_notMem_tokens x "AND"
    rw [hcut]
    exact mapM_map_eq_some fun x hx => comparison?_tokens (hnames g hg x hx)
  have hcut : cutAt (· = .reserved "OR") (conditionTokens gs) = gs.map groupTokens := by
    refine cutAt_intercalate (by simpa using hne) fun p hp hor => ?_
    obtain ⟨g, -, rfl⟩ := List.mem_map.1 hp
    rcases mem_intercalate hor with h | ⟨q, hq, hor⟩
    · exact absurd (Token.reserved.inj h) (by decide)
    · obtain ⟨x, -, rfl⟩ := List.mem_map.1 hq
      exact Sentence.reserved_notMem_tokens x "OR" hor
  have hread : (gs.map groupTokens).mapM (fun a => (cutAt (· = .reserved "AND") a).mapM comparison?) =
      some (gs.map (·.map ColumnTest.comparison)) := mapM_map_eq_some hgroup
  simp only [condition?, hcut, hread, Option.bind_eq_bind, Option.bind_some, if_pos hdepth]

/-- A word and a number, which can be no part of what stands in front of them. -/
def stray (w v : String) : List Token := [.word w, .number v]

theorem stray_notReserved (w v x : String) : ∀ u ∈ stray w v, decide (u = .reserved x) = false := by
  intro u hu
  simp only [stray, List.mem_cons, List.not_mem_nil, or_false] at hu
  rcases hu with rfl | rfl <;> rfl

theorem operand?_stray (ts : List Token) (w v : String) : operand? (ts ++ stray w v) = none := by
  cases ts with
  | nil => rfl
  | cons t ts =>
    have hlength : 2 < (t :: ts ++ stray w v).length := by simp [stray]
    unfold operand?
    split
    case h_5 => rfl
    all_goals
      next h =>
      rw [h] at hlength
      simp at hlength

theorem comparison?_stray (ts : List Token) (w v : String) : comparison? (ts ++ stray w v) = none := by
  have hdrop : (ts ++ stray w v).dropWhile (!isComparison ·) = [] ∨
      ∃ t rest, (ts ++ stray w v).dropWhile (!isComparison ·) = t :: (rest ++ stray w v) := by
    rw [List.dropWhile_append]
    cases ts.dropWhile (!isComparison ·) with
    | nil => exact Or.inl rfl
    | cons t rest => exact Or.inr ⟨t, rest, rfl⟩
  unfold comparison?
  rcases hdrop with h | ⟨t, rest, h⟩
  · rw [h]
  · rw [h]
    cases t with
    | compare op =>
      simp only [operand?_stray]
      cases scalar? _ <;> rfl
    | _ => rfl

theorem condition?_stray (ts : List Token) (w v : String) : condition? (ts ++ stray w v) = none := by
  have hgroup : ∀ us, (cutAt (· = .reserved "AND") (us ++ stray w v)).mapM comparison? = none := by
    intro us
    obtain ⟨ps, p, hcut⟩ := cutAt_append (stray_notReserved w v "AND") us
    rw [hcut]
    exact mapM_concat_eq_none (comparison?_stray p w v) ps
  obtain ⟨ps, p, hcut⟩ := cutAt_append (stray_notReserved w v "OR") ts
  have hread := mapM_concat_eq_none (f := fun a => (cutAt (· = .reserved "AND") a).mapM comparison?)
    (hgroup p) ps
  simp only [condition?, hcut, hread]
  rfl

/-! Orders -/

theorem sortKey?_tokens {n : String} (h : n.toUpper ∉ startWords) (d : Direction) :
    sortKey? [.word n, .word d.sql] = some (.column ⟨none, n, false⟩, d) := by
  cases d with
  | ascending =>
    have hasc : Direction.ascending.sql.toUpper = "ASC" := by decide +kernel
    simp only [sortKey?, List.reverse_cons, List.reverse_nil, List.nil_append, List.singleton_append, hasc, if_true,
      scalar?_word h]
    rfl
  | descending =>
    have hdesc : Direction.descending.sql.toUpper = "DESC" := by decide +kernel
    simp only [sortKey?, List.reverse_cons, List.reverse_nil, List.nil_append, List.singleton_append,
      hdesc, if_true, scalar?_word h]
    rfl

theorem sortKey?_stray (ts : List Token) (w v : String) : sortKey? (ts ++ stray w v) = none := by
  unfold sortKey?
  rw [List.reverse_append]
  rfl

def readKeys (ks : List (String × Direction)) : List (Scalar × Direction) :=
  ks.map fun k => (.column ⟨none, k.1, false⟩, k.2)

theorem orderClause?_tokens {ks : List (String × Direction)} (hnames : ∀ k ∈ ks, k.1.toUpper ∉ startWords)
    (hwidth : ks.length ≤ widthLimit) : orderClause? (Sentence.orderClause ks) = some (readKeys ks) := by
  unfold Sentence.orderClause
  split
  · next hnil =>
    rw [hnil]
    rfl
  · next hne =>
    have hcut : cutAt (· = .comma) (commasBetween (fun k => [.word k.1, .word k.2.sql]) ks) =
        ks.map fun k => [.word k.1, .word k.2.sql] := cutAt_commasBetween hne (by simp)
    have hread : (ks.map fun k => [Token.word k.1, .word k.2.sql]).mapM sortKey? = some (readKeys ks) :=
      mapM_map_eq_some fun k hk => sortKey?_tokens (hnames k hk) k.2
    have hby : isWord "BY" (.word "BY") = true := by decide +kernel
    have hlength : (readKeys ks).length ≤ widthLimit := by rwa [readKeys, List.length_map]
    simp only [orderClause?, hcut, hread, hby, hlength, Option.bind_eq_bind, Option.bind_some, and_self, if_true]

theorem orderClause?_stray {ks : List (String × Direction)} (hne : ks ≠ []) (w v : String) :
    orderClause? (Sentence.orderClause ks ++ stray w v) = none := by
  have hnone : ∀ u ∈ stray w v, decide (u = .comma) = false := by simp [stray]
  obtain ⟨ps, p, hcut⟩ := cutAt_append hnone (commasBetween (fun k => [.word k.1, .word k.2.sql]) ks)
  have hread := mapM_concat_eq_none (sortKey?_stray p w v) ps
  simp only [Sentence.orderClause, if_neg hne, List.cons_append, orderClause?, hcut, hread]
  rfl

theorem limitClause?_tokens (p : Option (Nat × Option Nat)) :
    limitClause? (Sentence.pagingClause p) = some (p.map Prod.fst, p.bind Prod.snd) := by
  have hoffset : isWord "OFFSET" (.word "OFFSET") = true := by decide +kernel
  obtain _ | ⟨n, _ | m⟩ := p
  · rfl
  · simp only [Sentence.pagingClause, Sentence.limitClause, Sentence.offsetClause, Token.numeral, List.append_nil,
      limitClause?, Reading.integer?_natText]
    rfl
  · simp only [Sentence.pagingClause, Sentence.limitClause, Sentence.offsetClause, Token.numeral,
      List.cons_append, List.nil_append, limitClause?, hoffset, Reading.integer?_natText]
    rfl

/-! Selections -/

theorem item?_word {l : Lexeme} {n : String} (hl : l.token = .word n) (h : n.toUpper ∉ startWords) :
    ∃ i, item? [l] = some i ∧ i.column? = some n := by
  have htokens : tokens [l] = [.word n] := by rw [tokens, List.map_singleton, hl]
  refine ⟨.value (.column ⟨none, n, false⟩) none (spannedToNext [l]), ?_, rfl⟩
  rw [item?, htokens]
  simp only [scalar?_word h]

theorem items?_words {pieces : List (List Lexeme)} {columns : List String}
    (h : pieces.map tokens = columns.map fun n => [.word n]) (hnames : ∀ n ∈ columns, n.toUpper ∉ startWords) :
    ∃ items, pieces.mapM item? = some items ∧ items.map Item.column? = columns.map some := by
  induction columns generalizing pieces with
  | nil =>
    rw [List.map_nil, List.map_eq_nil_iff] at h
    exact ⟨[], by rw [h]; rfl, rfl⟩
  | cons n columns ih =>
    obtain ⟨p, ps, rfl, hp, hps⟩ := List.map_eq_cons_iff.1 h
    obtain ⟨l, rfl, hl⟩ := List.map_eq_singleton_iff.1 hp
    obtain ⟨i, hi, hcolumn⟩ := item?_word hl (hnames n (List.mem_cons_self ..))
    obtain ⟨is, his, hcolumns⟩ := ih hps fun m hm => hnames m (List.mem_cons_of_mem _ hm)
    refine ⟨i :: is, ?_, ?_⟩
    · rw [List.mapM_cons, hi, his]
      rfl
    · rw [List.map_cons, List.map_cons, hcolumn, hcolumns]

theorem head?_conditionClause (c : Option (ColumnTest × List (Connective × ColumnTest))) :
    ∀ u ∈ (Sentence.conditionClause c).head?, u = .reserved "WHERE" := by
  cases c with
  | none => exact nofun
  | some p =>
    rintro u ⟨⟩
    rfl

theorem head?_orderClause (ks : List (String × Direction)) :
    ∀ u ∈ (Sentence.orderClause ks).head?, u = .reserved "ORDER" := by
  unfold Sentence.orderClause
  split
  · exact nofun
  · rintro u ⟨⟩
    rfl

theorem head?_pagingClause (p : Option (Nat × Option Nat)) :
    ∀ u ∈ (Sentence.pagingClause p).head?, u = .reserved "LIMIT" := by
  obtain _ | ⟨n, m⟩ := p
  · exact nofun
  · rintro u ⟨⟩
    rfl

theorem head?_append_cases {v w : List Token} {u : Token} (h : u ∈ (v ++ w).head?) :
    u ∈ v.head? ∨ u ∈ w.head? := by
  cases v with
  | nil => exact Or.inr h
  | cons a v => exact Or.inl h

theorem table?_word {n : String} {rest : List Token} (h : ∀ u ∈ rest.head?, isClauseStart u = true) :
    table? (.word n :: rest) = some (⟨none, n⟩, 1) := by
  cases rest with
  | nil => rfl
  | cons u rest =>
    have hu := h u rfl
    cases u with
    | dot => cases hu
    | _ => rfl

/-- The clauses are told apart by the words that they begin with. -/
theorem select?_eq (what : List Lexeme) (table : String) {w o l : List Token}
    (hw : ∀ u ∈ w.head?, u = .reserved "WHERE") (hwin : .reserved "ORDER" ∉ w ∧ .reserved "LIMIT" ∉ w)
    (ho : ∀ u ∈ o.head?, u = .reserved "ORDER") (hoin : .reserved "LIMIT" ∉ o)
    (hl : ∀ u ∈ l.head?, u = .reserved "LIMIT") :
    select? what (.word table :: (w ++ (o ++ l))) = do
      let items ← if (cutAt (·.token = .comma) what).length ≤ widthLimit
        then (cutAt (·.token = .comma) what).mapM item? else none
      let condition ← whereClause? w
      let order ← orderClause? o
      let (limit, offset) ← limitClause? l
      return .select ⟨items, ⟨none, table⟩, none, condition, order, limit, offset⟩ := by
  have hstart : ∀ u ∈ (w ++ (o ++ l)).head?, isClauseStart u = true := by
    intro u hu
    rcases head?_append_cases hu with hu | hu
    · rw [hw u hu]
      rfl
    · rcases head?_append_cases hu with hu | hu
      · rw [ho u hu]
        rfl
      · rw [hl u hu]
        rfl
  have hlabel : (w ++ (o ++ l)).takeWhile (!isClauseStart ·) = [] :=
    Token.takeWhile_append_ends (w := []) nofun fun u hu => by rw [hstart u hu]; rfl
  have hrest : (w ++ (o ++ l)).dropWhile (!isClauseStart ·) = w ++ (o ++ l) :=
    Token.dropWhile_append_ends (w := []) nofun fun u hu => by rw [hstart u hu]; rfl
  have hwhere : ∀ u ∈ w, (!isOrder u && !isLimit u) = true := by
    intro u hu
    have horder : u ≠ .reserved "ORDER" := fun h => hwin.1 (h ▸ hu)
    have hlimit : u ≠ .reserved "LIMIT" := fun h => hwin.2 (h ▸ hu)
    simp [isOrder, isLimit, horder, hlimit]
  have hafter : ∀ u ∈ (o ++ l).head?, (!isOrder u && !isLimit u) = false := by
    intro u hu
    rcases head?_append_cases hu with hu | hu
    · rw [ho u hu]
      rfl
    · rw [hl u hu]
      rfl
  have horder : ∀ u ∈ o, (!isLimit u) = true := by
    intro u hu
    have hlimit : u ≠ .reserved "LIMIT" := fun h => hoin (h ▸ hu)
    simp [isLimit, hlimit]
  have hlimit : ∀ u ∈ l.head?, (!isLimit u) = false := fun u hu => by
    rw [hl u hu]
    rfl
  simp only [select?, table?_word hstart, Option.bind_eq_bind, Option.bind_some, List.drop_succ_cons, List.drop_zero,
    hlabel, hrest, Token.takeWhile_append_ends hwhere hafter, Token.dropWhile_append_ends hwhere hafter,
    Token.takeWhile_append_ends horder hlimit, Token.dropWhile_append_ends horder hlimit]

theorem select?_sentence {what : List Lexeme} {s : Sentence} {c : Condition}
    (hwhat : tokens what = commasBetween (fun n => [.word n]) s.columns)
    (hcolumns : ∀ n ∈ s.columns, n.toUpper ∉ startWords) (hkeys : ∀ k ∈ s.order, k.1.toUpper ∉ startWords)
    (hwidth : s.columns.length ≤ widthLimit) (hwidthOrder : s.order.length ≤ widthLimit)
    (hcondition : whereClause? (Sentence.conditionClause s.condition) = some c) :
    ∃ items, items.map Item.column? = s.columns.map some ∧
      select? what (.word s.table :: (Sentence.conditionClause s.condition ++
          (Sentence.orderClause s.order ++ Sentence.pagingClause s.paging))) =
        some (.select ⟨items, ⟨none, s.table⟩, none, c, readKeys s.order, s.paging.map Prod.fst,
          s.paging.bind Prod.snd⟩) := by
  have hpieces : (cutAt (·.token = .comma) what).map tokens = s.columns.map fun n => [.word n] := by
    have hmap := map_cutAt Lexeme.token (· = .comma) what
    have hcut : cutAt (· = .comma) (tokens what) = s.columns.map fun n => [.word n] := by
      rw [hwhat]
      exact cutAt_commasBetween s.columns_ne_nil (by simp)
    exact hmap.trans hcut
  obtain ⟨items, hitems, hshown⟩ := items?_words hpieces hcolumns
  have hlength : (cutAt (·.token = .comma) what).length ≤ widthLimit := by
    have := congrArg List.length hpieces
    rw [List.length_map, List.length_map] at this
    omega
  refine ⟨items, hshown, ?_⟩
  rw [select?_eq what s.table (head?_conditionClause _) (Sentence.order_limit_notMem _) (head?_orderClause _)
    (Sentence.limit_notMem_orderClause _) (head?_pagingClause _), if_pos hlength, hitems, hcondition,
    orderClause?_tokens hkeys hwidthOrder, limitClause?_tokens]
  rfl

theorem reserved_notMem_append_stray {ts : List Token} {x : String} (h : .reserved x ∉ ts) (w v : String) :
    .reserved x ∉ ts ++ stray w v := by
  simp [stray, h]

/-- A word by itself behind the table can be another name for it, but then no number follows. -/
theorem select?_table_stray (what : List Lexeme) (table w v : String) :
    select? what (.word table :: stray w v) = none := by
  have hlabel : (stray w v).takeWhile (!isClauseStart ·) = stray w v := rfl
  have htable : table? (.word table :: stray w v) = some (⟨none, table⟩, 1) := rfl
  simp only [select?, htable, Option.bind_eq_bind, Option.bind_some, List.drop_succ_cons, List.drop_zero, hlabel]
  split
  · exact Option.bind_fun_none _
  · rfl

theorem select?_condition_stray (what : List Lexeme) (table : String)
    (p : ColumnTest × List (Connective × ColumnTest)) (w v : String) :
    select? what (.word table :: (Sentence.conditionClause (some p) ++ stray w v)) = none := by
  obtain ⟨horder, hlimit⟩ := Sentence.order_limit_notMem (some p)
  have hhead : ∀ u ∈ (Sentence.conditionClause (some p) ++ stray w v).head?, u = .reserved "WHERE" := by
    rintro u ⟨⟩
    rfl
  have hread := select?_eq what table (o := []) (l := []) hhead
    ⟨reserved_notMem_append_stray horder w v, reserved_notMem_append_stray hlimit w v⟩ nofun nofun nofun
  have hwhere : whereClause? (Sentence.conditionClause (some p) ++ stray w v) = none :=
    condition?_stray (p.1.tokens ++ Sentence.joined p.2) w v
  rw [List.append_nil, List.append_nil] at hread
  rw [hread, hwhere]
  simp only [Option.bind_eq_bind, Option.bind_none, Option.bind_fun_none, ite_self]

theorem select?_order_stray (what : List Lexeme) (table : String)
    (c : Option (ColumnTest × List (Connective × ColumnTest))) {ks : List (String × Direction)} (hne : ks ≠ [])
    (w v : String) : select? what (.word table :: (Sentence.conditionClause c ++
      (Sentence.orderClause ks ++ stray w v))) = none := by
  have hhead : ∀ u ∈ (Sentence.orderClause ks ++ stray w v).head?, u = .reserved "ORDER" := by
    rw [Sentence.orderClause, if_neg hne]
    rintro u ⟨⟩
    rfl
  have hread := select?_eq what table (l := []) (head?_conditionClause c) (Sentence.order_limit_notMem c) hhead
    (reserved_notMem_append_stray (Sentence.limit_notMem_orderClause ks) w v) (by simp)
  rw [List.append_nil] at hread
  rw [hread, orderClause?_stray hne]
  simp only [Option.bind_eq_bind, Option.bind_none, Option.bind_fun_none, ite_self]

/-- An offset that is not behind a limit ends a condition or an order, or stands by itself behind the table, and
none of these can be read. -/
theorem select?_offset (what : List Lexeme) (table : String)
    (c : Option (ColumnTest × List (Connective × ColumnTest))) (ks : List (String × Direction)) (m : Nat) :
    select? what (.word table :: (Sentence.conditionClause c ++ (Sentence.orderClause ks ++
      Sentence.offsetClause (some m)))) = none := by
  by_cases hks : ks = []
  · rw [hks, Sentence.orderClause, if_pos rfl, List.nil_append]
    cases c with
    | none => exact select?_table_stray what table _ _
    | some p => exact select?_condition_stray what table p _ _
  · exact select?_order_stray what table c hks _ _

theorem ofLexemes?_select {ls : List Lexeme} {what rest : List Token}
    (h : tokens ls = .reserved "SELECT" :: (what ++ .reserved "FROM" :: rest))
    (hwhat : .reserved "FROM" ∉ what) :
    ∃ ks, tokens ks = what ∧ ofLexemes? ls = select? ks rest := by
  obtain ⟨l, ls, rfl, hl, hls⟩ := List.map_eq_cons_iff.1 h
  obtain ⟨ks, ms, rfl, hks, hms⟩ := List.map_eq_append_iff.1 hls
  obtain ⟨m, ms, rfl, hm, hrest⟩ := List.map_eq_cons_iff.1 hms
  have hbefore : ∀ k ∈ ks, (!isFrom k) = true := by
    intro k hk
    have hne : k.token ≠ .reserved "FROM" := fun he =>
      hwhat (hks ▸ List.mem_map.2 ⟨k, hk, he⟩)
    simp [isFrom, hne]
  have hfrom : ∀ k ∈ (m :: ms).head?, (!isFrom k) = false := by
    rintro k ⟨⟩
    simp [isFrom, hm]
  refine ⟨ks, hks, ?_⟩
  rw [ofLexemes?, h]
  simp only [List.drop_succ_cons, List.drop_zero, Token.dropWhile_append_ends hbefore hfrom,
    Token.takeWhile_append_ends hbefore hfrom]
  rw [show tokens ms = rest from hrest]

theorem read_of_scan {sql : String} (hne : tokens (Token.scan sql.toList) ≠ [])
    (h : .semicolon ∉ tokens (Token.scan sql.toList)) : read sql = [ofLexemes? (Token.scan sql.toList)] := by
  have hcut : cutAt (·.token = .semicolon) (Token.scan sql.toList) = [Token.scan sql.toList] := by
    rw [cutAt_eq_splitOnP]
    refine List.splitOnP_eq_singleton fun l hl => decide_eq_false fun hs => ?_
    exact h (hs ▸ List.mem_map_of_mem hl)
  have hlexemes : Token.scan sql.toList ≠ [] := by
    intro hnil
    exact hne (by rw [hnil]; rfl)
  simp [read, hcut, hlexemes]

theorem semicolon_notMem_conditionClause (c : Option (ColumnTest × List (Connective × ColumnTest))) :
    .semicolon ∉ Sentence.conditionClause c := by
  intro h
  rcases Sentence.mem_conditionClause h with h | ⟨k, h⟩ | ⟨x, h⟩
  · cases h
  · cases h
  · rcases Sentence.mem_tokens h with h | h | h | ⟨v, h⟩ | ⟨v, h⟩ <;> cases h

theorem semicolon_notMem_orderClause (ks : List (String × Direction)) :
    .semicolon ∉ Sentence.orderClause ks := by
  intro h
  rcases Sentence.mem_orderClause h with h | h | ⟨n, h⟩ <;> cases h

theorem semicolon_notMem_columns (columns : List String) :
    .semicolon ∉ commasBetween (fun n => [.word n]) columns :=
  notMem_commasBetween (by simp) (by simp)

theorem from_notMem_columns (columns : List String) :
    .reserved "FROM" ∉ commasBetween (fun n => [.word n]) columns :=
  notMem_commasBetween (by simp) (by simp)

end Command

namespace Query

/-- What the filters of a query mean to a database; without any, there is nothing that has to hold. -/
def condition (t : RecordType) (fs : List Filter) : Condition :=
  match fs with
  | [] => [[]]
  | f :: fs => (meaning t (f :: fs)).map (·.map ColumnTest.comparison)

variable {t : RecordType}

theorem mem_of_mem_groups {fs g : List Filter} {f : Filter} (hg : g ∈ groups fs) (hf : f ∈ g) : f ∈ fs := by
  induction fs generalizing g with
  | nil => cases hg
  | cons e fs ih =>
    rw [groups] at hg
    cases hgs : groups fs with
    | nil =>
      rw [hgs, List.mem_singleton] at hg
      rw [hg, List.mem_singleton] at hf
      exact hf ▸ List.mem_cons_self ..
    | cons h hs =>
      have hrest {k : List Filter} (hk : k ∈ h :: hs) (hfk : f ∈ k) : f ∈ e :: fs :=
        List.mem_cons_of_mem _ (ih (hgs ▸ hk) hfk)
      simp only [hgs] at hg
      split at hg
      · rcases List.mem_cons.1 hg with rfl | hg
        · exact List.mem_singleton.1 hf ▸ List.mem_cons_self ..
        · exact hrest hg hf
      · rcases List.mem_cons.1 hg with rfl | hg
        · rcases List.mem_cons.1 hf with rfl | hf
          · exact List.mem_cons_self ..
          · exact hrest (List.mem_cons_self ..) hf
        · exact hrest (List.mem_cons_of_mem _ hg) hf

theorem mem_of_mem_meaning {fs : List Filter} {xs : List ColumnTest} {x : ColumnTest} (hxs : xs ∈ meaning t fs)
    (hx : x ∈ xs) : ∃ f ∈ fs, x ∈ f.predicate.tests t := by
  obtain ⟨g, hg, rfl⟩ := List.mem_map.1 hxs
  obtain ⟨f, hf, hx⟩ := List.mem_flatMap.1 hx
  exact ⟨f, mem_of_mem_groups hg hf, hx⟩

theorem column_mem_of_condition {n : Nat} {e : Expr} (he : Expr.IsQuery n e) {c : String}
    (h : e.condition t = .ok c) : ∀ x ∈ e.tests t, x.column ∈ t.memberNames := by
  induction he generalizing c with
  | @comparison op i l hop hi =>
    obtain ⟨a, b, ha, -, -⟩ := Expr.condition_binary h
    have hn := Expr.fieldNameAt_eq_ok ha
    rw [Expr.tests_comparison t hop, hn]
    intro x hx
    rw [List.mem_singleton.1 hx]
    exact RecordType.mem_memberNames_of_fieldName? hn
  | and hl hr ihl ihr =>
    obtain ⟨a, b, ha, hb, -⟩ := Expr.condition_binary h
    intro x hx
    rcases List.mem_append.1 hx with hx | hx
    · exact ihl ha x hx
    · exact ihr hb x hx

theorem column_mem_of_conditions {fs : List Filter} {w : String} (h : conditions t fs = .ok w) :
    ∀ f ∈ fs, ∀ x ∈ f.predicate.tests t, x.column ∈ t.memberNames := by
  induction fs generalizing w with
  | nil => exact nofun
  | cons f fs ih =>
    obtain ⟨c, rest, hq, hc, hrest, rfl⟩ := conditions_cons h
    exact List.forall_mem_cons.2 ⟨column_mem_of_condition hq hc, ih hrest⟩

theorem whereClause?_comparisons {fs : List Filter} (hheaded : Headed fs) {w : String}
    (h : conditions t fs = .ok w)
    (hstart : ∀ f ∈ fs, ∀ x ∈ f.predicate.tests t, x.column.toUpper ∉ Command.startWords)
    (hdepth : (condition t fs).depth ≤ Command.depthLimit) :
    Command.whereClause? (Sentence.conditionClause (comparisons t fs)) = some (condition t fs) := by
  cases fs with
  | nil => rfl
  | cons f fs =>
    have hne : ∀ g ∈ f :: fs, g.predicate.tests t ≠ [] := fun g hg =>
      Expr.tests_ne_nil (isQuery_of_conditions h g hg)
    obtain ⟨htokens, hgroups⟩ := tokens_meaning f hheaded.2 hne
    rw [conditionClause_comparisons f hheaded.2 hne, htokens]
    refine Command.groups_condition? (meaning_cons_ne_nil f fs) hgroups (fun g hg x hx => ?_) hdepth
    obtain ⟨e, he, hx⟩ := mem_of_mem_meaning hg hx
    exact hstart e he x hx

theorem order_mem_of_orderClause {ks : List SortKey} {o : String} (h : orderClause t ks = .ok o) :
    ∀ k ∈ keys t ks, k.1 ∈ t.memberNames := by
  cases ks with
  | nil => exact nofun
  | cons k ks =>
    cases hcs : sortKeys t (k :: ks) with
    | error x =>
      rw [orderClause, hcs] at h
      cases h
    | ok cs => exact (sortKeys_eq_ok hcs).2

/-- Nothing is read from a text with a zero character. -/
theorem read_of_zero {sql : String} (h : '\x00' ∈ sql.toList) : Command.read sql = [none] := by
  rw [Command.read, Token.scan, if_pos h]
  rfl

theorem read_select (hne : t.memberNames ≠ []) (htable : Token.isIdentifier t.tableName = true)
    (hnames : ∀ n ∈ t.memberNames, Token.isIdentifier n = true) {q : Query} (hheaded : Headed q.filters)
    {sql : String} (h : select t q = .ok sql) (hzero : '\x00' ∉ sql.toList) :
    ∃ what, Command.tokens what = commasBetween (fun n => [.word n]) t.memberNames ∧
      Command.read sql = [Command.select? what (.word t.tableName ::
        (Sentence.conditionClause (comparisons t q.filters) ++ (Sentence.orderClause (keys t q.order) ++
          (Sentence.limitClause q.limit ++ Sentence.offsetClause q.offset))))] := by
  have htokens : Command.tokens (Token.scan sql.toList) = .reserved "SELECT" ::
      (commasBetween (fun n => [.word n]) t.memberNames ++ .reserved "FROM" :: .word t.tableName ::
        (Sentence.conditionClause (comparisons t q.filters) ++ (Sentence.orderClause (keys t q.order) ++
          (Sentence.limitClause q.limit ++ Sentence.offsetClause q.offset)))) := by
    have hall := tokensOf_select hne htable hnames hheaded h
    rw [Command.tokens, Token.tokens_scan, if_neg hzero, hall]
    simp [Sentence.tokens, Sentence.header, sentence, Sentence.pagingClause]
  have hsemicolon : .semicolon ∉ Command.tokens (Token.scan sql.toList) := by
    have hlimit : .semicolon ∉ Sentence.limitClause q.limit := by
      cases q.limit <;> simp [Sentence.limitClause, Token.numeral]
    have hoffset : .semicolon ∉ Sentence.offsetClause q.offset := by
      cases q.offset <;> simp [Sentence.offsetClause, Token.numeral]
    rw [htokens]
    simp [Command.semicolon_notMem_columns, Command.semicolon_notMem_conditionClause,
      Command.semicolon_notMem_orderClause, hlimit, hoffset]
  obtain ⟨what, hwhat, hread⟩ := Command.ofLexemes?_select htokens (Command.from_notMem_columns _)
  refine ⟨what, hwhat, ?_⟩
  rw [Command.read_of_scan (by rw [htokens]; exact List.cons_ne_nil _ _) hsemicolon, hread]

/-- The text of a query is a sentence unless there is a zero character in it or an offset and no limit. A database
reads it as what it says then, and reads nothing otherwise. -/
theorem sentence_of_select (hne : t.memberNames ≠ []) (htable : Token.isIdentifier t.tableName = true)
    (hnames : ∀ n ∈ t.memberNames, Token.isIdentifier n = true) (steps : List Step) {sql : String}
    (h : select t (ofSteps steps) = .ok sql) :
    ('\x00' ∉ sql.toList → ((ofSteps steps).limit = none → (ofSteps steps).offset = none) →
      (Token.scan sql.toList).map Lexeme.token = (sentence t hne (ofSteps steps)).tokens ∧
      ((∀ n ∈ t.memberNames, n.toUpper ∉ Command.startWords) → t.memberNames.length ≤ Command.widthLimit →
        (ofSteps steps).order.length ≤ Command.widthLimit →
        (condition t (ofSteps steps).filters).depth ≤ Command.depthLimit →
        ∃ items, items.map Item.column? = t.memberNames.map some ∧
          Command.read sql = [some (.select ⟨items, ⟨none, t.tableName⟩, none, condition t (ofSteps steps).filters,
            Command.readKeys (keys t (ofSteps steps).order), (ofSteps steps).limit, (ofSteps steps).offset⟩)])) ∧
    ('\x00' ∈ sql.toList ∨ (ofSteps steps).limit = none ∧ (ofSteps steps).offset ≠ none →
      (∀ s : Sentence, (Token.scan sql.toList).map Lexeme.token ≠ s.tokens) ∧ Command.read sql = [none]) := by
  have hheaded := headed_ofSteps steps
  generalize ofSteps steps = q at *
  constructor
  · intro hzero hpaging
    refine ⟨scan_select hne htable hnames hheaded h hzero hpaging, fun hstart hwidth hwidthOrder hdepth => ?_⟩
    obtain ⟨w, o, hw, ho, -⟩ := select_eq_ok h
    obtain ⟨what, hwhat, hread⟩ := read_select hne htable hnames hheaded h hzero
    have hclause : Sentence.limitClause q.limit ++ Sentence.offsetClause q.offset =
        Sentence.pagingClause (q.limit.map (·, q.offset)) := by
      cases hl : q.limit with
      | none => rw [hpaging hl]; rfl
      | some n => rfl
    obtain ⟨items, hitems, hselect⟩ := Command.select?_sentence (s := sentence t hne q) hwhat hstart
      (fun k hk => hstart _ (order_mem_of_orderClause ho k hk)) hwidth
      (by simpa [sentence, keys] using hwidthOrder)
      (whereClause?_comparisons hheaded hw
        (fun f hf x hx => hstart _ (column_mem_of_conditions hw f hf x hx)) hdepth)
    have hlimit : (sentence t hne q).paging.map Prod.fst = q.limit := by
      cases hl : q.limit <;> simp [sentence, hl]
    have hoffset : (sentence t hne q).paging.bind Prod.snd = q.offset := by
      cases hl : q.limit with
      | none => rw [hpaging hl, sentence, hl]; rfl
      | some n => rw [sentence, hl]; rfl
    rw [hlimit, hoffset] at hselect
    refine ⟨items, hitems, ?_⟩
    rw [hread, hclause]
    exact congrArg (fun c => [c]) hselect
  · rintro (hzero | ⟨hlimit, hoffset⟩)
    · refine ⟨fun s hs => ?_, read_of_zero hzero⟩
      exact (limited_of_scan hne htable hnames hheaded h hs).1 hzero
    · refine ⟨fun s hs => hoffset ((limited_of_scan hne htable hnames hheaded h hs).2 hlimit), ?_⟩
      by_cases hzero : '\x00' ∈ sql.toList
      · exact read_of_zero hzero
      · obtain ⟨m, hm⟩ := Option.ne_none_iff_exists'.1 hoffset
        obtain ⟨what, -, hread⟩ := read_select hne htable hnames hheaded h hzero
        rw [hread, hlimit, hm]
        exact congrArg (fun c => [c]) (Command.select?_offset what t.tableName _ _ m)

def scrambledSteps : List Step :=
  [.offset 2, .orderBy .descending [1, 0], .limit 5, .filter (.binary .ne (.field 0) (.literal (.text "")))]

theorem sentence_of_scrambled : ∃ sql items, select person (ofSteps scrambledSteps) = .ok sql ∧
    items.map Item.column? = [some "name", some "age"] ∧
    Command.read sql = [some (.select ⟨items, ⟨none, "Person"⟩, none,
      [[⟨.column ⟨none, "name", false⟩, .ne, .text ""⟩]],
      [(.column ⟨none, "age", false⟩, .descending), (.column ⟨none, "name", false⟩, .descending)],
      some 5, some 2⟩)] := by
  have hsql : select person (ofSteps scrambledSteps) =
      .ok "SELECT name, age FROM Person WHERE name <> '' ORDER BY age DESC, name DESC LIMIT 5 OFFSET 2" := rfl
  obtain ⟨-, hread⟩ := (sentence_of_select (t := person) nofun (by decide +kernel) (by decide +kernel)
    scrambledSteps hsql).1 (by decide +kernel) (by decide)
  obtain ⟨items, hitems, hread⟩ := hread (by decide +kernel) (by decide) (by decide) (by decide)
  exact ⟨_, items, hsql, hitems, hread⟩

theorem no_sentence_of_offset :
    select person (ofSteps [.offset 5]) = .ok "SELECT name, age FROM Person OFFSET 5" ∧
      (∀ s : Sentence, (Token.scan "SELECT name, age FROM Person OFFSET 5".toList).map Lexeme.token ≠ s.tokens) ∧
      Command.read "SELECT name, age FROM Person OFFSET 5" = [none] := by
  have hsql : select person (ofSteps [.offset 5]) = .ok "SELECT name, age FROM Person OFFSET 5" := rfl
  have hzero : '\x00' ∉ "SELECT name, age FROM Person OFFSET 5".toList := by decide +kernel
  have htable : Token.isIdentifier person.tableName = true := by decide +kernel
  have hnames : ∀ n ∈ person.memberNames, Token.isIdentifier n = true := by decide +kernel
  refine ⟨hsql, fun s hs => ?_, ?_⟩
  · cases (limited_of_scan (t := person) nofun htable hnames (headed_ofSteps _) hsql hs).2 rfl
  · obtain ⟨what, -, hread⟩ := read_select (t := person) nofun htable hnames (headed_ofSteps _) hsql hzero
    exact hread.trans (congrArg (fun c => [c]) (Command.select?_table_stray what "Person" _ _))

end Query

end Rowmap
