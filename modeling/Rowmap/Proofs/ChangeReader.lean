import Rowmap.Backend.Basic
import Rowmap.Proofs.SelectReader

/-! What a database makes of the texts of an insertion and of a count. Parentheses stand around the names, the
markers and the star, and nothing inside closes them, so each list is found again as it was written. -/

namespace Rowmap

namespace Token

theorem ends_open (s : List Char) : Ends ('(' :: s) := by
  intro c hc
  exact Or.inr (Or.inr (Or.inl (Option.some.inj hc).symm))

theorem ends_close (s : List Char) : Ends (')' :: s) := by
  intro c hc
  exact Or.inr (Or.inr (Or.inr (Option.some.inj hc).symm))

theorem tokensOf_sign {c : Char} {t : Token} {s : List Char} (hc : isSolid c = true)
    (hn : next? (c :: s) = some (t, s)) : tokensOf (c :: s) = t :: tokensOf s := by
  rw [tokensOf, afterBlanks_of_none (blank?_solid hc s)]
  exact scanFrom_of_next hn (Nat.lt_succ_self _)

theorem tokensOf_space {c : Char} (hc : isSolid c = true) (s : List Char) :
    tokensOf (' ' :: c :: s) = tokensOf (c :: s) := by
  have hmore : isMoreSpace c = false := by
    simp only [isSolid, Bool.and_eq_true, Bool.not_eq_true'] at hc
    exact hc.1.1.1
  have hblank := blank?_solid hc s
  rw [tokensOf, tokensOf, afterBlanks_space hblank fun d hd => by cases hd; exact hmore, afterBlanks_of_none hblank]

theorem tokensOf_enclosed {w : List Char} {ts : List Token} (h : Spells w ts) (rest : List Char) :
    tokensOf ('(' :: (w ++ ')' :: rest)) = .openParen :: (ts ++ .closeParen :: tokensOf rest) := by
  rw [tokensOf_sign (by decide) rfl, h.read _ (ends_close rest), tokensOf_sign (by decide) rfl]

theorem Spells.enclosed {w : List Char} {ts : List Token} (h : Spells w ts) :
    Spells ('(' :: (w ++ [')'])) (.openParen :: (ts ++ [.closeParen])) where
  read rest hr := by simpa using tokensOf_enclosed h rest
  readSpaced rest hr := by simpa [tokensOf_space (c := '(') (by decide)] using tokensOf_enclosed h rest

theorem Spells.call {v w : List Char} {ts us : List Token} (hv : Spells v ts) (hw : Spells ('(' :: w) us) :
    Spells (v ++ '(' :: w) (ts ++ us) where
  read rest hr := by
    rw [List.append_assoc, List.cons_append, hv.read _ (ends_open _), ← List.cons_append, hw.read rest hr,
      List.append_assoc]
  readSpaced rest hr := by
    rw [List.append_assoc, List.cons_append, hv.readSpaced _ (ends_open _), ← List.cons_append, hw.read rest hr,
      List.append_assoc]

theorem spells_question : Spells ['?'] [.question] :=
  spells_of_next rfl (fun _ _ => blank?_solid (by decide) _) fun _ _ => rfl

theorem spells_star : Spells ['*'] [.star] :=
  spells_of_next rfl (fun _ _ => blank?_solid (by decide) _) fun _ _ => rfl

/-! Zero characters -/

theorem zero_notMem_identifier {s : String} (h : isIdentifier s = true) : '\x00' ∉ s.toList := by
  intro hz
  simp only [isIdentifier, Bool.and_eq_true, List.all_eq_true] at h
  exact absurd (h.1.2 _ hz) (by decide)

theorem zero_notMem_natText (n : Nat) : '\x00' ∉ Decimal.natText n := fun hz =>
  absurd (Decimal.isDigit_of_mem_natText hz) (by decide)

theorem zero_notMem_append {v w : String} (hv : '\x00' ∉ v.toList) (hw : '\x00' ∉ w.toList) :
    '\x00' ∉ (v ++ w).toList := by
  rw [String.toList_append]
  exact fun h => (List.mem_append.1 h).elim hv hw

theorem zero_notMem_commas {items : List String} (h : ∀ i ∈ items, '\x00' ∉ i.toList) :
    '\x00' ∉ (Table.commas items).toList := by
  induction items with
  | nil => simp [Table.commas]
  | cons i items ih =>
    have hi := h i (List.mem_cons_self ..)
    have hitems := ih fun j hj => h j (List.mem_cons_of_mem _ hj)
    cases items with
    | nil => simpa [Table.commas] using hi
    | cons j items =>
      rw [Table.commas, String.intercalate_cons_cons]
      exact zero_notMem_append (zero_notMem_append hi (by decide)) hitems

end Token

theorem Text.zero_notMem_quote {s : String} (h : '\x00' ∉ s.toList) : '\x00' ∉ (Text.quote s).toList := by
  have hencode : ∀ cs : List Char, '\x00' ∉ cs → '\x00' ∉ Text.Quoted.encode cs := by
    intro cs hcs
    induction cs with
    | nil => exact nofun
    | cons c cs ih =>
      simp only [List.mem_cons, not_or] at hcs
      rw [Text.Quoted.encode]
      split <;> simp [ih hcs.2, hcs.1]
  simp [Text.quote, Text.Quoted.quoted, hencode _ h]

theorem Literal.zero_notMem_condition {l : Literal} (h : ∀ s, l = .text s → '\x00' ∉ s.toList) :
    '\x00' ∉ l.condition.toList := by
  cases l with
  | integer n =>
    rw [condition, String.toList_ofList, Decimal.intText]
    split <;> simp [Token.zero_notMem_natText]
  | unsigned n =>
    rw [condition, String.toList_ofList]
    exact Token.zero_notMem_natText n
  | text s => exact Text.zero_notMem_quote (h s rfl)

namespace Command

theorem closed?_append {ts : List Token} (h : .closeParen ∉ ts) (rest : List Token) :
    closed? (ts ++ .closeParen :: rest) = some (ts, rest) := by
  have hopen : ∀ u ∈ ts, decide (u ≠ .closeParen) = true := fun u hu => decide_eq_true fun hc => h (hc ▸ hu)
  have hclose : ∀ u ∈ (Token.closeParen :: rest).head?, decide (u ≠ .closeParen) = false := by
    rintro u ⟨⟩
    rfl
  rw [closed?, Token.dropWhile_append_ends hopen hclose, Token.takeWhile_append_ends hopen hclose]

theorem insert?_tokens {α : Type} (table : String) {columns : List String} {values : List α} (hne : columns ≠ [])
    (hlength : values.length = columns.length) :
    insert? (.word table :: .openParen :: (commasBetween (fun n => [.word n]) columns ++ .closeParen ::
      .reserved "VALUES" :: .openParen :: (commasBetween (fun _ => [.question]) values ++ [.closeParen]))) =
        some (.insert ⟨none, table⟩ columns) := by
  have hvalues : values ≠ [] := by
    rintro rfl
    exact hne (List.length_eq_zero_iff.1 hlength.symm)
  have hclosed : .closeParen ∉ commasBetween (fun n => [.word n]) columns :=
    notMem_commasBetween (by simp) (by simp)
  have hopen : .closeParen ∉ commasBetween (fun _ => [.question]) values :=
    notMem_commasBetween (by simp) (by simp)
  have hnames : names? (commasBetween (fun n => [.word n]) columns) = some columns := by
    have hread : (columns.map fun n => [.word n]).mapM lone? = some (columns.map id) :=
      mapM_map_eq_some fun _ _ => rfl
    rw [names?, cutAt_commasBetween hne (by simp), hread, List.map_id]
  have hmarkers : cutAt (· = .comma) (commasBetween (fun _ => [.question]) values) =
      List.replicate columns.length [.question] := by
    rw [cutAt_commasBetween hvalues (by simp), List.map_const', hlength]
  have htable : table? (.word table :: .openParen :: (commasBetween (fun n => [.word n]) columns ++
      .closeParen :: .reserved "VALUES" :: .openParen ::
        (commasBetween (fun _ => [.question]) values ++ [.closeParen]))) = some (⟨none, table⟩, 1) := rfl
  simp only [insert?, htable, Option.bind_eq_bind, Option.bind_some, List.drop_succ_cons, List.drop_zero,
    closed?_append hclosed, closed?_append hopen, hnames, hmarkers, and_self, if_true]

theorem item?_count {ls : List Lexeme} (h : tokens ls = [.word "COUNT", .openParen, .star, .closeParen]) :
    item? ls = some (.count (spannedToNext ls)) := by
  have hcount : isWord "COUNT" (.word "COUNT") = true := by decide +kernel
  rw [item?, h]
  simp only [hcount, if_true]

theorem select?_count {what : List Lexeme} (hwhat : tokens what = [.word "COUNT", .openParen, .star, .closeParen])
    (table : String) {x : Option (ColumnTest × List (Connective × ColumnTest))} {c : Condition}
    (hc : whereClause? (Sentence.conditionClause x) = some c) :
    select? what (.word table :: Sentence.conditionClause x) =
      some (.select ⟨[.count (spannedToNext what)], ⟨none, table⟩, none, c, [], none, none⟩) := by
  have hcut : cutAt (·.token = .comma) what = [what] := by
    have hmap := map_cutAt Lexeme.token (· = .comma) what
    rw [cutAt_eq_splitOnP]
    refine List.splitOnP_eq_singleton fun l hl => decide_eq_false fun hcomma => ?_
    have hmem : .comma ∈ tokens what := hcomma ▸ List.mem_map_of_mem hl
    rw [hwhat] at hmem
    simp at hmem
  have hselect := select?_eq what table (o := []) (l := []) (head?_conditionClause x)
    (Sentence.order_limit_notMem x) nofun nofun nofun
  rw [List.append_nil, List.append_nil] at hselect
  rw [hselect, hcut, hc, List.mapM_cons, item?_count hwhat]
  rfl

end Command

namespace RecordType

variable {t : RecordType}

theorem markers_questionMark (i : Nat) (fs : List Field) :
    Statement.markers Backend.questionMark i fs = fs.map fun _ => "?" := by
  induction fs generalizing i with
  | nil => rfl
  | cons f fs ih => rw [Statement.markers, ih, List.map_cons, Backend.questionMark]

theorem insertSql_questionMark : t.insertSql Backend.questionMark = "INSERT INTO " ++ t.tableName ++ " (" ++
    Table.commas t.memberNames ++ ") VALUES (" ++ Table.commas (t.fields.map fun _ => "?") ++ ")" := by
  unfold insertSql
  rw [markers_questionMark]

theorem spells_insertSql (hne : t.memberNames ≠ []) (htable : Token.isIdentifier t.tableName = true)
    (hnames : ∀ n ∈ t.memberNames, Token.isIdentifier n = true) :
    Token.Spells (t.insertSql Backend.questionMark).toList
      (.reserved "INSERT" :: .reserved "INTO" :: .word t.tableName :: .openParen ::
        (commasBetween (fun n => [.word n]) t.memberNames ++ .closeParen ::
          .reserved "VALUES" :: .openParen :: (commasBetween (fun _ => [.question]) t.fields ++ [.closeParen]))) := by
  have hfields : t.fields ≠ [] := fun h => hne (by rw [memberNames, h, List.map_nil])
  have hcolumns := Token.spells_commas id (fun n => [.word n]) hne
    fun n hn => Token.spells_identifier (hnames n hn)
  rw [List.map_id] at hcolumns
  have hmarkers := Token.spells_commas (fun _ : Field => "?") (fun _ => [.question]) hfields
    fun _ _ => Token.spells_question
  have hall := ((((Query.spells_reserved (w := "INSERT") (by simp)).append
    (Query.spells_reserved (w := "INTO") (by simp))).append (Token.spells_identifier htable)).append
    hcolumns.enclosed).append ((Query.spells_reserved (w := "VALUES") (by simp)).append hmarkers.enclosed)
  have hinto : "INSERT INTO ".toList = "INSERT".toList ++ ' ' :: ("INTO".toList ++ [' ']) := rfl
  have hopen : " (".toList = [' ', '('] := rfl
  have hvalues : ") VALUES (".toList = ')' :: ' ' :: ("VALUES".toList ++ [' ', '(']) := rfl
  have hclose : ")".toList = [')'] := rfl
  simpa [insertSql_questionMark, hinto, hopen, hvalues, hclose] using hall

open Token in
theorem zero_notMem_insertSql (htable : Token.isIdentifier t.tableName = true)
    (hnames : ∀ n ∈ t.memberNames, Token.isIdentifier n = true) :
    '\x00' ∉ (t.insertSql Backend.questionMark).toList := by
  have hcolumns := zero_notMem_commas fun n hn => zero_notMem_identifier (hnames n hn)
  have hmarkers : '\x00' ∉ (Table.commas (t.fields.map fun _ => "?")).toList :=
    zero_notMem_commas (List.forall_mem_map.2 fun _ _ => by decide)
  rw [insertSql_questionMark]
  exact zero_notMem_append (zero_notMem_append (zero_notMem_append (zero_notMem_append (zero_notMem_append
    (zero_notMem_append (by decide) (zero_notMem_identifier htable)) (by decide)) hcolumns) (by decide)) hmarkers)
    (by decide)

/-- The text of an insertion is one command, which names the columns in the order of the fields. -/
theorem read_insertSql (hne : t.memberNames ≠ []) (htable : Token.isIdentifier t.tableName = true)
    (hnames : ∀ n ∈ t.memberNames, Token.isIdentifier n = true) :
    Command.read (t.insertSql Backend.questionMark) = [some (.insert ⟨none, t.tableName⟩ t.memberNames)] := by
  have hscan := Token.tokens_scan (t.insertSql Backend.questionMark).toList
  rw [if_neg (zero_notMem_insertSql htable hnames), (spells_insertSql hne htable hnames).tokensOf_eq,
    ← Command.tokens] at hscan
  have hsemicolon : Token.semicolon ∉ commasBetween (fun _ => [Token.question]) t.fields :=
    notMem_commasBetween (by simp) (by simp)
  rw [Command.read_of_scan (by rw [hscan]; exact List.cons_ne_nil _ _)
    (by rw [hscan]; simp [Command.semicolon_notMem_columns, hsemicolon])]
  rw [Command.ofLexemes?, hscan]
  simp only [Command.insert?_tokens t.tableName hne (t.length_memberNames.symm)]

end RecordType

namespace Query

variable {t : RecordType}

theorem spells_countHeader (htable : Token.isIdentifier t.tableName = true) :
    Token.Spells (countHeader t).toList (.reserved "SELECT" :: .word "COUNT" :: .openParen :: .star :: .closeParen ::
      .reserved "FROM" :: [.word t.tableName]) := by
  have hname : Token.Spells "COUNT".toList [.word "COUNT"] := Token.spells_identifier (by decide +kernel)
  have hall := (((spells_reserved (w := "SELECT") (by simp)).append (hname.call Token.spells_star.enclosed)).append
    (spells_reserved (w := "FROM") (by simp))).append (Token.spells_identifier htable)
  have hheader : "SELECT COUNT(*) FROM ".toList =
      "SELECT".toList ++ ' ' :: ("COUNT".toList ++ '(' :: (['*'] ++ [')'])) ++ ' ' :: ("FROM".toList ++ [' ']) := rfl
  have htext : (countHeader t).toList = "SELECT COUNT(*) FROM ".toList ++ t.tableName.toList := String.toList_append
  rw [htext, hheader]
  simpa only [List.append_assoc, List.cons_append, List.nil_append] using hall

/-- The text of a count is one command, which asks for the number of rows under the condition of the filters. -/
theorem read_count (htable : Token.isIdentifier t.tableName = true)
    (hnames : ∀ n ∈ t.memberNames, Token.isIdentifier n = true) {q : Query} (hheaded : Headed q.filters)
    {w : String} (hw : conditions t q.filters = .ok w) (hzero : '\x00' ∉ (countHeader t ++ w).toList)
    (hstart : ∀ f ∈ q.filters, ∀ x ∈ f.predicate.tests t, x.column.toUpper ∉ Command.startWords)
    (hdepth : (condition t q.filters).depth ≤ Command.depthLimit) :
    ∃ name, Command.read (countHeader t ++ w) = [some (.select ⟨[.count name], ⟨none, t.tableName⟩, none,
      condition t q.filters, [], none, none⟩)] := by
  have htokens := (lengthens_conditions hnames hheaded hw _ _ (spells_countHeader htable)).tokensOf_eq
  have hscan : Command.tokens (Token.scan (countHeader t ++ w).toList) = .reserved "SELECT" ::
      ([.word "COUNT", .openParen, .star, .closeParen] ++ .reserved "FROM" :: .word t.tableName ::
        Sentence.conditionClause (comparisons t q.filters)) := by
    rw [Command.tokens, Token.tokens_scan, if_neg hzero, String.toList_append, htokens]
    rfl
  obtain ⟨what, hwhat, hread⟩ := Command.ofLexemes?_select hscan (by simp)
  refine ⟨Command.spannedToNext what, ?_⟩
  rw [Command.read_of_scan (by rw [hscan]; exact List.cons_ne_nil _ _)
    (by rw [hscan]; simp [Command.semicolon_notMem_conditionClause]), hread,
    Command.select?_count hwhat t.tableName (whereClause?_comparisons hheaded hw hstart hdepth)]

end Query
end Rowmap
