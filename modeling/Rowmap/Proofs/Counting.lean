import Rowmap.Proofs.Traversal
import Rowmap.Query

/-! What a query counts is what it selects. Both statements are written from the filters first: these are held
against the declared fields, one after the other, each before its names are looked up among the registered
ones, and the first that fails decides for both. What stands behind the condition is looked at afterwards. So a
query that cannot be counted is refused in the same words when its rows are selected, and of one that can be
both texts have one condition, which is made of the filters alone. Writing either takes the query as a value and
leaves it as it is. -/

namespace Rowmap

namespace Filter

variable {t : RecordType}

/-- What keeps a filter from being written: what the grammar has against it, and then what its nodes have. -/
def fault? (t : RecordType) (f : Filter) : Option Error :=
  match f.predicate.check .query t.declared with
  | .error x => some x
  | .ok _ => (f.predicate.preorder.findSome? (Node.predicateFault? t)).map .invalidExpression

def text (t : RecordType) (f : Filter) : String :=
  (match f.connective with
    | none => " WHERE "
    | some k => " " ++ k.sql ++ " ") ++ " ".intercalate (f.predicate.words t)

end Filter

namespace Expr

/-- The grammar has no place for an assignment or a constraint in a query. -/
theorem placed_of_isQuery {n : Nat} {e : Expr} (h : IsQuery n e) :
    Node.operator .assign ∉ e.preorder ∧ ∀ c, Node.constraint c ∉ e.preorder := by
  induction h with
  | comparison l hop hi =>
    refine ⟨fun hmem => ?_, fun c hmem => ?_⟩
    · simp only [preorder, List.cons_append, List.nil_append, List.mem_cons, List.not_mem_nil, or_false,
        Node.operator.injEq, reduceCtorEq] at hmem
      subst hmem
      cases hop
    · simp [preorder] at hmem
  | and hl hr ihl ihr =>
    refine ⟨fun hmem => ?_, fun c hmem => ?_⟩
    · simp [preorder, ihl.1, ihr.1] at hmem
    · simp [preorder, ihl.2 c, ihr.2 c] at hmem

/-- What the grammar admits can be written if all its fields are there. -/
theorem faultless_iff_of_isQuery {t : RecordType} {n : Nat} {e : Expr} (h : IsQuery n e) :
    (∀ m ∈ e.preorder, m.predicateFault? t = none) ↔ ∀ i, Node.field i ∈ e.preorder → i < t.fields.length := by
  obtain ⟨hassign, hconstraint⟩ := placed_of_isQuery h
  rw [faultless_iff]
  exact ⟨fun hall => hall.2.2, fun hfields => ⟨hassign, hconstraint, hfields⟩⟩

end Expr

theorem Filter.fault?_eq_none_iff {t : RecordType} {f : Filter} :
    f.fault? t = none ↔ f.predicate.check .query t.declared = .ok () ∧
      ∀ i, Node.field i ∈ f.predicate.preorder → i < t.fields.length := by
  unfold fault?
  cases hcheck : f.predicate.check .query t.declared with
  | error x => simp
  | ok =>
    rw [← Expr.faultless_iff_of_isQuery (Expr.checkQuery_eq_ok_iff.1 hcheck), Option.map_eq_none_iff,
      List.findSome?_eq_none_iff]
    simp

namespace SortKey

def fault? (t : RecordType) (k : SortKey) : Option Error := (t.fieldFault? k.field).map .invalidExpression

def text (t : RecordType) (k : SortKey) : String := (t.fieldName? k.field).getD "" ++ " " ++ k.direction.sql

theorem fault?_eq_none_iff {t : RecordType} {k : SortKey} : k.fault? t = none ↔ k.field < t.fields.length := by
  simp [fault?, RecordType.fieldFault?]

end SortKey

namespace Query

variable {t : RecordType}

def conditionText (t : RecordType) : List Filter → String
  | [] => ""
  | f :: fs => f.text t ++ conditionText t fs

def orderText (t : RecordType) (ks : List SortKey) : String :=
  if ks.isEmpty then "" else " ORDER BY " ++ Table.commas (ks.map (SortKey.text t))

/-- The first filter that cannot be written decides; if there is none, the condition has its text. -/
theorem conditions_eq (t : RecordType) (fs : List Filter) :
    conditions t fs = match fs.findSome? (Filter.fault? t) with
      | some x => .error x
      | none => .ok (conditionText t fs) := by
  induction fs with
  | nil => rfl
  | cons f fs ih =>
    rw [conditions, ih, List.findSome?_cons, Filter.fault?, Expr.condition_eq]
    -- the grammar first, then the nodes, and the filters behind only if there is nothing against this one
    cases f.predicate.check .query t.declared with
    | error x => rfl
    | ok =>
      cases f.predicate.preorder.findSome? (Node.predicateFault? t) with
      | some why => rfl
      | none => cases fs.findSome? (Filter.fault? t) <;> rfl

theorem sortKeys_eq (t : RecordType) (ks : List SortKey) :
    sortKeys t ks = match ks.findSome? (SortKey.fault? t) with
      | some x => .error x
      | none => .ok (ks.map (SortKey.text t)) := by
  induction ks with
  | nil => rfl
  | cons k ks ih =>
    rw [sortKeys, ih, List.findSome?_cons, SortKey.fault?]
    rcases t.fieldFault?_cases k.field with ⟨-, hfault, n, hn, hat⟩ | ⟨-, hfault, -, hat⟩
    · have htext : k.text t = n ++ " " ++ k.direction.sql := by rw [SortKey.text, hn, Option.getD_some]
      rw [hfault, hat, List.map_cons, htext]
      cases ks.findSome? (SortKey.fault? t) <;> rfl
    · rw [hfault, hat]
      rfl

theorem orderClause_eq (t : RecordType) (ks : List SortKey) :
    orderClause t ks = match ks.findSome? (SortKey.fault? t) with
      | some x => .error x
      | none => .ok (orderText t ks) := by
  cases ks with
  | nil => rfl
  | cons k ks =>
    rw [orderClause, if_neg (by simp), sortKeys_eq]
    cases (k :: ks).findSome? (SortKey.fault? t) <;> rfl

theorem count_eq (t : RecordType) (q : Query) :
    q.count t = match q.filters.findSome? (Filter.fault? t) with
      | some x => .error x
      | none => .ok (countHeader t ++ conditionText t q.filters) := by
  rw [count, conditions_eq]
  cases q.filters.findSome? (Filter.fault? t) <;> rfl

/-- The filters come before the order. -/
theorem select_eq (t : RecordType) (q : Query) :
    q.select t = match (q.filters.findSome? (Filter.fault? t)).or (q.order.findSome? (SortKey.fault? t)) with
      | some x => .error x
      | none => .ok (selectHeader t ++ conditionText t q.filters ++ orderText t q.order ++
          limitClause q.limit ++ offsetClause q.offset) := by
  rw [select, conditions_eq, orderClause_eq]
  cases q.filters.findSome? (Filter.fault? t) with
  | some x => rfl
  | none => cases q.order.findSome? (SortKey.fault? t) <;> rfl

theorem count_eq_ok_iff {q : Query} {sql : String} : q.count t = .ok sql ↔
    (∀ f ∈ q.filters, f.fault? t = none) ∧ sql = countHeader t ++ conditionText t q.filters := by
  rw [count_eq, ← List.findSome?_eq_none_iff]
  cases q.filters.findSome? (Filter.fault? t) with
  | some x => exact ⟨nofun, fun h => nomatch h.1⟩
  | none => exact ⟨fun h => ⟨rfl, (Except.ok.inj h).symm⟩, fun h => congrArg _ h.2.symm⟩

theorem select_eq_ok_iff {q : Query} {sql : String} : q.select t = .ok sql ↔
    (∀ f ∈ q.filters, f.fault? t = none) ∧ (∀ k ∈ q.order, k.fault? t = none) ∧
      sql = selectHeader t ++ conditionText t q.filters ++ orderText t q.order ++ limitClause q.limit ++
        offsetClause q.offset := by
  rw [select_eq, ← List.findSome?_eq_none_iff, ← List.findSome?_eq_none_iff]
  cases q.filters.findSome? (Filter.fault? t) with
  | some x => exact ⟨nofun, fun h => nomatch h.1⟩
  | none =>
    cases q.order.findSome? (SortKey.fault? t) with
    | some x => exact ⟨nofun, fun h => nomatch h.2.1⟩
    | none => exact ⟨fun h => ⟨rfl, rfl, (Except.ok.inj h).symm⟩, fun h => congrArg _ h.2.2.symm⟩

theorem exists_count_iff {q : Query} :
    (∃ sql, q.count t = .ok sql) ↔ ∀ f ∈ q.filters, f.fault? t = none := by
  constructor
  · rintro ⟨sql, h⟩
    exact (count_eq_ok_iff.1 h).1
  · intro h
    exact ⟨_, count_eq_ok_iff.2 ⟨h, rfl⟩⟩

theorem select_eq_error_of_count {q : Query} {x : Error} (h : q.count t = .error x) (order : List SortKey)
    (limit offset : Option Nat) : select t ⟨q.filters, order, limit, offset⟩ = .error x := by
  rw [count_eq] at h
  rw [select_eq]
  cases hfault : q.filters.findSome? (Filter.fault? t) with
  | none =>
    rw [hfault] at h
    cases h
  | some y =>
    rw [hfault] at h
    cases h
    rfl

/-- A query can be counted exactly if its filters can be written, and selected exactly if the fields that it is
ordered by are registered too. The two texts have the same condition. -/
theorem counted_as_selected (t : RecordType) (q : Query) :
    ((∃ sql, q.count t = .ok sql) ↔ ∀ f ∈ q.filters, f.predicate.check .query t.declared = .ok () ∧
      ∀ i, Node.field i ∈ f.predicate.preorder → i < t.fields.length) ∧
    ((∃ sql, q.select t = .ok sql) ↔
      (∃ sql, q.count t = .ok sql) ∧ ∀ k ∈ q.order, k.field < t.fields.length) ∧
    (∀ x, q.count t = .error x →
      ∀ order limit offset, select t ⟨q.filters, order, limit, offset⟩ = .error x) ∧
    ∀ counted selected, q.count t = .ok counted → q.select t = .ok selected →
      counted = countHeader t ++ conditionText t q.filters ∧
      selected = selectHeader t ++ conditionText t q.filters ++ orderText t q.order ++ limitClause q.limit ++
        offsetClause q.offset := by
  refine ⟨?_, ?_, fun x h => select_eq_error_of_count h, ?_⟩
  · rw [exists_count_iff]
    exact forall₂_congr fun f _ => Filter.fault?_eq_none_iff
  · rw [exists_count_iff]
    constructor
    · rintro ⟨sql, h⟩
      obtain ⟨hfilters, horder, -⟩ := select_eq_ok_iff.1 h
      exact ⟨hfilters, fun k hk => SortKey.fault?_eq_none_iff.1 (horder k hk)⟩
    · rintro ⟨hfilters, horder⟩
      exact ⟨_, select_eq_ok_iff.2 ⟨hfilters, fun k hk => SortKey.fault?_eq_none_iff.2 (horder k hk), rfl⟩⟩
  · intro counted selected hcount hselect
    exact ⟨(count_eq_ok_iff.1 hcount).2, (select_eq_ok_iff.1 hselect).2.2⟩

def wanting : RecordType := ⟨0, "Wanting", 3, [⟨"a", .integer .int32, 0⟩, ⟨"b", .text, 0⟩]⟩

def numbered : Filter := ⟨none, .binary .and (.binary .ge (.field 0) (.literal (.integer (-1))))
  (.binary .ne (.field 1) (.literal (.text "ORDER BY")))⟩

/-- The field is one of those declared, so the grammar has nothing against it. -/
def missing : Filter := ⟨some .or, .binary .eq (.field 2) (.literal (.unsigned 0))⟩

def paged : Query := ⟨[numbered], [⟨1, .descending⟩], some 0, some 7⟩

theorem counted_as_selected_paged :
    paged.count wanting = .ok "SELECT COUNT(*) FROM Wanting WHERE a >= -1 AND b <> 'ORDER BY'" ∧
    paged.select wanting =
      .ok "SELECT a, b FROM Wanting WHERE a >= -1 AND b <> 'ORDER BY' ORDER BY b DESC LIMIT 0 OFFSET 7" ∧
    (¬ ∃ sql, select wanting { paged with order := [⟨1, .descending⟩, ⟨2, .ascending⟩] } = .ok sql) ∧
    ∀ order limit offset, select wanting ⟨[numbered, missing], order, limit, offset⟩ =
      .error (.invalidExpression (.unregisteredField 2 "Wanting")) := by
  obtain ⟨hcount, hselect, -, htext⟩ := counted_as_selected wanting paged
  obtain ⟨-, horder, -, -⟩ :=
    counted_as_selected wanting { paged with order := [⟨1, .descending⟩, ⟨2, .ascending⟩] }
  obtain ⟨-, -, hfault, -⟩ := counted_as_selected wanting ⟨[numbered, missing], [], none, none⟩
  obtain ⟨counted, hc⟩ := hcount.2 fun f hf => by
    cases List.mem_singleton.1 hf
    exact Filter.fault?_eq_none_iff.1 rfl
  obtain ⟨selected, hs⟩ := hselect.2 ⟨⟨counted, hc⟩, by decide⟩
  obtain ⟨hcounted, hselected⟩ := htext counted selected hc hs
  have hcountText : counted = "SELECT COUNT(*) FROM Wanting WHERE a >= -1 AND b <> 'ORDER BY'" :=
    hcounted.trans (by decide +kernel)
  have hselectText : selected =
      "SELECT a, b FROM Wanting WHERE a >= -1 AND b <> 'ORDER BY' ORDER BY b DESC LIMIT 0 OFFSET 7" :=
    hselected.trans (by decide +kernel)
  refine ⟨hcountText ▸ hc, hselectText ▸ hs, fun h => ?_, hfault _ rfl⟩
  exact absurd (horder.1 h).2 (by decide)

end Query
end Rowmap
