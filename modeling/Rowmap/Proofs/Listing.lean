import Mathlib.Data.List.Basic
import Rowmap.Proofs.Placement

/-! The list of tables and the tables there are. Whatever commands come, no two tables of a part of the database have
the same name, in whatever case, and none has a name that the database keeps for itself. The list is asked for with a
pattern that is meant to leave these out. But the underscore in it stands for any character, so it leaves out more: any
name in which something follows the six letters. -/

namespace Rowmap

theorem like_nil_text {p : Char} (hp : p ≠ '%') (ps : List Char) : like (p :: ps) [] = false := if_neg hp

theorem like_cons {p : Char} (hp : p ≠ '%') (ps : List Char) (c : Char) (cs : List Char) :
    like (p :: ps) (c :: cs) = ((p = '_' || p.toLower = c.toLower) && like ps cs) := if_neg hp

/-- Where a pattern begins with letters, the text has to begin with the same, in whatever case. -/
theorem like_append {w : List Char} (hw : ∀ c ∈ w, c ≠ '%' ∧ c ≠ '_') (ps s : List Char) : like (w ++ ps) s =
    (decide ((s.map Char.toLower).take w.length = w.map Char.toLower) && like ps (s.drop w.length)) := by
  induction w generalizing s with
  | nil => simp
  | cons p w ih =>
    obtain ⟨⟨hrun, hone⟩, hw⟩ := List.forall_mem_cons.1 hw
    rw [List.cons_append]
    cases s with
    | nil => simp [like_nil_text hrun]
    | cons c s => simp [like_cons hrun, hone, ih hw, Bool.decide_and, eq_comm, Bool.and_assoc]

/-- An underscore and a percent sign take whatever is there, as long as there is something. -/
theorem like_rest (s : List Char) : like ['_', '%'] s = !s.isEmpty := by
  cases s with
  | nil => rfl
  | cons c s =>
    have hrest : like ['%'] s = true :=
      List.any_eq_true.2 ⟨s.length, by simp, by rw [List.drop_length]; rfl⟩
    rw [like_cons (by decide), hrest]
    rfl

namespace Database

theorem toList_toLower (s : String) : s.toLower.toList = s.toList.map Char.toLower := String.toList_map

theorem like_pattern (n : String) : like pattern.toList n.toList =
    (decide (n.toLower.toList.take 6 = "sqlite".toList) && decide (6 < n.length)) := by
  have hsplit : pattern.toList = "sqlite".toList ++ ['_', '%'] := rfl
  have hplain : ∀ c ∈ "sqlite".toList, c ≠ '%' ∧ c ≠ '_' := by simp
  have hletters : "sqlite".toList.map Char.toLower = "sqlite".toList := rfl
  have hlength : "sqlite".toList.length = 6 := rfl
  have hmore : (!(n.toList.drop 6).isEmpty) = decide (6 < n.length) := by
    rw [Bool.eq_iff_iff, Bool.not_eq_true', ← Bool.not_eq_true, List.isEmpty_iff, List.drop_eq_nil_iff,
      decide_eq_true_eq, String.length_toList]
    omega
  rw [hsplit, like_append hplain, like_rest, hletters, hlength, hmore, toList_toLower]

theorem like_pattern_iff {n : String} : like pattern.toList n.toList = true ↔
    n.toLower.toList.take 6 = "sqlite".toList ∧ 6 < n.length := by
  rw [like_pattern, Bool.and_eq_true, decide_eq_true_eq, decide_eq_true_eq]

/-- Of all that is listed of a table, its name is asked for once. -/
theorem asked?_entries (d : Definition) : (Catalog.entries d).filterMap (fun e => asked? e.1 e.2.1) =
    [d.name].filter fun n => !like pattern.toList n.toList := by
  have hindexes : ∀ e ∈ d.indexes.zipIdx.map fun i => ("index", Catalog.indexName d.name (i.2 + 1), Cell.null),
      asked? e.1 e.2.1 = none := by
    intro e he
    obtain ⟨i, -, rfl⟩ := List.mem_map.1 he
    rfl
  rw [Catalog.entries, List.filterMap_cons, List.filterMap_eq_nil_iff.2 hindexes, asked?, List.filter_singleton]
  cases like pattern.toList d.name.toList <;> rfl

/-- The names of the tables of the main part. -/
def mainNames (d : Database) : List String := (d.relations.filter (!·.temporary)).map (·.definition.name)

theorem tableNames_eq (d : Database) :
    d.tableNames = d.mainNames.filter fun n => !like pattern.toList n.toList := by
  have hmain : d.relations.filter (fun r => decide (r.temporary = false)) = d.relations.filter (!·.temporary) :=
    List.filter_congr fun r _ => by cases r.temporary <;> rfl
  rw [tableNames, catalog, Catalog.relation, List.filterMap_map, hmain]
  -- what is asked for depends on the entry alone, and not on the row that it stands in
  show List.filterMap ((fun e : String × String × String × Cell => asked? e.2.1 e.2.2.1) ∘ Prod.fst)
    (List.zipIdx _) = _
  rw [← List.filterMap_map, List.zipIdx_map_fst, List.filterMap_flatMap]
  simp only [List.filterMap_map, Function.comp_def, asked?_entries]
  rw [← List.filter_flatMap, ← List.map_eq_flatMap, List.map_map]
  rfl

/-- What tells a table from the others. -/
def key (r : Relation) : Bool × String := (r.temporary, r.definition.name.toLower)

theorem isSame_iff {r q : Relation} : isSame r q = true ↔ key q = key r := by
  simp [isSame, sameName, key]

theorem isReserved_of_key {r q : Relation} (h : key q = key r) :
    Catalog.isReserved q.definition.name = Catalog.isReserved r.definition.name := by
  have hname : q.definition.name.toLower = r.definition.name.toLower := congrArg Prod.snd h
  rw [Catalog.isReserved, Catalog.isReserved, hname]

/-- No two tables of a part have the same name, and none has one that is kept. -/
structure Orderly (d : Database) : Prop where
  keys : (d.relations.map key).Nodup
  unreserved : ∀ r ∈ d.relations, Catalog.isReserved r.definition.name = false

variable {d d' : Database}

theorem orderly_nil (h : d.relations = []) : Orderly d := by
  constructor
  · rw [h]
    exact List.nodup_nil
  · rw [h]
    exact nofun

def createIn? (d : Database) (temporary : Bool) (t : Definition) (strict : Bool) : Option Database :=
  if Catalog.isReserved t.name then none
  else if (d.inPart? temporary t.name).isSome then if strict then none else some d
  else if t.isSound && isReadable t then some { d with relations := d.relations ++ [⟨t, temporary, []⟩] }
  else none

theorem create?_none (d : Database) (t : Definition) (strict : Bool) :
    d.create? none t strict = d.createIn? false t strict := rfl

theorem create?_some (d : Database) (s : String) (t : Definition) (strict : Bool) :
    d.create? (some s) t strict = (part? s).bind fun temporary => d.createIn? temporary t strict := rfl

/-- A table is added only under a name that is free, and that may be had. -/
theorem createIn?_eq_some {temporary : Bool} {t : Definition} {strict : Bool}
    (h : d.createIn? temporary t strict = some d') : Catalog.isReserved t.name = false ∧
      ((d.inPart? temporary t.name ≠ none ∧ d' = d) ∨ (d.inPart? temporary t.name = none ∧
        d' = { d with relations := d.relations ++ [⟨t, temporary, []⟩] })) := by
  unfold createIn? at h
  split at h
  · cases h
  · next hfree =>
    refine ⟨Bool.eq_false_iff.2 hfree, ?_⟩
    split at h
    · next hthere =>
      split at h
      · cases h
      · exact Or.inl ⟨Option.isSome_iff_ne_none.1 hthere, (Option.some.inj h).symm⟩
    · next hthere =>
      split at h
      · exact Or.inr ⟨Option.not_isSome_iff_eq_none.1 hthere, (Option.some.inj h).symm⟩
      · cases h

theorem drop?_eq_some {t : TableName} {strict : Bool} (h : d.drop? t strict = some d') :
    (d.relation? t = none ∧ d' = d) ∨ ∃ r, d.relation? t = some r ∧
      d' = { d with relations := d.relations.filter fun q => !isSame r q } := by
  unfold drop? at h
  split at h
  · next hnone =>
    split at h
    · cases h
    · cases h
      exact Or.inl ⟨hnone, rfl⟩
  · next r hsome =>
    split at h
    · cases h
    · cases h
      exact Or.inr ⟨r, hsome, rfl⟩

theorem put_of_insert? {t : TableName} {columns : List String} {params : List Cell}
    (h : d.insert? t columns params = some d') : ∃ r, d' = d.put r := by
  cases hr : d.relation? t with
  | none =>
    rw [insert?, hr] at h
    cases h
  | some r =>
    obtain ⟨e, r', -, hput⟩ := insert?_eq_some h hr
    exact ⟨r', hput⟩

theorem orderly_createIn? {temporary : Bool} {t : Definition} {strict : Bool} (hd : Orderly d)
    (h : d.createIn? temporary t strict = some d') : Orderly d' := by
  obtain ⟨hfree, ⟨-, rfl⟩ | ⟨hnone, rfl⟩⟩ := createIn?_eq_some h
  · exact hd
  · constructor
    · rw [List.map_append, List.map_singleton, List.nodup_append]
      refine ⟨hd.keys, by simp, ?_⟩
      intro k hk k' hk' heq
      obtain ⟨r, hr, rfl⟩ := List.mem_map.1 hk
      rw [List.mem_singleton.1 hk'] at heq
      have hother := List.find?_eq_none.1 hnone r hr
      simp_all [key, sameName]
    · intro r hr
      rcases List.mem_append.1 hr with hr | hr
      · exact hd.unreserved r hr
      · rw [List.mem_singleton.1 hr]
        exact hfree

theorem orderly_create? {schema : Option String} {t : Definition} {strict : Bool} (hd : Orderly d)
    (h : d.create? schema t strict = some d') : Orderly d' := by
  cases schema with
  | none => exact orderly_createIn? hd (d.create?_none t strict ▸ h)
  | some s =>
    rw [create?_some, Option.bind_eq_some_iff] at h
    obtain ⟨temporary, -, h⟩ := h
    exact orderly_createIn? hd h

theorem orderly_drop? {t : TableName} {strict : Bool} (hd : Orderly d) (h : d.drop? t strict = some d') :
    Orderly d' := by
  rcases drop?_eq_some h with ⟨-, rfl⟩ | ⟨r, -, rfl⟩
  · exact hd
  · exact ⟨hd.keys.sublist (List.filter_sublist.map key), fun q hq => hd.unreserved q (List.mem_of_mem_filter hq)⟩

/-- What is put into a database takes the place of a table with its name. -/
theorem orderly_put (hd : Orderly d) (r : Relation) : Orderly (d.put r) := by
  have hkey : ∀ q, key (if isSame r q then r else q) = key q := by
    intro q
    split
    · next hsame => exact (isSame_iff.1 hsame).symm
    · rfl
  constructor
  · rw [put, List.map_map]
    simpa only [Function.comp_def, hkey] using hd.keys
  · intro q' hq'
    obtain ⟨q, hq, rfl⟩ := List.mem_map.1 hq'
    rw [isReserved_of_key (hkey q)]
    exact hd.unreserved q hq

/-- No command makes disorder. -/
theorem orderly_run? {params : List Cell} {c : Command} {o : Outcome} (hd : Orderly d)
    (h : d.run? params c = some (o, d')) : Orderly d' := by
  cases c with
  | create schema t strict =>
    obtain ⟨e, he, hpair⟩ := Option.map_eq_some_iff.1 h
    cases hpair
    exact orderly_create? hd he
  | drop t strict =>
    obtain ⟨e, he, hpair⟩ := Option.map_eq_some_iff.1 h
    cases hpair
    exact orderly_drop? hd he
  | insert t columns =>
    obtain ⟨e, he, hpair⟩ := Option.map_eq_some_iff.1 h
    cases hpair
    obtain ⟨r, rfl⟩ := put_of_insert? he
    exact orderly_put hd r
  | select q =>
    simp only [run?, Option.bind_eq_bind, Option.bind_eq_some_iff] at h
    obtain ⟨r, -, l, -, hpair⟩ := h
    cases hpair
    exact hd
  | describe t =>
    cases h
    exact hd

theorem orderly_runAll {params : List Cell} (cs : List (Option Command)) (hd : Orderly d) :
    Orderly (d.runAll params cs).database := by
  induction cs generalizing d with
  | nil => exact hd
  | cons c cs ih =>
    rw [runAll]
    split
    · exact hd
    · next o d' hrun =>
      obtain ⟨c', -, hrun⟩ := Option.bind_eq_some_iff.1 hrun
      exact ih (orderly_run? hd hrun)

theorem mem_mainNames {n : String} :
    n ∈ d.mainNames ↔ ∃ r ∈ d.relations, r.temporary = false ∧ r.definition.name = n := by
  simp [mainNames, and_assoc]

theorem nodup_mainNames (hd : Orderly d) : d.mainNames.Nodup := by
  rw [mainNames, List.Nodup, List.pairwise_map, List.pairwise_filter]
  refine (List.pairwise_map.1 hd.keys).imp fun hne hr hq hname => hne ?_
  rw [Bool.not_eq_true'] at hr hq
  rw [key, key, hr, hq, hname]

/-- Of the tables of the main part each one is listed once, and nothing else is, but for those like the pattern. -/
theorem tableNames_of_orderly (hd : Orderly d) : d.tableNames.Nodup ∧ ∀ n, n ∈ d.tableNames ↔
    (∃ r ∈ d.relations, r.temporary = false ∧ r.definition.name = n) ∧ like pattern.toList n.toList = false := by
  rw [tableNames_eq]
  refine ⟨(nodup_mainNames hd).sublist List.filter_sublist, fun n => ?_⟩
  rw [List.mem_filter, mem_mainNames, Bool.not_eq_true']

end Database

end Rowmap
