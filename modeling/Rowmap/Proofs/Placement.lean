import Rowmap.Database.Basic
import Rowmap.Proofs.SelectReader

/-! Where a value that is inserted comes to stand. The columns of a record type's table are known by names that
differ, so every value is found under the place of its own column, the number of the row for one and a cell for
the others; it is read from there as the column has stored it. The other rows stay as they are. -/

namespace Rowmap

theorem mem_zip_of_getElem? {α β : Type} {as : List α} {bs : List β} {i : Nat} {a : α} {b : β}
    (ha : as[i]? = some a) (hb : bs[i]? = some b) : (a, b) ∈ as.zip bs :=
  List.mem_of_getElem? (List.getElem?_zip_eq_some.2 ⟨ha, hb⟩)

namespace Definition

variable {d : Definition} {t : RecordType}

theorem place_injective {i j : Nat} (h : d.place i = d.place j) : i = j := by
  unfold place at h
  split at h
  · next hi =>
    split at h
    · next hj => exact Option.some.inj (hi.symm.trans hj)
    · cases h
  · split at h
    · cases h
    · exact Place.column.inj h

theorem eq_of_place_column {i k : Nat} (h : d.place k = .column i) : i = k := by
  unfold place at h
  split at h
  · cases h
  · exact (Place.column.inj h).symm

/-- A table has a column for every field of a type, in their order, by the name and the kind of the field. -/
structure Describes (d : Definition) (t : RecordType) : Prop where
  sound : d.isSound = true
  columns : d.columns.map (fun c => (c.name, c.type)) =
    t.fields.map fun f => (f.name, (ColumnType.ofKind f.kind).sql)

namespace Describes

theorem length_columns (h : d.Describes t) : d.columns.length = t.fields.length := by
  simpa using congrArg List.length h.columns

theorem column (h : d.Describes t) {k : Nat} {f : Field} (hf : t.fields[k]? = some f) :
    ∃ c, d.columns[k]? = some c ∧ c.name = f.name ∧ c.type = (ColumnType.ofKind f.kind).sql := by
  have hk := congrArg (·[k]?) h.columns
  simp only [List.getElem?_map, hf, Option.map_some] at hk
  obtain ⟨c, hc, heq⟩ := Option.map_eq_some_iff.1 hk
  exact ⟨c, hc, congrArg Prod.fst heq, congrArg Prod.snd heq⟩

theorem type (h : d.Describes t) {k : Nat} {f : Field} (hf : t.fields[k]? = some f) :
    d.type k = (ColumnType.ofKind f.kind).sql := by
  obtain ⟨c, hc, -, htype⟩ := h.column hf
  rw [Definition.type, hc, Option.map_some, Option.getD_some, htype]

theorem names_nodup (h : d.Describes t) : (d.columns.map (·.name.toLower)).Nodup := by
  have hsound := h.sound
  simp only [isSound, Bool.and_eq_true, decide_eq_true_eq] at hsound
  exact hsound.1.1

theorem place?_name (h : d.Describes t) {k : Nat} {f : Field} (hf : t.fields[k]? = some f) :
    d.place? f.name = some (d.place k) := by
  obtain ⟨c, hc, hname, -⟩ := h.column hf
  obtain ⟨hk, hget⟩ := List.getElem?_eq_some_iff.1 hc
  have hposition : d.position? f.name = some k := by
    refine List.findIdx?_eq_some_iff_getElem.2 ⟨hk, ?_, fun j hj => ?_⟩
    · simp [sameName, hget, hname]
    · have hne := List.pairwise_iff_getElem.1 h.names_nodup j k (by simp; omega) (by simpa using hk) hj
      simpa [sameName, hget, hname] using hne
  simp only [place?, hposition]

theorem mapM_place? (h : d.Describes t) :
    t.memberNames.mapM d.place? = some ((List.range t.fields.length).map d.place) := by
  have hnames : t.memberNames = (List.range t.fields.length).map fun k => (t.memberNames[k]?).getD "" := by
    refine List.ext_getElem? fun k => ?_
    by_cases hk : k < t.fields.length
    · simp [hk, RecordType.memberNames]
    · simp [hk]
  rw [hnames]
  refine Command.mapM_map_eq_some fun k hk => ?_
  have hlt := List.mem_range.1 hk
  have hf : t.fields[k]? = some t.fields[k] := List.getElem?_eq_getElem hlt
  simpa [RecordType.memberNames, hlt] using h.place?_name hf

end Describes

end Definition

namespace Relation

variable {r r' : Relation} {t : RecordType} {e : Entry} {params : List Cell}

theorem insert?_eq_some {columns : List String} {places : List Place} (h : r.insert? columns params = some (e, r'))
    (hplaces : columns.mapM r.definition.place? = some places) :
    ∃ n, r.number? places params = some n ∧ e = ⟨n, arrange r.definition n places params⟩ ∧
      r' = { r with rows := r.placed e } := by
  simp only [insert?, hplaces, Option.bind_eq_bind, Option.bind_some] at h
  obtain ⟨n, hn, h⟩ := Option.bind_eq_some_iff.1 h
  split at h
  · cases h
    exact ⟨n, hn, rfl, rfl⟩
  · cases h

/-- A value is read from its place as the column there has stored it. As the number of a row a null would have
stood for the next one. -/
theorem read_of_insert? (hd : r.definition.Describes t) (hlength : params.length = t.fields.length)
    (h : r.insert? t.memberNames params = some (e, r')) {k : Nat} {f : Field} (hf : t.fields[k]? = some f) {c : Cell}
    (hc : params[k]? = some c) (hnull : r.definition.place k = .number → c.isNull = false) :
    e.read (r.definition.place k) = (r.definition.affinity (r.definition.place k)).store c := by
  obtain ⟨n, hn, rfl, -⟩ := insert?_eq_some h hd.mapM_place?
  have hk : k < t.fields.length := (List.getElem?_eq_some_iff.1 hf).1
  have hplace : ((List.range t.fields.length).map r.definition.place)[k]? = some (r.definition.place k) := by
    simp [hk]
  have hmem := mem_zip_of_getElem? hplace hc
  have hkeys : ((((List.range t.fields.length).map r.definition.place).zip params).map Prod.fst).Nodup := by
    rw [List.map_fst_zip (by simp [hlength])]
    exact List.pairwise_map.2 (List.nodup_range.imp fun hne he => hne (Definition.place_injective he))
  cases hp : r.definition.place k with
  | number =>
    have hreverse := ((List.reverse_perm _).map Prod.fst).nodup_iff.2 hkeys
    have hlast := lookup_of_nodup hreverse (List.mem_reverse.2 hmem)
    rw [hp] at hlast
    rw [number?, hlast, Option.getD_some] at hn
    split at hn
    · cases hnull hp
    · split at hn
      · next m hm =>
        cases hn
        exact hm.symm
      · cases hn
  | column i =>
    have hi : i = k := Definition.eq_of_place_column hp
    subst hi
    have hfirst := lookup_of_nodup hkeys hmem
    rw [hp] at hfirst
    have hcolumns : i < r.definition.columns.length := by rwa [hd.length_columns]
    simp [Entry.read, Entry.cell, arrange, hcolumns, hp, hfirst]

/-- The new row comes to those that were there. -/
theorem length_filter_placed (r : Relation) (e : Entry) (keep : Entry → Bool) :
    ((r.placed e).filter keep).length = (r.rows.filter keep).length + if keep e then 1 else 0 := by
  have hrows : (r.rows.takeWhile (·.number < e.number)).filter keep ++
      (r.rows.dropWhile (·.number < e.number)).filter keep = r.rows.filter keep := by
    rw [← List.filter_append, List.takeWhile_append_dropWhile]
  rw [placed, List.filter_append, List.filter_cons, ← hrows]
  split <;> simp only [List.length_append, List.length_cons] <;> omega

end Relation

namespace Database

variable {d d' : Database} {r r' : Relation}

/-- What is put into a database is found by the names that its predecessor is found by. -/
theorem inPart?_put (d : Database) (r' : Relation) (temporary : Bool) (name : String) :
    (d.put r').inPart? temporary name = (d.inPart? temporary name).map fun q => if isSame r' q then r' else q := by
  have hsame : (fun q : Relation => q.temporary = temporary && sameName q.definition.name name) ∘
      (fun q => if isSame r' q then r' else q) = fun q => q.temporary = temporary && sameName q.definition.name name := by
    funext q
    simp only [Function.comp]
    split
    · next h =>
      simp only [isSame, sameName, Bool.and_eq_true, decide_eq_true_eq] at h
      simp only [sameName, h.1, h.2]
    · rfl
  rw [inPart?, put, List.find?_map, hsame, inPart?]

theorem relation?_put {t : TableName} (h : d.relation? t = some r) (hname : r'.definition = r.definition)
    (htemporary : r'.temporary = r.temporary) : (d.put r').relation? t = some r' := by
  have hmap : (d.put r').relation? t = (d.relation? t).map fun q => if isSame r' q then r' else q := by
    unfold relation?
    split
    · rw [inPart?_put, inPart?_put]
      cases d.inPart? true t.name <;> rfl
    · next s _ =>
      cases part? s with
      | none => rfl
      | some p => exact inPart?_put d r' p t.name
  have hsame : isSame r' r = true := by simp [isSame, sameName, hname, htemporary]
  rw [hmap, h, Option.map_some, if_pos hsame]

theorem insert?_eq_some {t : TableName} {columns : List String} {params : List Cell}
    (h : d.insert? t columns params = some d') (hr : d.relation? t = some r) :
    ∃ e r', r.insert? columns params = some (e, r') ∧ d' = d.put r' := by
  simp only [insert?, hr, Option.bind_eq_bind, Option.bind_some] at h
  obtain ⟨⟨e, r'⟩, hinsert, h⟩ := Option.bind_eq_some_iff.1 h
  refine ⟨e, r', hinsert, ?_⟩
  simp only at h
  split at h
  · exact (Option.some.inj h).symm
  · cases h

end Database

end Rowmap
