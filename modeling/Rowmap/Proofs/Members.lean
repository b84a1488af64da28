import Rowmap.Schema.Table

/-! Fields by name and by place. The check of a declaration passes exactly if as many fields are registered as
declared and no name repeats; then a row built from the names holds the value of every field, and a table can be
created. Of the columns of one name a row has the last, and `at?` is the value that a record has at a place. Reading
a record from a row stops at the first field that cannot be read, and `stop?` tells which one that is. -/

namespace Rowmap

theorem lookup_of_nodup {α β : Type} [BEq α] [LawfulBEq α] {l : List (α × β)} {a : α} {b : β}
    (hd : (l.map Prod.fst).Nodup) (h : (a, b) ∈ l) : l.lookup a = some b := by
  induction l with
  | nil => cases h
  | cons p l ih =>
    rw [List.map_cons, List.nodup_cons] at hd
    rcases List.mem_cons.1 h with rfl | h
    · exact List.lookup_cons_self
    · have hne : (a == p.1) = false := beq_eq_false_iff_ne.2 fun hp => hd.1 (hp ▸ List.mem_map_of_mem h)
      rw [List.lookup_cons, hne]
      exact ih hd.2 h

namespace RecordType

theorem mem_memberNames_of_fieldName? {t : RecordType} {i : Nat} {n : String} (h : t.fieldName? i = some n) :
    n ∈ t.memberNames := by
  obtain ⟨f, hf, rfl⟩ := Option.map_eq_some_iff.1 h
  exact List.mem_map_of_mem (List.mem_of_getElem? hf)

theorem firstRepeated?_go_eq_none_iff {seen names : List String} :
    firstRepeated?.go seen names = none ↔ names.Nodup ∧ ∀ n ∈ names, n ∉ seen := by
  induction names generalizing seen with
  | nil => simp [firstRepeated?.go]
  | cons n ns ih =>
    rw [firstRepeated?.go]
    split
    · next h => simp [h]
    · next h =>
      rw [ih, List.nodup_cons]
      constructor
      · rintro ⟨hd, hs⟩
        refine ⟨⟨fun hn => hs n hn (by simp), hd⟩, ?_⟩
        intro m hm
        rcases List.mem_cons.1 hm with rfl | hm
        · exact h
        · exact fun hms => hs m hm (List.mem_cons_of_mem _ hms)
      · rintro ⟨⟨hn, hd⟩, hs⟩
        refine ⟨hd, fun m hm hms => ?_⟩
        rcases List.mem_cons.1 hms with rfl | hms
        · exact hn hm
        · exact hs m (List.mem_cons_of_mem _ hm) hms

theorem firstRepeated?_eq_none_iff {names : List String} : firstRepeated? names = none ↔ names.Nodup := by
  simp [firstRepeated?, firstRepeated?_go_eq_none_iff]

theorem checkMembers_eq_ok_iff {t : RecordType} :
    t.checkMembers = .ok () ↔ t.fields.length = t.declared ∧ t.memberNames.Nodup := by
  rw [checkMembers]
  split
  · next h => exact ⟨fun he => (nomatch he), fun hc => absurd hc.1 h⟩
  · next h =>
    rw [← firstRepeated?_eq_none_iff]
    cases firstRepeated? t.memberNames with
    | none => exact ⟨fun _ => ⟨Classical.not_not.1 h, rfl⟩, fun _ => rfl⟩
    | some n => exact ⟨fun he => (nomatch he), fun hc => (nomatch hc.2)⟩

theorem checkMembers_eq_error {t : RecordType} {e : Error} (h : t.checkMembers = .error e) :
    ∃ why, e = .schema why := by
  unfold checkMembers at h
  split at h
  · cases h
    exact ⟨_, rfl⟩
  · split at h
    · cases h
      exact ⟨_, rfl⟩
    · cases h

section CreateSql

variable {t : RecordType} {s : ConstraintStore} {columnType : Kind → ColumnType}

theorem createSql_eq_ok_iff {sql : String} : t.createSql s columnType = .ok sql ↔
    t.checkMembers = .ok () ∧ sql = (Table.ofRecordType t s columnType).sql := by
  rw [createSql, bind_eq_ok]
  constructor
  · rintro ⟨_, hcheck, hsql⟩
    cases hsql
    exact ⟨hcheck, rfl⟩
  · rintro ⟨hcheck, rfl⟩
    exact ⟨(), hcheck, rfl⟩

theorem createSql_eq_error {e : Error} (h : t.createSql s columnType = .error e) : ∃ why, e = .schema why := by
  rcases bind_eq_error.1 h with hcheck | ⟨_, -, hsql⟩
  · exact checkMembers_eq_error hcheck
  · cases hsql

end CreateSql

end RecordType

namespace Row

theorem value?_foldl_insert (cs : List (String × Value)) (r : Row) (n : String) :
    (cs.foldl (fun r c => r.insert c.1 c.2) r).value? n = (cs.reverse.lookup n).or (r.value? n) := by
  induction cs generalizing r with
  | nil => rfl
  | cons c cs ih =>
    obtain ⟨m, v⟩ := c
    have hsingle : List.lookup n [(m, v)] = if n = m then some v else none := by
      simp only [List.lookup_cons, List.lookup_nil]
      split <;> simp_all
    rw [List.foldl_cons, ih, value?_insert, List.reverse_cons, List.lookup_append, Option.or_assoc, hsingle]
    split <;> rfl

/-- Of several columns of one name the last is there. -/
theorem value?_ofList (cs : List (String × Value)) (n : String) : (ofList cs).value? n = cs.reverse.lookup n := by
  rw [ofList, value?_foldl_insert, value?_empty, Option.or_none]

theorem value?_ofList_of_mem {cs : List (String × Value)} (hd : (cs.map Prod.fst).Nodup)
    {c : String × Value} (hc : c ∈ cs) : (ofList cs).value? c.1 = some c.2 := by
  have hreverse := ((List.reverse_perm cs).map Prod.fst).nodup_iff.2 hd
  rw [value?_ofList]
  exact lookup_of_nodup hreverse (List.mem_reverse.2 hc)

end Row

namespace Field

/-- A field of a row: what is in the column of its name, as a value of its type. -/
def read (table : String) (row : Row) (f : Field) : Except Error f.type.Val :=
  match row.value? f.name with
  | none => .error (.fieldNotFound table f.name)
  | some v => f.type.ofValue v

end Field

namespace Members

theorem length_values (fs : List Field) (xs : Members fs) : (values fs xs).length = fs.length := by
  induction fs with
  | nil => rfl
  | cons f fs ih => simp [values, ih]

def at? : (fs : List Field) → Members fs → Nat → Option ((f : Field) × f.type.Val)
  | [], _, _ => none
  | f :: _, (x, _), 0 => some ⟨f, x⟩
  | _ :: fs, (_, xs), k + 1 => at? fs xs k

theorem exists_at? {fs : List Field} {k : Nat} {f : Field} (h : fs[k]? = some f) (xs : Members fs) :
    ∃ x, at? fs xs k = some ⟨f, x⟩ := by
  induction fs generalizing k with
  | nil => cases h
  | cons g fs ih =>
    obtain ⟨y, ys⟩ := xs
    cases k with
    | zero =>
      cases h
      exact ⟨y, rfl⟩
    | succ k => exact ih h ys

theorem getElem?_values (fs : List Field) (xs : Members fs) (k : Nat) :
    (values fs xs)[k]? = (at? fs xs k).map fun p => p.1.type.toValue p.2 := by
  induction fs generalizing k with
  | nil => rfl
  | cons f fs ih =>
    obtain ⟨x, xs⟩ := xs
    cases k with
    | zero => rfl
    | succ k => exact ih xs k

theorem getElem?_of_at? {fs : List Field} {xs : Members fs} {k : Nat} {f : Field} {x : f.type.Val}
    (h : at? fs xs k = some ⟨f, x⟩) : fs[k]? = some f := by
  induction fs generalizing k with
  | nil => cases h
  | cons g fs ih =>
    obtain ⟨y, ys⟩ := xs
    cases k with
    | zero =>
      cases h
      rfl
    | succ k => exact ih h

/-- The number of the first field that cannot be read, with what is wrong about it. -/
def stop? (table : String) (row : Row) : List Field → Option (Nat × Error)
  | [] => none
  | f :: fs =>
    match row.value? f.name with
    | none => some (0, .fieldNotFound table f.name)
    | some v =>
      match f.type.ofValue v with
      | .error e => some (0, e)
      | .ok _ => (stop? table row fs).map fun p => (p.1 + 1, p.2)

theorem ofRow_cons (table : String) (row : Row) (f : Field) (fs : List Field) : ofRow table row (f :: fs) =
    (f.read table row).bind fun x => (ofRow table row fs).map fun xs => (x, xs) := by
  rw [ofRow, Field.read]
  cases row.value? f.name with
  | none => rfl
  | some v =>
    cases hx : f.type.ofValue v with
    | error e => rfl
    | ok x => cases ofRow table row fs <;> rfl

theorem ofRow_cons_ok {table : String} {row : Row} {f : Field} {fs : List Field} {v : Value}
    {x : f.type.Val} (hv : row.value? f.name = some v) (hx : f.type.ofValue v = .ok x) :
    ofRow table row (f :: fs) = (ofRow table row fs).map fun xs => (x, xs) := by
  rw [ofRow_cons, Field.read, hv]
  simp only [hx, Except.bind]

theorem ofRow_cons_error {table : String} {row : Row} {f : Field} {fs : List Field} {v : Value}
    {e : Error} (hv : row.value? f.name = some v) (he : f.type.ofValue v = .error e) :
    ofRow table row (f :: fs) = .error e := by
  rw [ofRow_cons, Field.read, hv]
  simp only [he, Except.bind]

theorem ofRow_cons_none {table : String} {row : Row} {f : Field} {fs : List Field}
    (hv : row.value? f.name = none) :
    ofRow table row (f :: fs) = .error (.fieldNotFound table f.name) := by
  rw [ofRow_cons, Field.read, hv, Except.bind]

theorem stop?_cons_ok {table : String} {row : Row} {f : Field} {fs : List Field} {v : Value}
    {x : f.type.Val} (hv : row.value? f.name = some v) (hx : f.type.ofValue v = .ok x) :
    stop? table row (f :: fs) = (stop? table row fs).map fun p => (p.1 + 1, p.2) := by
  simp only [stop?, hv, hx]

theorem stop?_cons_error {table : String} {row : Row} {f : Field} {fs : List Field} {v : Value}
    {e : Error} (hv : row.value? f.name = some v) (he : f.type.ofValue v = .error e) :
    stop? table row (f :: fs) = some (0, e) := by
  simp only [stop?, hv, he]

/-- A record cannot be read exactly if there is a field to stop at, and its error is the answer. -/
theorem ofRow_eq_error_iff {table : String} {row : Row} {fs : List Field} {e : Error} :
    ofRow table row fs = .error e ↔ ∃ k, stop? table row fs = some (k, e) := by
  induction fs with
  | nil => simp [ofRow, stop?]
  | cons f fs ih =>
    cases hv : row.value? f.name with
    | none => simp [ofRow_cons_none hv, stop?, hv]
    | some v =>
      cases hx : f.type.ofValue v with
      | error e' => simp [ofRow_cons_error hv hx, stop?_cons_error hv hx]
      | ok x =>
        rw [ofRow_cons_ok hv hx, stop?_cons_ok hv hx]
        simp only [map_eq_error, ih, Option.map_eq_some_iff, Prod.mk.injEq, Prod.exists]
        constructor
        · rintro ⟨k, hk⟩
          exact ⟨k + 1, k, e, hk, rfl, rfl⟩
        · rintro ⟨_, k, _, hk, _, rfl⟩
          exact ⟨k, hk⟩

end Members
end Rowmap
