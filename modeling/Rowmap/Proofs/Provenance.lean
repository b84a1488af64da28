import Rowmap.Proofs.Batch
import Rowmap.Proofs.Members

/-! Where the entries of a registry come from. Whatever has been configured and reset, in whatever order and
with whatever success, every name in a type's store is one of its fields and stands there once, and every
reference was looked up in the type that the configuration mentioned. So a table definition has its keys on
columns of its own. -/

namespace Rowmap

open ConstraintStore

theorem Expr.mem_memberNames_of_assigned? {t : RecordType} {c : Constraint} {e : Expr} {f : String}
    (h : e.assigned? t c = some f) : f ∈ t.memberNames := by
  unfold assigned? at h
  split at h
  · split at h
    · exact RecordType.mem_memberNames_of_fieldName? h
    · cases h
  · cases h

theorem Expr.reference?_eq_some {t : RecordType} {e : Expr} {k : String × Target}
    (h : e.reference? t = some k) : ∃ i r, e = .binary .assign (.field i) (.constraint (.foreignKey r)) ∧
      t.fieldName? i = some k.1 ∧ r.table = k.2.table ∧ r.column = some k.2.column := by
  unfold reference? at h
  split at h
  · next i r =>
    obtain ⟨f, hf, hk⟩ := Option.bind_eq_some_iff.1 h
    obtain ⟨column, hcolumn, rfl⟩ := Option.map_eq_some_iff.1 hk
    exact ⟨i, r, rfl, hf, rfl, hcolumn⟩
  · cases h

/-- Every reference in the tree was written as a field of some type. -/
def Expr.RefersToFields : Expr → Prop
  | .constraint (.foreignKey r) => ∃ u i, r = .ofField u i
  | .binary _ l r => l.RefersToFields ∧ r.RefersToFields
  | _ => True

namespace Registry

inductive Event where
  | configure (t : RecordType) (es : List Expr)
  | reset

/-- A configuration that fails leaves what it has registered. -/
def step (r : Registry) : Event → Registry
  | .configure t es => Action.after (configure t es r)
  | .reset => .empty

def run (evs : List Event) : Registry := evs.foldl step .empty

def Event.RefersToFields : Event → Prop
  | .configure _ es => ∀ e ∈ es, e.RefersToFields
  | .reset => True

/-- The event assigns the field a reference to a field of another type, and that is the target. -/
def Event.Assigns (t : RecordType) (field : String) (target : Target) : Event → Prop
  | .configure u es => u = t ∧ ∃ (i j : Nat) (v : RecordType),
      .binary .assign (.field i) (.constraint (.foreignKey (.ofField v j))) ∈ es ∧
      t.fieldName? i = some field ∧ v.tableName = target.table ∧ v.fieldName? j = some target.column
  | .reset => False

/-- A store whose entries come from a history of its type. -/
structure Sound (evs : List Event) (t : RecordType) (s : ConstraintStore) : Prop where
  marked_nodup : ∀ m, (s.marked m).Nodup
  keys_nodup : (s.foreignKeys.map Prod.fst).Nodup
  marked_mem : ∀ m, ∀ f ∈ s.marked m, f ∈ t.memberNames
  key_mem : ∀ k ∈ s.foreignKeys, k.1 ∈ t.memberNames
  assigned : ∀ k ∈ s.foreignKeys, ∃ ev ∈ evs, ev.Assigns t k.1 k.2

theorem sound_empty (evs : List Event) (t : RecordType) : Sound evs t .empty where
  marked_nodup m := by cases m <;> exact List.nodup_nil
  keys_nodup := List.nodup_nil
  marked_mem m f hf := by cases m <;> cases hf
  key_mem k hk := nomatch hk
  assigned k hk := nomatch hk

theorem Sound.mono {evs evs' : List Event} {t : RecordType} {s : ConstraintStore} (h : Sound evs t s)
    (hsub : evs ⊆ evs') : Sound evs' t s where
  marked_nodup := h.marked_nodup
  keys_nodup := h.keys_nodup
  marked_mem := h.marked_mem
  key_mem := h.key_mem
  assigned k hk :=
    have ⟨ev, hev, ha⟩ := h.assigned k hk
    ⟨ev, hsub hev, ha⟩

/-- An addition that a history of the type accounts for. -/
structure Licensed (evs : List Event) (t : RecordType) (x : Addition) : Prop where
  field : ∀ m f, x.field? m = some f → f ∈ t.memberNames
  key : ∀ k, x.key? = some k → k.1 ∈ t.memberNames ∧ ∃ ev ∈ evs, ev.Assigns t k.1 k.2

theorem sound_addAll {evs : List Event} {t : RecordType} {s : ConstraintStore} (h : Sound evs t s)
    {xs : List Addition} (hxs : ∀ x ∈ xs, Licensed evs t x) : Sound evs t (s.addAll xs) := by
  have hmarked : ∀ m, ∀ f ∈ (s.addAll xs).marked m, f ∈ s.marked m ∨ ∃ x ∈ xs, x.field? m = some f :=
    fun m f hf => (mem_marked_addAll.1 hf).imp_right List.mem_filterMap.1
  have hkeys : ∀ k ∈ (s.addAll xs).foreignKeys, k ∈ s.foreignKeys ∨ ∃ x ∈ xs, x.key? = some k := by
    intro k hk
    rw [foreignKeys_addAll, ← foldl_arrive] at hk
    exact (mem_foldl_arrive hk).imp_right List.mem_filterMap.1
  refine ⟨fun m => nodup_marked_addAll (h.marked_nodup m) xs, nodup_keys_addAll h.keys_nodup xs, fun m f hf => ?_,
    fun k hk => ?_, fun k hk => ?_⟩
  · rcases hmarked m f hf with hf | ⟨x, hx, hf⟩
    · exact h.marked_mem m f hf
    · exact (hxs x hx).field m f hf
  · rcases hkeys k hk with hk | ⟨x, hx, hk⟩
    · exact h.key_mem k hk
    · exact ((hxs x hx).key k hk).1
  · rcases hkeys k hk with hk | ⟨x, hx, hk⟩
    · exact h.assigned k hk
    · exact ((hxs x hx).key k hk).2

theorem mem_registered {t : RecordType} {es : List Expr} {x : Addition} (h : x ∈ registered t es) :
    ∃ e ∈ es, e.registration? t = some x := by
  induction es with
  | nil => cases h
  | cons e es ih =>
    rw [registered] at h
    split at h
    · next y hy =>
      rcases List.mem_cons.1 h with rfl | h
      · exact ⟨e, List.mem_cons_self .., hy⟩
      · obtain ⟨e', he', hx⟩ := ih h
        exact ⟨e', List.mem_cons_of_mem _ he', hx⟩
    · cases h

theorem licensed_of_mem_registered {evs : List Event} {t : RecordType} {es : List Expr}
    (hev : .configure t es ∈ evs) (hes : ∀ e ∈ es, e.RefersToFields) {x : Addition}
    (hx : x ∈ registered t es) : Licensed evs t x := by
  obtain ⟨e, he, hx⟩ := mem_registered hx
  refine ⟨fun m f hf => ?_, fun k hk => ?_⟩
  · rw [Expr.field?_of_registration hx] at hf
    exact Expr.mem_memberNames_of_assigned? hf
  · rw [Expr.key?_of_registration hx] at hk
    obtain ⟨i, r, rfl, hi, htable, hcolumn⟩ := Expr.reference?_eq_some hk
    obtain ⟨v, j, rfl⟩ := (hes _ he).2
    exact ⟨RecordType.mem_memberNames_of_fieldName? hi, _, hev, rfl, i, j, v, he, hi, htable, hcolumn⟩

theorem sound_step {evs : List Event} {r : Registry} (h : ∀ t, Sound evs t (r.constraints t)) {ev : Event}
    (hev : ev.RefersToFields) (t : RecordType) : Sound (evs ++ [ev]) t ((r.step ev).constraints t) := by
  have hold := (h t).mono (List.subset_append_left evs [ev])
  cases ev with
  | reset => exact sound_empty _ t
  | configure u es =>
    rw [step]
    cases hc : checkAll u es with
    | error x =>
      rw [configure_rejected hc]
      exact hold
    | ok =>
      rw [after_configure hc, constraints_withStore]
      split
      · next ht =>
        subst ht
        exact sound_addAll hold fun x hx =>
          licensed_of_mem_registered (List.mem_append_right _ (List.mem_singleton_self _)) hev hx
      · exact hold

theorem sound_run_from {past : List Event} {r : Registry} (h : ∀ t, Sound past t (r.constraints t))
    (evs : List Event) (hevs : ∀ ev ∈ evs, ev.RefersToFields) (t : RecordType) :
    Sound (past ++ evs) t ((evs.foldl step r).constraints t) := by
  induction evs generalizing past r with
  | nil => simpa using h t
  | cons ev evs ih =>
    rw [List.forall_mem_cons] at hevs
    have hnext := ih (fun t => sound_step h hevs.1 t) hevs.2
    rwa [List.append_assoc] at hnext

end Registry

/-- Every key of the definition is on columns that it defines. -/
def Table.HasKeyColumns (d : Table) : Prop :=
  d.primaryKey ⊆ d.columns.map Column.name ∧ d.foreignKeys.map ForeignKey.column ⊆ d.columns.map Column.name

namespace Registry

theorem Sound.hasKeyColumns {evs : List Event} {t : RecordType} {s : ConstraintStore} (h : Sound evs t s)
    (columnType : Kind → ColumnType) : (Table.ofRecordType t s columnType).HasKeyColumns := by
  have hnames : (Table.ofRecordType t s columnType).columns.map Column.name = t.memberNames := by
    simp [Table.ofRecordType, RecordType.memberNames]
  rw [Table.HasKeyColumns, hnames]
  refine ⟨h.marked_mem .primaryKey, fun f hf => ?_⟩
  obtain ⟨d, hd, rfl⟩ := List.mem_map.1 hf
  obtain ⟨k, hk, rfl⟩ := List.mem_map.1 hd
  exact h.key_mem k hk

/-- After any configurations and resets the store of every type is one that its history accounts for, so a table has
no key on a column that it does not define. -/
theorem sound_run (evs : List Event) (hevs : ∀ ev ∈ evs, ev.RefersToFields) (t : RecordType) :
    Sound evs t ((run evs).constraints t) ∧
    ∀ (columnType : Kind → ColumnType) (sql : String), (run evs).createSql t columnType = .ok sql →
      sql = (Table.ofRecordType t ((run evs).constraints t) columnType).sql ∧
      (Table.ofRecordType t ((run evs).constraints t) columnType).HasKeyColumns := by
  have hnew : ∀ u, Sound [] u (Registry.empty.constraints u) := sound_empty []
  have hs : Sound evs t ((run evs).constraints t) := sound_run_from hnew evs hevs t
  refine ⟨hs, fun columnType sql h => ?_⟩
  obtain ⟨_, -, hsql⟩ := bind_eq_ok.1 h
  cases hsql
  exact ⟨rfl, hs.hasKeyColumns columnType⟩

/-- A batch that fails late, for a table that is named twice, and one that begins anew. -/
def restarted : List Event :=
  [.configure halfRegistered lateBatch, .configure oldPlayer lateBatch, .reset, .configure player conflicting,
    .configure halfRegistered lateBatch]

theorem sound_run_restarted :
    (∀ ev ∈ restarted, ev.RefersToFields) ∧
    Sound restarted halfRegistered ((run restarted).constraints halfRegistered) ∧
    Sound restarted player ((run restarted).constraints player) ∧
    (run restarted).createSql player .ofKind = .ok ("CREATE TABLE IF NOT EXISTS Player (id INTEGER UNIQUE, " ++
      "name VARCHAR UNIQUE, team INTEGER, FOREIGN KEY (team) REFERENCES Player(id))") ∧
    (Table.ofRecordType player ((run restarted).constraints player) .ofKind).HasKeyColumns := by
  have hlate : ∀ e ∈ lateBatch, e.RefersToFields := by
    simp [lateBatch, Expr.RefersToFields]
  have hconflicting : ∀ e ∈ conflicting, e.RefersToFields := by
    simp only [conflicting, List.forall_mem_cons, Expr.RefersToFields]
    exact ⟨⟨trivial, trivial⟩, ⟨trivial, trivial⟩, ⟨trivial, trivial⟩, ⟨trivial, player, 0, rfl⟩,
      ⟨trivial, oldPlayer, 0, rfl⟩, nofun⟩
  have hall : ∀ ev ∈ restarted, ev.RefersToFields := by
    simp only [restarted, List.forall_mem_cons, Event.RefersToFields]
    exact ⟨hlate, hlate, trivial, hconflicting, hlate, nofun⟩
  obtain ⟨hplayer, hsql⟩ := sound_run restarted hall player
  exact ⟨hall, (sound_run restarted hall halfRegistered).1, hplayer, rfl, (hsql .ofKind _ rfl).2⟩

end Registry
end Rowmap
