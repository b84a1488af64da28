import Rowmap.Backend.Recorder
import Rowmap.Proofs.Reordering
import Rowmap.Session.Traffic

/-! What the statement that creates a table says while many sessions register constraints. The history of what
has happened accounts for the registry, and nothing that was registered is lost from it. The statement is
written by the registry of some earlier moment, but of one at which the creation's own batch was already
there; so it has all that the batch assigns, and of several references of one field the first. -/

namespace Rowmap

open ConstraintStore Registry

namespace Happening

def call? : Happening → Option Call
  | .configured t es _ => some ⟨t, es⟩
  | .sent _ _ => none

def references (t : RecordType) : Happening → List (String × Target)
  | .configured u es (.ok ()) => if u = t then es.filterMap (Expr.reference? t) else []
  | _ => []

def additions (t : RecordType) (h : Happening) : List Addition := h.call?.toList.flatMap (·.additions t)

def IsTrue : Happening → Prop
  | .configured t es o => o = Call.outcome ⟨t, es⟩ .empty
  | .sent _ _ => True

end Happening

/-- The registry that a history leaves. -/
def registryOf (history : List Happening) : Registry := afterCalls (history.filterMap Happening.call?)

/-- The first reference that was registered for a field. -/
def firstReference? (history : List Happening) (t : RecordType) (field : String) : Option Target :=
  (history.flatMap (Happening.references t)).lookup field

theorem registryOf_configured (history : List Happening) (t : RecordType) (es : List Expr)
    (o : Except Error Unit) : registryOf (history ++ [.configured t es o]) =
      Action.after (configure t es (registryOf history)) := by
  have hcall : [Happening.configured t es o].filterMap Happening.call? = [⟨t, es⟩] := rfl
  rw [registryOf, List.filterMap_append, hcall, afterCalls, run, List.map_append, List.foldl_append]
  rfl

theorem registryOf_sent (history : List Happening) (i : Nat) (sql : String) :
    registryOf (history ++ [.sent i sql]) = registryOf history := by
  have hcall : [Happening.sent i sql].filterMap Happening.call? = [] := rfl
  rw [registryOf, List.filterMap_append, hcall, List.append_nil, registryOf]

theorem constraints_registryOf (history : List Happening) (t : RecordType) :
    (registryOf history).constraints t = ConstraintStore.empty.addAll (history.flatMap (·.additions t)) := by
  rw [registryOf, constraints_afterCalls]
  congr 1
  induction history with
  | nil => rfl
  | cons h history ih =>
    rw [List.filterMap_cons, List.flatMap_cons, ← ih, Happening.additions]
    cases h.call? with
    | none => rfl
    | some c => simp

/-- What a later history leaves has grown from what an earlier one left. -/
theorem grows_registryOf {past history : List Happening} (h : past <+: history) (t : RecordType) :
    Grows ((registryOf past).constraints t) ((registryOf history).constraints t) := by
  obtain ⟨rest, rfl⟩ := h
  rw [constraints_registryOf, constraints_registryOf, List.flatMap_append, addAll_append]
  exact grows_addAll _ _

namespace Happening

theorem mem_additions_of_configured {history : List Happening} {t : RecordType} {es : List Expr}
    (htrue : (configured t es (.ok ())).IsTrue) (h : configured t es (.ok ()) ∈ history) {e : Expr}
    (he : e ∈ es) {x : Addition} (hx : e.registration? t = some x) : x ∈ history.flatMap (·.additions t) := by
  refine List.mem_flatMap.2 ⟨_, h, ?_⟩
  have hcall : (configured t es (.ok ())).additions t = Call.additions ⟨t, es⟩ t := List.append_nil _
  have hall : Call.additions ⟨t, es⟩ t = es.filterMap (Expr.registration? t) :=
    Call.additions_of_ok (c := ⟨t, es⟩) htrue.symm
  rw [hcall, hall]
  exact List.mem_filterMap.2 ⟨e, he, hx⟩

theorem filterMap_key?_additions {t : RecordType} (hd : t.declared ≤ t.fields.length) {h : Happening}
    (htrue : h.IsTrue) : (h.additions t).filterMap Addition.key? = h.references t := by
  cases h with
  | sent i sql => rfl
  | configured u es o =>
    have hcall : (configured u es o).additions t = Call.additions ⟨u, es⟩ t := List.append_nil _
    rw [hcall]
    cases o with
    | error x =>
      by_cases hu : u = t
      · subst hu
        rw [Call.additions_of_error htrue.symm hd]
        rfl
      · rw [Call.additions, if_neg hu]
        rfl
    | ok =>
      by_cases hu : u = t
      · subst hu
        have hall : Call.additions ⟨u, es⟩ u = es.filterMap (Expr.registration? u) :=
          Call.additions_of_ok (c := ⟨u, es⟩) htrue.symm
        rw [hall, List.filterMap_filterMap, references, if_pos rfl]
        congr 1
        funext e
        exact Expr.bind_registration_key? u e
      · rw [Call.additions, if_neg hu, references, if_neg hu]
        rfl

end Happening

/-- A field's key in the registry is the first that was registered for it. -/
theorem foreignKey?_registryOf {history : List Happening} (htrue : ∀ h ∈ history, h.IsTrue) {t : RecordType}
    (hd : t.declared ≤ t.fields.length) (f : String) :
    ((registryOf history).constraints t).foreignKey? f = firstReference? history t f := by
  rw [constraints_registryOf, foreignKey?_addAll_empty, firstReference?, List.filterMap_flatMap]
  congr 1
  induction history with
  | nil => rfl
  | cons h history ih =>
    rw [List.forall_mem_cons] at htrue
    rw [List.flatMap_cons, List.flatMap_cons, ih htrue.2, Happening.filterMap_key?_additions hd htrue.1]

theorem firstReference?_of_prefix {past history : List Happening} (h : past <+: history) {t : RecordType}
    {f : String} {k : Target} (hk : firstReference? past t f = some k) :
    firstReference? history t f = some k := by
  obtain ⟨rest, rfl⟩ := h
  rw [firstReference?, List.flatMap_append, List.lookup_append]
  rw [firstReference?] at hk
  rw [hk]
  rfl

/-- The batch has been registered, if there is anything in it. -/
def Registered (past : List Happening) (t : RecordType) (es : List Expr) : Prop :=
  es = [] ∨ .configured t es (.ok ()) ∈ past

/-- The statement is by the registry of some moment at which the batch had been registered. -/
def Written (history : List Happening) (t : RecordType) (es : List Expr) (sql : String) : Prop :=
  ∃ past columnType, past <+: history ∧ Registered past t es ∧
    (registryOf past).createSql t columnType = .ok sql

/-- What a creation relies on at its stage. -/
def Creation.Prepared (history : List Happening) (k : Creation) : Prop :=
  match k.stage with
  | .registering | .finished _ => True
  | .waiting | .holding => Registered history k.type k.batch
  | .written sql => Written history k.type k.batch sql

theorem Registered.mono {past history : List Happening} (h : past <+: history) {t : RecordType}
    {es : List Expr} (hr : Registered past t es) : Registered history t es := hr.imp_right (h.subset ·)

theorem Written.mono {past history : List Happening} (h : past <+: history) {t : RecordType} {es : List Expr}
    {sql : String} (hw : Written past t es sql) : Written history t es sql := by
  obtain ⟨moment, columnType, hmoment, hr, hsql⟩ := hw
  exact ⟨moment, columnType, hmoment.trans h, hr, hsql⟩

theorem Creation.Prepared.mono {past history : List Happening} (h : past <+: history) {k : Creation}
    (hk : k.Prepared past) : k.Prepared history := by
  unfold Prepared at hk ⊢
  cases hs : k.stage with
  | registering => trivial
  | finished o => trivial
  | waiting =>
    rw [hs] at hk
    exact Registered.mono h hk
  | holding =>
    rw [hs] at hk
    exact Registered.mono h hk
  | written sql =>
    rw [hs] at hk
    exact Written.mono h hk

namespace Traffic

variable {β : Type}

/-- The history accounts for the registry, and for what is under way and has been sent. -/
structure Recorded (w : Traffic β) : Prop where
  registry : w.registry = registryOf w.history
  told : ∀ h ∈ w.history, h.IsTrue
  prepared : ∀ (i : Nat) k, w.creations[i]? = some k → k.Prepared w.history
  sent : ∀ i sql, .sent i sql ∈ w.history →
    ∃ k, w.creations[i]? = some k ∧ Written w.history k.type k.batch sql

theorem recorded_new (connections : List β) (sessions : List Nat) : Recorded (new connections sessions) where
  registry := rfl
  told h hh := nomatch hh
  prepared i k hk := by simp [new] at hk
  sent i sql h := nomatch h

theorem Recorded.same {w w' : Traffic β} (h : Recorded w) (hr : w'.registry = w.registry)
    (hc : w'.creations = w.creations) (hh : w'.history = w.history) : Recorded w' where
  registry := by rw [hr, hh, h.registry]
  told := hh ▸ h.told
  prepared := hc ▸ hh ▸ h.prepared
  sent := hc ▸ hh ▸ h.sent

theorem recorded_configure {w : Traffic β} (h : Recorded w) (t : RecordType) (es : List Expr) :
    Recorded (w.configure t es) := by
  have hlonger : w.history <+: (w.configure t es).history := List.prefix_append _ _
  constructor
  case registry =>
    show Action.after (Registry.configure t es w.registry) = _
    rw [h.registry]
    exact (registryOf_configured _ t es _).symm
  case told =>
    intro x hx
    rcases List.mem_append.1 hx with hx | hx
    · exact h.told x hx
    · rw [List.mem_singleton.1 hx]
      exact Call.outcome_eq ⟨t, es⟩ _ _
  case prepared =>
    intro i k hk
    exact (h.prepared i k hk).mono hlonger
  case sent =>
    intro i sql hs
    rcases List.mem_append.1 hs with hs | hs
    · obtain ⟨k, hk, hw⟩ := h.sent i sql hs
      exact ⟨k, hk, hw.mono hlonger⟩
    · cases List.mem_singleton.1 hs

theorem recorded_add {w : Traffic β} (h : Recorded w) {k : Creation} (hk : k.Prepared w.history) :
    Recorded (w.add k) := by
  constructor
  case registry => exact h.registry
  case told => exact h.told
  case prepared =>
    intro i k' hk'
    change (w.creations ++ [k])[i]? = some k' at hk'
    rcases Nat.lt_or_ge i w.creations.length with hi | hi
    · rw [List.getElem?_append_left hi] at hk'
      exact h.prepared i k' hk'
    · rw [List.getElem?_append_right hi] at hk'
      rw [List.mem_singleton.1 (List.mem_of_getElem? hk')]
      exact hk
  case sent =>
    intro i sql hs
    obtain ⟨k', hk', hw⟩ := h.sent i sql hs
    refine ⟨k', ?_, hw⟩
    show (w.creations ++ [k])[i]? = some k'
    rw [List.getElem?_append_left (List.getElem?_eq_some_iff.1 hk').1, hk']

theorem recorded_begin {w : Traffic β} (h : Recorded w) (session : Nat) {k : Nat → Creation}
    (hk : ∀ c, (k c).Prepared w.history) : Recorded (w.begin session k) := by
  unfold begin
  split
  · next c hc => exact recorded_add h (hk c)
  · exact h

theorem getElem?_setStage (w : Traffic β) (i j : Nat) (s : Creation.Stage) :
    (w.setStage i s).creations[j]? =
      w.creations[j]?.map fun k => if i = j then { k with stage := s } else k := by
  rw [setStage, List.getElem?_modify]
  rfl

theorem recorded_setStage {w : Traffic β} (h : Recorded w) {i : Nat} {k : Creation}
    (hk : w.creations[i]? = some k) {s : Creation.Stage}
    (hs : Creation.Prepared w.history { k with stage := s }) : Recorded (w.setStage i s) := by
  constructor
  case registry => exact h.registry
  case told => exact h.told
  case prepared =>
    intro j k' hk'
    rw [getElem?_setStage] at hk'
    obtain ⟨old, hold, rfl⟩ := Option.map_eq_some_iff.1 hk'
    by_cases hij : i = j
    · subst hij
      cases hk.symm.trans hold
      rw [if_pos rfl]
      exact hs
    · rw [if_neg hij]
      exact h.prepared j old hold
  case sent =>
    intro j sql hsent
    obtain ⟨k', hk', hw⟩ := h.sent j sql hsent
    refine ⟨_, by rw [getElem?_setStage, hk']; rfl, ?_⟩
    split <;> exact hw

theorem recorded_register {w : Traffic β} (h : Recorded w) {i : Nat} {k : Creation}
    (hk : w.creations[i]? = some k) : Recorded (w.register i k) := by
  unfold register
  have hnext := recorded_configure h k.type k.batch
  cases ho : Action.outcome (Registry.configure k.type k.batch w.registry) with
  | error e =>
    apply recorded_setStage hnext hk
    trivial
  | ok =>
    apply recorded_setStage hnext hk
    have hlast : Happening.configured k.type k.batch (.ok ()) ∈ (w.configure k.type k.batch).history := by
      rw [← ho]
      exact List.mem_append_right _ (List.mem_singleton_self _)
    exact Or.inr hlast

variable [Backend β]

theorem recorded_write {w : Traffic β} (h : Recorded w) {i : Nat} {k : Creation}
    (hk : w.creations[i]? = some k) (hr : Registered w.history k.type k.batch) :
    Recorded (w.write i k) := by
  unfold write
  split
  · next b hb =>
    apply recorded_setStage h hk
    cases hsql : w.registry.createSql k.type (Backend.columnType b) with
    | error e => trivial
    | ok sql =>
      rw [h.registry] at hsql
      exact ⟨w.history, Backend.columnType b, List.prefix_refl _, hr, hsql⟩
  · exact h

theorem recorded_deliver {w : Traffic β} (h : Recorded w) {i : Nat} {k : Creation}
    (hk : w.creations[i]? = some k) {sql : String} (hw : Written w.history k.type k.batch sql) (c : Nat)
    (b : β) : Recorded (w.deliver i c b sql) := by
  have hlonger : w.history <+: (w.deliver i c b sql).history := List.prefix_append _ _
  constructor
  case registry =>
    rw [deliver, registryOf_sent]
    exact h.registry
  case told =>
    intro x hx
    rcases List.mem_append.1 hx with hx | hx
    · exact h.told x hx
    · rw [List.mem_singleton.1 hx]
      trivial
  case prepared =>
    intro j k' hk'
    exact (h.prepared j k' hk').mono hlonger
  case sent =>
    intro j sql' hs
    rcases List.mem_append.1 hs with hs | hs
    · obtain ⟨k', hk', hw'⟩ := h.sent j sql' hs
      exact ⟨k', hk', hw'.mono hlonger⟩
    · cases List.mem_singleton.1 hs
      exact ⟨k, hk, hw.mono hlonger⟩

theorem recorded_send {w : Traffic β} (h : Recorded w) {i : Nat} {k : Creation}
    (hk : w.creations[i]? = some k) {sql : String} (hw : Written w.history k.type k.batch sql) :
    Recorded (w.send i k sql) := by
  unfold send
  split
  · next b hb =>
    apply recorded_setStage (recorded_deliver h hk hw k.connection b) hk
    trivial
  · exact h

theorem recorded_advance {w : Traffic β} (h : Recorded w) (i : Nat) : Recorded (w.advance i) := by
  unfold advance
  split
  · exact h
  · next k hk =>
    have hprepared := h.prepared i k hk
    unfold Creation.Prepared at hprepared
    cases hs : k.stage with
    | registering => exact recorded_register h hk
    | waiting =>
      rw [hs] at hprepared
      dsimp only
      split
      · exact h
      · exact recorded_setStage h hk hprepared
    | holding =>
      rw [hs] at hprepared
      exact recorded_write h hk hprepared
    | written sql =>
      rw [hs] at hprepared
      exact recorded_send h hk hprepared
    | finished o => exact h

theorem recorded_step {w : Traffic β} (h : Recorded w) (e : Event β) : Recorded (w.step e) := by
  cases e with
  | copy s =>
    simp only [step]
    split
    · exact h.same rfl rfl rfl
    · exact h
  | join b => exact h.same rfl rfl rfl
  | configure t es => exact recorded_configure h t es
  | create s t => exact recorded_begin h s fun c => Or.inl rfl
  | createWith s t es => exact recorded_begin h s fun c => trivial
  | advance i => exact recorded_advance h i
  | use s f =>
    simp only [step]
    split
    · split
      · exact h
      · exact h.same rfl rfl rfl
    · exact h

theorem recorded_run {w : Traffic β} (h : Recorded w) (evs : List (Event β)) : Recorded (w.run evs) := by
  induction evs generalizing w with
  | nil => exact h
  | cons e evs ih => exact ih (recorded_step h e)

theorem history_prefix_step (w : Traffic β) (e : Event β) : w.history <+: (w.step e).history := by
  have hsame : w.history <+: w.history := List.prefix_refl _
  cases e with
  | configure t es => exact List.prefix_append _ _
  | advance i =>
    simp only [step, advance]
    split
    · exact hsame
    · next k hk =>
      split
      · exact List.prefix_append _ _
      · split <;> exact hsame
      · unfold write
        split <;> exact hsame
      · unfold send
        split
        · exact List.prefix_append _ _
        · exact hsame
      · exact hsame
  | join b => exact hsame
  | copy s => simp only [step]; split <;> exact hsame
  | create s t => simp only [step, begin]; split <;> exact hsame
  | createWith s t es => simp only [step, begin]; split <;> exact hsame
  | use s f =>
    simp only [step]
    split
    · split <;> exact hsame
    · exact hsame

theorem history_prefix_run (w : Traffic β) (evs : List (Event β)) : w.history <+: (w.run evs).history := by
  induction evs generalizing w with
  | nil => exact List.prefix_refl _
  | cons e evs ih => exact (history_prefix_step w e).trans (ih _)

end Traffic

namespace Table

/-- There are columns of the name, and they all have the flag. -/
def Marks (d : Table) (flag : Column → Bool) (name : String) : Prop :=
  (∃ c ∈ d.columns, c.name = name) ∧ ∀ c ∈ d.columns, c.name = name → flag c = true

theorem marks_ofRecordType {t : RecordType} {s : ConstraintStore} {columnType : Kind → ColumnType}
    {flag : Column → Bool} {name : String} (hname : name ∈ t.memberNames)
    (hflag : ∀ f : Field, f.name = name →
      flag ⟨f.name, columnType f.kind, s.isNotNull f.name, s.isUnique f.name⟩ = true) :
    (ofRecordType t s columnType).Marks flag name := by
  constructor
  · obtain ⟨f, hf, rfl⟩ := List.mem_map.1 hname
    exact ⟨_, List.mem_map_of_mem hf, rfl⟩
  · intro c hc hcn
    obtain ⟨f, hf, rfl⟩ := List.mem_map.1 hc
    exact hflag f hcn

theorem filter_key_of_lookup {α : Type} {ks : List (String × α)} (hd : (ks.map Prod.fst).Nodup) {f : String}
    {a : α} (h : ks.lookup f = some a) : ks.filter (fun k => k.1 = f) = [(f, a)] := by
  induction ks with
  | nil => cases h
  | cons k ks ih =>
    obtain ⟨g, b⟩ := k
    rw [List.map_cons, List.nodup_cons] at hd
    rw [List.lookup_cons] at h
    by_cases hg : f = g
    · subst hg
      rw [beq_self_eq_true] at h
      cases h
      rw [List.filter_cons_of_pos (by simp), List.filter_eq_nil_iff.2]
      intro k hk hkf
      exact hd.1 (List.mem_map.2 ⟨k, hk, by simpa using hkf⟩)
    · rw [beq_false_of_ne hg] at h
      rw [List.filter_cons_of_neg (by simpa using Ne.symm hg)]
      exact ih hd.2 h

/-- The definition has what a batch assigns to the fields of a type, and one clause for every field that the
batch makes a foreign key, with the first reference that was registered for it. -/
structure Carries (d : Table) (t : RecordType) (es : List Expr) (history : List Happening) : Prop where
  notNull : ∀ e ∈ es, ∀ f, e.assigned? t .notNull = some f → d.Marks Column.notNull f
  unique : ∀ e ∈ es, ∀ f, e.assigned? t .unique = some f → d.Marks Column.unique f
  primaryKey : ∀ e ∈ es, ∀ f, e.assigned? t .primaryKey = some f → f ∈ d.primaryKey
  foreignKey : ∀ e ∈ es, ∀ f k, e.reference? t = some (f, k) → ∃ first,
    firstReference? history t f = some first ∧
      d.foreignKeys.filter (fun c => c.column = f) = [⟨f, first.table, first.column⟩]

end Table

theorem Registered.mem_marked {past : List Happening} (htrue : ∀ h ∈ past, h.IsTrue) {t : RecordType}
    {es : List Expr} (hr : Registered past t es) {e : Expr} (he : e ∈ es) {m : Mark} {f : String}
    (hf : e.assigned? t m.constraint = some f) : f ∈ ((registryOf past).constraints t).marked m := by
  rcases hr with rfl | hr
  · cases he
  · rw [← Expr.bind_registration_field?] at hf
    obtain ⟨x, hx, hxf⟩ := Option.bind_eq_some_iff.1 hf
    have hadded := Happening.mem_additions_of_configured (htrue _ hr) hr he hx
    rw [constraints_registryOf, mem_marked_addAll]
    exact Or.inr (List.mem_filterMap.2 ⟨x, hadded, hxf⟩)

theorem Registered.firstReference {past : List Happening} {t : RecordType} {es : List Expr}
    (hr : Registered past t es) {e : Expr} (he : e ∈ es) {f : String} {k : Target}
    (hk : e.reference? t = some (f, k)) : ∃ first, firstReference? past t f = some first := by
  rcases hr with rfl | hr
  · cases he
  · rw [← Option.isSome_iff_exists, firstReference?, List.lookup_isSome_iff]
    refine ⟨(f, k), List.mem_flatMap.2 ⟨_, hr, ?_⟩, beq_self_eq_true f⟩
    rw [Happening.references, if_pos rfl]
    exact List.mem_filterMap.2 ⟨e, he, hk⟩

theorem carries_of_registered {past history : List Happening} (hpast : past <+: history)
    (htrue : ∀ h ∈ past, h.IsTrue) {t : RecordType} (hd : t.declared ≤ t.fields.length) {es : List Expr}
    (hr : Registered past t es) (columnType : Kind → ColumnType) :
    (Table.ofRecordType t ((registryOf past).constraints t) columnType).Carries t es history := by
  constructor
  case notNull =>
    intro e he f hf
    apply Table.marks_ofRecordType (Expr.mem_memberNames_of_assigned? hf)
    rintro g rfl
    exact decide_eq_true (hr.mem_marked (m := .notNull) htrue he hf)
  case unique =>
    intro e he f hf
    apply Table.marks_ofRecordType (Expr.mem_memberNames_of_assigned? hf)
    rintro g rfl
    exact decide_eq_true (hr.mem_marked (m := .unique) htrue he hf)
  case primaryKey =>
    intro e he f hf
    exact hr.mem_marked (m := .primaryKey) htrue he hf
  case foreignKey =>
    intro e he f k hk
    obtain ⟨first, hfirst⟩ := hr.firstReference he hk
    refine ⟨first, firstReference?_of_prefix hpast hfirst, ?_⟩
    have hkey := foreignKey?_registryOf htrue hd f
    rw [hfirst] at hkey
    have hnodup : (((registryOf past).constraints t).foreignKeys.map Prod.fst).Nodup := by
      rw [constraints_registryOf]
      exact nodup_keys_addAll (s := ConstraintStore.empty) List.nodup_nil _
    have hone := Table.filter_key_of_lookup hnodup hkey
    have hcolumn : (fun c : ForeignKey => decide (c.column = f)) ∘
        (fun k : String × Target => (⟨k.1, k.2.table, k.2.column⟩ : ForeignKey)) = fun k => decide (k.1 = f) := rfl
    simp only [Table.ofRecordType, List.filter_map, hcolumn, hone, List.map_cons, List.map_nil]

namespace Traffic

variable {β : Type} [Backend β]

/-- However the steps of the sessions fall, a creation that sends its statement sends what the registry gave at some
moment before, with all that its batch assigns and the first reference of each of its foreign keys. -/
theorem sent_carries (connections : List β) (sessions : List Nat) (evs : List (Event β)) :
    let w := (new connections sessions).run evs
    (∀ i sql, .sent i sql ∈ w.history → ∃ k d, w.creations[i]? = some k ∧ sql = d.sql ∧
      (∃ past columnType, past <+: w.history ∧
        d = Table.ofRecordType k.type ((registryOf past).constraints k.type) columnType) ∧
      d.Carries k.type k.batch w.history) ∧
    (∀ t es, .configured t es (.ok ()) ∈ w.history → ∀ e ∈ es, ∀ x, e.registration? t = some x →
      (w.registry.constraints t).lacks x = false) ∧
    ∀ later t, Grows (w.registry.constraints t) ((w.run later).registry.constraints t) := by
  intro w
  have h : Recorded w := recorded_run (recorded_new connections sessions) evs
  refine ⟨?_, ?_, ?_⟩
  · intro i sql hs
    obtain ⟨k, hk, past, columnType, hpast, hr, hsql⟩ := h.sent i sql hs
    obtain ⟨hcheck, rfl⟩ := RecordType.createSql_eq_ok_iff.1 hsql
    have hd := Nat.le_of_eq (RecordType.checkMembers_eq_ok_iff.1 hcheck).1.symm
    have htrue : ∀ h ∈ past, h.IsTrue := fun x hx => h.told x (hpast.subset hx)
    exact ⟨k, _, hk, rfl, ⟨past, columnType, hpast, rfl⟩, carries_of_registered hpast htrue hd hr columnType⟩
  · intro t es hc e he x hx
    rw [h.registry, constraints_registryOf]
    exact lacks_of_mem_addAll (Happening.mem_additions_of_configured (h.told _ hc) hc he hx) _
  · intro later t
    rw [h.registry, (recorded_run h later).registry]
    exact grows_registryOf (history_prefix_run w later) t

/-- Two sessions create the table of the same type on connections of their own, with references in conflict, and
another batch comes while the first of them waits. -/
def crossing : List (Event Recorder) :=
  [.createWith 0 player [.binary .assign (.field 2) (.constraint (.foreignKey (.ofField player 0)))],
    .advance 0,
    .configure player [.binary .assign (.field 1) (.constraint .unique)],
    .createWith 1 player [.binary .assign (.field 2) (.constraint (.foreignKey (.ofField oldPlayer 0)))],
    .advance 1, .advance 1, .advance 0, .advance 0, .advance 1, .advance 1, .advance 0]

def recorders : List Recorder := [{ number := 0, typed := false }, { number := 1, typed := true }]

def playerSql : String :=
  "CREATE TABLE IF NOT EXISTS Player (id INTEGER, name VARCHAR UNIQUE, team INTEGER, " ++
    "FOREIGN KEY (team) REFERENCES Player(id))"

/-- The second session sends the reference of the first. -/
theorem sent_carries_crossing :
    .sent 1 playerSql ∈ ((new recorders [0, 1]).run crossing).history ∧
    ∃ d : Table, playerSql = d.sql ∧
      d.foreignKeys.filter (fun c => c.column = "team") = [⟨"team", "Player", "id"⟩] := by
  have hsent : .sent 1 playerSql ∈ ((new recorders [0, 1]).run crossing).history :=
    List.mem_of_getElem? (i := 3) rfl
  obtain ⟨hcarries, -, -⟩ := sent_carries recorders [0, 1] crossing
  obtain ⟨k, d, hk, hsql, -, hd⟩ := hcarries 1 playerSql hsent
  cases hk
  obtain ⟨first, hfirst, hkeys⟩ := hd.foreignKey _ (List.mem_singleton_self _) "team" ⟨"Player", "key"⟩ rfl
  cases hfirst
  exact ⟨hsent, d, hsql, hkeys⟩

end Traffic
end Rowmap
