import Rowmap.Proofs.Provenance

/-! The same configurations in another order. What a call comes to has nothing to do with the calls before
it, and neither has what it adds. So in whatever order the calls are made, every type ends with the same names
under each mark and with foreign keys on the same fields. The order decides in which order the names stand,
and which reference a field keeps that was given several. -/

namespace Rowmap

open ConstraintStore

namespace ConstraintStore

theorem marked_addAll_perm {xs ys : List Addition} (h : xs.Perm ys) (m : Mark) :
    ((empty.addAll xs).marked m).Perm ((empty.addAll ys).marked m) := by
  have hnew : (empty.marked m).Nodup := by
    rw [marked_empty]
    exact List.nodup_nil
  apply (List.perm_ext_iff_of_nodup (nodup_marked_addAll hnew xs) (nodup_marked_addAll hnew ys)).2
  intro f
  rw [mem_marked_addAll, mem_marked_addAll, (h.filterMap _).mem_iff]

theorem columns_eq_of_marked_perm {s s' : ConstraintStore} (h : ∀ m, (s.marked m).Perm (s'.marked m))
    (t : RecordType) (columnType : Kind → ColumnType) :
    (Table.ofRecordType t s columnType).columns = (Table.ofRecordType t s' columnType).columns := by
  have hnull : ∀ f, s.isNotNull f = s'.isNotNull f := by
    intro f
    rw [isNotNull, isNotNull, decide_eq_decide]
    exact (h .notNull).mem_iff
  have hunique : ∀ f, s.isUnique f = s'.isUnique f := by
    intro f
    rw [isUnique, isUnique, decide_eq_decide]
    exact (h .unique).mem_iff
  simp only [Table.ofRecordType, hnull, hunique]

end ConstraintStore

section Lookup

variable {α : Type} {ks ls : List (String × α)} {f : String}

theorem isSome_lookup_of_perm (h : ks.Perm ls) (f : String) :
    (ks.lookup f).isSome = (ls.lookup f).isSome := by
  rw [Bool.eq_iff_iff, List.lookup_isSome_iff, List.lookup_isSome_iff]
  exact exists_congr fun p => and_congr_left' h.mem_iff

/-- What is found under a key does not depend on the order if only one thing can be found there. -/
theorem lookup_eq_of_perm (h : ks.Perm ls) (hone : ∀ a b, (f, a) ∈ ks → (f, b) ∈ ks → a = b) :
    ks.lookup f = ls.lookup f := by
  have hsome := isSome_lookup_of_perm h f
  cases hk : ks.lookup f with
  | none =>
    rw [hk] at hsome
    exact (Option.not_isSome_iff_eq_none.1 (by simp [← hsome])).symm
  | some a =>
    rw [hk] at hsome
    obtain ⟨b, hb⟩ := Option.isSome_iff_exists.1 hsome.symm
    rw [hb, hone a b (mem_of_lookup hk) (h.mem_iff.2 (mem_of_lookup hb))]

end Lookup

namespace Registry

structure Call where
  type : RecordType
  batch : List Expr

namespace Call

def event (c : Call) : Event := .configure c.type c.batch

def outcome (c : Call) (r : Registry) : Except Error Unit := Action.outcome (configure c.type c.batch r)

/-- What the call adds to the store of a type. -/
def additions (c : Call) (t : RecordType) : List Addition :=
  if c.type = t then
    match checkAll c.type c.batch with
    | .ok () => registered c.type c.batch
    | .error _ => []
  else []

def Refers (c : Call) (t : RecordType) (k : String × Target) : Prop :=
  c.type = t ∧ ∃ e ∈ c.batch, e.reference? t = some k

end Call

def afterCalls (calls : List Call) : Registry := run (calls.map Call.event)

theorem outcome_assignAll {t : RecordType} {es : List Expr} (h : checkAll t es = .ok ())
    (s s' : ConstraintStore) : Action.outcome (assignAll t es s) = Action.outcome (assignAll t es s') := by
  rw [checkAll_eq_ok_iff] at h
  induction es generalizing s s' with
  | nil => rfl
  | cons e es ih =>
    rw [List.forall_mem_cons] at h
    rcases Expr.registration_cases h.1 with ⟨x, hx⟩ | ⟨-, i, c, rfl, hi, -⟩
    · rw [assignAll_cons hx, assignAll_cons hx]
      exact ih h.2 _ _
    · rw [assignAll_unregistered hi, assignAll_unregistered hi]
      rfl

/-- Nothing in a registry makes a call succeed or fail. -/
theorem Call.outcome_eq (c : Call) (r r' : Registry) : c.outcome r = c.outcome r' := by
  unfold outcome
  cases h : checkAll c.type c.batch with
  | error x =>
    rw [configure_rejected h, configure_rejected h]
    rfl
  | ok =>
    rw [configure_checked h, configure_checked h, Action.outcome_on, Action.outcome_on]
    exact outcome_assignAll h _ _

theorem registered_of_ok {t : RecordType} {es : List Expr} {s : ConstraintStore}
    (hc : checkAll t es = .ok ()) (h : Action.outcome (assignAll t es s) = .ok ()) :
    registered t es = es.filterMap (Expr.registration? t) := by
  rw [checkAll_eq_ok_iff] at hc
  induction es generalizing s with
  | nil => rfl
  | cons e es ih =>
    rw [List.forall_mem_cons] at hc
    rcases Expr.registration_cases hc.1 with ⟨x, hx⟩ | ⟨-, i, c, rfl, hi, -⟩
    · rw [assignAll_cons hx] at h
      simp only [registered, hx, List.filterMap_cons, ih hc.2 h]
    · rw [assignAll_unregistered hi] at h
      cases h

theorem Call.additions_of_ok {c : Call} {r : Registry} (h : c.outcome r = .ok ()) :
    c.additions c.type = c.batch.filterMap (Expr.registration? c.type) := by
  unfold outcome at h
  rw [additions, if_pos rfl]
  cases hc : checkAll c.type c.batch with
  | error x =>
    rw [configure_rejected hc] at h
    cases h
  | ok =>
    rw [configure_checked hc, Action.outcome_on] at h
    exact registered_of_ok hc h

/-- One that fails adds nothing, if its type has all its declared fields. -/
theorem Call.additions_of_error {c : Call} {r : Registry} {x : Error} (h : c.outcome r = .error x)
    (hd : c.type.declared ≤ c.type.fields.length) (t : RecordType) : c.additions t = [] := by
  unfold outcome at h
  rw [additions]
  cases hc : checkAll c.type c.batch with
  | error y => split <;> rfl
  | ok =>
    rw [configure_ok hc hd] at h
    cases h

theorem constraints_step_event (r : Registry) (c : Call) (t : RecordType) :
    (r.step c.event).constraints t = (r.constraints t).addAll (c.additions t) := by
  rw [Call.event, step, Call.additions]
  cases h : checkAll c.type c.batch with
  | error x =>
    rw [configure_rejected h]
    split <;> rfl
  | ok =>
    rw [after_configure h, constraints_withStore]
    by_cases ht : t = c.type
    · subst ht
      rw [if_pos rfl, if_pos rfl]
    · rw [if_neg ht, if_neg (Ne.symm ht)]
      rfl

theorem constraints_foldl_event (r : Registry) (calls : List Call) (t : RecordType) :
    ((calls.map Call.event).foldl step r).constraints t =
      (r.constraints t).addAll (calls.flatMap (·.additions t)) := by
  induction calls generalizing r with
  | nil => rfl
  | cons c calls ih =>
    rw [List.map_cons, List.foldl_cons, ih, constraints_step_event, List.flatMap_cons, addAll_append]

theorem constraints_afterCalls (calls : List Call) (t : RecordType) :
    (afterCalls calls).constraints t = ConstraintStore.empty.addAll (calls.flatMap (·.additions t)) :=
  constraints_foldl_event .empty calls t

theorem Call.refers_of_mem_additions {c : Call} {t : RecordType} {x : Addition} (hx : x ∈ c.additions t)
    {k : String × Target} (hk : x.key? = some k) : c.Refers t k := by
  unfold additions at hx
  split at hx
  · next ht =>
    subst ht
    split at hx
    · obtain ⟨e, he, hreg⟩ := mem_registered hx
      refine ⟨rfl, e, he, ?_⟩
      rw [← Expr.key?_of_registration hreg]
      exact hk
    · cases hx
  · cases hx

theorem Call.refers_of_mem_keys {calls : List Call} {t : RecordType} {k : String × Target}
    (hk : k ∈ (calls.flatMap (·.additions t)).filterMap Addition.key?) : ∃ c ∈ calls, c.Refers t k := by
  obtain ⟨x, hx, hkey⟩ := List.mem_filterMap.1 hk
  obtain ⟨c, hc, hxc⟩ := List.mem_flatMap.1 hx
  exact ⟨c, hc, refers_of_mem_additions hxc hkey⟩

/-- Two stores of a type that calls have left in different orders. -/
structure Reordered (calls : List Call) (t : RecordType) (s s' : ConstraintStore) : Prop where
  marked : ∀ m, (s.marked m).Perm (s'.marked m)
  keyed : ∀ f, (s.foreignKey? f).isSome = (s'.foreignKey? f).isSome
  references : ∀ f, (∀ c ∈ calls, ∀ c' ∈ calls, ∀ k k', c.Refers t (f, k) → c'.Refers t (f, k') → k = k') →
    s.foreignKey? f = s'.foreignKey? f
  columns : ∀ columnType, (Table.ofRecordType t s columnType).columns =
    (Table.ofRecordType t s' columnType).columns

/-- A call comes to the same whatever was called before it. Calls made in another order leave every type the same but
for the order of its names and for references that were in conflict. -/
theorem afterCalls_perm {calls calls' : List Call} (h : calls.Perm calls') :
    (∀ (c : Call) (before before' : List Call), c.outcome (afterCalls before) = c.outcome (afterCalls before')) ∧
    ∀ t, Reordered calls t ((afterCalls calls).constraints t) ((afterCalls calls').constraints t) := by
  constructor
  · intro c before before'
    apply Call.outcome_eq
  · intro t
    have hadded : (calls.flatMap (·.additions t)).Perm (calls'.flatMap (·.additions t)) := h.flatMap_right _
    have hkeys := hadded.filterMap Addition.key?
    have hmarked : ∀ m, (((afterCalls calls).constraints t).marked m).Perm
        (((afterCalls calls').constraints t).marked m) := by
      intro m
      rw [constraints_afterCalls, constraints_afterCalls]
      exact marked_addAll_perm hadded m
    constructor
    case marked => exact hmarked
    case keyed =>
      intro f
      rw [constraints_afterCalls, constraints_afterCalls, foreignKey?_addAll_empty, foreignKey?_addAll_empty]
      exact isSome_lookup_of_perm hkeys f
    case references =>
      intro f hone
      rw [constraints_afterCalls, constraints_afterCalls, foreignKey?_addAll_empty, foreignKey?_addAll_empty]
      apply lookup_eq_of_perm hkeys
      intro a b ha hb
      obtain ⟨c, hc, hca⟩ := Call.refers_of_mem_keys ha
      obtain ⟨c', hc', hcb⟩ := Call.refers_of_mem_keys hb
      exact hone c hc c' hc' a b hca hcb
    case columns => exact columns_eq_of_marked_perm hmarked t

/-- The calls disagree about the field `team`, and only one of them refers from the field `id`. -/
def rivals : List Call :=
  [⟨player, [.binary .assign (.field 1) (.constraint .unique),
      .binary .assign (.field 2) (.constraint (.foreignKey (.ofField player 0)))]⟩,
    ⟨player, [.binary .assign (.field 0) (.constraint .unique),
      .binary .assign (.field 2) (.constraint (.foreignKey (.ofField oldPlayer 0))),
      .binary .assign (.field 0) (.constraint (.foreignKey (.ofField oldPlayer 0)))]⟩]

theorem afterCalls_perm_rivals :
    rivals.Perm rivals.reverse ∧
    (∀ c ∈ rivals, c.outcome (afterCalls rivals) = .ok ()) ∧
    ((afterCalls rivals).constraints player).unique = ["name", "id"] ∧
    ((afterCalls rivals.reverse).constraints player).unique = ["id", "name"] ∧
    ((afterCalls rivals).constraints player).unique.Perm
      ((afterCalls rivals.reverse).constraints player).unique ∧
    ((afterCalls rivals).constraints player).foreignKey? "team" = some ⟨"Player", "id"⟩ ∧
    ((afterCalls rivals.reverse).constraints player).foreignKey? "team" = some ⟨"Player", "key"⟩ ∧
    ((afterCalls rivals).constraints player).foreignKey? "id" =
      ((afterCalls rivals.reverse).constraints player).foreignKey? "id" := by
  have hperm : rivals.Perm rivals.reverse := List.Perm.swap ..
  have hone : ∀ c ∈ rivals, ∀ k, c.Refers player ("id", k) → k = ⟨"Player", "key"⟩ := by
    intro c hc k hk
    obtain ⟨-, e, he, hr⟩ := hk
    simp only [rivals, List.mem_cons, List.not_mem_nil, or_false] at hc
    rcases hc with rfl | rfl <;> simp only [List.mem_cons, List.not_mem_nil, or_false] at he
    · rcases he with rfl | rfl <;> simp [Expr.reference?, RecordType.fieldName?, player] at hr
    · rcases he with rfl | rfl | rfl
      · cases hr
      · simp [Expr.reference?, RecordType.fieldName?, player] at hr
      · cases hr
        rfl
  obtain ⟨-, hplayer⟩ := afterCalls_perm hperm
  refine ⟨hperm, ?_, rfl, rfl, (hplayer player).marked .unique, rfl, rfl, ?_⟩
  · intro c hc
    simp only [rivals, List.mem_cons, List.not_mem_nil, or_false] at hc
    rcases hc with rfl | rfl <;> rfl
  · apply (hplayer player).references "id"
    intro c hc c' hc' k k' hk hk'
    rw [hone c hc k hk, hone c' hc' k' hk']

end Registry
end Rowmap
