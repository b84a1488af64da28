import Rowmap.Proofs.Arrival
import Rowmap.Proofs.Registration

/-! What a batch of configurations does where the declared fields are all there. It is taken exactly if each
of its expressions is a configuration; then every collection of the type's store gets the newcomers of the
batch at its end, no other type notices, and the same batch again finds nothing left to do. -/

namespace Rowmap

open ConstraintStore

def ConstraintStore.Mark.constraint : Mark → Constraint
  | .notNull => .notNull
  | .unique => .unique
  | .primaryKey => .primaryKey

namespace Expr

/-- The field that an expression assigns a constraint to. -/
def assigned? (t : RecordType) (c : Constraint) : Expr → Option String
  | .binary .assign (.field i) (.constraint k) => if k = c then t.fieldName? i else none
  | _ => none

/-- The field that an expression makes a foreign key, with the column it refers to. -/
def reference? (t : RecordType) : Expr → Option (String × Target)
  | .binary .assign (.field i) (.constraint (.foreignKey r)) =>
    (t.fieldName? i).bind fun f => r.column.map fun c => (f, ⟨r.table, c⟩)
  | _ => none

theorem field?_of_registration {t : RecordType} {e : Expr} {x : Addition} (h : e.registration? t = some x)
    (m : Mark) : x.field? m = e.assigned? t m.constraint := by
  unfold registration? at h
  split at h
  · next i c =>
    obtain ⟨f, hf, hx⟩ := Option.bind_eq_some_iff.1 h
    cases c with
    | foreignKey r =>
      obtain ⟨k, hk, rfl⟩ := Option.map_eq_some_iff.1 hx
      cases m <;> simp [Addition.field?, assigned?, Mark.constraint]
    | notNull => cases hx; cases m <;> simp [Addition.field?, assigned?, Mark.constraint, hf]
    | unique => cases hx; cases m <;> simp [Addition.field?, assigned?, Mark.constraint, hf]
    | primaryKey => cases hx; cases m <;> simp [Addition.field?, assigned?, Mark.constraint, hf]
  · cases h

theorem key?_of_registration {t : RecordType} {e : Expr} {x : Addition} (h : e.registration? t = some x) :
    x.key? = e.reference? t := by
  unfold registration? at h
  split at h
  · next i c =>
    obtain ⟨f, hf, hx⟩ := Option.bind_eq_some_iff.1 h
    cases c with
    | foreignKey r =>
      obtain ⟨k, hk, rfl⟩ := Option.map_eq_some_iff.1 hx
      simp [Addition.key?, reference?, hf, hk]
    | notNull => cases hx; rfl
    | unique => cases hx; rfl
    | primaryKey => cases hx; rfl
  · cases h

theorem bind_registration_field? (t : RecordType) (e : Expr) (m : Mark) :
    (e.registration? t).bind (·.field? m) = e.assigned? t m.constraint := by
  cases h : e.registration? t with
  | some x => exact field?_of_registration h m
  | none =>
    unfold registration? at h
    split at h
    · next i c =>
      rw [Option.bind_eq_none_iff] at h
      simp only [assigned?]
      split
      · next hc =>
        subst hc
        cases hf : t.fieldName? i with
        | none => rfl
        | some f => cases m <;> cases h f hf
      · rfl
    · next hne =>
      unfold assigned?
      split
      · next i k => exact absurd rfl (hne i k)
      · rfl

theorem bind_registration_key? (t : RecordType) (e : Expr) :
    (e.registration? t).bind Addition.key? = e.reference? t := by
  cases h : e.registration? t with
  | some x => exact key?_of_registration h
  | none =>
    unfold registration? at h
    unfold reference?
    split
    · next i r =>
      simp only [Option.bind_eq_none_iff, additionOf, Option.map_eq_none_iff] at h
      cases hf : t.fieldName? i with
      | none => rfl
      | some f =>
        rw [Option.bind_some, h f hf]
        rfl
    · rfl

theorem registration_of_isConfiguration {t : RecordType} {e : Expr} (h : e.IsConfiguration t.declared)
    (hd : t.declared ≤ t.fields.length) : ∃ x, e.registration? t = some x := by
  rcases registration_cases (check_configuration_eq_ok_iff.2 h) with hx | ⟨-, i, c, -, hi, hlt⟩
  · exact hx
  · have : i < t.fields.length := by omega
    simp [RecordType.fieldName?, this] at hi

end Expr

namespace Registry

/-- With all declared fields there, whatever is read off the additions of a batch is read off the batch. -/
theorem filterMap_registered {α : Type} {t : RecordType} {es : List Expr}
    (h : ∀ e ∈ es, e.IsConfiguration t.declared) (hd : t.declared ≤ t.fields.length)
    {f : Addition → Option α} {g : Expr → Option α}
    (hfg : ∀ e x, e.registration? t = some x → f x = g e) :
    (registered t es).filterMap f = es.filterMap g := by
  induction es with
  | nil => rfl
  | cons e es ih =>
    rw [List.forall_mem_cons] at h
    obtain ⟨x, hx⟩ := Expr.registration_of_isConfiguration h.1 hd
    simp only [registered, hx, List.filterMap_cons, hfg e x hx, ih h.2]

theorem checkAll_eq_ok_iff_isConfiguration {t : RecordType} {es : List Expr} :
    checkAll t es = .ok () ↔ ∀ e ∈ es, e.IsConfiguration t.declared := by
  rw [checkAll_eq_ok_iff]
  exact forall₂_congr fun e _ => Expr.check_configuration_eq_ok_iff

theorem length_put (t : RecordType) (s : ConstraintStore) (stores : List (RecordType × ConstraintStore)) :
    (put t s stores).length = stores.length + if (stores.lookup t).isSome then 0 else 1 := by
  induction stores with
  | nil => rfl
  | cons p rest ih =>
    obtain ⟨u, w⟩ := p
    rw [put, List.lookup_cons]
    by_cases hu : u = t
    · simp [hu]
    · have ht : (t == u) = false := beq_false_of_ne (Ne.symm hu)
      simp only [ht, if_neg hu, List.length_cons, ih]
      omega

theorem configure_ok {t : RecordType} {es : List Expr} (h : checkAll t es = .ok ())
    (hd : t.declared ≤ t.fields.length) (r : Registry) :
    configure t es r = .ok () (r.withStore t ((r.constraints t).addAll (registered t es))) := by
  rw [configure_checked h, Action.on, assignAll_ok h hd]

structure Configured (t : RecordType) (es : List Expr) (r r' : Registry) : Prop where
  marked : ∀ m, (r'.constraints t).marked m = (r.constraints t).marked m ++
    newcomers id ((r.constraints t).marked m) (es.filterMap (Expr.assigned? t m.constraint))
  foreignKeys : (r'.constraints t).foreignKeys = (r.constraints t).foreignKeys ++
    newcomers Prod.fst (r.constraints t).foreignKeys (es.filterMap (Expr.reference? t))
  others : ∀ u, u ≠ t → r'.store? u = r.store? u
  size : r'.size = r.size + if (r.store? t).isSome then 0 else 1
  again : configure t es r' = .ok () r'

theorem configured_of_checkAll {t : RecordType} {es : List Expr} (h : checkAll t es = .ok ())
    (hd : t.declared ≤ t.fields.length) (r : Registry) :
    Configured t es r (r.withStore t ((r.constraints t).addAll (registered t es))) where
  marked m := by
    rw [constraints_withStore, if_pos rfl, marked_addAll,
      filterMap_registered (checkAll_eq_ok_iff_isConfiguration.1 h) hd
        fun _ _ hx => Expr.field?_of_registration hx m]
  foreignKeys := by
    rw [constraints_withStore, if_pos rfl, foreignKeys_addAll,
      filterMap_registered (checkAll_eq_ok_iff_isConfiguration.1 h) hd fun _ _ => Expr.key?_of_registration]
  others u hu := by rw [store?_withStore, if_neg hu]
  size := length_put t _ r.stores
  again := by
    rw [configure_ok h hd, constraints_withStore, if_pos rfl, addAll_addAll_self]
    congr 1
    rw [withStore_eq_self_iff, store?_withStore, if_pos rfl]

/-- A batch for a type with all its declared fields is taken exactly if it holds configurations only. Then its
newcomers stand last in the type's store, and nothing else changes. -/
theorem configure_batch (r : Registry) (t : RecordType) (hd : t.declared ≤ t.fields.length) (es : List Expr) :
    (Action.outcome (configure t es r) = .ok () ↔ ∀ e ∈ es, e.IsConfiguration t.declared) ∧
    ((∀ e ∈ es, e.IsConfiguration t.declared) →
      Configured t es r (Action.after (configure t es r))) := by
  rw [← checkAll_eq_ok_iff_isConfiguration]
  cases h : checkAll t es with
  | error x =>
    rw [configure_rejected h]
    exact ⟨⟨nofun, nofun⟩, nofun⟩
  | ok =>
    rw [configure_ok h hd]
    exact ⟨⟨fun _ => rfl, fun _ => rfl⟩, fun _ => configured_of_checkAll h hd r⟩

def player : RecordType :=
  ⟨0, "Player", 3, [⟨"id", .integer .int32, 0⟩, ⟨"name", .text, 0⟩, ⟨"team", .integer .int32, 0⟩]⟩

def oldPlayer : RecordType := ⟨1, "old::Player", 1, [⟨"key", .integer .int32, 0⟩]⟩

def oneConfigured : Registry := ⟨[(oldPlayer, { primaryKey := ["key"] })]⟩

/-- A name is marked twice, and a field refers to both tables. -/
def conflicting : List Expr :=
  [.binary .assign (.field 1) (.constraint .unique), .binary .assign (.field 0) (.constraint .unique),
    .binary .assign (.field 1) (.constraint .unique),
    .binary .assign (.field 2) (.constraint (.foreignKey (.ofField player 0))),
    .binary .assign (.field 2) (.constraint (.foreignKey (.ofField oldPlayer 0)))]

theorem configure_batch_conflicting :
    player.declared ≤ player.fields.length ∧
    Action.outcome (configure player conflicting oneConfigured) = .ok () ∧
    ((Action.after (configure player conflicting oneConfigured)).constraints player).unique = ["name", "id"] ∧
    ((Action.after (configure player conflicting oneConfigured)).constraints player).foreignKeys =
      [("team", ⟨"Player", "id"⟩)] ∧
    (Action.after (configure player conflicting oneConfigured)).store? oldPlayer =
      some { primaryKey := ["key"] } ∧
    (Action.after (configure player conflicting oneConfigured)).size = 2 := by
  have hd : player.declared ≤ player.fields.length := by decide
  have hall : ∀ e ∈ conflicting, e.IsConfiguration player.declared :=
    checkAll_eq_ok_iff_isConfiguration.1 rfl
  obtain ⟨hok, hconf⟩ := configure_batch oneConfigured player hd conflicting
  have h := hconf hall
  exact ⟨hd, hok.2 hall, h.marked .unique, h.foreignKeys, h.others oldPlayer (by decide), h.size⟩

end Registry
end Rowmap
