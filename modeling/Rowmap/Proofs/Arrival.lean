import Rowmap.Proofs.Growth

/-! What a list of additions makes of each collection of a constraint store. All four take an item only if
its key is new: the names of fields are their own keys, and a foreign key goes by its field. So each ends as
it was, followed by the newcomers in the order of their first appearance. -/

namespace Rowmap

variable {α : Type}

/-- The items whose key is not among the old ones, the first of each key, in order. -/
def newcomers (key : α → String) (old items : List α) : List α :=
  (items.filter fun x => key x ∉ old.map key).eraseDupsBy fun x y => key x = key y

/-- Adds an item at the end unless one of its key is there. -/
def arrive (key : α → String) (old : List α) (x : α) : List α :=
  if key x ∈ old.map key then old else old ++ [x]

theorem newcomers_cons_of_mem {key : α → String} {old : List α} {x : α} (h : key x ∈ old.map key)
    (items : List α) : newcomers key old (x :: items) = newcomers key old items := by
  rw [newcomers, List.filter_cons_of_neg (by simpa using h), newcomers]

theorem newcomers_cons_of_notMem {key : α → String} {old : List α} {x : α} (h : key x ∉ old.map key)
    (items : List α) : newcomers key old (x :: items) = x :: newcomers key (old ++ [x]) items := by
  rw [newcomers, List.filter_cons_of_pos (by simpa using h), List.eraseDupsBy_cons, List.filter_filter,
    newcomers]
  -- to have another key than `x` and the old items is to have another than all of them
  have hkeys : (fun y => decide (decide (key y = key x) = false) && decide (key y ∉ old.map key)) =
      fun y => decide (key y ∉ (old ++ [x]).map key) := by
    funext y
    rw [List.map_append, List.map_singleton]
    simp only [List.mem_append, List.mem_singleton, not_or, Bool.decide_and, decide_eq_false_iff_not]
    exact Bool.and_comm _ _
  rw [hkeys]

theorem foldl_arrive (key : α → String) (old items : List α) :
    items.foldl (arrive key) old = old ++ newcomers key old items := by
  induction items generalizing old with
  | nil => simp [newcomers]
  | cons x items ih =>
    rw [List.foldl_cons, arrive]
    split
    · next h => rw [ih, newcomers_cons_of_mem h]
    · next h => rw [ih, newcomers_cons_of_notMem h, List.append_assoc]; rfl

theorem key_mem_arrive (key : α → String) (old : List α) (x : α) : key x ∈ (arrive key old x).map key := by
  unfold arrive
  split
  · next h => exact h
  · simp

theorem nodup_arrive {key : α → String} {old : List α} (h : (old.map key).Nodup) (x : α) :
    ((arrive key old x).map key).Nodup := by
  unfold arrive
  split
  · exact h
  · next hx =>
    rw [List.map_append, List.nodup_append]
    refine ⟨h, by simp, fun a ha b hb hab => ?_⟩
    rw [List.map_singleton, List.mem_singleton] at hb
    exact hx (hb ▸ hab ▸ ha)

theorem nodup_foldl_arrive {key : α → String} {old items : List α} (h : (old.map key).Nodup) :
    ((items.foldl (arrive key) old).map key).Nodup := by
  induction items generalizing old with
  | nil => exact h
  | cons x items ih => exact ih (nodup_arrive h x)

theorem mem_foldl_arrive {key : α → String} {old items : List α} {y : α}
    (h : y ∈ items.foldl (arrive key) old) : y ∈ old ∨ y ∈ items := by
  induction items generalizing old with
  | nil => exact Or.inl h
  | cons x items ih =>
    rcases ih h with h | h
    · unfold arrive at h
      split at h
      · exact Or.inl h
      · rw [List.mem_append, List.mem_singleton] at h
        rcases h with h | rfl
        · exact Or.inl h
        · exact Or.inr (List.mem_cons_self ..)
    · exact Or.inr (List.mem_cons_of_mem _ h)

theorem mem_map_arrive {key : α → String} {old : List α} {x : α} {k : String} :
    k ∈ (arrive key old x).map key ↔ k ∈ old.map key ∨ k = key x := by
  unfold arrive
  split
  · next h =>
    constructor
    · exact Or.inl
    · rintro (hk | rfl)
      · exact hk
      · exact h
  · rw [List.map_append, List.map_singleton, List.mem_append, List.mem_singleton]

/-- No key is turned away for good: each is there at the end. -/
theorem mem_map_foldl_arrive {key : α → String} {old items : List α} {k : String} :
    k ∈ (items.foldl (arrive key) old).map key ↔ k ∈ old.map key ∨ k ∈ items.map key := by
  induction items generalizing old with
  | nil => simp
  | cons x items ih => rw [List.foldl_cons, ih, mem_map_arrive, List.map_cons, List.mem_cons, or_assoc]

theorem mem_of_lookup {β : Type} {items : List (String × β)} {k : String} {b : β} (h : items.lookup k = some b) :
    (k, b) ∈ items := by
  obtain ⟨before, after, rfl, -⟩ := List.lookup_eq_some_iff.1 h
  exact List.mem_append_right _ (List.mem_cons_self ..)

/-- The first item of a key is the one that stays. -/
theorem lookup_foldl_arrive {β : Type} (old items : List (String × β)) (k : String) :
    (items.foldl (arrive Prod.fst) old).lookup k = (old.lookup k).or (items.lookup k) := by
  induction items generalizing old with
  | nil => simp
  | cons x items ih =>
    obtain ⟨j, b⟩ := x
    rw [List.foldl_cons, ih, arrive]
    split
    · next h =>
      -- the key is taken, so whoever looks for it finds the old item first
      by_cases hk : k = j
      · subst hk
        obtain ⟨p, hp, hpk⟩ := List.mem_map.1 h
        have hfound : (old.lookup k).isSome = true := List.lookup_isSome_iff.2 ⟨p, hp, by simpa using hpk.symm⟩
        obtain ⟨c, hc⟩ := Option.isSome_iff_exists.1 hfound
        simp [hc]
      · rw [List.lookup_cons, beq_false_of_ne hk]
    · rw [List.lookup_append, Option.or_assoc]
      congr 1
      rw [List.lookup_cons, List.lookup_cons]
      cases k == j <;> rfl

namespace ConstraintStore

/-- The constraints that are told by the name of the field alone. -/
inductive Mark where
  | notNull | unique | primaryKey
deriving DecidableEq, Repr

def marked (s : ConstraintStore) : Mark → List String
  | .notNull => s.notNull
  | .unique => s.unique
  | .primaryKey => s.primaryKey

def Addition.field? (m : Mark) (x : Addition) : Option String :=
  match m, x with
  | .notNull, .notNull f => some f
  | .unique, .unique f => some f
  | .primaryKey, .primaryKey f => some f
  | _, _ => none

def Addition.key? : Addition → Option (String × Target)
  | .foreignKey f t => some (f, t)
  | _ => none

theorem arrive_id (names : List String) (f : String) : arrive id names f = addOnce names f := by
  simp [arrive, addOnce]

theorem foreignKey?_isSome_iff {s : ConstraintStore} {f : String} :
    (s.foreignKey? f).isSome = true ↔ f ∈ s.foreignKeys.map Prod.fst := by
  rw [foreignKey?, List.lookup_isSome_iff, List.mem_map]
  constructor
  · rintro ⟨k, hk, hf⟩
    exact ⟨k, hk, (beq_iff_eq.1 hf).symm⟩
  · rintro ⟨k, hk, rfl⟩
    exact ⟨k, hk, beq_self_eq_true _⟩

theorem foreignKeys_addForeignKey (s : ConstraintStore) (f : String) (t : Target) :
    (s.addForeignKey f t).foreignKeys = arrive Prod.fst s.foreignKeys (f, t) := by
  rw [addForeignKey, arrive]
  by_cases h : f ∈ s.foreignKeys.map Prod.fst
  · rw [if_pos (foreignKey?_isSome_iff.2 h), if_pos h]
  · rw [if_neg (mt foreignKey?_isSome_iff.1 h), if_neg h]

theorem marked_add (s : ConstraintStore) (m : Mark) (x : Addition) :
    (s.add x).marked m = (x.field? m).toList.foldl (arrive id) (s.marked m) := by
  cases x with
  | notNull f => cases m <;> simp [add, addNotNull, marked, Addition.field?, arrive_id]
  | unique f => cases m <;> simp [add, addUnique, marked, Addition.field?, arrive_id]
  | primaryKey f => cases m <;> simp [add, addPrimaryKey, marked, Addition.field?, arrive_id]
  | foreignKey f t =>
    simp only [add, addForeignKey]
    split <;> cases m <;> rfl

theorem foreignKeys_add (s : ConstraintStore) (x : Addition) :
    (s.add x).foreignKeys = x.key?.toList.foldl (arrive Prod.fst) s.foreignKeys := by
  cases x with
  | foreignKey f t => exact foreignKeys_addForeignKey s f t
  | _ f => rfl

theorem marked_addAll (s : ConstraintStore) (m : Mark) (xs : List Addition) :
    (s.addAll xs).marked m = s.marked m ++ newcomers id (s.marked m) (xs.filterMap (·.field? m)) := by
  rw [← foldl_arrive]
  induction xs generalizing s with
  | nil => rfl
  | cons x xs ih =>
    rw [addAll_cons, ih, marked_add, List.filterMap_cons]
    cases x.field? m <;> rfl

theorem foreignKeys_addAll (s : ConstraintStore) (xs : List Addition) :
    (s.addAll xs).foreignKeys =
      s.foreignKeys ++ newcomers Prod.fst s.foreignKeys (xs.filterMap Addition.key?) := by
  rw [← foldl_arrive]
  induction xs generalizing s with
  | nil => rfl
  | cons x xs ih =>
    rw [addAll_cons, ih, foreignKeys_add, List.filterMap_cons]
    cases x.key? <;> rfl

theorem mem_marked_addAll {s : ConstraintStore} {m : Mark} {xs : List Addition} {f : String} :
    f ∈ (s.addAll xs).marked m ↔ f ∈ s.marked m ∨ f ∈ xs.filterMap (·.field? m) := by
  have h := @mem_map_foldl_arrive _ id (s.marked m) (xs.filterMap (·.field? m)) f
  rwa [List.map_id, List.map_id, List.map_id, foldl_arrive, ← marked_addAll] at h

theorem nodup_marked_addAll {s : ConstraintStore} {m : Mark} (h : (s.marked m).Nodup) (xs : List Addition) :
    ((s.addAll xs).marked m).Nodup := by
  rw [marked_addAll, ← foldl_arrive, ← List.map_id (List.foldl ..)]
  exact nodup_foldl_arrive (by simpa using h)

theorem nodup_keys_addAll {s : ConstraintStore} (h : (s.foreignKeys.map Prod.fst).Nodup) (xs : List Addition) :
    ((s.addAll xs).foreignKeys.map Prod.fst).Nodup := by
  rw [foreignKeys_addAll, ← foldl_arrive]
  exact nodup_foldl_arrive h

theorem foreignKey?_addAll (s : ConstraintStore) (xs : List Addition) (f : String) :
    (s.addAll xs).foreignKey? f = (s.foreignKey? f).or ((xs.filterMap Addition.key?).lookup f) := by
  rw [foreignKey?, foreignKeys_addAll, ← foldl_arrive, lookup_foldl_arrive, foreignKey?]

theorem marked_empty (m : Mark) : empty.marked m = [] := by cases m <;> rfl

theorem foreignKey?_addAll_empty (xs : List Addition) (f : String) :
    (empty.addAll xs).foreignKey? f = (xs.filterMap Addition.key?).lookup f := by
  rw [foreignKey?_addAll]
  rfl

theorem mem_addOnce_self (names : List String) (f : String) : f ∈ addOnce names f := by
  rw [← arrive_id, ← List.map_id (arrive id names f)]
  exact key_mem_arrive id names f

theorem lacks_add_self (s : ConstraintStore) (x : Addition) : (s.add x).lacks x = false := by
  cases x with
  | notNull f => simp [add, addNotNull, lacks, isNotNull, mem_addOnce_self]
  | unique f => simp [add, addUnique, lacks, isUnique, mem_addOnce_self]
  | primaryKey f => simp [add, addPrimaryKey, lacks, isPrimaryKey, mem_addOnce_self]
  | foreignKey f t =>
    rw [lacks, ← Option.not_isSome, Bool.not_eq_false', foreignKey?_isSome_iff, add, foreignKeys_addForeignKey]
    exact key_mem_arrive Prod.fst s.foreignKeys (f, t)

theorem Grows.lacks {s s' : ConstraintStore} (h : Grows s s') {x : Addition} (hx : s.lacks x = false) :
    s'.lacks x = false := by
  cases x with
  | notNull f =>
    simp only [ConstraintStore.lacks, isNotNull, Bool.not_eq_false', decide_eq_true_eq] at hx ⊢
    exact h.notNull.subset hx
  | unique f =>
    simp only [ConstraintStore.lacks, isUnique, Bool.not_eq_false', decide_eq_true_eq] at hx ⊢
    exact h.unique.subset hx
  | primaryKey f =>
    simp only [ConstraintStore.lacks, isPrimaryKey, Bool.not_eq_false', decide_eq_true_eq] at hx ⊢
    exact h.primaryKey.subset hx
  | foreignKey f t =>
    simp only [ConstraintStore.lacks, ← Option.not_isSome, Bool.not_eq_false', foreignKey?_isSome_iff] at hx ⊢
    exact (h.foreignKeys.map Prod.fst).subset hx

theorem lacks_of_mem_addAll {x : Addition} {xs : List Addition} (h : x ∈ xs) (s : ConstraintStore) :
    (s.addAll xs).lacks x = false := by
  induction xs generalizing s with
  | nil => cases h
  | cons y xs ih =>
    rw [addAll_cons]
    rcases List.mem_cons.1 h with rfl | h
    · exact (grows_addAll _ xs).lacks (lacks_add_self s x)
    · exact ih h _

theorem addAll_addAll_self (s : ConstraintStore) (xs : List Addition) :
    (s.addAll xs).addAll xs = s.addAll xs :=
  addAll_eq_self_iff.2 fun _ hx => lacks_of_mem_addAll hx s

end ConstraintStore
end Rowmap
