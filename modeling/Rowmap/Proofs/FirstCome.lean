import Mathlib.Data.List.Basic
import Rowmap.Proofs.Arrival
import Rowmap.Proofs.Members

/-! What additions make of a store with nothing in it, told by the additions alone. A mark has the fields that it
was given, each where it first came, and the foreign keys have the fields of all references in that order, each with
the first one that came for it. No addition is lost, so a store that is empty has never been added to. -/

namespace Rowmap

variable {α β : Type}

theorem newcomers_nil (key : α → String) (items : List α) :
    newcomers key [] items = items.eraseDupsBy fun x y => key x = key y := by
  rw [newcomers, List.filter_eq_self.2 (by simp)]

/-- Whether an item comes is settled by its key, and so are the keys that come. -/
theorem map_newcomers (key : α → String) (old items : List α) :
    (newcomers key old items).map key = newcomers id (old.map key) (items.map key) := by
  induction items generalizing old with
  | nil => simp [newcomers]
  | cons x items ih =>
    by_cases h : key x ∈ old.map key
    · rw [newcomers_cons_of_mem h, List.map_cons, newcomers_cons_of_mem (by simpa using h), ih]
    · rw [newcomers_cons_of_notMem h, List.map_cons, List.map_cons,
        newcomers_cons_of_notMem (by simpa using h), ih, List.map_append, List.map_singleton]

theorem filterMap_lookup_keys {items : List (String × β)} (h : (items.map Prod.fst).Nodup) :
    (items.map Prod.fst).filterMap (fun k => (items.lookup k).map (k, ·)) = items := by
  induction items with
  | nil => rfl
  | cons x items ih =>
    obtain ⟨k, b⟩ := x
    rw [List.map_cons, List.nodup_cons] at h
    have hrest : ∀ j ∈ items.map Prod.fst, (((k, b) :: items).lookup j).map (j, ·) =
        (items.lookup j).map (j, ·) := by
      intro j hj
      have hne : j ≠ k := fun hjk => h.1 (hjk ▸ hj)
      rw [List.lookup_cons, beq_false_of_ne hne]
    rw [List.map_cons, List.filterMap_cons, List.lookup_cons_self, Option.map_some, List.filterMap_congr hrest,
      ih h.2]

namespace ConstraintStore

/-- The fields in the order in which they first appear, each with the reference that came first for it. -/
def firstReferences (given : List (String × Target)) : List (String × Target) :=
  (given.map Prod.fst).eraseDups.filterMap fun f => (given.lookup f).map (f, ·)

/-- The store that additions make of an empty one. -/
def ofAdditions (xs : List Addition) : ConstraintStore := empty.addAll xs

theorem marked_ofAdditions (xs : List Addition) (m : Mark) :
    (ofAdditions xs).marked m = (xs.filterMap (·.field? m)).eraseDups := by
  rw [ofAdditions, marked_addAll, marked_empty, List.nil_append]
  exact newcomers_nil id _

theorem nodup_keys_ofAdditions (xs : List Addition) : ((ofAdditions xs).foreignKeys.map Prod.fst).Nodup :=
  nodup_keys_addAll (s := empty) List.nodup_nil xs

theorem foreignKeys_ofAdditions (xs : List Addition) :
    (ofAdditions xs).foreignKeys = firstReferences (xs.filterMap Addition.key?) := by
  have hkeys : (ofAdditions xs).foreignKeys.map Prod.fst =
      ((xs.filterMap Addition.key?).map Prod.fst).eraseDups := by
    rw [ofAdditions, foreignKeys_addAll]
    exact (map_newcomers Prod.fst [] _).trans (newcomers_nil id _)
  have hlookup (f : String) : (ofAdditions xs).foreignKeys.lookup f = (xs.filterMap Addition.key?).lookup f :=
    foreignKey?_addAll_empty xs f
  calc (ofAdditions xs).foreignKeys
      = ((ofAdditions xs).foreignKeys.map Prod.fst).filterMap
          fun f => ((ofAdditions xs).foreignKeys.lookup f).map (f, ·) :=
        (filterMap_lookup_keys (nodup_keys_ofAdditions xs)).symm
    _ = firstReferences (xs.filterMap Addition.key?) := by simp only [hkeys, hlookup, firstReferences]

theorem foreignKey?_ofAdditions_iff {xs : List Addition} {f : String} {t : Target} :
    (ofAdditions xs).foreignKey? f = some t ↔ (f, t) ∈ (ofAdditions xs).foreignKeys :=
  ⟨mem_of_lookup, lookup_of_nodup (nodup_keys_ofAdditions xs)⟩

theorem marked_add_of_none {x : Addition} {m : Mark} (h : x.field? m = none) (s : ConstraintStore) :
    (s.add x).marked m = s.marked m := by
  rw [marked_add, h]
  rfl

theorem foreignKeys_add_of_none {x : Addition} (h : x.key? = none) (s : ConstraintStore) :
    (s.add x).foreignKeys = s.foreignKeys := by
  rw [foreignKeys_add, h]
  rfl

theorem isEmpty_iff {s : ConstraintStore} : s.isEmpty = true ↔ s = empty := by
  obtain ⟨n, u, p, k⟩ := s
  simp [isEmpty, empty, and_assoc]

theorem isEmpty_ofAdditions_iff {xs : List Addition} : (ofAdditions xs).isEmpty = true ↔ xs = [] := by
  rw [isEmpty_iff, ofAdditions, addAll_eq_self_iff]
  constructor
  · intro h
    cases xs with
    | nil => rfl
    | cons x xs =>
      have hlacks : empty.lacks x = false := h x (List.mem_cons_self ..)
      cases x <;> cases hlacks
  · rintro rfl
    exact nofun

/-- Each mark has the fields that came for it, once each and in the order of their arrival, and the foreign keys have
the first reference of each field. An addition is lacked exactly if it changes the store. -/
theorem ofAdditions_first_come (xs : List Addition) :
    (∀ m, (ofAdditions xs).marked m = (xs.filterMap (·.field? m)).eraseDups) ∧
    (ofAdditions xs).foreignKeys = firstReferences (xs.filterMap Addition.key?) ∧
    (∀ x, (ofAdditions xs).lacks x = true ↔ (ofAdditions xs).add x ≠ ofAdditions xs) ∧
    (∀ f, ((ofAdditions xs).isNotNull f = true ↔ f ∈ (ofAdditions xs).notNull) ∧
      ((ofAdditions xs).isUnique f = true ↔ f ∈ (ofAdditions xs).unique) ∧
      ((ofAdditions xs).isPrimaryKey f = true ↔ f ∈ (ofAdditions xs).primaryKey) ∧
      ∀ t, (ofAdditions xs).foreignKey? f = some t ↔ (f, t) ∈ (ofAdditions xs).foreignKeys) ∧
    (∀ x, (∀ m, x.field? m = none → ((ofAdditions xs).add x).marked m = (ofAdditions xs).marked m) ∧
      (x.key? = none → ((ofAdditions xs).add x).foreignKeys = (ofAdditions xs).foreignKeys)) ∧
    ((ofAdditions xs).isEmpty = true ↔ xs = []) := by
  refine ⟨marked_ofAdditions xs, foreignKeys_ofAdditions xs, fun x => ?_, fun f => ⟨?_, ?_, ?_, fun t => ?_⟩,
    fun x => ⟨fun m hm => marked_add_of_none hm _, fun hk => foreignKeys_add_of_none hk _⟩,
    isEmpty_ofAdditions_iff⟩
  · rw [ne_eq, add_eq_self_iff, Bool.not_eq_false]
  · exact decide_eq_true_iff
  · exact decide_eq_true_iff
  · exact decide_eq_true_iff
  · exact foreignKey?_ofAdditions_iff

def crowded : List Addition :=
  [.primaryKey "b", .foreignKey "owner" ⟨"Person", "id"⟩, .unique "b", .primaryKey "a", .primaryKey "b",
    .foreignKey "seller" ⟨"Person", "id"⟩, .foreignKey "owner" ⟨"Account", "number"⟩, .unique "b"]

theorem ofAdditions_crowded :
    (ofAdditions crowded).marked .primaryKey = ["b", "a"] ∧ (ofAdditions crowded).marked .unique = ["b"] ∧
    (ofAdditions crowded).foreignKeys = [("owner", ⟨"Person", "id"⟩), ("seller", ⟨"Person", "id"⟩)] ∧
    (ofAdditions crowded).lacks (.unique "a") = true ∧ (ofAdditions crowded).isEmpty = false ∧
    ((ofAdditions crowded).add (.unique "a")).marked .primaryKey = ["b", "a"] := by
  obtain ⟨hmarked, hkeys, hlacks, -, hframe, hempty⟩ := ofAdditions_first_come crowded
  refine ⟨(hmarked _).trans (by decide +kernel), (hmarked _).trans (by decide +kernel),
    hkeys.trans (by decide +kernel), (hlacks _).2 (by decide +kernel),
    Bool.eq_false_iff.2 fun h => List.cons_ne_nil _ _ (hempty.1 h), ?_⟩
  rw [(hframe _).1 _ rfl, hmarked]
  decide +kernel

end ConstraintStore
end Rowmap
