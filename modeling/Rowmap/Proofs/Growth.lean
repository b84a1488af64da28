import Rowmap.Constraint.Store

/-! Constraint stores only grow. An addition leaves every collection as a beginning of what it becomes,
and leaves the whole store as it is exactly when the store does not lack it. Over a list of additions
nothing cancels: the list leaves the store as it is only if each of its members does. -/

namespace Rowmap
namespace ConstraintStore

structure Grows (s s' : ConstraintStore) : Prop where
  notNull : s.notNull <+: s'.notNull
  unique : s.unique <+: s'.unique
  primaryKey : s.primaryKey <+: s'.primaryKey
  foreignKeys : s.foreignKeys <+: s'.foreignKeys

theorem Grows.refl (s : ConstraintStore) : Grows s s :=
  ⟨List.prefix_refl _, List.prefix_refl _, List.prefix_refl _, List.prefix_refl _⟩

theorem Grows.trans {a b c : ConstraintStore} (h1 : Grows a b) (h2 : Grows b c) : Grows a c :=
  ⟨h1.notNull.trans h2.notNull, h1.unique.trans h2.unique, h1.primaryKey.trans h2.primaryKey,
    h1.foreignKeys.trans h2.foreignKeys⟩

theorem prefix_antisymm {α : Type} {a b : List α} (h1 : a <+: b) (h2 : b <+: a) : a = b :=
  h1.eq_of_length (Nat.le_antisymm h1.length_le h2.length_le)

theorem Grows.antisymm {a b : ConstraintStore} (h1 : Grows a b) (h2 : Grows b a) : a = b := by
  obtain ⟨n, u, p, f⟩ := a
  obtain ⟨n', u', p', f'⟩ := b
  have hn : n = n' := prefix_antisymm h1.notNull h2.notNull
  have hu : u = u' := prefix_antisymm h1.unique h2.unique
  have hp : p = p' := prefix_antisymm h1.primaryKey h2.primaryKey
  have hf : f = f' := prefix_antisymm h1.foreignKeys h2.foreignKeys
  rw [hn, hu, hp, hf]

theorem prefix_addOnce (names : List String) (name : String) : names <+: addOnce names name := by
  unfold addOnce
  split
  · exact List.prefix_refl _
  · exact List.prefix_append _ _

theorem addOnce_eq_self_iff {names : List String} {name : String} :
    addOnce names name = names ↔ name ∈ names := by
  unfold addOnce
  split
  · next h => exact ⟨fun _ => h, fun _ => rfl⟩
  · next h => exact ⟨fun he => absurd he (by simp), fun hm => absurd hm h⟩

theorem grows_add (s : ConstraintStore) (x : Addition) : Grows s (s.add x) := by
  cases x with
  | notNull f => exact ⟨prefix_addOnce _ _, List.prefix_refl _, List.prefix_refl _, List.prefix_refl _⟩
  | unique f => exact ⟨List.prefix_refl _, prefix_addOnce _ _, List.prefix_refl _, List.prefix_refl _⟩
  | primaryKey f => exact ⟨List.prefix_refl _, List.prefix_refl _, prefix_addOnce _ _, List.prefix_refl _⟩
  | foreignKey f t =>
    simp only [add, addForeignKey]
    split
    · exact Grows.refl s
    · exact ⟨List.prefix_refl _, List.prefix_refl _, List.prefix_refl _, List.prefix_append _ _⟩

theorem add_eq_self_iff {s : ConstraintStore} {x : Addition} : s.add x = s ↔ s.lacks x = false := by
  obtain ⟨n, u, p, k⟩ := s
  cases x with
  | notNull f => simp [add, addNotNull, lacks, isNotNull, addOnce_eq_self_iff]
  | unique f => simp [add, addUnique, lacks, isUnique, addOnce_eq_self_iff]
  | primaryKey f => simp [add, addPrimaryKey, lacks, isPrimaryKey, addOnce_eq_self_iff]
  | foreignKey f t =>
    simp only [add, addForeignKey, lacks]
    cases h : foreignKey? ⟨n, u, p, k⟩ f with
    | none => simp
    | some t' => simp

/-- Additions one after another. -/
def addAll (s : ConstraintStore) (xs : List Addition) : ConstraintStore := xs.foldl add s

@[simp] theorem addAll_nil (s : ConstraintStore) : s.addAll [] = s := rfl

@[simp] theorem addAll_cons (s : ConstraintStore) (x : Addition) (xs : List Addition) :
    s.addAll (x :: xs) = (s.add x).addAll xs := rfl

theorem addAll_append (s : ConstraintStore) (xs ys : List Addition) :
    s.addAll (xs ++ ys) = (s.addAll xs).addAll ys := List.foldl_append

theorem grows_addAll (s : ConstraintStore) (xs : List Addition) : Grows s (s.addAll xs) := by
  induction xs generalizing s with
  | nil => exact Grows.refl s
  | cons x xs ih => exact (grows_add s x).trans (ih (s.add x))

theorem addAll_eq_self_iff {s : ConstraintStore} {xs : List Addition} :
    s.addAll xs = s ↔ ∀ x ∈ xs, s.lacks x = false := by
  induction xs generalizing s with
  | nil => simp
  | cons x xs ih =>
    rw [addAll_cons, List.forall_mem_cons]
    constructor
    · intro h
      -- the store lies between itself and itself after the first addition
      have hx : s.add x = s := by
        have hback := grows_addAll (s.add x) xs
        rw [h] at hback
        exact hback.antisymm (grows_add s x)
      rw [hx] at h
      exact ⟨add_eq_self_iff.1 hx, ih.1 h⟩
    · rintro ⟨hx, hxs⟩
      rw [add_eq_self_iff.2 hx]
      exact ih.2 hxs

end ConstraintStore
end Rowmap
