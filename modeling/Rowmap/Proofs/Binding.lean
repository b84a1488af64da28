import Rowmap.Proofs.Alignment
import Rowmap.Proofs.Recovery
import Rowmap.Proofs.WideNumeral

/-! What a statement is sent with. Both backends bind one parameter for each value, in the order of the values, and
an integer that fits a signed word as it is. For the upper half of the unsigned ones there is no such word. They are
bound as floats, and as a float has 53 bits, only one in 2048 of them is one: the others are moved to the nearest,
and neighbours are bound alike. -/

namespace Rowmap

namespace Double

/-- The multiple of 2048 nearest to a number, an even one if there are two. -/
def nearest (n : Nat) : Nat := roundDiv n 0x800 * 0x800

theorem nearest_near (n : Nat) : nearest n ≤ n + 0x400 ∧ n ≤ nearest n + 0x400 := by
  unfold nearest
  rcases roundDiv_cases n 0x800 with ⟨h, hr⟩ | ⟨h, hr⟩ | ⟨h, hr⟩ <;> omega

theorem nearest_eq_self_iff {n : Nat} : nearest n = n ↔ 0x800 ∣ n := by
  constructor
  · intro h
    exact ⟨roundDiv n 0x800, by rw [Nat.mul_comm]; exact h.symm⟩
  · rintro ⟨k, rfl⟩
    rw [nearest, Nat.mul_comm 0x800 k, roundDiv_mul k (by decide)]

theorem natMagnitude_wide {n : Nat} (hl : 0x8000000000000000 ≤ n) (hg : n < 0x10000000000000000) :
    natMagnitude n = 1085 * binade + roundDiv n 0x800 := by
  have hlog := log2_wide hl hg
  rw [natMagnitude, if_neg (by omega), hlog, if_neg (by decide)]

theorem ofInt_wide {n : Nat} (hl : 0x8000000000000000 ≤ n) (hg : n < 0x10000000000000000) :
    ofInt n = ofMagnitude false (1085 * binade + roundDiv n 0x800) := by
  have hsign : decide ((n : Int) < 0) = false := decide_eq_false (by omega)
  rw [ofInt, hsign, Int.natAbs_natCast, natMagnitude_wide hl hg]

/-- A carry out of the 53 bits counts as one more of the exponent. -/
theorem ratio_ofMagnitude {q : Nat} (hl : binade ≤ q) (hg : q ≤ 2 * binade) :
    (ofMagnitude false (1085 * binade + q)).ratio = (q * 0x800, 1) := by
  have hmagnitude : (ofMagnitude false (1085 * binade + q)).magnitude.val = 1085 * binade + q := by
    simp only [ofMagnitude, binade, infinity] at *
    omega
  have hnormal : ¬ 1085 * binade + q < binade := by omega
  rw [ratio, significand, scale, hmagnitude, if_neg hnormal, if_neg hnormal]
  rcases Nat.lt_or_eq_of_le hg with hlt | rfl
  · have hdiv : (1085 * binade + q) / binade = 1086 := by
      simp only [binade] at *
      omega
    have hmod : binade + (1085 * binade + q) % binade = q := by
      simp only [binade] at *
      omega
    rw [hdiv, hmod]
    rfl
  · rfl

theorem roundDiv_wide {n : Nat} (hl : 0x8000000000000000 ≤ n) (hg : n < 0x10000000000000000) :
    binade ≤ roundDiv n 0x800 ∧ roundDiv n 0x800 ≤ 2 * binade := by
  simp only [binade]
  rcases roundDiv_cases n 0x800 with ⟨h, hr⟩ | ⟨h, hr⟩ | ⟨h, hr⟩ <;> omega

/-- The float that a wide number is rounded to is an integer, the nearest of those that are floats. -/
theorem toInt?_ofInt_wide {n : Nat} (hl : 0x8000000000000000 ≤ n) (hg : n < 0x10000000000000000) :
    (ofInt n).toInt? = some (nearest n : Int) := by
  obtain ⟨hlower, hupper⟩ := roundDiv_wide hl hg
  have hfinite : (ofInt n).isFinite = true := isFinite_ofInt (by omega)
  rw [ofInt_wide hl hg] at hfinite ⊢
  have hratio := ratio_ofMagnitude hlower hupper
  rw [toInt?, hratio, if_pos ⟨hfinite, Nat.mod_one _⟩, Nat.div_one]
  rfl

theorem ofInt_eq_ofInt_iff {m n : Nat} (hlm : 0x8000000000000000 ≤ m) (hgm : m < 0x10000000000000000)
    (hln : 0x8000000000000000 ≤ n) (hgn : n < 0x10000000000000000) :
    ofInt m = ofInt n ↔ nearest m = nearest n := by
  constructor
  · intro h
    have hvalues := congrArg toInt? h
    rw [toInt?_ofInt_wide hlm hgm, toInt?_ofInt_wide hln hgn] at hvalues
    exact Int.ofNat_inj.1 (Option.some.inj hvalues)
  · intro h
    have hquotients : roundDiv m 0x800 = roundDiv n 0x800 := Nat.eq_of_mul_eq_mul_right (by decide) h
    rw [ofInt_wide hlm hgm, ofInt_wide hln hgn, hquotients]

end Double

/-- What becomes of the integers of 64 bits, with a sign or without one, where words and floats can be bound. -/
structure BindsIntegers {π : Type} (bind : Value → π) (word : Int → π) (float : Double → π) : Prop where
  exact : ∀ n : Int, -0x8000000000000000 ≤ n → n < 0x8000000000000000 → bind (.integer n) = word n
  rounded : ∀ n : Nat, 0x8000000000000000 ≤ n → n < 0x10000000000000000 →
    bind (.integer n) = float (.ofInt n) ∧ (∀ k, bind (.integer n) ≠ word k) ∧
      (Double.ofInt n).toInt? = some (Double.nearest n : Int) ∧
      Double.nearest n ≤ n + 0x400 ∧ n ≤ Double.nearest n + 0x400 ∧ (Double.nearest n = n ↔ 0x800 ∣ n)
  alike : ∀ m n : Int, -0x8000000000000000 ≤ m → m < 0x10000000000000000 →
    -0x8000000000000000 ≤ n → n < 0x10000000000000000 →
    (bind (.integer m) = bind (.integer n) ↔ m = n ∨ (0x8000000000000000 ≤ m ∧ 0x8000000000000000 ≤ n ∧
      Double.nearest m.toNat = Double.nearest n.toNat))
  field : ∀ (t : IntegerType) (v : t.Val),
    bind ((FieldType.integer t).toValue v) = word v.val ↔ (FieldType.integer t).fitsSigned v = true

theorem fitsWord_of_lt {n : Int} (hl : -0x8000000000000000 ≤ n) (hg : n < 0x8000000000000000) :
    fitsWord n = true := by
  simp [fitsWord, hl, hg]

theorem fitsWord_of_le {n : Int} (h : 0x8000000000000000 ≤ n) : fitsWord n = false := by
  simp [fitsWord]
  omega

/-- It is enough that no word is bound as another one, no float as another one, and none as the other. -/
theorem bindsIntegers {π : Type} {bind : Value → π} {word : Int → π} {float : Double → π}
    (hbind : ∀ n, bind (.integer n) = if fitsWord n then word n else float (.ofInt n))
    (hword : Function.Injective word) (hfloat : Function.Injective float) (hne : ∀ n x, word n ≠ float x) :
    BindsIntegers bind word float := by
  have hfits : ∀ {n : Int}, fitsWord n = true → bind (.integer n) = word n := fun h => by rw [hbind, if_pos h]
  have hwide : ∀ {n : Int}, fitsWord n = false → bind (.integer n) = float (.ofInt n) := fun h => by
    rw [hbind, h, if_neg Bool.false_ne_true]
  constructor
  case exact =>
    intro n hl hg
    exact hfits (fitsWord_of_lt hl hg)
  case rounded =>
    intro n hl hg
    have hn := hwide (fitsWord_of_le (n := n) (by omega))
    obtain ⟨hbelow, habove⟩ := Double.nearest_near n
    exact ⟨hn, fun k hk => hne k _ (hk.symm.trans hn), Double.toInt?_ofInt_wide hl hg, hbelow, habove,
      Double.nearest_eq_self_iff⟩
  case alike =>
    intro m n hlm hgm hln hgn
    rcases Int.lt_or_le m 0x8000000000000000 with hm | hm <;> rcases Int.lt_or_le n 0x8000000000000000 with hn | hn
    · rw [hfits (fitsWord_of_lt hlm hm), hfits (fitsWord_of_lt hln hn), hword.eq_iff]
      omega
    · rw [hfits (fitsWord_of_lt hlm hm), hwide (fitsWord_of_le hn)]
      exact iff_of_false (hne _ _) (by omega)
    · rw [hwide (fitsWord_of_le hm), hfits (fitsWord_of_lt hln hn)]
      exact iff_of_false (hne _ _).symm (by omega)
    · obtain ⟨k, rfl⟩ := Int.eq_ofNat_of_zero_le (show 0 ≤ m by omega)
      obtain ⟨l, rfl⟩ := Int.eq_ofNat_of_zero_le (show 0 ≤ n by omega)
      rw [hwide (fitsWord_of_le hm), hwide (fitsWord_of_le hn), hfloat.eq_iff,
        Double.ofInt_eq_ofInt_iff (by omega) (by omega) (by omega) (by omega), Int.toNat_natCast, Int.toNat_natCast]
      constructor
      · exact fun h => Or.inr ⟨hm, hn, h⟩
      · rintro (h | ⟨-, -, h⟩)
        · rw [Int.ofNat_inj.1 h]
        · exact h
  case field =>
    intro t v
    rw [FieldType.toValue, ← FieldType.fitsWord_eq_fitsSigned]
    cases hv : fitsWord v.val with
    | true => exact iff_of_true (hfits hv) rfl
    | false =>
      rw [hwide hv]
      exact iff_of_false (hne _ _).symm Bool.false_ne_true

/-- Every statement is sent with one parameter for each of its values. Of the integers of 64 bits exactly the signed
words are bound as they are, and the others as the nearest float. -/
theorem integers_bound (s : Statement) :
    (∀ r : Remote, (Action.after (Backend.execute s r)).log =
      r.log ++ [(s.sql, s.params.map Parameter.ofValue)]) ∧
    BindsIntegers Parameter.ofValue .int8 .float8 ∧
    (∀ e : Embedded, Action.after (Backend.execute s e) =
      (Embedded.advance s.sql (s.params.map Cell.ofValue) e).2) ∧
    BindsIntegers Cell.ofValue .integer .real := by
  refine ⟨fun r => ?_, ?_, Embedded.after_execute s, ?_⟩
  · exact congrArg Remote.log (Remote.after_send s _ r)
  · exact bindsIntegers (fun _ => rfl) (fun _ _ => Parameter.int8.inj) (fun _ _ => Parameter.float8.inj)
      (fun _ _ => nofun)
  · exact bindsIntegers (fun _ => rfl) (fun _ _ => Cell.integer.inj) (fun _ _ => Cell.real.inj) (fun _ _ => nofun)

/-- The last word, the last number, and three in a row of which the one in the middle is as near to a float below it
as to one above. -/
theorem integers_bound_limits :
    Parameter.ofValue (.integer 0x7FFFFFFFFFFFFFFF) = .int8 0x7FFFFFFFFFFFFFFF ∧
    (Double.ofInt 0xFFFFFFFFFFFFFFFF).toInt? = some 0x10000000000000000 ∧
    Parameter.ofValue (.integer 0x8000000000000400) = Parameter.ofValue (.integer 0x80000000000003FF) ∧
    Cell.ofValue (.integer 0x8000000000000400) ≠ Cell.ofValue (.integer 0x8000000000000401) := by
  obtain ⟨-, hserver, -, hcells⟩ := integers_bound (.plain "SELECT 1")
  refine ⟨hserver.exact _ (by decide) (by decide), ?_, ?_, fun h => ?_⟩
  · exact (hserver.rounded 0xFFFFFFFFFFFFFFFF (by decide) (by decide)).2.2.1
  · exact (hserver.alike _ _ (by decide) (by decide) (by decide) (by decide)).2
      (Or.inr ⟨by decide, by decide, by decide⟩)
  · have hsame := (hcells.alike _ _ (by decide) (by decide) (by decide) (by decide)).1 h
    revert hsame
    decide

/-- The first number that is no word, and the one after it: both backends are sent the same float for the two. -/
theorem neighbours_bound_alike :
    (∀ k, Parameter.ofValue (.integer 0x8000000000000001) ≠ .int8 k) ∧
    Parameter.ofValue (.integer 0x8000000000000001) = Parameter.ofValue (.integer 0x8000000000000000) ∧
    (∀ k, Cell.ofValue (.integer 0x8000000000000001) ≠ .integer k) ∧
    Cell.ofValue (.integer 0x8000000000000001) = Cell.ofValue (.integer 0x8000000000000000) :=
  ⟨nofun, by decide, nofun, by decide⟩

end Rowmap
