/-!
Numerals: the digits a number is written with. A reader that turns each digit into its value and
adds them up gets the number back; only zero begins with a zero.
-/
namespace RigBench

/-- What holds of all letters of a text is decided along the text, not along all letters. -/
instance decidableForallMemText (cs : List Char) (P : Char → Prop) [DecidablePred P] :
    Decidable (∀ c ∈ cs, P c) :=
  List.decidableBAll P cs

/-- The digits of a number in some base, first the most significant. -/
structure Numeral (base n : Nat) (ds : List Nat) : Prop where
  text : Nat.toDigits base n = ds.map Nat.digitChar
  lt : ∀ d ∈ ds, d < base
  value : ds.foldl (fun m d => m * base + d) 0 = n
  head_ne_zero : 0 < n → ds.head? ≠ some 0

namespace Numeral

theorem ne_nil {base n : Nat} {ds : List Nat} (h : Numeral base n ds) : ds ≠ [] := by
  rintro rfl
  exact Nat.toDigits_ne_nil h.text

theorem exists_cons {base n : Nat} {ds : List Nat} (h : Numeral base n ds) :
    ∃ d rest, ds = d :: rest := List.exists_cons_of_ne_nil h.ne_nil

theorem length_eq {base n : Nat} {ds : List Nat} (h : Numeral base n ds) :
    ds.length = (Nat.toDigits base n).length := by
  rw [h.text, List.length_map]

end Numeral

theorem exists_numeral {base : Nat} (hbase : 1 < base) (n : Nat) :
    ∃ ds, Numeral base n ds := by
  induction n using Nat.strongRecOn with
  | ind n ih =>
    by_cases hlt : n < base
    · refine ⟨[n], Nat.toDigits_of_lt_base hlt, by simpa using hlt, by simp, fun hpos => ?_⟩
      simp [Nat.ne_of_gt hpos]
    · have hle : base ≤ n := Nat.le_of_not_lt hlt
      have hquot : 0 < n / base := Nat.div_pos hle (by omega)
      obtain ⟨ds, h⟩ := ih (n / base) (Nat.div_lt_self (by omega) hbase)
      have hmod : n % base < base := Nat.mod_lt n (by omega)
      refine ⟨ds ++ [n % base], ?_, ?_, ?_, fun _ => ?_⟩
      · rw [Nat.toDigits_of_base_le hbase hle, h.text, List.map_append, List.map_singleton]
      · intro d hd
        rcases List.mem_append.mp hd with hd | hd
        · exact h.lt d hd
        · exact List.mem_singleton.mp hd ▸ hmod
      · rw [List.foldl_append, h.value]
        exact Nat.div_add_mod' n base
      · obtain ⟨d, rest, rfl⟩ := h.exists_cons
        exact h.head_ne_zero hquot

theorem le_foldl_digits {base : Nat} (hbase : 0 < base) (ds : List Nat) (n : Nat) :
    n ≤ ds.foldl (fun m d => m * base + d) n := by
  induction ds generalizing n with
  | nil => exact Nat.le_refl n
  | cons d ds ih =>
    calc n ≤ n * base := Nat.le_mul_of_pos_right n hbase
      _ ≤ n * base + d := Nat.le_add_right _ d
      _ ≤ _ := ih (n * base + d)

theorem isDigit_digitChar_of_lt {d : Nat} (h : d < 10) : d.digitChar.isDigit = true := by
  rw [Nat.isDigit_digitChar, decide_eq_true h]

end RigBench
