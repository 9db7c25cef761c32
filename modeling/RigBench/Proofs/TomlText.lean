import Mathlib.Data.List.Basic
import RigBench.Proofs.Numerals
import RigBench.Toml.Document

/-!
Strings without escapes, whole numbers and truth values are read back from their texts at the end
of a line. A whole number is taken for no date and no fraction, however its digits run.
-/
namespace RigBench.Toml

/-- May stand between quotes without being escaped. -/
structure Quotable (c : Char) : Prop where
  plain : isPlain c = true
  unquoted : c ≠ '"'
  unescaped : c ≠ '\\'

instance (c : Char) : Decidable (Quotable c) :=
  decidable_of_iff (isPlain c = true ∧ c ≠ '"' ∧ c ≠ '\\')
    ⟨fun ⟨h, h', h''⟩ => ⟨h, h', h''⟩, fun h => ⟨h.plain, h.unquoted, h.unescaped⟩⟩

theorem basicBody_append {cs : List Char} (h : ∀ c ∈ cs, Quotable c) (rest : List Char) :
    basicBody (cs ++ '"' :: rest) = some (cs, rest) := by
  induction cs with
  | nil => rfl
  | cons c cs ih =>
    obtain ⟨hc, hcs⟩ := List.forall_mem_cons.mp h
    have hplain : (c == '\\' || !isPlain c) = false := by
      simp [hc.unescaped, hc.plain]
    rw [List.cons_append, basicBody]
    · simp only [hplain, Bool.false_eq_true, if_false, ih hcs]
      rfl
    all_goals simp [hc.unquoted, hc.unescaped]

theorem readString_quoted {cs : List Char} (h : ∀ c ∈ cs, Quotable c) (hne : cs ≠ [])
    (rest : List Char) : readString ('"' :: (cs ++ '"' :: rest)) = some (String.ofList cs, rest) := by
  obtain ⟨c, cs, rfl⟩ := List.exists_cons_of_ne_nil hne
  have hbody := basicBody_append h rest
  have hc := (h c List.mem_cons_self).unquoted
  unfold readString
  split
  · next heq => simp [hc] at heq
  · next heq =>
    obtain rfl := (List.cons.inj heq).2
    rw [hbody]
    rfl
  · next heq => simp at heq
  · next heq => simp at heq
  · next h _ _ => exact absurd rfl (h _)

/-- A text that is read as a value where the line ends behind it. -/
structure Written (text : List Char) (v : Value) : Prop where
  starts : ∃ c more, text = c :: more ∧ isSpace c = false
  read (fuel : Nat) (rest : List Char) :
    readValue (fuel + 1) 0 (text ++ '\n' :: rest) = some (v, '\n' :: rest)
  /-- It stays on its line. -/
  unbroken : '\n' ∉ text

theorem written_string {cs : List Char} (h : ∀ c ∈ cs, Quotable c) (hne : cs ≠ []) :
    Written ('"' :: (cs ++ ['"'])) (.string (String.ofList cs)) where
  starts := ⟨'"', cs ++ ['"'], rfl, rfl⟩
  read fuel rest := by
    have hread := readString_quoted h hne ('\n' :: rest)
    rw [List.cons_append, List.append_assoc]
    unfold readValue
    exact congrArg (Option.map _) hread
  unbroken hbreak := by
    have hmem : '\n' ∈ cs := by simpa using hbreak
    exact absurd (h _ hmem).plain (by decide)

theorem written_boolean (b : Bool) : Written (toString b).toList (.boolean b) := by
  cases b with
  | true => exact ⟨⟨'t', _, rfl, rfl⟩, fun fuel rest => by unfold readValue; rfl, by decide⟩
  | false => exact ⟨⟨'f', _, rfl, rfl⟩, fun fuel rest => by unfold readValue; rfl, by decide⟩

theorem ne_of_separated {p : Char → Bool} {c x : Char} (hc : p c = true) (hx : p x = false) :
    c ≠ x := by
  rintro rfl
  exact Bool.noConfusion (hc.symm.trans hx)

theorem hexValue?_digitChar {d : Nat} (h : d < 10) : hexValue? d.digitChar = some d := by
  rw [hexValue?, if_pos (isDigit_digitChar_of_lt h), Nat.toNat_digitChar_sub_48_of_lt_ten h]

theorem valueOf_digits {ds : List Nat} (h : ∀ d ∈ ds, d < 10) :
    valueOf 10 (ds.map Nat.digitChar) = ds.foldl (fun m d => m * 10 + d) 0 := by
  rw [valueOf, List.foldl_map]
  refine List.foldl_ext _ _ _ fun n d hd => ?_
  rw [hexValue?_digitChar (h d hd)]
  rfl

theorem moreDigits_append {p : Char → Bool} {cs : List Char} (h : ∀ c ∈ cs, p c = true ∧ c ≠ '_')
    (hend : p '\n' = false) (rest : List Char) :
    moreDigits p (cs ++ '\n' :: rest) = some (cs, '\n' :: rest) := by
  induction cs with
  | nil =>
    rw [List.nil_append, moreDigits]
    · simp [hend]
    · simp
  | cons c cs ih =>
    obtain ⟨⟨hc, hline⟩, hcs⟩ := List.forall_mem_cons.mp h
    rw [List.cons_append, moreDigits]
    · simp [hline, hc, ih hcs, consTo]
    · simp [hline]

theorem readSign_digit {c : Char} (hc : c.isDigit = true) (cs : List Char) :
    readSign (c :: cs) = (false, c :: cs) := by
  unfold readSign
  split
  · next heq => exact absurd (List.cons.inj heq).1 (ne_of_separated hc rfl)
  · next heq => exact absurd (List.cons.inj heq).1 (ne_of_separated hc rfl)
  · rfl

/-- Digits with no zero in front, up to the end of the line. -/
structure WholeDigits (cs : List Char) : Prop where
  digits : ∀ c ∈ cs, c.isDigit = true
  zero_or : cs = ['0'] ∨ ∃ c rest, cs = c :: rest ∧ c ≠ '0'

theorem WholeDigits.exists_cons {cs : List Char} (h : WholeDigits cs) :
    ∃ c more, cs = c :: more ∧ c.isDigit = true := by
  obtain ⟨c, more, rfl⟩ : ∃ c more, cs = c :: more := by
    rcases h.zero_or with rfl | ⟨c, more, rfl, -⟩ <;> exact ⟨_, _, rfl⟩
  exact ⟨c, more, rfl, h.digits c List.mem_cons_self⟩

theorem wholeDigits_of_numeral {n : Nat} {ds : List Nat} (h : Numeral 10 n ds) :
    WholeDigits (ds.map Nat.digitChar) where
  digits := by
    rintro _ hc
    obtain ⟨d, hd, rfl⟩ := List.mem_map.mp hc
    exact isDigit_digitChar_of_lt (h.lt d hd)
  zero_or := by
    rcases Nat.eq_zero_or_pos n with rfl | hpos
    · exact Or.inl h.text.symm
    · obtain ⟨d, rest, rfl⟩ := h.exists_cons
      refine Or.inr ⟨d.digitChar, rest.map Nat.digitChar, rfl, fun hzero => ?_⟩
      have hd := Nat.toNat_digitChar_sub_48_of_lt_ten (h.lt d List.mem_cons_self)
      rw [hzero] at hd
      exact h.head_ne_zero hpos (congrArg some hd.symm)

theorem readWhole_digits {cs : List Char} (h : WholeDigits cs) (rest : List Char) :
    readWhole (cs ++ '\n' :: rest) = some ((false, cs), '\n' :: rest) := by
  rcases h.zero_or with rfl | ⟨c, more, rfl, hc⟩
  · rfl
  obtain ⟨hdigit, hmore⟩ := List.forall_mem_cons.mp h.digits
  have hrest := moreDigits_append (p := Char.isDigit)
    (fun x hx => ⟨hmore x hx, ne_of_separated (hmore x hx) rfl⟩) rfl rest
  rw [List.cons_append, readWhole, readSign_digit hdigit]
  dsimp only
  split
  · next heq => exact absurd (List.cons.inj heq).1 hc
  · rw [someDigits, if_pos hdigit, hrest]
    rfl

/-- A number of fixed length is taken from the digits, so no separator follows it. -/
theorem expect_after_digits (sep : Char) (hsep : sep.isDigit = false) (hline : sep ≠ '\n')
    {digits rest : List Char} (hdigits : ∀ c ∈ digits, c.isDigit = true)
    {count low high : Nat} {found : Nat × List Char}
    (h : fixedDigits count low high (digits ++ '\n' :: rest) = some found) :
    expect sep found.2 = none := by
  simp only [fixedDigits, Bool.and_eq_true, decide_eq_true_eq, List.all_eq_true,
    Option.ite_none_right_eq_some] at h
  obtain ⟨⟨-, hall⟩, -, hfound⟩ := h
  obtain rfl := Option.some.inj hfound
  have hcount : count ≤ digits.length := by
    refine Nat.le_of_not_lt fun hlt => ?_
    have hmem : '\n' ∈ (digits ++ '\n' :: rest).take count := by
      rw [List.take_append, List.take_of_length_le (Nat.le_of_lt hlt),
        List.take_cons (Nat.sub_pos_of_lt hlt)]
      simp
    exact absurd (hall _ hmem) (by decide)
  rw [List.drop_append_of_le_length hcount]
  cases htail : digits.drop count with
  | nil => simp [expect, hline]
  | cons c tail =>
    have hc := hdigits c (List.mem_of_mem_drop (htail ▸ List.mem_cons_self))
    simp [expect, (ne_of_separated hc hsep).symm]

theorem readDatetime_digits {digits : List Char} (h : ∀ c ∈ digits, c.isDigit = true)
    (rest : List Char) : readDatetime (digits ++ '\n' :: rest) = none := by
  have hdate : readDate (digits ++ '\n' :: rest) = none := by
    unfold readDate
    cases hyear : fixedDigits 4 0 9999 (digits ++ '\n' :: rest) with
    | none => rfl
    | some found =>
      have hexpect := expect_after_digits '-' rfl (by decide) h hyear
      simp [hexpect]
  have htime : readTime (digits ++ '\n' :: rest) = none := by
    unfold readTime
    cases hhour : fixedDigits 2 0 23 (digits ++ '\n' :: rest) with
    | none => rfl
    | some found =>
      have hexpect := expect_after_digits ':' rfl (by decide) h hhour
      simp [hexpect]
  rw [readDatetime, hdate]
  exact htime

theorem readDecimalFloat_digits {cs : List Char} (h : WholeDigits cs) (rest : List Char) :
    readDecimalFloat (cs ++ '\n' :: rest) = none := by
  rw [readDecimalFloat, readWhole_digits h]
  rfl

theorem readNamedFloat_digit {c : Char} (hc : c.isDigit = true) (cs : List Char) :
    readNamedFloat (c :: cs) = none := by
  rw [readNamedFloat, readSign_digit hc]
  simp only [Bool.false_eq_true, if_false]
  split
  · next heq => exact absurd (List.cons.inj heq).1 (ne_of_separated hc rfl)
  · next heq => exact absurd (List.cons.inj heq).1 (ne_of_separated hc rfl)
  · rfl

theorem readInteger_digits {cs : List Char} (h : WholeDigits cs) (rest : List Char) :
    readInteger (cs ++ '\n' :: rest) =
      (boundedInt? false (valueOf 10 cs)).map (·, '\n' :: rest) := by
  have hwhole := readWhole_digits h rest
  rcases h.zero_or with rfl | ⟨c, more, rfl, hc⟩
  · rfl
  rw [List.cons_append] at hwhole ⊢
  unfold readInteger
  split
  · next heq => exact absurd (List.cons.inj heq).1 hc
  · next heq => exact absurd (List.cons.inj heq).1 hc
  · next heq => exact absurd (List.cons.inj heq).1 hc
  · rw [hwhole]
    exact Option.map_eq_bind.symm

theorem readNumber_digits {cs : List Char} (h : WholeDigits cs) (rest : List Char) :
    readNumber (cs ++ '\n' :: rest) =
      (boundedInt? false (valueOf 10 cs)).map (.integer ·, '\n' :: rest) := by
  have hnamed : readNamedFloat (cs ++ '\n' :: rest) = none := by
    obtain ⟨c, more, rfl, hc⟩ := h.exists_cons
    exact readNamedFloat_digit hc _
  rw [readNumber, readDatetime_digits h.digits, readDecimalFloat_digits h, hnamed,
    readInteger_digits h]
  exact Option.map_map _ _ _

theorem readValue_digit {c : Char} (hc : c.isDigit = true) (cs : List Char) (fuel depth : Nat) :
    readValue (fuel + 1) depth (c :: cs) = readNumber (c :: cs) := by
  unfold readValue
  split
  all_goals first
    | next heq => exact absurd (List.cons.inj heq).1 (ne_of_separated hc rfl)
    | rfl

theorem written_count {n : Nat} (h : n < 9223372036854775808) :
    Written (Nat.toDigits 10 n) (.integer n) := by
  obtain ⟨ds, hds⟩ := exists_numeral (by decide : 1 < 10) n
  have hwhole := wholeDigits_of_numeral hds
  have hvalue : valueOf 10 (ds.map Nat.digitChar) = n := (valueOf_digits hds.lt).trans hds.value
  have hbounded : boundedInt? false n = some (n : Int) := if_pos h
  rw [hds.text]
  obtain ⟨c, more, htext, hc⟩ := hwhole.exists_cons
  have hspace : isSpace c = false := by
    simp [isSpace, ne_of_separated hc]
  have hunbroken : '\n' ∉ ds.map Nat.digitChar := fun hmem =>
    absurd (hwhole.digits _ hmem) (by decide)
  refine ⟨⟨c, more, htext, hspace⟩, fun fuel rest => ?_, hunbroken⟩
  have hread := readNumber_digits hwhole rest
  rw [hvalue, hbounded, htext] at hread
  rw [htext]
  exact (readValue_digit hc _ fuel 0).trans hread

end RigBench.Toml
