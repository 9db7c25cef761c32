import Mathlib.Algebra.GroupWithZero.Nat
import RigBench.Duration.Text
import RigBench.Proofs.Numerals

/-!
Durations are read back from their texts: the pieces of a text add up to the duration it was made
of, and every sum on the way fits.
-/
namespace RigBench.Duration

theorem toNat_of_unitLetter {c : Char} (h : isUnitLetter c = true) :
    (97 ≤ c.toNat ∧ c.toNat ≤ 122) ∨ (65 ≤ c.toNat ∧ c.toNat ≤ 90) ∨ c.toNat = 181 := by
  simpa [isUnitLetter, Char.le_def, UInt32.le_iff_toNat_le, or_assoc, ← Char.toNat_inj] using h

theorem not_blank_of_unitLetter {c : Char} (h : isUnitLetter c = true) :
    c.isDigit = false ∧ Text.isBlank c = false := by
  have hrange := toNat_of_unitLetter h
  constructor
  · simp [Char.isDigit, UInt32.le_iff_toNat_le]
    omega
  · simp [Text.isBlank]
    omega

theorem digit_digitChar {d : Nat} (h : d < 10) : digit d.digitChar = d :=
  Nat.toNat_digitChar_sub_48_of_lt_ten h

theorem bounded_of_lt {n : Nat} (h : n < 18446744073709551616) : bounded n = .ok n := if_pos h

theorem numberTail_cons (n : Nat) (c : Char) (rest : List Char) (place : Nat) :
    numberTail n ⟨c :: rest, place⟩ =
      if c.isDigit then do
        numberTail (← bounded (n * 10 + digit c)) ⟨rest, place + c.utf8Size⟩
      else if Text.isBlank c then numberTail n ⟨rest, place + c.utf8Size⟩
      else if isUnitLetter c then .ok (n, none, ⟨c :: rest, place⟩)
      else if c == '.' then do
        let (f, k) ← fractionDigits ⟨0, 1⟩ place ⟨rest, place + c.utf8Size⟩
        return (n, some f, k)
      else .error (.invalidCharacter place) := by
  rw [numberTail]
  rfl

theorem unitLetters_cons (c : Char) (rest : List Char) (place : Nat) :
    unitLetters ⟨c :: rest, place⟩ =
      if c.isDigit then .ok ([], some (digit c), ⟨rest, place + c.utf8Size⟩)
      else if Text.isBlank c then .ok ([], none, ⟨rest, place + c.utf8Size⟩)
      else if isUnitLetter c then do
        let (cs, next, k) ← unitLetters ⟨rest, place + c.utf8Size⟩
        return (c :: cs, next, k)
      else .error (.invalidCharacter place) := by
  rw [unitLetters]
  rfl

theorem numberTail_digits {c : Char} (hc : isUnitLetter c = true) (rest : List Char) {v : Nat}
    (hv : v < 18446744073709551616) {ds : List Nat} (hlt : ∀ d ∈ ds, d < 10) {n : Nat}
    (hvalue : ds.foldl (fun m d => m * 10 + d) n = v) (place : Nat) :
    ∃ place', numberTail n ⟨ds.map Nat.digitChar ++ c :: rest, place⟩ =
      .ok (v, none, ⟨c :: rest, place'⟩) := by
  induction ds generalizing n place with
  | nil =>
    obtain ⟨hdigit, hblank⟩ := not_blank_of_unitLetter hc
    obtain rfl : n = v := hvalue
    refine ⟨place, ?_⟩
    rw [List.map_nil, List.nil_append, numberTail_cons]
    simp only [hdigit, hblank, hc, if_true, Bool.false_eq_true, if_false]
  | cons d ds ih =>
    obtain ⟨hd, hlt⟩ := List.forall_mem_cons.mp hlt
    have hdigit := isDigit_digitChar_of_lt hd
    have hfits : n * 10 + d < 18446744073709551616 := by
      have hle := le_foldl_digits (by decide : 0 < 10) ds (n * 10 + d)
      rw [List.foldl_cons] at hvalue
      omega
    obtain ⟨place', hrest⟩ := ih hlt hvalue (place + d.digitChar.utf8Size)
    refine ⟨place', ?_⟩
    rw [List.map_cons, List.cons_append, numberTail_cons, if_pos hdigit, digit_digitChar hd,
      bounded_of_lt hfits]
    exact hrest

theorem unitLetters_name {name : List Char} (hname : ∀ c ∈ name, isUnitLetter c = true)
    {follow after : List Char} (hfollow : follow = ' ' :: after ∨ follow = [] ∧ after = [])
    (place : Nat) :
    ∃ place', unitLetters ⟨name ++ follow, place⟩ = .ok (name, none, ⟨after, place'⟩) := by
  induction name generalizing place with
  | nil =>
    rcases hfollow with rfl | ⟨rfl, rfl⟩
    · refine ⟨place + ' '.utf8Size, ?_⟩
      rw [List.nil_append, unitLetters_cons]
      rfl
    · refine ⟨place, ?_⟩
      rw [unitLetters]
      rfl
  | cons c name ih =>
    obtain ⟨hc, hname⟩ := List.forall_mem_cons.mp hname
    obtain ⟨hdigit, hblank⟩ := not_blank_of_unitLetter hc
    obtain ⟨place', hrest⟩ := ih hname (place + c.utf8Size)
    refine ⟨place', ?_⟩
    rw [List.cons_append, unitLetters_cons]
    simp only [hdigit, hblank, hc, if_true, Bool.false_eq_true, if_false, hrest]
    rfl

structure Names (name : String) (unit : TimeUnit) : Prop where
  unit : unitOf? name = some unit
  letters : ∀ c ∈ name.toList, isUnitLetter c = true
  ne_nil : name.toList ≠ []

structure Piece where
  count : Nat
  name : String
  unit : TimeUnit

namespace Piece

def Named (p : Piece) : Prop := Names p.name p.unit

def text (p : Piece) : String := toString p.count ++ p.name

def follow (ps : List Piece) : List Char := ps.flatMap fun p => ' ' :: p.text.toList

def add (sum : Nat × Nat) (p : Piece) : Except TextError (Nat × Nat) :=
  addUnits sum p.count none p.unit

theorem toList_text {p : Piece} {ds : List Nat} (h : Numeral 10 p.count ds) :
    p.text.toList = ds.map Nat.digitChar ++ p.name.toList := by
  rw [text, String.toList_append, ← h.text]
  exact congrArg (· ++ _) Nat.toList_repr

theorem toList_intercalate (p : Piece) (ps : List Piece) :
    (" ".intercalate ((p :: ps).map text)).toList = p.text.toList ++ follow ps := by
  induction ps generalizing p with
  | nil => simp [follow]
  | cons q ps ih =>
    rw [List.map_cons, List.map_cons, String.intercalate_cons_cons, ← List.map_cons,
      String.toList_append, String.toList_append, ih q]
    simp [follow]

theorem length_le_follow (ps : List Piece) : ps.length ≤ (follow ps).length := by
  induction ps with
  | nil => exact Nat.le_refl 0
  | cons p ps ih =>
    simp only [follow, List.flatMap_cons, List.length_append, List.length_cons] at ih ⊢
    omega

end Piece

theorem firstDigit_nil (place place' : Nat) : firstDigit place ⟨[], place'⟩ = .ok none := by
  rw [firstDigit]

theorem firstDigit_digitChar {d : Nat} (hd : d < 10) (place place' : Nat) (rest : List Char) :
    firstDigit place ⟨d.digitChar :: rest, place'⟩ =
      .ok (some (d, ⟨rest, place' + d.digitChar.utf8Size⟩)) := by
  have hdigit := isDigit_digitChar_of_lt hd
  rw [firstDigit]
  simp only [hdigit, if_true, digit_digitChar hd, Cursor.past]

theorem unitAfter_name {p : Piece} (hp : p.Named) (n : Nat) :
    unitAfter n p.name.toList = .ok p.unit := by
  unfold unitAfter
  rw [String.ofList_toList, hp.unit]

theorem parts_piece {p : Piece} (hp : p.Named) (hcount : p.count < 18446744073709551616)
    (fuel : Nat) (sum : Nat × Nat) {d : Nat} {ds : List Nat} (hds : Numeral 10 p.count (d :: ds))
    {follow after : List Char} (hfollow : follow = ' ' :: after ∨ follow = [] ∧ after = [])
    (place : Nat) :
    ∃ place', parts (fuel + 1) sum d ⟨ds.map Nat.digitChar ++ (p.name.toList ++ follow), place⟩ =
      (p.add sum).bind fun sum =>
        (firstDigit place' ⟨after, place'⟩).bind fun
          | none => .ok sum
          | some (d, k) => parts fuel sum d k := by
  obtain ⟨c, cs, hname⟩ := List.exists_cons_of_ne_nil hp.ne_nil
  have hletters := hp.letters
  have hunit := unitAfter_name hp p.count
  rw [hname] at hletters hunit ⊢
  have hvalue : ds.foldl (fun m d => m * 10 + d) d = p.count := by
    simpa using hds.value
  obtain ⟨middle, htail⟩ := numberTail_digits (hletters c List.mem_cons_self) (cs ++ follow) hcount
    (fun d hd => hds.lt d (List.mem_cons_of_mem _ hd)) hvalue place
  obtain ⟨place', hunitLetters⟩ := unitLetters_name hletters hfollow middle
  refine ⟨place', ?_⟩
  rw [List.cons_append] at hunitLetters
  rw [parts, List.cons_append, htail]
  simp only [bind, Except.bind, hunitLetters, hunit, Piece.add]
  rfl

theorem parts_pieces {p : Piece} {ps : List Piece} (hp : ∀ q ∈ p :: ps, q.Named)
    (hcount : ∀ q ∈ p :: ps, q.count < 18446744073709551616) {fuel : Nat} (hfuel : ps.length < fuel)
    (sum : Nat × Nat) {d : Nat} {ds : List Nat} (hds : Numeral 10 p.count (d :: ds)) (place : Nat) :
    parts fuel sum d ⟨ds.map Nat.digitChar ++ (p.name.toList ++ Piece.follow ps), place⟩ =
      (p :: ps).foldlM Piece.add sum := by
  induction ps generalizing p fuel sum d ds place with
  | nil =>
    obtain ⟨fuel, rfl⟩ := Nat.exists_eq_succ_of_ne_zero (Nat.ne_zero_of_lt hfuel)
    obtain ⟨place', hparts⟩ := parts_piece (hp p List.mem_cons_self) (hcount p List.mem_cons_self)
      fuel sum hds (.inr ⟨rfl, rfl⟩) place
    rw [Piece.follow, List.flatMap_nil, hparts]
    simp only [firstDigit_nil]
    rfl
  | cons q ps ih =>
    obtain ⟨fuel, rfl⟩ := Nat.exists_eq_succ_of_ne_zero (Nat.ne_zero_of_lt hfuel)
    obtain ⟨hp, hps⟩ := List.forall_mem_cons.mp hp
    obtain ⟨hcount, hcounts⟩ := List.forall_mem_cons.mp hcount
    obtain ⟨ds', hds'⟩ := exists_numeral (by decide : 1 < 10) q.count
    obtain ⟨d', ds', rfl⟩ := hds'.exists_cons
    have hfollow : Piece.follow (q :: ps) =
        ' ' :: (d'.digitChar :: (ds'.map Nat.digitChar ++ (q.name.toList ++ Piece.follow ps))) := by
      simp [Piece.follow, Piece.toList_text hds']
    obtain ⟨place', hparts⟩ := parts_piece hp hcount fuel sum hds (.inl hfollow) place
    rw [hparts, List.foldlM_cons]
    refine congrArg (Except.bind _) (funext fun sum => ?_)
    rw [firstDigit_digitChar (hds'.lt d' List.mem_cons_self)]
    exact ih hps hcounts (Nat.lt_of_succ_lt_succ hfuel) sum hds' _

theorem addTo_of_fits {s n seconds nanos : Nat} (hs : s + seconds < 18446744073709551616)
    (hn : n + nanos < nanosPerSecond) :
    addTo (s, n) seconds nanos = .ok (s + seconds, n + nanos) := by
  have hnanos : bounded (n + nanos) = .ok (n + nanos) :=
    bounded_of_lt (Nat.lt_trans hn (by decide))
  have hseconds : bounded (s + seconds + (n + nanos) / nanosPerSecond) = .ok (s + seconds) := by
    rw [Nat.div_eq_of_lt hn, Nat.add_zero]
    exact bounded_of_lt hs
  simp only [addTo, bind, Except.bind, hnanos, hseconds, Nat.mod_eq_of_lt hn]
  rfl

namespace Piece

def secondsOf (p : Piece) : Nat :=
  match p.unit with
  | .seconds k => p.count * k
  | .nanos _ => 0

def nanosOf (p : Piece) : Nat :=
  match p.unit with
  | .seconds _ => 0
  | .nanos k => p.count * k

@[simp] theorem secondsOf_seconds (n : Nat) (name : String) (k : Nat) :
    secondsOf ⟨n, name, .seconds k⟩ = n * k := rfl

@[simp] theorem secondsOf_nanos (n : Nat) (name : String) (k : Nat) :
    secondsOf ⟨n, name, .nanos k⟩ = 0 := rfl

@[simp] theorem nanosOf_seconds (n : Nat) (name : String) (k : Nat) :
    nanosOf ⟨n, name, .seconds k⟩ = 0 := rfl

@[simp] theorem nanosOf_nanos (n : Nat) (name : String) (k : Nat) :
    nanosOf ⟨n, name, .nanos k⟩ = n * k := rfl

theorem add_of_fits {p : Piece} {s n : Nat} (hs : s + p.secondsOf < 18446744073709551616)
    (hn : n + p.nanosOf < nanosPerSecond) : add (s, n) p = .ok (s + p.secondsOf, n + p.nanosOf) := by
  have hnanos : nanosPerSecond = 1000000000 := rfl
  unfold secondsOf at hs
  unfold nanosOf at hn
  unfold add addUnits secondsOf nanosOf
  split at hs
  · next k hunit =>
    simp only [hunit] at hn ⊢
    have hproduct : bounded (p.count * k) = .ok (p.count * k) := bounded_of_lt (by omega)
    simp only [bind, Except.bind, hproduct, addTo_of_fits hs hn]
    rfl
  · next k hunit =>
    simp only [hunit] at hn ⊢
    have hproduct : bounded (p.count * k) = .ok (p.count * k) := bounded_of_lt (by omega)
    simp only [bind, Except.bind, hproduct, addTo_of_fits hs hn]
    rfl

theorem foldlM_add {ps : List Piece} {s n : Nat}
    (hs : s + (ps.map secondsOf).sum < 18446744073709551616)
    (hn : n + (ps.map nanosOf).sum < nanosPerSecond) :
    ps.foldlM add (s, n) = .ok (s + (ps.map secondsOf).sum, n + (ps.map nanosOf).sum) := by
  induction ps generalizing s n with
  | nil => rfl
  | cons p ps ih =>
    rw [List.map_cons, List.sum_cons] at hs hn ⊢
    rw [List.map_cons, List.sum_cons]
    rw [List.foldlM_cons, add_of_fits (by omega) (by omega)]
    refine (ih (by omega) (by omega)).trans ?_
    rw [Nat.add_assoc, Nat.add_assoc]

theorem secondsOf_of_count {p : Piece} (h : p.count = 0) : p.secondsOf = 0 := by
  unfold secondsOf
  split
  · rw [h, Nat.zero_mul]
  · rfl

theorem nanosOf_of_count {p : Piece} (h : p.count = 0) : p.nanosOf = 0 := by
  unfold nanosOf
  split
  · rfl
  · rw [h, Nat.zero_mul]

theorem sum_filter (ps : List Piece) {value : Piece → Nat}
    (hvalue : ∀ {p}, p.count = 0 → value p = 0) :
    ((ps.filter (·.count != 0)).map value).sum = (ps.map value).sum := by
  induction ps with
  | nil => rfl
  | cons p ps ih =>
    by_cases hzero : p.count = 0
    · simp [hzero, ih, hvalue hzero]
    · simp [hzero, ih]

end Piece

/-- What is written of a duration, with the parts that are left out for being zero. -/
def pieces (d : Duration) : List Piece :=
  let years := d.seconds / 31557600
  let ofYear := d.seconds % 31557600
  let months := ofYear / 2630016
  let ofMonth := ofYear % 2630016
  let days := ofMonth / 86400
  let ofDay := ofMonth % 86400
  let nanos := d.subsecNanos
  [⟨years, if 1 < years then "years" else "year", .seconds 31557600⟩,
   ⟨months, if 1 < months then "months" else "month", .seconds 2630016⟩,
   ⟨days, if 1 < days then "days" else "day", .seconds 86400⟩,
   ⟨ofDay / 3600, "h", .seconds 3600⟩,
   ⟨ofDay % 3600 / 60, "m", .seconds 60⟩,
   ⟨ofDay % 60, "s", .seconds 1⟩,
   ⟨nanos / 1000000, "ms", .nanos 1000000⟩,
   ⟨nanos / 1000 % 1000, "us", .nanos 1000⟩,
   ⟨nanos % 1000, "ns", .nanos 1⟩]

theorem sum_of_day (t : Nat) : t / 3600 * 3600 + (t % 3600 / 60 * 60 + t % 60) = t := by
  rw [← Nat.mod_mod_of_dvd t (by decide : 60 ∣ 3600), Nat.div_add_mod', Nat.div_add_mod']

theorem sum_of_thousands (n : Nat) :
    n / 1000000 * 1000000 + (n / 1000 % 1000 * 1000 + n % 1000) = n := by
  have hmillions : n / 1000000 * 1000000 = n / 1000 / 1000 * 1000 * 1000 := by
    rw [Nat.div_div_eq_div_mul, Nat.mul_assoc]
  rw [hmillions, ← Nat.add_assoc, ← Nat.add_mul, Nat.div_add_mod', Nat.div_add_mod']

theorem seconds_pieces (d : Duration) : (d.pieces.map Piece.secondsOf).sum = d.seconds := by
  -- The steps stay equations: by definition, the units would be multiplied out one by one.
  simp -implicitDefEqProofs only [pieces, List.map_cons, List.map_nil, List.sum_cons, List.sum_nil,
    Piece.secondsOf_seconds, Piece.secondsOf_nanos, Nat.mul_one, Nat.add_zero]
  rw [sum_of_day, Nat.div_add_mod', Nat.div_add_mod', Nat.div_add_mod']

theorem nanos_pieces (d : Duration) : (d.pieces.map Piece.nanosOf).sum = d.subsecNanos := by
  simp -implicitDefEqProofs only [pieces, List.map_cons, List.map_nil, List.sum_cons, List.sum_nil,
    Piece.nanosOf_seconds, Piece.nanosOf_nanos, Nat.mul_one, Nat.add_zero, Nat.zero_add]
  exact sum_of_thousands d.subsecNanos

theorem flatMap_part (ps : List Piece) :
    ps.flatMap (fun p => part p.count p.name) = (ps.filter (·.count != 0)).map Piece.text := by
  induction ps with
  | nil => rfl
  | cons p ps ih =>
    rw [List.flatMap_cons, ih]
    by_cases hzero : p.count = 0 <;> simp [part, hzero, Piece.text]

theorem renderedParts_eq (d : Duration) :
    d.renderedParts = (d.pieces.filter (·.count != 0)).map Piece.text := by
  rw [← flatMap_part]
  simp [renderedParts, pieces, plural]

theorem names_plural (n : Nat) {one many : String} {unit : TimeUnit} (hone : Names one unit)
    (hmany : Names many unit) : Names (if 1 < n then many else one) unit := by
  split
  · exact hmany
  · exact hone

theorem named_pieces (d : Duration) : ∀ p ∈ d.pieces, p.Named := by
  simp only [pieces, List.forall_mem_cons, Piece.Named]
  refine ⟨names_plural _ ?_ ?_, names_plural _ ?_ ?_, names_plural _ ?_ ?_, ?_, ?_, ?_, ?_, ?_, ?_,
    nofun⟩ <;> exact ⟨by decide, by decide, by decide⟩

theorem count_pieces (d : Duration) : ∀ p ∈ d.pieces, p.count < 18446744073709551616 := by
  have hseconds := d.seconds_lt
  have hnanos : d.subsecNanos < 1000000000 := d.subsecNanos_lt
  simp only [pieces, List.forall_mem_cons]
  refine ⟨?_, ?_, ?_, ?_, ?_, ?_, ?_, ?_, ?_, nofun⟩ <;> omega

/-- The last step of a reader. The maker of durations is a variable here, since the one there is
compares with numbers too large to be computed with. -/
theorem bind_make {make : Nat → Nat → Option Duration} {seconds nanos : Nat} {d : Duration}
    (hd : make seconds nanos = some d) :
    (Except.bind (.ok (seconds, nanos)) fun (seconds, nanos) =>
      match make seconds nanos with
      | some d => Except.ok d
      | none => Except.error TextError.tooLarge) = .ok d := by
  simp only [Except.bind, hd]

theorem parse_of_parts {s : String} (hzero : s ≠ "0") {e : Nat} {k : Cursor}
    (hfirst : firstDigit 0 ⟨s.toList, 0⟩ = .ok (some (e, k))) {seconds nanos : Nat}
    (hparts : parts (s.toList.length + 1) (0, 0) e k = .ok (seconds, nanos)) {d : Duration}
    (hd : ofParts? seconds nanos = some d) : parse s = .ok d := by
  unfold parse
  rw [if_neg hzero]
  change Except.bind (firstDigit 0 ⟨s.toList, 0⟩) _ = _
  rw [hfirst]
  change Except.bind (parts (s.toList.length + 1) (0, 0) e k) _ = _
  rw [hparts]
  exact bind_make hd

/-- A text of pieces that add up to a duration is read as that duration. -/
theorem parse_pieces {p : Piece} {ps : List Piece} (hnamed : ∀ q ∈ p :: ps, q.Named)
    (hcount : ∀ q ∈ p :: ps, q.count < 18446744073709551616) {d : Duration}
    (hseconds : ((p :: ps).map Piece.secondsOf).sum = d.seconds)
    (hnanos : ((p :: ps).map Piece.nanosOf).sum = d.subsecNanos) :
    parse (" ".intercalate ((p :: ps).map Piece.text)) = .ok d := by
  obtain ⟨ds, hds⟩ := exists_numeral (by decide : 1 < 10) p.count
  obtain ⟨e, ds, rfl⟩ := hds.exists_cons
  have htext : (" ".intercalate ((p :: ps).map Piece.text)).toList =
      e.digitChar :: (ds.map Nat.digitChar ++ (p.name.toList ++ Piece.follow ps)) := by
    rw [Piece.toList_intercalate, Piece.toList_text hds]
    simp
  generalize " ".intercalate ((p :: ps).map Piece.text) = text at htext ⊢
  have hzero : text ≠ "0" := by
    rintro rfl
    have hname := List.length_pos_iff.mpr (hnamed p List.mem_cons_self).ne_nil
    have hlength := congrArg List.length htext
    rw [List.length_cons, List.length_append, List.length_append] at hlength
    have hone : "0".toList.length = 1 := by decide
    omega
  have hsum : (p :: ps).foldlM Piece.add (0, 0) = .ok (d.seconds, d.subsecNanos) := by
    rw [← hseconds, ← hnanos]
    refine (Piece.foldlM_add ?_ ?_).trans ?_
    · rw [hseconds, Nat.zero_add]
      exact d.seconds_lt
    · rw [hnanos, Nat.zero_add]
      exact d.subsecNanos_lt
    · rw [Nat.zero_add, Nat.zero_add]
  have hfuel : ps.length < text.toList.length + 1 := by
    have hle := Piece.length_le_follow ps
    rw [htext, List.length_cons, List.length_append, List.length_append]
    omega
  have hfirst := firstDigit_digitChar (hds.lt e List.mem_cons_self) 0 0
    (ds.map Nat.digitChar ++ (p.name.toList ++ Piece.follow ps))
  rw [← htext] at hfirst
  have hparts := parts_pieces hnamed hcount hfuel (0, 0) hds (0 + e.digitChar.utf8Size)
  exact parse_of_parts hzero hfirst (hparts.trans hsum) d.ofParts?_parts

theorem parse_render (d : Duration) : parse d.render = .ok d := by
  unfold render
  split
  · next hzero =>
    have hnanos : d.nanos = 0 := beq_iff_eq.mp hzero
    have htext : "0s" = " ".intercalate (([⟨0, "s", .seconds 1⟩] : List Piece).map Piece.text) := rfl
    rw [htext]
    refine parse_pieces ?_ ?_ ?_ ?_
    · simp only [List.forall_mem_cons, Piece.Named]
      exact ⟨⟨by decide, by decide, by decide⟩, nofun⟩
    · simp
    · simp [Piece.secondsOf, seconds, hnanos]
    · simp [Piece.nanosOf, subsecNanos, hnanos]
  · next hpos =>
    have hseconds := (Piece.sum_filter d.pieces Piece.secondsOf_of_count).trans d.seconds_pieces
    have hnanos := (Piece.sum_filter d.pieces Piece.nanosOf_of_count).trans d.nanos_pieces
    have hnamed : ∀ p ∈ d.pieces.filter (·.count != 0), p.Named := fun p hp =>
      d.named_pieces p (List.mem_filter.mp hp).1
    have hcount : ∀ p ∈ d.pieces.filter (·.count != 0), p.count < 18446744073709551616 :=
      fun p hp => d.count_pieces p (List.mem_filter.mp hp).1
    rw [renderedParts_eq]
    generalize d.pieces.filter (·.count != 0) = ps at hseconds hnanos hnamed hcount ⊢
    cases ps with
    | nil =>
      have hparts : d.seconds * nanosPerSecond + d.subsecNanos = d.nanos :=
        Nat.div_add_mod' d.nanos nanosPerSecond
      rw [← hseconds, ← hnanos] at hparts
      exact absurd (beq_iff_eq.mpr hparts.symm) hpos
    | cons p ps => exact parse_pieces hnamed hcount hseconds hnanos

end RigBench.Duration
