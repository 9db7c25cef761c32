import RigBench.Proofs.Numerals
import RigBench.SocketAddress

/-!
Socket addresses are read back from their texts.
-/
namespace RigBench.SocketAddress

theorem digitValue?_digitChar {base d : Nat} (hbase : base ≤ 16) (hd : d < base) :
    digitValue? base d.digitChar = some d := by
  have hvalue : ∀ d < 16, digitValue? 16 d.digitChar = some d := by decide
  have hsome : digitValue? 16 d.digitChar = some d := hvalue d (by omega)
  unfold digitValue? at hsome ⊢
  rw [Option.filter_eq_some_iff] at hsome ⊢
  exact ⟨hsome.1, by simpa using hd⟩

/-- A text whose first character, if it has one, is no digit. -/
def Undigited (base : Nat) (cs : List Char) : Prop := ∀ c ∈ cs.head?, digitValue? base c = none

theorem takeDigits_of_undigited {base : Nat} {cs : List Char} (h : Undigited base cs)
    (count : Option Nat) : takeDigits base count cs = ([], cs) := by
  cases cs with
  | nil => cases count with
    | none => rfl
    | some n => cases n <;> rfl
  | cons c rest =>
    have hc : digitValue? base c = none := h c rfl
    unfold takeDigits
    split
    · rfl
    · contradiction
    · next heq _ =>
      obtain ⟨rfl, rfl⟩ := List.cons.inj heq
      rw [hc]

/-- The digits of a number end where no other digit follows or as many as allowed are taken. -/
theorem takeDigits_append {base : Nat} (hbase : base ≤ 16) {ds : List Nat} {rest : List Char}
    (hlt : ∀ d ∈ ds, d < base) (hrest : Undigited base rest) (count : Option Nat)
    (hcount : ∀ k ∈ count, ds.length ≤ k) :
    takeDigits base count (ds.map Nat.digitChar ++ rest) = (ds, rest) := by
  induction ds generalizing count with
  | nil => exact takeDigits_of_undigited hrest count
  | cons d ds ih =>
    obtain ⟨hd, hlt⟩ := List.forall_mem_cons.mp hlt
    have hcount' : ∀ k ∈ count.map (· - 1), ds.length ≤ k := by
      intro k hk
      obtain ⟨m, hm, rfl⟩ := Option.map_eq_some_iff.mp hk
      have := hcount m hm
      rw [List.length_cons] at this
      omega
    rw [List.map_cons, List.cons_append, takeDigits]
    · rw [digitValue?_digitChar hbase hd]
      simp only [ih hlt _ hcount']
    · rintro rfl
      exact absurd (hcount 0 rfl) (by simp)

theorem number_of_undigited {base : Nat} {cs : List Char} (h : Undigited base cs)
    (count : Option Nat) (limit : Nat) : number base count limit cs = none := by
  unfold number
  rw [takeDigits_of_undigited h]

theorem number_append {base : Nat} (hbase : 1 < base) (hbase' : base ≤ 16) {n limit : Nat}
    (hn : n < limit) {rest : List Char} (hrest : Undigited base rest) {count : Option Nat}
    (hcount : ∀ k ∈ count, (Nat.toDigits base n).length ≤ k) :
    number base count limit (Nat.toDigits base n ++ rest) = some (n, rest) := by
  obtain ⟨ds, hds⟩ := exists_numeral hbase n
  rw [← hds.length_eq] at hcount
  obtain ⟨d, ds, rfl⟩ := hds.exists_cons
  unfold number
  rw [hds.text, takeDigits_append hbase' hds.lt hrest count hcount]
  simp only [hds.value, if_pos hn]

theorem undigited_cons {base : Nat} {c : Char} {rest : List Char}
    (h : digitValue? base c = none) : Undigited base (c :: rest) := by
  intro d hd
  obtain rfl := Option.some.inj hd
  exact h

theorem undigited_nil (base : Nat) : Undigited base [] := nofun

theorem octet_decimal (n : UInt8) {rest : List Char} (hrest : Undigited 10 rest) :
    octet (decimal n.toNat ++ rest) = some (n, rest) := by
  have hn : n.toNat < 256 := n.toNat_lt
  have hlength : (Nat.toDigits 10 n.toNat).length ≤ 3 :=
    (Nat.length_toDigits_le_iff (by decide) (by decide)).mpr (by omega)
  have hnumber : number 10 (some 3) 256 (decimal n.toNat ++ rest) = some (n.toNat, rest) :=
    number_append (by decide) (by decide) hn hrest fun k hk => by
      obtain rfl := Option.some.inj hk
      exact hlength
  -- of the numbers with more than one digit none begins with a zero
  have hlead : ((decimal n.toNat ++ rest).head? == some '0' &&
      (decimal n.toNat ++ rest).length - rest.length != 1) = false := by
    rw [List.length_append, Nat.add_sub_cancel]
    by_cases hzero : n.toNat = 0
    · rw [hzero]
      exact Bool.and_false _
    · obtain ⟨ds, hds⟩ := exists_numeral (by decide : 1 < 10) n.toNat
      have hhead := hds.head_ne_zero (Nat.pos_of_ne_zero hzero)
      obtain ⟨d, ds, rfl⟩ := hds.exists_cons
      have hd : d ≠ 0 := fun h => hhead (congrArg some h)
      have hchar : (some d.digitChar == some '0') = false := by simpa using hd
      rw [decimal, hds.text, List.map_cons, List.cons_append, List.head?_cons, hchar,
        Bool.false_and]
  unfold octet
  rw [hnumber]
  simp only [Option.bind_eq_bind, Option.bind_some, hlead, Bool.false_eq_true, if_false,
    UInt8.ofNat_toNat]
  rfl

theorem expect_cons (c : Char) (rest : List Char) : expect c (c :: rest) = some ((), rest) := by
  simp [expect]

theorem dotted_renderV4 (a b c d : UInt8) {rest : List Char} (hrest : Undigited 10 rest) :
    dotted (renderV4 a b c d ++ rest) = some ((a, b, c, d), rest) := by
  have hdot (cs : List Char) : Undigited 10 ('.' :: cs) := undigited_cons (by decide)
  unfold dotted renderV4
  simp only [List.append_assoc, List.cons_append, Option.bind_eq_bind, octet_decimal _ (hdot _),
    octet_decimal _ hrest, Option.bind_some, expect_cons]
  rfl

theorem readPort_decimal (port : UInt16) :
    readPort (':' :: decimal port.toNat) = some (port, []) := by
  have hnumber : number 10 none 65536 (decimal port.toNat ++ []) = some (port.toNat, []) :=
    number_append (by decide) (by decide) port.toNat_lt (undigited_nil 10) nofun
  rw [List.append_nil] at hnumber
  unfold readPort
  simp only [expect_cons, hnumber, Option.bind_eq_bind, Option.bind_some, UInt16.ofNat_toNat]
  rfl

theorem readV4_renderV4 (a b c d : UInt8) (port : UInt16) :
    readV4 (renderV4 a b c d ++ ':' :: decimal port.toNat) =
      some ({ ip := .v4 a b c d, port }, []) := by
  have hcolon : Undigited 10 (':' :: decimal port.toNat) := undigited_cons (by decide)
  unfold readV4
  simp only [dotted_renderV4 a b c d hcolon, readPort_decimal, Option.bind_eq_bind,
    Option.bind_some]
  rfl

theorem takeDigits_suffix (base : Nat) (cs : List Char) (count : Option Nat) :
    (takeDigits base count cs).2 <:+ cs := by
  fun_induction takeDigits base count cs with
  | case1 cs => exact List.suffix_refl cs
  | case2 => exact List.suffix_refl _
  | case3 => exact List.suffix_refl _
  | case4 _ c r _ _ _ _ _ _ ih => exact ih.trans (List.suffix_cons c r)

theorem number_suffix {base : Nat} {count : Option Nat} {limit n : Nat} {cs rest : List Char}
    (h : number base count limit cs = some (n, rest)) : rest <:+ cs := by
  have hsuffix := takeDigits_suffix base cs count
  unfold number at h
  split at h
  · cases h
  · next heq =>
    rw [heq] at hsuffix
    dsimp only at h
    split at h
    · cases h
      exact hsuffix
    · cases h

theorem octet_suffix {n : UInt8} {cs rest : List Char} (h : octet cs = some (n, rest)) :
    rest <:+ cs := by
  unfold octet at h
  obtain ⟨⟨m, r⟩, hnumber, h⟩ := Option.bind_eq_some_iff.mp h
  dsimp only at h
  split at h
  · cases h
  · cases h
    exact number_suffix hnumber

theorem dotted_of_undotted {cs : List Char} (h : '.' ∉ cs) : dotted cs = none := by
  unfold dotted
  cases hoctet : octet cs with
  | none => rfl
  | some found =>
    obtain ⟨a, rest⟩ := found
    have hrest : '.' ∉ rest := fun hmem => h ((octet_suffix hoctet).subset hmem)
    have hexpect : expect '.' rest = none := by
      cases rest with
      | nil => rfl
      | cons d r =>
        have hd : '.' ≠ d := fun heq => hrest (heq ▸ List.mem_cons_self)
        simp [expect, hd]
    simp only [Option.bind_eq_bind, Option.bind_some, hexpect, Option.bind_none]

theorem octet_of_undigited {cs : List Char} (h : Undigited 10 cs) : octet cs = none := by
  unfold octet
  rw [number_of_undigited h]
  rfl

theorem dotted_of_undigited {cs : List Char} (h : Undigited 10 cs) : dotted cs = none := by
  unfold dotted
  rw [octet_of_undigited h]
  rfl

abbrev group : Reader Nat := number 16 (some 4) 65536

theorem group_of_undigited {cs : List Char} (h : Undigited 16 cs) : group cs = none :=
  number_of_undigited h _ _

theorem group_hexGroup (g : UInt16) {rest : List Char} (hrest : Undigited 16 rest) :
    group (hexGroup g ++ rest) = some (g.toNat, rest) := by
  have hlength : (Nat.toDigits 16 g.toNat).length ≤ 4 :=
    (Nat.length_toDigits_le_iff (by decide) (by decide)).mpr g.toNat_lt
  refine number_append (by decide) (by decide) g.toNat_lt hrest fun k hk => ?_
  obtain rfl := Option.some.inj hk
  exact hlength

theorem separated_cons {α : Type} (r : Reader α) (cs : List Char) :
    separated false r (':' :: cs) = r cs := by
  simp [separated, expect]

theorem groups_of_none {room : Nat} {first : Bool} {cs : List Char}
    (hdotted : separated first dotted cs = none) (hgroup : separated first group cs = none) :
    groups room first cs = ([], false, cs) := by
  cases room with
  | zero => rfl
  | succ room =>
    unfold groups
    simp only [hdotted, hgroup, ite_self]

theorem groups_of_group {room : Nat} {first : Bool} {cs rest : List Char} {g : UInt16}
    (hdotted : separated first dotted cs = none)
    (hgroup : separated first group cs = some (g.toNat, rest)) :
    groups (room + 1) first cs =
      (g :: (groups room false rest).1, (groups room false rest).2) := by
  rw [groups]
  simp only [hdotted, hgroup, ite_self, UInt16.ofNat_toNat]

/-- What may follow groups. -/
structure Halts (rest : List Char) : Prop where
  undotted : '.' ∉ rest
  undigited : Undigited 16 rest
  ungrouped : separated false group rest = none

theorem Halts.cons {c : Char} {rest : List Char} (hdot : c ≠ '.') (hcolon : c ≠ ':')
    (hdigit : digitValue? 16 c = none) (hrest : '.' ∉ rest) : Halts (c :: rest) where
  undotted := by
    rw [List.mem_cons, not_or]
    exact ⟨hdot.symm, hrest⟩
  undigited := undigited_cons hdigit
  ungrouped := by
    simp [separated, expect, hcolon.symm]

theorem Halts.gap {rest : List Char} (hrest : '.' ∉ rest) : Halts (':' :: ':' :: rest) where
  undotted := by
    simp [hrest]
  undigited := undigited_cons (by decide)
  ungrouped := (separated_cons group _).trans (group_of_undigited (undigited_cons (by decide)))

theorem not_mem_toDigits {base : Nat} (hbase : 1 < base) {c : Char}
    (hc : ∀ d < base, d.digitChar ≠ c) (n : Nat) : c ∉ Nat.toDigits base n := by
  obtain ⟨ds, hds⟩ := exists_numeral hbase n
  rw [hds.text, List.mem_map]
  rintro ⟨d, hd, heq⟩
  exact hc d (hds.lt d hd) heq

def tail (gs : List UInt16) : List Char := gs.flatMap fun g => ':' :: hexGroup g

theorem colons_cons (g : UInt16) (gs : List UInt16) : colons (g :: gs) = hexGroup g ++ tail gs := by
  induction gs generalizing g with
  | nil => simp [colons, tail]
  | cons g' gs ih =>
    have hnext := ih g'
    simp only [colons, tail, List.map_cons, List.intersperse_cons_cons, List.flatten_cons,
      List.flatMap_cons, List.cons_append, List.nil_append] at hnext ⊢
    rw [hnext]

theorem not_mem_tail (gs : List UInt16) : '.' ∉ tail gs := by
  unfold tail
  rw [List.mem_flatMap]
  rintro ⟨g, -, hmem⟩
  rcases List.mem_cons.mp hmem with heq | hmem
  · exact absurd heq (by decide)
  · exact not_mem_toDigits (by decide) (by decide) g.toNat hmem

theorem not_mem_colons (gs : List UInt16) : '.' ∉ colons gs := by
  cases gs with
  | nil => simp [colons]
  | cons g gs =>
    rw [colons_cons, List.mem_append, not_or]
    exact ⟨not_mem_toDigits (by decide) (by decide) g.toNat, not_mem_tail gs⟩

theorem Halts.undigited_tail {rest : List Char} (h : Halts rest) (gs : List UInt16) :
    Undigited 16 (tail gs ++ rest) := by
  cases gs with
  | nil => exact h.undigited
  | cons g gs => exact undigited_cons (by decide)

theorem groups_tail {gs : List UInt16} {room : Nat} (hroom : gs.length ≤ room) {rest : List Char}
    (h : Halts rest) : groups room false (tail gs ++ rest) = (gs, false, rest) := by
  have hdotted (gs : List UInt16) : separated false dotted (tail gs ++ rest) = none := by
    have hundotted : '.' ∉ tail gs ++ rest := by
      rw [List.mem_append, not_or]
      exact ⟨not_mem_tail gs, h.undotted⟩
    generalize tail gs ++ rest = cs at hundotted ⊢
    cases cs with
    | nil => rfl
    | cons c cs =>
      by_cases hc : ':' = c
      · subst hc
        rw [separated_cons]
        exact dotted_of_undotted fun hmem => hundotted (List.mem_cons_of_mem _ hmem)
      · simp [separated, expect, hc]
  induction gs generalizing room with
  | nil => exact groups_of_none (hdotted []) h.ungrouped
  | cons g gs ih =>
    obtain ⟨room, rfl⟩ : ∃ r, room = r + 1 := ⟨room - 1, by rw [List.length_cons] at hroom; omega⟩
    have hgroup : separated false group (tail (g :: gs) ++ rest) =
        some (g.toNat, tail gs ++ rest) := by
      have htail : tail (g :: gs) ++ rest = ':' :: (hexGroup g ++ (tail gs ++ rest)) := by
        simp [tail]
      rw [htail, separated_cons]
      exact group_hexGroup g (h.undigited_tail gs)
    rw [groups_of_group (hdotted (g :: gs)) hgroup, ih (Nat.le_of_succ_le_succ hroom)]

theorem groups_colons {gs : List UInt16} {room : Nat} (hroom : gs.length ≤ room) {rest : List Char}
    (h : Halts rest) : groups room true (colons gs ++ rest) = (gs, false, rest) := by
  have hdotted : separated true dotted (colons gs ++ rest) = none := by
    refine dotted_of_undotted ?_
    rw [List.mem_append, not_or]
    exact ⟨not_mem_colons gs, h.undotted⟩
  cases gs with
  | nil => exact groups_of_none hdotted (group_of_undigited h.undigited)
  | cons g gs =>
    obtain ⟨room, rfl⟩ : ∃ r, room = r + 1 := ⟨room - 1, by rw [List.length_cons] at hroom; omega⟩
    have hgroup : separated true group (colons (g :: gs) ++ rest) =
        some (g.toNat, tail gs ++ rest) := by
      rw [colons_cons, List.append_assoc]
      exact group_hexGroup g (h.undigited_tail gs)
    rw [groups_of_group hdotted hgroup, groups_tail (Nat.le_of_succ_le_succ hroom) h]

theorem replicate_zeroRun_prefix (gs : List UInt16) :
    List.replicate (zeroRun gs) 0 <+: gs := by
  have hzeros : gs.takeWhile (· == 0) = List.replicate (zeroRun gs) 0 :=
    List.eq_replicate_iff.mpr ⟨rfl, fun g hg =>
      beq_iff_eq.mp (List.all_eq_true.mp List.all_takeWhile g hg)⟩
  rw [← hzeros]
  exact List.takeWhile_prefix _

theorem replicate_longestRun_prefix (gs : List UInt16) :
    List.replicate (longestRun gs).2 0 <+: gs.drop (longestRun gs).1 := by
  unfold longestRun
  generalize List.range gs.length = is
  suffices h : ∀ best : Nat × Nat, List.replicate best.2 0 <+: gs.drop best.1 →
      let r := is.foldl (fun best i =>
        let n := zeroRun (gs.drop i)
        if best.2 < n then (i, n) else best) best
      List.replicate r.2 0 <+: gs.drop r.1 from h (0, 0) List.nil_prefix
  induction is with
  | nil => exact fun _ h => h
  | cons i is ih =>
    intro best hbest
    refine ih _ ?_
    dsimp only
    split
    · exact replicate_zeroRun_prefix (gs.drop i)
    · exact hbest

theorem take_append_gap (gs : List UInt16) :
    gs.take (longestRun gs).1 ++ List.replicate (longestRun gs).2 0 ++
      gs.drop ((longestRun gs).1 + (longestRun gs).2) = gs := by
  obtain ⟨rest, hrest⟩ := replicate_longestRun_prefix gs
  have hdrop : gs.drop ((longestRun gs).1 + (longestRun gs).2) = rest := by
    rw [← List.drop_drop, ← hrest, List.drop_left' List.length_replicate]
  rw [hdrop, List.append_assoc, hrest, List.take_append_drop]

theorem pair_bytes (g : UInt16) : pair (.ofNat (g.toNat / 256)) (.ofNat g.toNat) = g := by
  have hg : g.toNat < 65536 := g.toNat_lt
  refine UInt16.toNat_inj.mp ?_
  simp only [pair, UInt8.toNat_ofNat', UInt16.toNat_ofNat']
  omega

/-- What follows the groups of an address: a scope or the end of the brackets. -/
structure Ends (rest : List Char) : Prop extends Halts rest where
  undecimal : Undigited 10 rest

theorem v6_of_groups {cs rest : List Char} {gs : Vector UInt16 8}
    (h : groups 8 true cs = (gs.toList, false, rest)) : v6 cs = some (gs, rest) := by
  unfold v6
  simp only [h, gs.length_toList]
  exact congrArg (fun gs => some (gs, rest)) (Vector.toArray_inj.mp gs.toArray.toArray_toList)

theorem v6_of_gap {cs after rest : List Char} {front back : List UInt16} {dots : Bool}
    {gs : Vector UInt16 8} (hfront : groups 8 true cs = (front, false, ':' :: ':' :: after))
    (hback : groups (7 - front.length) true after = (back, dots, rest)) (hfew : front.length ≠ 8)
    (hparts : front ++ List.replicate (8 - front.length - back.length) 0 ++ back = gs.toList) :
    v6 cs = some (gs, rest) := by
  unfold v6
  simp only [hfront, dif_neg hfew, hback, hparts, gs.length_toList]
  rfl

theorem v6_mapped (g h : UInt16) {rest : List Char} (hrest : Ends rest) :
    v6 (renderV6 [0, 0, 0, 0, 0, 0xffff, g, h] ++ rest) =
      some (#v[0, 0, 0, 0, 0, 0xffff, g, h], rest) := by
  let dots := renderV4 (.ofNat (g.toNat / 256)) (.ofNat g.toNat) (.ofNat (h.toNat / 256))
    (.ofNat h.toNat)
  have hfront : groups 8 true (':' :: ':' :: (hexGroup 0xffff ++ (':' :: (dots ++ rest)))) =
      ([], false, ':' :: ':' :: (hexGroup 0xffff ++ (':' :: (dots ++ rest)))) := by
    have hcolon (base : Nat) : Undigited base (':' :: ':' ::
        (hexGroup 0xffff ++ (':' :: (dots ++ rest)))) := undigited_cons rfl
    exact groups_of_none (dotted_of_undigited (hcolon 10)) (group_of_undigited (hcolon 16))
  have hdots : groups 6 false (':' :: (dots ++ rest)) = ([g, h], true, rest) := by
    have hread : (if 5 = 0 then none else separated false dotted (':' :: (dots ++ rest))) =
        some ((.ofNat (g.toNat / 256), .ofNat g.toNat, .ofNat (h.toNat / 256), .ofNat h.toNat),
          rest) := by
      rw [if_neg (by decide), separated_cons]
      exact dotted_renderV4 _ _ _ _ hrest.undecimal
    unfold groups
    simp only [hread, pair_bytes]
  have hback : groups 7 true (hexGroup 0xffff ++ (':' :: (dots ++ rest))) =
      ([0xffff, g, h], true, rest) := by
    have hdotted : separated true dotted (hexGroup 0xffff ++ (':' :: (dots ++ rest))) = none :=
      dotted_of_undigited (undigited_cons (show digitValue? 10 'f' = none by decide))
    have hgroup : separated true group (hexGroup 0xffff ++ (':' :: (dots ++ rest))) =
        some (UInt16.toNat 0xffff, ':' :: (dots ++ rest)) :=
      group_hexGroup 0xffff (undigited_cons (by decide))
    rw [groups_of_group hdotted hgroup, hdots]
  exact v6_of_gap hfront hback (by decide) rfl

theorem renderV6_of_not_mapped {gs : List UInt16}
    (h : ∀ g h, gs ≠ [0, 0, 0, 0, 0, 0xffff, g, h]) :
    renderV6 gs =
      if 1 < (longestRun gs).2 then
        colons (gs.take (longestRun gs).1) ++ ':' :: ':' ::
          colons (gs.drop ((longestRun gs).1 + (longestRun gs).2))
      else colons gs := by
  unfold renderV6
  split
  · next g h' => exact absurd rfl (h g h')
  · rfl

theorem v6_renderV6 (gs : Vector UInt16 8) {rest : List Char} (hrest : Ends rest) :
    v6 (renderV6 gs.toList ++ rest) = some (gs, rest) := by
  by_cases hmapped : ∃ g h, gs.toList = [0, 0, 0, 0, 0, 0xffff, g, h]
  · obtain ⟨g, h, heq⟩ := hmapped
    have hgs : gs = #v[0, 0, 0, 0, 0, 0xffff, g, h] := Vector.toList_inj.mp heq
    rw [heq, v6_mapped g h hrest, hgs]
  · rw [renderV6_of_not_mapped fun g h heq => hmapped ⟨g, h, heq⟩]
    have hlength : gs.toList.length = 8 := gs.length_toList
    have hparts := take_append_gap gs.toList
    generalize gs.toList.take (longestRun gs.toList).1 = front at hparts ⊢
    generalize gs.toList.drop ((longestRun gs.toList).1 + (longestRun gs.toList).2) = back
      at hparts ⊢
    generalize (longestRun gs.toList).2 = count at hparts ⊢
    have hsum := congrArg List.length hparts
    rw [List.length_append, List.length_append, List.length_replicate, hlength] at hsum
    by_cases hgap : 1 < count
    · have hundotted : '.' ∉ colons back ++ rest := by
        rw [List.mem_append, not_or]
        exact ⟨not_mem_colons back, hrest.undotted⟩
      have hfront := groups_colons (show front.length ≤ 8 by omega) (Halts.gap hundotted)
      have hback := groups_colons (show back.length ≤ 7 - front.length by omega) hrest.toHalts
      rw [if_pos hgap, List.append_assoc, List.cons_append, List.cons_append]
      refine v6_of_gap hfront hback (by omega) ?_
      rw [show 8 - front.length - back.length = count by omega]
      exact hparts
    · rw [if_neg hgap]
      exact v6_of_groups (groups_colons (Nat.le_of_eq hlength) hrest.toHalts)

theorem undotted_decimal (n : Nat) : '.' ∉ decimal n :=
  not_mem_toDigits (by decide) (by decide) n

theorem ends_scope (scope : UInt32) (port : UInt16) :
    Ends ((if scope = 0 then [] else '%' :: decimal scope.toNat) ++
      ']' :: ':' :: decimal port.toNat) := by
  have hport : '.' ∉ ':' :: decimal port.toNat := by
    rw [List.mem_cons, not_or]
    exact ⟨by decide, undotted_decimal _⟩
  split
  · exact ⟨.cons (by decide) (by decide) (by decide) hport, undigited_cons (by decide)⟩
  · have hrest : '.' ∉ decimal scope.toNat ++ ']' :: ':' :: decimal port.toNat := by
      rw [List.mem_append, List.mem_cons, not_or, not_or]
      exact ⟨undotted_decimal _, by decide, hport⟩
    exact ⟨.cons (by decide) (by decide) (by decide) hrest, undigited_cons (by decide)⟩

theorem readV6_render (gs : Vector UInt16 8) (port : UInt16) (scope : UInt32) :
    readV6 ('[' :: renderV6 gs.toList ++ (if scope = 0 then [] else '%' :: decimal scope.toNat) ++
      ']' :: ':' :: decimal port.toNat) = some ({ ip := .v6 gs, port, scope }, []) := by
  have hgroups := v6_renderV6 gs (ends_scope scope port)
  have hscope : number 10 none 4294967296 (decimal scope.toNat ++ ']' :: ':' :: decimal port.toNat) =
      some (scope.toNat, ']' :: ':' :: decimal port.toNat) :=
    number_append (by decide) (by decide) scope.toNat_lt (undigited_cons (by decide)) nofun
  unfold readV6
  rw [List.append_assoc, List.cons_append]
  simp only [expect_cons, hgroups, Option.bind_eq_bind, Option.bind_some]
  by_cases hzero : scope = 0
  · simp [hzero, expect, readPort_decimal]
  · simp [hzero, hscope, expect, readPort_decimal]

/-- An address that has a scope is one of IPv6. -/
def WellFormed (a : SocketAddress) : Prop :=
  match a.ip with
  | .v4 .. => a.scope = 0
  | .v6 _ => True

instance : DecidablePred WellFormed
  | ⟨.v4 .., _, scope⟩ => inferInstanceAs (Decidable (scope = 0))
  | ⟨.v6 _, _, _⟩ => inferInstanceAs (Decidable True)

theorem parse?_render {a : SocketAddress} (ha : a.WellFormed) : parse? a.render = some a := by
  obtain ⟨ip, port, scope⟩ := a
  unfold parse? render
  cases ip with
  | v4 w x y z =>
    obtain rfl : scope = 0 := ha
    simp [readV4_renderV4]
  | v6 gs =>
    have hv4 (cs : List Char) : readV4 ('[' :: cs) = none := by
      unfold readV4
      rw [dotted_of_undigited (undigited_cons (by decide))]
      rfl
    have hv6 := readV6_render gs port scope
    simp only [List.cons_append, List.append_assoc] at hv6
    simp [hv4, hv6]

end RigBench.SocketAddress
