import RigBench.Proofs.TomlText

/-!
Documents of the simple kind: headers, blank lines, and bare keys with values on one line. Such a
document is read line by line into its tables, and what is left of it when lines of keys are taken
out is such a document again.
-/
namespace RigBench.Toml

/-- May stand as a key or a header without quotes. -/
structure Bare (name : String) : Prop where
  ne_nil : name.toList ≠ []
  all : ∀ c ∈ name.toList, isBare c = true

instance (name : String) : Decidable (Bare name) :=
  decidable_of_iff (name.toList ≠ [] ∧ ∀ c ∈ name.toList, isBare c = true)
    ⟨fun ⟨h, h'⟩ => ⟨h, h'⟩, fun h => ⟨h.ne_nil, h.all⟩⟩

theorem isSpace_of_bare {c : Char} (h : isBare c = true) : isSpace c = false := by
  have hblank : c ≠ ' ' := ne_of_separated h (by decide)
  have htab : c ≠ '\t' := ne_of_separated h (by decide)
  simp [isSpace, hblank, htab]

theorem skipSpace_cons {c : Char} (h : isSpace c = false) (rest : List Char) :
    skipSpace (c :: rest) = c :: rest :=
  List.dropWhile_cons_of_neg (by simp [h])

theorem Bare.exists_cons {name : String} (h : Bare name) :
    ∃ c more, name.toList = c :: more ∧ isBare c = true := by
  obtain ⟨c, more, hname⟩ := List.exists_cons_of_ne_nil h.ne_nil
  exact ⟨c, more, hname, h.all c (hname ▸ List.mem_cons_self)⟩

theorem keyPart_bare {name : String} (h : Bare name) {c : Char} (hc : isBare c = false)
    (rest : List Char) : keyPart (name.toList ++ c :: rest) = some (name, c :: rest) := by
  have htake : (name.toList ++ c :: rest).takeWhile isBare = name.toList := by
    rw [List.takeWhile_append_of_pos h.all, List.takeWhile_cons_of_neg (by simp [hc]),
      List.append_nil]
  have hdrop : (name.toList ++ c :: rest).dropWhile isBare = c :: rest := by
    rw [List.dropWhile_append_of_pos h.all, List.dropWhile_cons_of_neg (by simp [hc])]
  obtain ⟨d, more, hname, hd⟩ := h.exists_cons
  unfold keyPart
  split
  · next heq =>
    rw [hname] at heq
    exact absurd (List.cons.inj heq).1 (ne_of_separated hd (by decide))
  · next heq =>
    rw [hname] at heq
    exact absurd (List.cons.inj heq).1 (ne_of_separated hd (by decide))
  · rw [htake, hdrop, hname]
    simp [← hname]

/-- A bare key ends where another character begins. -/
theorem readKey_bare {name : String} (h : Bare name) {c : Char} (hc : isBare c = false)
    (rest : List Char) (hdot : (skipSpace (c :: rest)).head? ≠ some '.') :
    readKey (name.toList ++ c :: rest) = some ([name], skipSpace (c :: rest)) := by
  have hspace : skipSpace (name.toList ++ c :: rest) = name.toList ++ c :: rest := by
    obtain ⟨d, more, hname, hd⟩ := h.exists_cons
    rw [hname]
    exact skipSpace_cons (isSpace_of_bare hd) _
  rw [readKey, keyParts, hspace, keyPart_bare h hc, Option.bind_eq_bind, Option.bind_some]
  dsimp only
  split
  · next heq => exact absurd (congrArg List.head? heq) hdot
  · rfl

inductive Item
  | blank
  | header (name : String)
  | entry (key : String) (text : List Char) (v : Value)

namespace Item

def line : Item → List Char
  | blank => []
  | header name => '[' :: (name.toList ++ [']'])
  | entry key text _ => key.toList ++ ' ' :: '=' :: ' ' :: text

def Readable : Item → Prop
  | blank => True
  | header name => Bare name
  | entry key text v => Bare key ∧ Written text v

def apply (b : Builder) : Item → Option Builder
  | blank => some b
  | header name => b.openTable [name]
  | entry key _ v => b.define [] key v

end Item

def textOf (items : List Item) : List Char := items.flatMap fun i => i.line ++ ['\n']

theorem textOf_cons (i : Item) (items : List Item) :
    textOf (i :: items) = i.line ++ '\n' :: textOf items := by
  simp [textOf]

theorem textOf_append (items items' : List Item) :
    textOf (items ++ items') = textOf items ++ textOf items' := List.flatMap_append

theorem header_bare {name : String} (h : Bare name) (rest : List Char) :
    header 1 (name.toList ++ ']' :: '\n' :: rest) = some ([name], rest) := by
  have hkey := readKey_bare h (c := ']') rfl ('\n' :: rest) (by simp [skipSpace, isSpace])
  rw [header, hkey]
  rfl

theorem readLine_item {i : Item} (h : i.Readable) (hi : i ≠ .blank) (b : Builder)
    (rest : List Char) :
    readLine b (i.line ++ '\n' :: rest) = (i.apply b).map (·, rest) := by
  cases i with
  | blank => exact absurd rfl hi
  | header name =>
    have hhead := header_bare h rest
    obtain ⟨c, more, hname, hc⟩ := h.exists_cons
    have hline : Item.line (.header name) ++ '\n' :: rest =
        '[' :: (name.toList ++ ']' :: '\n' :: rest) := by
      simp [Item.line]
    rw [hline]
    unfold readLine
    split
    · next heq =>
      rw [hname] at heq
      exact absurd (List.cons.inj (List.cons.inj heq).2).1 (ne_of_separated hc (by decide))
    · next heq =>
      obtain rfl := (List.cons.inj heq).2
      rw [hhead]
      exact Option.map_eq_bind.symm
    · next hnot => exact absurd rfl (hnot _)
  | entry key text v =>
    obtain ⟨hkey, hvalue⟩ := h
    obtain ⟨c, more, hname, hc⟩ := hkey.exists_cons
    obtain ⟨d, tail, htext, hd⟩ := hvalue.starts
    have hread := readKey_bare hkey (c := ' ') rfl ('=' :: ' ' :: (text ++ '\n' :: rest))
      (by simp [skipSpace, isSpace])
    have hline : Item.line (.entry key text v) ++ '\n' :: rest =
        key.toList ++ ' ' :: '=' :: ' ' :: (text ++ '\n' :: rest) := by
      simp [Item.line]
    rw [hline]
    unfold readLine
    split
    · next heq =>
      rw [hname] at heq
      exact absurd (List.cons.inj heq).1 (ne_of_separated hc (by decide))
    · next heq =>
      rw [hname] at heq
      exact absurd (List.cons.inj heq).1 (ne_of_separated hc (by decide))
    · rw [hread]
      have hspace : skipSpace (' ' :: (text ++ '\n' :: rest)) = text ++ '\n' :: rest := by
        rw [htext]
        exact skipSpace_cons hd _
      change (readValue ((' ' :: (text ++ '\n' :: rest)).length + 1) 0
        (skipSpace (' ' :: (text ++ '\n' :: rest)))).bind _ = _
      rw [hspace, hvalue.read]
      exact Option.map_eq_bind.symm

theorem Item.Readable.starts {i : Item} (h : i.Readable) (hi : i ≠ .blank) (rest : List Char) :
    skipSpace (i.line ++ rest) = i.line ++ rest ∧ endLine (i.line ++ rest) = none ∧ i.line ≠ [] := by
  cases i with
  | blank => exact absurd rfl hi
  | header name => exact ⟨rfl, rfl, nofun⟩
  | entry key text v =>
    obtain ⟨c, more, hname, hc⟩ := h.1.exists_cons
    have hspace := isSpace_of_bare hc
    have hline : Item.line (.entry key text v) = c :: (more ++ ' ' :: '=' :: ' ' :: text) := by
      rw [Item.line, hname, List.cons_append]
    have hcomment : c ≠ '#' := ne_of_separated hc (by decide)
    have hbreak : c ≠ '\n' := ne_of_separated hc (by decide)
    have hreturn : c ≠ '\r' := ne_of_separated hc (by decide)
    rw [hline, List.cons_append]
    refine ⟨skipSpace_cons hspace _, ?_, nofun⟩
    rw [endLine, skipSpace_cons hspace, skipComment]
    · dsimp only
      unfold newline?
      split
      · next heq => exact absurd (List.cons.inj heq).1 hbreak
      · next heq => exact absurd (List.cons.inj heq).1 hreturn
      · rfl
    · intro r heq
      exact absurd (List.cons.inj heq).1 hcomment

theorem readLines_step {i : Item} (h : i.Readable) (fuel : Nat) (b : Builder) (rest : List Char) :
    readLines (fuel + 1) b (i.line ++ '\n' :: rest) =
      (i.apply b).bind fun b => readLines fuel b rest := by
  by_cases hi : i = .blank
  · subst hi
    rfl
  · obtain ⟨hskip, hend, hne⟩ := h.starts hi ('\n' :: rest)
    have hempty : (i.line ++ '\n' :: rest).isEmpty = false := by simp
    rw [readLines]
    simp only [hskip, hempty, Bool.false_eq_true, if_false, hend, readLine_item h hi]
    cases i.apply b <;> rfl

theorem readLines_textOf {items : List Item} (h : ∀ i ∈ items, i.Readable) {fuel : Nat}
    (hfuel : items.length < fuel) (b : Builder) :
    readLines fuel b (textOf items) = items.foldlM Item.apply b := by
  induction items generalizing fuel b with
  | nil =>
    obtain ⟨fuel, rfl⟩ := Nat.exists_eq_succ_of_ne_zero (Nat.ne_zero_of_lt hfuel)
    rfl
  | cons i items ih =>
    obtain ⟨fuel, rfl⟩ := Nat.exists_eq_succ_of_ne_zero (Nat.ne_zero_of_lt hfuel)
    obtain ⟨hi, hitems⟩ := List.forall_mem_cons.mp h
    rw [textOf_cons, readLines_step hi, List.foldlM_cons]
    exact congrArg (Option.bind _) (funext fun b => ih hitems (Nat.lt_of_succ_lt_succ hfuel) b)

theorem length_le_textOf (items : List Item) : items.length ≤ (textOf items).length := by
  induction items with
  | nil => exact Nat.le_refl 0
  | cons i items ih =>
    rw [textOf_cons, List.length_append, List.length_cons, List.length_cons]
    omega

structure Entry where
  key : String
  text : List Char
  value : Value

structure Table where
  name : String
  entries : List Entry

def Entry.item (e : Entry) : Item := .entry e.key e.text e.value

def Table.leaves (t : Table) : Section :=
  { entries := t.entries.map fun e => (e.key, .leaf e.value) }

def rootOf (tables : List Table) : Section :=
  { entries := tables.map fun t => (t.name, t.leaves.toNode) }

def opened (tables : List Table) (t : Table) : Builder :=
  { root := rootOf tables, current := t.leaves, path := [t.name] }

theorem Section.find?_eq_none {s : Section} {key : String} (h : key ∉ s.entries.map (·.1)) :
    s.find? key = none := by
  have hnone : s.entries.find? (·.1 == key) = none := by
    refine List.find?_eq_none.mpr fun e he hkey => h ?_
    exact beq_iff_eq.mp hkey ▸ List.mem_map_of_mem he
  rw [Section.find?, hnone]
  rfl

theorem find?_rootOf {tables : List Table} {name : String} (h : name ∉ tables.map (·.name)) :
    (rootOf tables).find? name = none := by
  refine Section.find?_eq_none ?_
  simpa [rootOf, Function.comp_def] using h

theorem not_mem_of_nodup_append {α : Type} {f : α → String} {xs ys : List α} {x : α}
    (h : ((xs ++ x :: ys).map f).Nodup) : f x ∉ xs.map f := by
  rw [List.map_append, List.map_cons] at h
  exact fun hmem => (List.nodup_append.mp h).2.2 _ hmem _ List.mem_cons_self rfl

theorem apply_entry {tables : List Table} {t : Table} {e : Entry}
    (h : e.key ∉ t.entries.map (·.key)) :
    Item.apply (opened tables t) e.item =
      some (opened tables { t with entries := t.entries ++ [e] }) := by
  have hfresh : t.leaves.find? e.key = none := by
    refine Section.find?_eq_none ?_
    simpa [Table.leaves, Function.comp_def] using h
  have hdefine : t.leaves.define [] e.key e.value =
      some (t.leaves.append e.key (.leaf e.value)) := by
    have hdotted : t.leaves.dotted = false := rfl
    simp [Section.define, Section.change, hfresh, hdotted]
  have happend : t.leaves.append e.key (.leaf e.value) =
      Table.leaves { t with entries := t.entries ++ [e] } := by
    simp [Table.leaves, Section.append]
  rw [happend] at hdefine
  change (t.leaves.define [] e.key e.value).bind _ = _
  rw [hdefine]
  rfl

theorem foldlM_entries (tables : List Table) (t : Table) {es : List Entry}
    (h : ((t.entries ++ es).map (·.key)).Nodup) :
    (es.map Entry.item).foldlM Item.apply (opened tables t) =
      some (opened tables { t with entries := t.entries ++ es }) := by
  induction es generalizing t with
  | nil => simp
  | cons e es ih =>
    rw [List.map_cons, List.foldlM_cons, apply_entry (not_mem_of_nodup_append h)]
    refine (ih { t with entries := t.entries ++ [e] } ?_).trans ?_
    · simpa using h
    · simp

theorem close_opened {tables : List Table} {t : Table} (h : t.name ∉ tables.map (·.name)) :
    (opened tables t).close = some (rootOf (tables ++ [t])) := by
  have hroot : (rootOf tables).append t.name t.leaves.toNode = rootOf (tables ++ [t]) := by
    simp [rootOf, Section.append]
  simp [Builder.close, opened, Section.change, find?_rootOf h, hroot]

theorem openTable_fresh {b : Builder} {tables : List Table} (hb : b.close = some (rootOf tables))
    {name : String} (h : name ∉ tables.map (·.name)) :
    b.openTable [name] = some (opened tables ⟨name, []⟩) := by
  simp [Builder.openTable, hb, Section.change, find?_rootOf h, opened, Table.leaves]

namespace Table

def items (t : Table) : List Item := .header t.name :: t.entries.map Entry.item

structure Readable (t : Table) : Prop where
  name : Bare t.name
  entries : ∀ e ∈ t.entries, Bare e.key ∧ Written e.text e.value
  keys : (t.entries.map (·.key)).Nodup

def values (t : Table) : Entries := t.entries.map fun e => (e.key, e.value)

theorem Readable.items {t : Table} (h : t.Readable) : ∀ i ∈ t.items, i.Readable := by
  intro i hi
  rcases List.mem_cons.mp hi with rfl | hi
  · exact h.name
  · obtain ⟨e, he, rfl⟩ := List.mem_map.mp hi
    exact h.entries e he

theorem foldlM_items {b : Builder} {tables : List Table} (hb : b.close = some (rootOf tables))
    {t : Table} (hname : t.name ∉ tables.map (·.name)) (hkeys : (t.entries.map (·.key)).Nodup) :
    t.items.foldlM Item.apply b = some (opened tables t) := by
  rw [items, List.foldlM_cons]
  change (b.openTable [t.name]).bind _ = _
  rw [openTable_fresh hb hname]
  exact foldlM_entries tables ⟨t.name, []⟩ hkeys

end Table

def itemsOf : List Table → List Item
  | [] => []
  | [t] => t.items
  | t :: u :: rest => t.items ++ .blank :: itemsOf (u :: rest)

theorem readable_itemsOf {tables : List Table} (h : ∀ t ∈ tables, t.Readable) :
    ∀ i ∈ itemsOf tables, i.Readable := by
  fun_induction itemsOf tables with
  | case1 => exact nofun
  | case2 t => exact (h t List.mem_cons_self).items
  | case3 t u rest ih =>
    obtain ⟨ht, hrest⟩ := List.forall_mem_cons.mp h
    intro i hi
    rcases List.mem_append.mp hi with hi | hi
    · exact ht.items i hi
    · rcases List.mem_cons.mp hi with rfl | hi
      · trivial
      · exact ih hrest i hi

theorem foldlM_itemsOf {b : Builder} {tables : List Table} (hb : b.close = some (rootOf tables))
    {rest : List Table} (hnames : ((tables ++ rest).map (·.name)).Nodup)
    (hkeys : ∀ t ∈ rest, (t.entries.map (·.key)).Nodup) :
    ∃ b', (itemsOf rest).foldlM Item.apply b = some b' ∧
      b'.close = some (rootOf (tables ++ rest)) := by
  fun_induction itemsOf rest generalizing tables b with
  | case1 => exact ⟨b, rfl, by rw [hb, List.append_nil]⟩
  | case2 t =>
    have hfresh := not_mem_of_nodup_append hnames
    exact ⟨_, t.foldlM_items hb hfresh (hkeys t List.mem_cons_self), close_opened hfresh⟩
  | case3 t u rest ih =>
    obtain ⟨ht, hrest⟩ := List.forall_mem_cons.mp hkeys
    have hfresh := not_mem_of_nodup_append hnames
    obtain ⟨b', hfold, hclose⟩ := ih (close_opened hfresh) (by rwa [List.append_assoc]) hrest
    refine ⟨b', ?_, by rw [hclose, List.append_assoc]; rfl⟩
    rw [List.foldlM_append, t.foldlM_items hb hfresh ht]
    exact hfold

theorem toEntries_leaves (es : List Entry) :
    toEntries (es.map fun e => (e.key, .leaf e.value)) = es.map fun e => (e.key, e.value) := by
  induction es with
  | nil => rfl
  | cons e es ih =>
    rw [List.map_cons, toEntries, ih]
    rfl

theorem toEntries_rootOf (tables : List Table) :
    toEntries (rootOf tables).entries = tables.map fun t => (t.name, .table t.values) := by
  induction tables with
  | nil => rfl
  | cons t tables ih =>
    have hvalue : t.leaves.toNode.toValue = .table t.values :=
      congrArg Value.table (toEntries_leaves t.entries)
    change (t.name, t.leaves.toNode.toValue) :: toEntries (rootOf tables).entries = _
    rw [ih, hvalue]
    rfl

theorem dropMark_itemsOf (tables : List Table) :
    dropMark (textOf (itemsOf tables)) = textOf (itemsOf tables) := by
  fun_cases itemsOf tables <;> rfl

/-- A document of readable tables is read as their values. -/
theorem parse?_tables {tables : List Table} (h : ∀ t ∈ tables, t.Readable)
    (hnames : (tables.map (·.name)).Nodup) :
    parse? (String.ofList (textOf (itemsOf tables))) =
      some (tables.map fun t => (t.name, .table t.values)) := by
  have hfuel := Nat.lt_succ_of_le (length_le_textOf (itemsOf tables))
  have hlines := readLines_textOf (readable_itemsOf h) hfuel {}
  have hstart : ({} : Builder).close = some (rootOf []) := rfl
  obtain ⟨b, hfold, hclose⟩ := foldlM_itemsOf hstart hnames fun t ht => (h t ht).keys
  rw [parse?, String.toList_ofList, dropMark_itemsOf]
  rw [hlines, hfold]
  change b.close.map (toEntries ·.entries) = _
  rw [hclose]
  exact congrArg some (toEntries_rootOf tables)

/-- The key a line begins with; headers and blank lines begin with none. -/
def lineKey (line : List Char) : String := String.ofList (line.takeWhile isBare)

/-- A document without the lines of keys that are not kept. -/
def keepKeys (keep : String → Bool) (s : String) : String :=
  String.ofList (['\n'].intercalate
    ((s.toList.splitOn '\n').filter fun line => lineKey line == "" || keep (lineKey line)))

theorem keepKeys_all (s : String) : keepKeys (fun _ => true) s = s := by
  simp [keepKeys, List.intercalate_splitOn]

def Item.kept (keep : String → Bool) : Item → Bool
  | .entry key _ _ => keep key
  | _ => true

def Table.keep (keep : String → Bool) (t : Table) : Table :=
  { t with entries := t.entries.filter (keep ·.key) }

theorem Item.Readable.unbroken {i : Item} (h : i.Readable) : '\n' ∉ i.line := by
  have hbare {name : String} (hname : Bare name) : '\n' ∉ name.toList := fun hmem =>
    absurd (hname.all _ hmem) (by decide)
  cases i with
  | blank => exact List.not_mem_nil
  | header name => simp [Item.line, hbare h]
  | entry key text v => simp [Item.line, hbare h.1, h.2.unbroken]

theorem Item.Readable.lineKey_eq {i : Item} (h : i.Readable) (keep : String → Bool) :
    (lineKey i.line == "" || keep (lineKey i.line)) = i.kept keep := by
  cases i with
  | blank => rfl
  | header name => rfl
  | entry key text v =>
    have hkey : lineKey (Item.entry key text v).line = key := by
      rw [lineKey, Item.line, List.takeWhile_append_of_pos h.1.all,
        List.takeWhile_cons_of_neg (by decide), List.append_nil, String.ofList_toList]
    have hne : key ≠ "" := by
      rintro rfl
      exact h.1.ne_nil rfl
    simp [hkey, hne, Item.kept]

theorem splitOn_textOf {items : List Item} (h : ∀ i ∈ items, i.Readable) :
    (textOf items).splitOn '\n' = items.map Item.line ++ [[]] := by
  induction items with
  | nil => rfl
  | cons i items ih =>
    obtain ⟨hi, hitems⟩ := List.forall_mem_cons.mp h
    rw [textOf_cons, List.splitOn_append_cons_self_of_not_mem hi.unbroken, ih hitems]
    rfl

theorem intercalate_lines (items : List Item) :
    ['\n'].intercalate (items.map Item.line ++ [[]]) = textOf items := by
  induction items with
  | nil => rfl
  | cons i items ih =>
    rw [List.map_cons, List.cons_append, List.intercalate_cons_of_ne_nil (by simp), ih]
    simp [textOf]

theorem keepKeys_textOf {items : List Item} (h : ∀ i ∈ items, i.Readable)
    (keep : String → Bool) :
    keepKeys keep (String.ofList (textOf items)) =
      String.ofList (textOf (items.filter (Item.kept keep))) := by
  have hfilter : (items.map Item.line).filter
      (fun line => lineKey line == "" || keep (lineKey line)) =
        (items.filter (Item.kept keep)).map Item.line := by
    rw [List.filter_map]
    exact congrArg _ (List.filter_congr fun i hi => (h i hi).lineKey_eq keep)
  rw [keepKeys, String.toList_ofList, splitOn_textOf h, List.filter_append, hfilter]
  exact congrArg String.ofList (intercalate_lines _)

theorem Table.filter_items (keep : String → Bool) (t : Table) :
    t.items.filter (Item.kept keep) = (t.keep keep).items := by
  rw [Table.items, List.filter_cons_of_pos rfl, List.filter_map]
  rfl

theorem filter_itemsOf (keep : String → Bool) (tables : List Table) :
    (itemsOf tables).filter (Item.kept keep) = itemsOf (tables.map (Table.keep keep)) := by
  fun_induction itemsOf tables with
  | case1 => rfl
  | case2 t => exact t.filter_items keep
  | case3 t u rest ih =>
    rw [List.filter_append, t.filter_items keep, List.filter_cons_of_pos rfl, ih]
    rfl

theorem Table.Readable.keep {t : Table} (h : t.Readable) (keep : String → Bool) :
    (t.keep keep).Readable where
  name := h.name
  entries e he := h.entries e (List.mem_filter.mp he).1
  keys := h.keys.sublist (List.filter_sublist.map _)

/-- A document of readable tables without the lines of some keys is read as the values of the
others. -/
theorem parse?_keepKeys {tables : List Table} (h : ∀ t ∈ tables, t.Readable)
    (hnames : (tables.map (·.name)).Nodup) (keep : String → Bool) :
    parse? (keepKeys keep (String.ofList (textOf (itemsOf tables)))) =
      some (tables.map fun t => (t.name, .table (t.keep keep).values)) := by
  have hkept : ∀ t ∈ tables.map (Table.keep keep), t.Readable := by
    intro t ht
    obtain ⟨u, hu, rfl⟩ := List.mem_map.mp ht
    exact (h u hu).keep keep
  have hkeptNames : (tables.map (Table.keep keep)).map (·.name) = tables.map (·.name) := by
    rw [List.map_map]
    rfl
  rw [keepKeys_textOf (readable_itemsOf h), filter_itemsOf,
    parse?_tables hkept (hkeptNames ▸ hnames), List.map_map]
  rfl

end RigBench.Toml
