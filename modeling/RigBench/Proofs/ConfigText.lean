import RigBench.Config.Text
import RigBench.Proofs.AddressText
import RigBench.Proofs.DurationText
import RigBench.Proofs.TomlDocument

/-!
Configurations are read back from their texts, and from what is left of these when lines are taken
out: a setting without its line has its default.
-/
namespace RigBench

open Toml (Quotable Written Bare)

theorem quotable_digitChar {d : Nat} (h : d < 16) : Quotable d.digitChar :=
  (by decide : ∀ d : Fin 16, Quotable (Nat.digitChar d)) ⟨d, h⟩

theorem quotable_toDigits {base : Nat} (hbase : 1 < base) (hle : base ≤ 16) (n : Nat) :
    ∀ c ∈ Nat.toDigits base n, Quotable c := by
  obtain ⟨ds, hds⟩ := exists_numeral hbase n
  rw [hds.text]
  intro c hc
  obtain ⟨d, hd, rfl⟩ := List.mem_map.mp hc
  exact quotable_digitChar (Nat.lt_of_lt_of_le (hds.lt d hd) hle)

namespace SocketAddress

theorem quotable_decimal (n : Nat) : ∀ c ∈ decimal n, Quotable c :=
  quotable_toDigits (by decide) (by decide) n

theorem quotable_renderV4 (w x y z : UInt8) : ∀ c ∈ renderV4 w x y z, Quotable c := by
  simp only [renderV4, List.cons_append, List.append_assoc, List.forall_mem_append,
    List.forall_mem_cons]
  exact ⟨quotable_decimal _, by decide, quotable_decimal _, by decide, quotable_decimal _,
    by decide, quotable_decimal _⟩

theorem quotable_colons (gs : List UInt16) : ∀ c ∈ colons gs, Quotable c := by
  have hgroup (g : UInt16) : ∀ c ∈ hexGroup g, Quotable c :=
    quotable_toDigits (by decide) (by decide) _
  cases gs with
  | nil => exact nofun
  | cons g gs =>
    rw [colons_cons, List.forall_mem_append]
    refine ⟨hgroup g, fun c hc => ?_⟩
    obtain ⟨g', -, hc⟩ := List.mem_flatMap.mp hc
    rcases List.mem_cons.mp hc with rfl | hc
    · decide
    · exact hgroup g' c hc

theorem quotable_renderV6 (gs : List UInt16) : ∀ c ∈ renderV6 gs, Quotable c := by
  unfold renderV6
  split
  · exact List.forall_mem_append.mpr ⟨by decide, quotable_renderV4 _ _ _ _⟩
  · dsimp only
    split
    · simp only [List.forall_mem_append, List.forall_mem_cons]
      exact ⟨quotable_colons _, by decide, by decide, quotable_colons _⟩
    · exact quotable_colons gs

theorem quotable_render (a : SocketAddress) : ∀ c ∈ a.render.toList, Quotable c := by
  unfold render
  rw [String.toList_ofList]
  split
  · simp only [List.forall_mem_append, List.forall_mem_cons]
    exact ⟨quotable_renderV4 _ _ _ _, by decide, quotable_decimal _⟩
  · simp only [List.cons_append, List.append_assoc, List.forall_mem_append, List.forall_mem_cons]
    refine ⟨by decide, quotable_renderV6 _, ?_, by decide, by decide, quotable_decimal _⟩
    split
    · exact nofun
    · exact List.forall_mem_cons.mpr ⟨by decide, quotable_decimal _⟩

theorem render_ne_nil (a : SocketAddress) : a.render.toList ≠ [] := by
  unfold render
  rw [String.toList_ofList]
  split <;> simp

end SocketAddress

namespace Duration

theorem quotable_unitLetter {c : Char} (h : isUnitLetter c = true) : Quotable c := by
  have hrange := toNat_of_unitLetter h
  refine ⟨?_, ?_, ?_⟩
  · simp [Toml.isPlain]
    omega
  · rintro rfl
    exact absurd hrange (by decide)
  · rintro rfl
    exact absurd hrange (by decide)

theorem Piece.quotable_text {p : Piece} (hp : p.Named) : ∀ c ∈ p.text.toList, Quotable c := by
  obtain ⟨ds, hds⟩ := exists_numeral (by decide : 1 < 10) p.count
  rw [Piece.toList_text hds, ← hds.text, List.forall_mem_append]
  exact ⟨quotable_toDigits (by decide) (by decide) _, fun c hc =>
    quotable_unitLetter (hp.letters c hc)⟩

theorem quotable_render (d : Duration) : ∀ c ∈ d.render.toList, Quotable c := by
  unfold render
  split
  · decide
  · rw [renderedParts_eq]
    have hnamed : ∀ p ∈ d.pieces.filter (·.count != 0), p.Named := fun p hp =>
      d.named_pieces p (List.mem_filter.mp hp).1
    generalize d.pieces.filter (·.count != 0) = ps at hnamed ⊢
    cases ps with
    | nil => decide
    | cons p ps =>
      obtain ⟨hp, hps⟩ := List.forall_mem_cons.mp hnamed
      rw [Piece.toList_intercalate, List.forall_mem_append]
      refine ⟨Piece.quotable_text hp, fun c hc => ?_⟩
      obtain ⟨q, hq, hc⟩ := List.mem_flatMap.mp hc
      rcases List.mem_cons.mp hc with rfl | hc
      · decide
      · exact Piece.quotable_text (hps q hq) c hc

/-- No duration is written as nothing, since nothing is no duration. -/
theorem render_ne_nil (d : Duration) : d.render.toList ≠ [] := by
  intro hnil
  have hempty : parse "" = .error .empty := by
    unfold parse
    rw [if_neg (by decide)]
    change Except.bind (firstDigit 0 ⟨[], 0⟩) _ = _
    rw [firstDigit_nil]
    rfl
  have hread := d.parse_render
  rw [String.toList_eq_nil_iff.mp hnil, hempty] at hread
  cases hread

end Duration
namespace Config

/-- A line of a section with the value it is read as and what that does to the section. -/
structure Setting (σ : Type) where
  line : Line
  value : Toml.Value
  put : σ → σ

namespace Setting

variable {σ : Type}

/-- The line is read as the value, and the field of its key takes the value as said. -/
structure Sound (fields : List (Field σ)) (x : Setting σ) : Prop where
  key : Bare x.line.key
  written : Written x.line.value.toList x.value
  field : ∃ f, fields.find? (·.key == x.line.key) = some f ∧
    ∀ s, f.read x.value s = .ok (x.put s)

def putAll (xs : List (Setting σ)) (s : σ) : σ := xs.foldl (fun s x => x.put s) s

def entry (x : Setting σ) : Toml.Entry := ⟨x.line.key, x.line.value.toList, x.value⟩

def table (name : String) (xs : List (Setting σ)) : Toml.Table := ⟨name, xs.map entry⟩

theorem sound_of_field {α : Type} {fields : List (Field σ)} {line : Line} {value : Toml.Value}
    {read : Toml.Value → Read α} {put : α → σ → σ} {a : α} (hkey : Bare line.key)
    (hfield : fields.find? (·.key == line.key) = some (field line.key read put))
    (hwritten : Written line.value.toList value) (hread : read value = .ok a) :
    Sound fields ⟨line, value, put a⟩ where
  key := hkey
  written := hwritten
  field := ⟨_, hfield, fun s => by
    change (read value).map (put · s) = _
    rw [hread]
    rfl⟩

theorem readEntries_cons {fields : List (Field σ)} {f : Field σ} {key : String} {v : Toml.Value}
    {s s' : σ} (hfind : fields.find? (·.key == key) = some f) (hread : f.read v s = .ok s')
    (entries : Toml.Entries) :
    readEntries fields ((key, v) :: entries) s = readEntries fields entries s' := by
  rw [readEntries, List.foldlM_cons]
  simp only [hfind, hread]
  rfl

theorem readEntries_sound {fields : List (Field σ)} {xs : List (Setting σ)}
    (h : ∀ x ∈ xs, x.Sound fields) (s : σ) :
    readEntries fields (xs.map fun x => (x.line.key, x.value)) s = .ok (putAll xs s) := by
  induction xs generalizing s with
  | nil => rfl
  | cons x xs ih =>
    obtain ⟨hx, hxs⟩ := List.forall_mem_cons.mp h
    obtain ⟨f, hfind, hread⟩ := hx.field
    rw [List.map_cons, readEntries_cons hfind (hread s)]
    exact ih hxs (x.put s)

theorem readable_table {fields : List (Field σ)} {name : String} {xs : List (Setting σ)}
    (hname : Bare name) (h : ∀ x ∈ xs, x.Sound fields)
    (hkeys : (xs.map (·.line.key)).Nodup) : (table name xs).Readable where
  name := hname
  entries e he := by
    obtain ⟨x, hx, rfl⟩ := List.mem_map.mp he
    exact ⟨(h x hx).key, (h x hx).written⟩
  keys := by
    rw [table, List.map_map]
    exact hkeys

theorem values_keep (keep : String → Bool) (name : String) (xs : List (Setting σ)) :
    ((table name xs).keep keep).values =
      (xs.filter (keep ·.line.key)).map fun x => (x.line.key, x.value) := by
  rw [Toml.Table.values, Toml.Table.keep, table, List.filter_map, List.map_map]
  rfl

def address (key : String) (a : SocketAddress) (put : SocketAddress → σ → σ) : Setting σ :=
  ⟨stringLine key a.render, .string a.render, put a⟩

def count (key : String) (n : Nat) (put : Nat → σ → σ) : Setting σ :=
  ⟨countLine key n, .integer n, put n⟩

def bool (key : String) (b : Bool) (put : Bool → σ → σ) : Setting σ :=
  ⟨boolLine key b, .boolean b, put b⟩

def duration (key : String) (d : Duration) (put : Duration → σ → σ) : Setting σ :=
  ⟨durationLine key d, .string d.render, put d⟩

def variant {α : Type} (name : α → String) (key : String) (a : α) (put : α → σ → σ) : Setting σ :=
  ⟨stringLine key (name a), .string (name a), put a⟩

theorem written_stringLine (key : String) {value : String} (h : ∀ c ∈ value.toList, Quotable c)
    (hne : value.toList ≠ []) :
    Written (stringLine key value).value.toList (.string value) := by
  have hwritten := Toml.written_string h hne
  rw [String.ofList_toList] at hwritten
  simpa [stringLine] using hwritten

variable {fields : List (Field σ)} {key : String}

theorem sound_address {a : SocketAddress} {put : SocketAddress → σ → σ} (hkey : Bare key)
    (hfield : fields.find? (·.key == key) = some (field key readAddress put))
    (ha : a.WellFormed) : (address key a put).Sound fields := by
  refine sound_of_field hkey hfield (written_stringLine key a.quotable_render a.render_ne_nil) ?_
  simp only [readAddress, SocketAddress.parse?_render ha]

theorem sound_count {n : Nat} {put : Nat → σ → σ} (hkey : Bare key)
    (hfield : fields.find? (·.key == key) = some (field key readCount put))
    (hn : n < countLimit) : (count key n put).Sound fields := by
  have hwritten : Written (countLine key n).value.toList (.integer n) := by
    have htext : (toString n).toList = Nat.toDigits 10 n := Nat.toList_repr
    rw [countLine, htext]
    exact Toml.written_count hn
  refine sound_of_field hkey hfield hwritten ?_
  rw [readCount, if_neg (Int.not_lt.mpr (Int.natCast_nonneg n)), Int.toNat_natCast]

theorem sound_bool {b : Bool} {put : Bool → σ → σ} (hkey : Bare key)
    (hfield : fields.find? (·.key == key) = some (field key readBool put)) :
    (bool key b put).Sound fields :=
  sound_of_field hkey hfield (Toml.written_boolean b) rfl

theorem sound_duration {d : Duration} {put : Duration → σ → σ} (hkey : Bare key)
    (hfield : fields.find? (·.key == key) = some (field key readDuration put)) :
    (duration key d put).Sound fields := by
  refine sound_of_field hkey hfield (written_stringLine key d.quotable_render d.render_ne_nil) ?_
  simp only [readDuration, d.parse_render]

theorem sound_variant {α : Type} {all : List α} {name : α → String} {a : α} {put : α → σ → σ}
    (hkey : Bare key)
    (hfield : fields.find? (·.key == key) = some (field key (readEnum all name) put))
    (hname : ∀ c ∈ (name a).toList, Quotable c) (hne : (name a).toList ≠ [])
    (hfind : all.find? (name · == name a) = some a) : (variant name key a put).Sound fields := by
  refine sound_of_field hkey hfield (written_stringLine key hname hne) ?_
  simp only [readEnum, readVariant, hfind]

end Setting

def serverSettings (s : ServerConfig) : List (Setting ServerConfig) :=
  [.address "bind" s.bind fun a t => { t with bind := a },
   .count "worker_threads" s.workerThreads fun n t => { t with workerThreads := n },
   .count "queue_capacity" s.queueCapacity fun n t => { t with queueCapacity := n }]

def controlSettings (s : ControlConfig) : List (Setting ControlConfig) :=
  [.duration "period" s.period fun d t => { t with period := d },
   .duration "step" s.step fun d t => { t with step := d },
   .duration "keepalive" s.keepalive fun d t => { t with keepalive := d },
   .bool "handle_frames_in_tick" s.handleFramesInTick fun b t => { t with handleFramesInTick := b },
   .duration "link_poll_period" s.linkPollPeriod fun d t => { t with linkPollPeriod := d },
   .bool "stop_on_disconnect" s.stopOnDisconnect fun b t => { t with stopOnDisconnect := b }]

def schedulerSettings (s : SchedulerConfig) : List (Setting SchedulerConfig) :=
  [.variant OverrunPolicy.name "on_overrun" s.onOverrun fun p t => { t with onOverrun := p },
   .count "histogram_size" s.histogramSize fun n t => { t with histogramSize := n }]

def rigSettings (s : RigConfig) : List (Setting RigConfig) :=
  [.variant RigKind.name "kind" s.kind fun k t => { t with kind := k },
   .duration "time_constant" s.timeConstant fun d t => { t with timeConstant := d }]

theorem sound_server {s : ServerConfig} (hbind : s.bind.WellFormed)
    (hthreads : s.workerThreads < countLimit) (hcapacity : s.queueCapacity < countLimit) :
    ∀ x ∈ serverSettings s, x.Sound serverFields := by
  simp only [serverSettings, List.forall_mem_cons]
  exact ⟨Setting.sound_address (by decide) rfl hbind, Setting.sound_count (by decide) rfl hthreads,
    Setting.sound_count (by decide) rfl hcapacity, nofun⟩

theorem sound_control (s : ControlConfig) : ∀ x ∈ controlSettings s, x.Sound controlFields := by
  simp only [controlSettings, List.forall_mem_cons]
  exact ⟨Setting.sound_duration (by decide) rfl, Setting.sound_duration (by decide) rfl,
    Setting.sound_duration (by decide) rfl, Setting.sound_bool (by decide) rfl,
    Setting.sound_duration (by decide) rfl, Setting.sound_bool (by decide) rfl, nofun⟩

theorem sound_scheduler {s : SchedulerConfig} (hsize : s.histogramSize < countLimit) :
    ∀ x ∈ schedulerSettings s, x.Sound schedulerFields := by
  simp only [schedulerSettings, List.forall_mem_cons]
  refine ⟨Setting.sound_variant (by decide) rfl ?_ ?_ ?_,
    Setting.sound_count (by decide) rfl hsize, nofun⟩ <;> cases s.onOverrun <;> decide

theorem sound_rig (s : RigConfig) : ∀ x ∈ rigSettings s, x.Sound rigFields := by
  simp only [rigSettings, List.forall_mem_cons]
  refine ⟨Setting.sound_variant (by decide) rfl ?_ ?_ ?_,
    Setting.sound_duration (by decide) rfl, nofun⟩ <;> cases s.kind <;> decide

def tables (c : Config) : List Toml.Table :=
  [Setting.table "server" (serverSettings c.server),
   Setting.table "control" (controlSettings c.control),
   Setting.table "scheduler" (schedulerSettings c.scheduler),
   Setting.table "rig" (rigSettings c.rig)]

def blockOf (t : Toml.Table) : Block :=
  ⟨t.name, t.entries.map fun e => ⟨e.key, String.ofList e.text⟩⟩

theorem blockOf_table {σ : Type} (name : String) (xs : List (Setting σ)) :
    blockOf (Setting.table name xs) = ⟨name, xs.map (·.line)⟩ := by
  simp [blockOf, Setting.table, Setting.entry, Function.comp_def]

theorem blocks_eq (c : Config) : c.blocks = c.tables.map blockOf := by
  simp only [tables, List.map_cons, List.map_nil, blockOf_table]
  rfl

theorem toList_line (e : Toml.Entry) :
    (Line.render ⟨e.key, String.ofList e.text⟩).toList = e.item.line ++ ['\n'] := by
  simp [Line.render, Toml.Entry.item, Toml.Item.line]

theorem toList_block (t : Toml.Table) : (blockOf t).render.toList = Toml.textOf t.items := by
  have hlines (es : List Toml.Entry) :
      (String.join (es.map fun e => Line.render ⟨e.key, String.ofList e.text⟩)).toList =
        Toml.textOf (es.map Toml.Entry.item) := by
    rw [String.toList_join, Toml.textOf, List.flatMap_map, List.flatMap_map]
    exact congrArg (List.flatMap · es) (funext toList_line)
  rw [Toml.Table.items, Toml.textOf_cons, ← hlines]
  simp [Block.render, blockOf, Toml.Item.line, Function.comp_def]

theorem renderBlocks_eq (ts : List Toml.Table) :
    renderBlocks (ts.map blockOf) = String.ofList (Toml.textOf (Toml.itemsOf ts)) := by
  refine String.toList_inj.mp ?_
  rw [String.toList_ofList, renderBlocks]
  fun_induction Toml.itemsOf ts with
  | case1 => rfl
  | case2 t => simp [toList_block]
  | case3 t u rest ih =>
    rw [List.map_cons, List.map_cons, String.intercalate_cons_of_ne_nil (by simp),
      String.toList_append, String.toList_append, ih, toList_block, Toml.textOf_append,
      Toml.textOf_cons]
    simp [Toml.Item.line]

/-- The address is one, and the counts are integers of the format. -/
structure Writable (c : Config) : Prop where
  bind : c.server.bind.WellFormed
  workerThreads : c.server.workerThreads < countLimit
  queueCapacity : c.server.queueCapacity < countLimit
  histogramSize : c.scheduler.histogramSize < countLimit

theorem Writable.server {c : Config} (h : c.Writable) :
    ∀ x ∈ serverSettings c.server, x.Sound serverFields :=
  sound_server h.bind h.workerThreads h.queueCapacity

theorem Writable.scheduler {c : Config} (h : c.Writable) :
    ∀ x ∈ schedulerSettings c.scheduler, x.Sound schedulerFields :=
  sound_scheduler h.histogramSize

theorem readable_tables {c : Config} (h : c.Writable) : ∀ t ∈ c.tables, t.Readable := by
  simp only [tables, List.forall_mem_cons]
  exact ⟨Setting.readable_table (by decide) h.server
      (by decide : ["bind", "worker_threads", "queue_capacity"].Nodup),
    Setting.readable_table (by decide) (sound_control c.control)
      (by decide : ["period", "step", "keepalive", "handle_frames_in_tick", "link_poll_period",
        "stop_on_disconnect"].Nodup),
    Setting.readable_table (by decide) h.scheduler
      (by decide : ["on_overrun", "histogram_size"].Nodup),
    Setting.readable_table (by decide) (sound_rig c.rig)
      (by decide : ["kind", "time_constant"].Nodup), nofun⟩

end Config

def ServerConfig.only (keep : String → Bool) (s : ServerConfig) : ServerConfig :=
  let default : ServerConfig := {}
  { bind := if keep "bind" then s.bind else default.bind
    workerThreads := if keep "worker_threads" then s.workerThreads else default.workerThreads
    queueCapacity := if keep "queue_capacity" then s.queueCapacity else default.queueCapacity }

def ControlConfig.only (keep : String → Bool) (s : ControlConfig) : ControlConfig :=
  let default : ControlConfig := {}
  { period := if keep "period" then s.period else default.period
    step := if keep "step" then s.step else default.step
    keepalive := if keep "keepalive" then s.keepalive else default.keepalive
    handleFramesInTick :=
      if keep "handle_frames_in_tick" then s.handleFramesInTick else default.handleFramesInTick
    linkPollPeriod := if keep "link_poll_period" then s.linkPollPeriod else default.linkPollPeriod
    stopOnDisconnect :=
      if keep "stop_on_disconnect" then s.stopOnDisconnect else default.stopOnDisconnect }

def SchedulerConfig.only (keep : String → Bool) (s : SchedulerConfig) : SchedulerConfig :=
  let default : SchedulerConfig := {}
  { onOverrun := if keep "on_overrun" then s.onOverrun else default.onOverrun
    histogramSize := if keep "histogram_size" then s.histogramSize else default.histogramSize }

def RigConfig.only (keep : String → Bool) (s : RigConfig) : RigConfig :=
  let default : RigConfig := {}
  { kind := if keep "kind" then s.kind else default.kind
    timeConstant := if keep "time_constant" then s.timeConstant else default.timeConstant }

def Config.only (keep : String → Bool) (c : Config) : Config where
  server := c.server.only keep
  control := c.control.only keep
  scheduler := c.scheduler.only keep
  rig := c.rig.only keep

namespace Config

def kept {σ : Type} (keep : String → Bool) (xs : List (Setting σ)) : List (Setting σ) :=
  xs.filter (keep ·.line.key)

theorem putAll_server (keep : String → Bool) (s : ServerConfig) :
    Setting.putAll (kept keep (serverSettings s)) {} = s.only keep := by
  rw [Setting.putAll, kept, List.foldl_filter, ServerConfig.only]
  simp only [serverSettings, List.foldl_cons, List.foldl_nil, Setting.address, Setting.count,
    stringLine, countLine]
  cases keep "bind" <;> cases keep "worker_threads" <;> cases keep "queue_capacity" <;> rfl

theorem putAll_control (keep : String → Bool) (s : ControlConfig) :
    Setting.putAll (kept keep (controlSettings s)) {} = s.only keep := by
  rw [Setting.putAll, kept, List.foldl_filter, ControlConfig.only]
  simp only [controlSettings, List.foldl_cons, List.foldl_nil, Setting.duration, Setting.bool,
    durationLine, stringLine, boolLine]
  cases keep "period" <;> cases keep "step" <;> cases keep "keepalive" <;>
    cases keep "handle_frames_in_tick" <;> cases keep "link_poll_period" <;>
    cases keep "stop_on_disconnect" <;> rfl

theorem putAll_scheduler (keep : String → Bool) (s : SchedulerConfig) :
    Setting.putAll (kept keep (schedulerSettings s)) {} = s.only keep := by
  rw [Setting.putAll, kept, List.foldl_filter, SchedulerConfig.only]
  simp only [schedulerSettings, List.foldl_cons, List.foldl_nil, Setting.variant, Setting.count,
    stringLine, countLine]
  cases keep "on_overrun" <;> cases keep "histogram_size" <;> rfl

theorem putAll_rig (keep : String → Bool) (s : RigConfig) :
    Setting.putAll (kept keep (rigSettings s)) {} = s.only keep := by
  rw [Setting.putAll, kept, List.foldl_filter, RigConfig.only]
  simp only [rigSettings, List.foldl_cons, List.foldl_nil, Setting.variant, Setting.duration,
    durationLine, stringLine]
  cases keep "kind" <;> cases keep "time_constant" <;> rfl

theorem readSection_table {σ : Type} {fields : List (Field σ)} {xs : List (Setting σ)}
    (h : ∀ x ∈ xs, x.Sound fields) (keep : String → Bool) (structName name : String) (s : σ) :
    readSection structName fields (.table ((Setting.table name xs).keep keep).values) s =
      .ok (Setting.putAll (kept keep xs) s) := by
  rw [Setting.values_keep]
  exact Setting.readEntries_sound (fun x hx => h x (List.mem_filter.mp hx).1) s

theorem sectionField_read {σ : Type} {key name : String} {fields : List (Field σ)}
    {get : Config → σ} {put : σ → Config → Config} {v : Toml.Value} {c : Config} {s : σ}
    (h : readSection name fields v (get c) = .ok s) :
    (sectionField key name fields get put).read v c = .ok (put s c) := by
  change (readSection name fields v (get c)).map (put · c) = _
  rw [h]
  rfl

theorem ofEntries_tables {c : Config} (h : c.Writable) (keep : String → Bool) :
    ofEntries (c.tables.map fun t => (t.name, .table (t.keep keep).values)) =
      .ok (c.only keep) := by
  have hserver := readSection_table h.server keep "ServerConfig" "server" {}
  have hcontrol := readSection_table (sound_control c.control) keep "ControlConfig" "control" {}
  have hscheduler := readSection_table h.scheduler keep "SchedulerConfig" "scheduler" {}
  have hrig := readSection_table (sound_rig c.rig) keep "RigConfig" "rig" {}
  rw [putAll_server] at hserver
  rw [putAll_control] at hcontrol
  rw [putAll_scheduler] at hscheduler
  rw [putAll_rig] at hrig
  unfold ofEntries
  simp only [tables, List.map_cons, List.map_nil]
  rw [Setting.readEntries_cons rfl (sectionField_read hserver),
    Setting.readEntries_cons rfl (sectionField_read hcontrol),
    Setting.readEntries_cons rfl (sectionField_read hscheduler),
    Setting.readEntries_cons rfl (sectionField_read hrig)]
  rfl

theorem render_eq_ok_iff {c : Config} {s : String} :
    c.render = .ok s ↔ (c.server.workerThreads < countLimit ∧ c.server.queueCapacity < countLimit ∧
      c.scheduler.histogramSize < countLimit) ∧ renderBlocks c.blocks = s := by
  unfold render
  simp only [List.all_cons, List.all_nil, Bool.and_true, Bool.and_eq_true, decide_eq_true_eq]
  split
  · next hfits => simp [hfits]
  · next hlarge => simp [hlarge]

theorem parse_keepKeys {c : Config} (h : c.Writable) (keep : String → Bool) :
    parse (Toml.keepKeys keep (renderBlocks c.blocks)) = .ok (c.only keep) := by
  have hnames : (c.tables.map (·.name)).Nodup :=
    (by decide : ["server", "control", "scheduler", "rig"].Nodup)
  rw [blocks_eq, renderBlocks_eq, parse, Toml.parse?_keepKeys (readable_tables h) hnames]
  simp only [ofEntries_tables h keep]

/-- A configuration has a text if its counts are integers of the format. It is read back from that
text, and from any of its lines with the defaults for the lines left out. -/
theorem render_reads_back (c : Config) (hbind : c.server.bind.WellFormed) :
    ((∃ s, c.render = .ok s) ↔
      c.server.workerThreads ≤ 2 ^ 63 - 1 ∧ c.server.queueCapacity ≤ 2 ^ 63 - 1 ∧
        c.scheduler.histogramSize ≤ 2 ^ 63 - 1) ∧
    ∀ s, c.render = .ok s →
      parse s = .ok c ∧
      ∀ keep : String → Bool, parse (Toml.keepKeys keep s) = .ok (c.only keep) := by
  have hlimit (n : Nat) : n < countLimit ↔ n ≤ 2 ^ 63 - 1 := Nat.lt_iff_le_pred (by decide)
  refine ⟨?_, fun s hs => ?_⟩
  · simp only [render_eq_ok_iff, ← hlimit]
    simp
  · obtain ⟨⟨hthreads, hcapacity, hsize⟩, rfl⟩ := render_eq_ok_iff.mp hs
    have hwritable : c.Writable := ⟨hbind, hthreads, hcapacity, hsize⟩
    refine ⟨?_, parse_keepKeys hwritable⟩
    have hall := parse_keepKeys hwritable fun _ => true
    rwa [Toml.keepKeys_all] at hall

def onLink : Config :=
  { server := { bind := { ip := .v6 #v[0xfe80, 0, 0, 0, 0, 0, 0, 1], port := 50007, scope := 3 } }
    control := { period := .ofMillis 90061001 } }

theorem onLink_reads_back :
    onLink.server.bind.WellFormed ∧ ∃ s, onLink.render = .ok s ∧ parse s = .ok onLink ∧
      ∀ keep : String → Bool, parse (Toml.keepKeys keep s) = .ok (onLink.only keep) := by
  have hbind : onLink.server.bind.WellFormed := by decide
  obtain ⟨hfits, hread⟩ := render_reads_back onLink hbind
  obtain ⟨s, hs⟩ := hfits.mpr (by decide)
  exact ⟨hbind, s, hs, hread s hs⟩

end Config

end RigBench
