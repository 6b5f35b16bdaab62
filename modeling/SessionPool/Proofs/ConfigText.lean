import SessionPool.Catalog
import SessionPool.Proofs.Records

/-! The text of a configuration. A configuration without faults reads back from the text it is written
    as, in whatever order the entries of its groups stand there; what is left out of the text is what is
    filled in when it is read. A configuration that was read is sound: its groups are a table, of which
    each can be referred to by any id that begins with its name. -/

namespace SessionPool

/-! ### What a reader of records keeps -/

namespace Json.Layout
variable {σ α : Type} {P : σ → Prop}

/-- A field whose reader changes a draft only so that it keeps a property. -/
def Keeps (P : σ → Prop) (f : Field σ) : Prop :=
  ∀ d s g t, f.read d s = .ok (g, t) → ∀ draft, P draft → P (g draft)

theorem readMembers_keeps {fields : List (Field σ)} (h : ∀ f ∈ fields, Keeps P f) {d : Nat} :
    ∀ {fuel first draft s filled t}, readMembers fields d fuel first draft s = .ok (filled, t) →
      P draft → P filled := by
  intro fuel
  induction fuel with
  | zero => intro first draft s filled t hread; cases hread
  | succ fuel ih =>
    intro first draft s filled t hread hdraft
    rw [readMembers] at hread
    split at hread
    · cases hread
    · cases hread; exact hdraft
    split at hread
    · -- An entry that is no field is passed over.
      split at hread
      · cases hread
      split at hread
      · cases hread
      · exact ih hread hdraft
    · rename_i hfield
      split at hread
      · cases hread
      split at hread
      · cases hread
      split at hread
      · cases hread
      · exact ih hread (h _ (List.mem_of_find?_eq_some hfield) _ _ _ _ ‹_› _ hdraft)

theorem readPlaces_keeps {l : Layout σ α} {d : Nat} : ∀ {fields : List (Field σ)}, (∀ f ∈ fields, Keeps P f) →
    ∀ {place draft s filled t}, readPlaces l d place draft fields s = .ok (filled, t) → P draft → P filled := by
  intro fields
  induction fields with
  | nil =>
    intro _ place draft s filled t hread hdraft
    rw [readPlaces] at hread
    cases hclose : closeList s with
    | error e => rw [hclose] at hread; cases hread
    | ok r => rw [hclose] at hread; cases hread; exact hdraft
  | cons f fields ih =>
    intro h place draft s filled t hread hdraft
    rw [readPlaces] at hread
    split at hread
    · cases hread
    · split at hread
      · cases hread
      · cases hread; exact hdraft
    · split at hread
      · cases hread
      · have hkept := h f List.mem_cons_self _ _ _ _ ‹_› _ hdraft
        exact ih (fun f hf => h f (List.mem_cons_of_mem _ hf)) hread hkept

/-- What a record is made from was kept by the readers of all its fields. -/
theorem read_keeps {l : Layout σ α} (hblank : P l.blank) (h : ∀ f ∈ l.fields, Keeps P f) {d : Nat}
    {s : List Char} {a : α} {t : List Char} (hread : l.read d s = .ok (a, t)) :
    ∃ draft, P draft ∧ a = l.build draft := by
  rw [read] at hread
  split at hread
  · cases hread
  · cases hdeeper : deeper d s with
    | error e => rw [hdeeper] at hread; cases hread
    | ok d' =>
      rw [hdeeper] at hread
      simp only [bind, Except.bind] at hread
      split at hread
      · cases hread
      · cases hread; exact ⟨_, readPlaces_keeps h ‹_› hblank, rfl⟩
  · cases hdeeper : deeper d s with
    | error e => rw [hdeeper] at hread; cases hread
    | ok d' =>
      rw [hdeeper] at hread
      simp only [bind, Except.bind] at hread
      split at hread
      · cases hread
      · split at hread
        · cases hread
        · cases hread; exact ⟨_, readMembers_keeps h ‹_› hblank, rfl⟩
  · cases hread

end Json.Layout

theorem Json.tableOf_sorted {α : Type} {item : TypedReader α} {d : Nat} {s rest : List Char} {t : Table α}
    (h : tableOf item d s = .ok (t, rest)) : Table.Sorted t := by
  simp only [tableOf, bind, Except.bind] at h
  split at h
  · cases h
  split at h
  · cases h
  rw [readTable] at h
  cases hread : readEntries (item _) _ true _ with
  | error e => rw [hread] at h; cases h
  | ok p => rw [hread] at h; cases h; exact .ofList _

/-! ### Locators -/

namespace Locator
variable {l : Locator} {d : Nat}

/-- The entries of the object that a locator is written as, in the order of its fields; what is absent or
    empty is left out. -/
def entries (l : Locator) : List (String × Json) :=
  [("local_path", .str l.path)] ++ (l.command.map fun c => ("command", Json.str c)).toList ++
    if l.args.isEmpty then [] else [("args", .arr (l.args.map .str))]

/-- A value lists the entries from the last to the first. -/
theorem toJson_eq (l : Locator) : l.toJson = .obj l.entries.reverse := by
  rw [toJson, entries]
  cases l.command <;> split <;> rfl

theorem entries_cases {e : String × Json} (h : e ∈ l.entries) :
    e = ("local_path", .str l.path) ∨ (∃ c, l.command = some c ∧ e = ("command", .str c)) ∨
      e = ("args", .arr (l.args.map .str)) := by
  rw [entries, List.mem_append, List.mem_append, List.mem_singleton, Option.mem_toList,
    Option.map_eq_some_iff] at h
  rcases h with (h | ⟨c, hc, h⟩) | h
  · exact .inl h
  · exact .inr (.inl ⟨c, hc, h.symm⟩)
  · split at h
    · cases h
    · exact .inr (.inr (List.mem_singleton.1 h))

theorem path_mem (l : Locator) : ("local_path", .str l.path) ∈ l.entries := by simp [entries]

theorem entries_nodup (l : Locator) : (l.entries.map (·.1)).Nodup := by
  rw [entries]
  cases l.command <;> split <;> simp

/-- A draft that has some fields of a locator. -/
def draft (l : Locator) (keys : List String) : Draft where
  path := if "local_path" ∈ keys then some l.path else none
  command := if "command" ∈ keys then some l.command else none
  args := if "args" ∈ keys then some l.args else none

/-- Entries of a locator fill its draft, in whatever order they come. -/
theorem fills (l : Locator) (d : Nat) : ∀ {es : List (String × Json)} {keys : List String},
    (∀ e ∈ es, e ∈ l.entries) → (es.map (·.1)).Nodup → (∀ e ∈ es, e.1 ∉ keys) →
    Json.Fills layout.fields (d + 1) (l.draft keys) es (l.draft ((es.map (·.1)).reverse ++ keys)) := by
  intro es
  induction es with
  | nil => intro keys _ _ _; exact .nil _
  | cons e es ih =>
    intro keys hes hnodup hkeys
    obtain ⟨hnew, hnodup⟩ := List.nodup_cons.1 hnodup
    have hvacant : e.1 ∉ keys := hkeys e List.mem_cons_self
    have hothers : ∀ x ∈ es, x.1 ∉ e.1 :: keys := fun x hx hmem => by
      rcases List.mem_cons.1 hmem with heq | hmem
      · exact hnew (List.mem_map.2 ⟨x, hx, heq⟩)
      · exact hkeys x (List.mem_cons_of_mem _ hx) hmem
    have hrest := ih (fun x hx => hes x (List.mem_cons_of_mem _ hx)) hnodup hothers
    rw [List.map_cons, List.reverse_cons, List.append_assoc, List.singleton_append]
    rcases entries_cases (hes e List.mem_cons_self) with rfl | ⟨c, hc, rfl⟩ | rfl
    · refine .cons rfl ?_ (fun rest _ => Json.Field.of_read (Json.textOf_chars _ _ l.path rest)) ?_
      · simpa [Json.Field.of, draft] using hvacant
      · simpa [draft] using hrest
    · refine .cons rfl ?_ (fun rest _ => Json.Field.of_read (Json.optional_text_chars _ c rest)) ?_
      · simpa [Json.Field.of, draft] using hvacant
      · simpa [draft, hc] using hrest
    · have hread : ∀ s ∈ l.args, Json.ReadsBack (Json.text d) Json.str s := fun s _ => Json.readsBack_text d s
      have hargs := Json.readsBack_listOf hread
      refine .cons rfl ?_ (fun rest hstops => Json.Field.of_read (hargs.2 rest hstops)) ?_
      · simpa [Json.Field.of, draft] using hvacant
      · simpa [draft] using hrest

/-- A draft with all entries makes the locator. -/
theorem build_draft {keys : List String} (h : ∀ e ∈ l.entries, e.1 ∈ keys) :
    layout.build (l.draft keys) = l := by
  obtain ⟨path, command, args⟩ := l
  have hpath : "local_path" ∈ keys := h _ (path_mem _)
  have hcommand : "command" ∉ keys → command = none := by
    intro hnot
    cases command with
    | none => rfl
    | some c => exact absurd (h ("command", .str c) (by simp [entries])) hnot
  have hargs : "args" ∉ keys → args = [] := by
    intro hnot
    cases args with
    | nil => rfl
    | cons a as => exact absurd (h ("args", .arr ((a :: as).map .str)) (by simp [entries])) hnot
  simp only [layout, draft, hpath, if_true, Option.getD_some, Locator.mk.injEq, true_and]
  constructor
  · split
    · rfl
    · exact (hcommand ‹_›).symm
  · split
    · rfl
    · exact (hargs ‹_›).symm

/-- A locator reads back. -/
theorem readsBack (l : Locator) {order : Locator → List (String × Json)}
    (horder : ∀ l, (order l).Perm l.entries) :
    Json.ReadsBack (layout.read (d + 2)) (fun l => .obj (order l)) l := by
  obtain ⟨s, hs⟩ := Json.obj_chars (order l)
  refine ⟨⟨'\x7b', s, hs, by constructor <;> decide⟩, fun rest _ => ?_⟩
  have hkeys : ∀ e ∈ l.entries, e.1 ∈ ((order l).map (·.1)).reverse ++ [] := by
    intro e he
    rw [List.append_nil, List.mem_reverse]
    exact List.mem_map_of_mem ((horder l).mem_iff.2 he)
  have hpath : "local_path" ∈ ((order l).map (·.1)).reverse ++ [] := hkeys _ l.path_mem
  have hfills : Json.Fills layout.fields (d + 1) layout.blank (order l) _ :=
    l.fills d (fun e he => (horder l).mem_iff.1 he) (((horder l).map _).nodup_iff.2 l.entries_nodup)
      fun _ _ => List.not_mem_nil
  have hread := hfills.read (l := layout) (by simpa [layout, Json.Field.of, draft] using hpath) rest
  rw [build_draft hkeys] at hread
  exact hread

end Locator

/-! ### Configurations -/

namespace Config
variable {c : Config} {order : Locator → List (String × Json)}

/-- A configuration as a JSON value, with the entries of its groups in some order. -/
def written (order : Locator → List (String × Json)) (c : Config) : Json :=
  .obj [("mcpServers", .obj (c.groups.map fun g => (g.1, .obj (order g.2))))]

theorem toJson_eq (c : Config) : c.toJson = c.written fun l => l.entries.reverse := by
  simp only [toJson, written, Locator.toJson_eq]

/-- A configuration reads back. -/
theorem readsBack (horder : ∀ l, (order l).Perm l.entries) (hsorted : Table.Sorted c.groups) (d : Nat) :
    Json.ReadsBack (layout.read (d + 4)) (written order) c := by
  refine ⟨⟨'\x7b', _, rfl, by constructor <;> decide⟩, fun rest _ => ?_⟩
  have hgroups := Json.readsBack_tableOf hsorted fun g _ => g.2.readsBack (d := d) horder
  have hfills : Json.Fills layout.fields (d + 3) layout.blank
      [("mcpServers", .obj (c.groups.map fun g => (g.1, .obj (order g.2))))] (some c.groups) :=
    .cons rfl rfl (fun rest hstops => Json.Field.of_read (hgroups.2 rest hstops)) (.nil _)
  exact hfills.read rfl rest

theorem sorted_of_read {d : Nat} {s rest : List Char} (h : layout.read d s = .ok (c, rest)) :
    Table.Sorted c.groups := by
  have hfields : ∀ f ∈ layout.fields, Json.Layout.Keeps (fun d => ∀ t, d = some t → Table.Sorted t) f := by
    intro f hf d s g rest hread draft _ groups hgroups
    cases List.mem_singleton.1 hf
    simp only [Json.Field.of] at hread
    cases hitem : Json.tableOf Locator.layout.read d s with
    | error e => rw [hitem] at hread; cases hread
    | ok p =>
      rw [hitem] at hread
      cases hread
      cases hgroups
      exact Json.tableOf_sorted hitem
  obtain ⟨draft, hdraft, rfl⟩ := Json.Layout.read_keeps (l := layout) nofun hfields h
  cases draft with
  | none => exact .nil
  | some groups => exact hdraft groups rfl

theorem sound_of_parse {text : String} (h : parse text = .ok c) :
    Table.Sorted c.groups ∧ c.validate = .ok () := by
  rw [parse] at h
  cases hread : Json.readAll (layout.read Json.maxDepth) text with
  | error m => rw [hread] at h; cases h
  | ok c' =>
    simp only [hread] at h
    cases hvalid : c'.validate with
    | error e => rw [hvalid] at h; cases h
    | ok valid =>
      rw [hvalid] at h
      cases h
      obtain ⟨rest, hrest⟩ := Json.read_of_readAll hread
      exact ⟨sorted_of_read hrest, hvalid⟩

/-- What holds of a group that a configuration accepts. -/
structure Accepts (c : Config) (g : String) (l : Locator) : Prop where
  named : Text.isBlank g = false
  whole : separator ∉ g.toList
  found : l.path ≠ ""
  /-- Any id that begins with the name and a separator refers to the group. -/
  refers : ∀ i, SessionKey.parse (routedName g i) = ⟨g, i⟩ ∧
    Table.get? (SessionKey.parse (routedName g i)).group (Catalog.ofConfig c) = some ⟨l, []⟩

theorem ofConfig_get? {g : String} {l : Locator} : ∀ {t : Table Locator}, Table.get? g t = some l →
    Table.get? g (Catalog.ofConfig ⟨t⟩) = some ⟨l, []⟩
  | (g', l') :: t, h => by
    rw [Table.get?] at h
    rw [Catalog.ofConfig, List.map_cons, Table.get?]
    split at h
    · cases h; exact if_pos ‹_›
    · rw [if_neg ‹_›]; exact ofConfig_get? h

theorem validate_eq_ok : c.validate = .ok () ↔ c.fault? = none := by
  rw [validate]
  cases c.fault? <;> simp

theorem groupFault?_eq_none {g : String} {l : Locator} :
    groupFault? g l = none ↔ Text.isBlank g = false ∧ separator ∉ g.toList ∧ l.path ≠ "" := by
  rw [groupFault?]
  by_cases hblank : Text.isBlank g = true
  · simp [hblank]
  · by_cases hpart : separator ∈ g.toList
    · simp [hblank, hpart]
    · simp [hblank, hpart, String.isEmpty_iff]

theorem validate_eq_ok_iff :
    c.validate = .ok () ↔ c.groups ≠ [] ∧ ∀ e ∈ c.groups, groupFault? e.1 e.2 = none := by
  rw [validate_eq_ok, fault?]
  by_cases hgroups : c.groups = []
  · simp [hgroups]
  · simp [hgroups, List.findSome?_eq_none_iff]

/-- A configuration without faults has groups, and each is fit to be referred to. -/
theorem accepts_of_valid (hsorted : Table.Sorted c.groups) (h : c.validate = .ok ()) :
    c.groups ≠ [] ∧ ∀ g l, (g, l) ∈ c.groups → c.Accepts g l := by
  obtain ⟨hgroups, hfaults⟩ := validate_eq_ok_iff.1 h
  refine ⟨hgroups, fun g l hmem => ?_⟩
  obtain ⟨hnamed, hwhole, hfound⟩ := groupFault?_eq_none.1 (hfaults _ hmem)
  refine ⟨hnamed, hwhole, hfound, fun i => ?_⟩
  rw [SessionKey.parse_routedName hwhole]
  exact ⟨rfl, ofConfig_get? (hsorted.get?_of_mem hmem)⟩

/-- A configuration without faults reads back from its text, whatever the order of the entries there. -/
theorem parse_of_valid (horder : ∀ l, (order l).Perm l.entries) (hsorted : Table.Sorted c.groups)
    (hvalid : c.validate = .ok ()) : parse (c.written order).compact = .ok c := by
  have hread : Json.readAll (layout.read Json.maxDepth) (c.written order).compact = .ok c :=
    (readsBack horder hsorted 123).readAll
  rw [parse, hread]
  simp only [hvalid]

/-- A configuration without faults reads back from its text, and so from the one that is written; what was
    read from a text is without faults. -/
theorem parse_written (horder : ∀ l, (order l).Perm l.entries) :
    (∀ c : Config, Table.Sorted c.groups → c.validate = .ok () →
      parse (c.written order).compact = .ok c ∧ parse c.toJson.compact = .ok c) ∧
    ∀ text c, parse text = .ok c → parse (c.written order).compact = .ok c ∧ parse c.toJson.compact = .ok c ∧
      c.groups ≠ [] ∧ ∀ g l, (g, l) ∈ c.groups → c.Accepts g l := by
  have hback : ∀ c : Config, Table.Sorted c.groups → c.validate = .ok () →
      parse (c.written order).compact = .ok c ∧ parse c.toJson.compact = .ok c := by
    intro c hsorted hvalid
    rw [toJson_eq]
    exact ⟨parse_of_valid horder hsorted hvalid, parse_of_valid (fun l => l.entries.reverse_perm) hsorted hvalid⟩
  refine ⟨hback, fun text c hparse => ?_⟩
  obtain ⟨hsorted, hvalid⟩ := sound_of_parse hparse
  obtain ⟨hwritten, hjson⟩ := hback c hsorted hvalid
  exact ⟨hwritten, hjson, accepts_of_valid hsorted hvalid⟩

/-- A group that is launched by its path, and one that has everything. -/
def guests : Config :=
  ⟨[("calc", ⟨"calc.py", none, []⟩), ("spielé", ⟨"a \"b\"\n", some "", ["-v", "\\"]⟩)]⟩

/-- A text in which a group is written as a list, beside an entry that nobody asks for. -/
def listed : String := "\x7b\"mcpServers\":\x7b\"calc\":[\"calc.py\",null,[]]\x7d,\"x\":[1]\x7d"

theorem parse_written_guests :
    parse (guests.written Locator.entries).compact = .ok guests ∧ parse guests.toJson.compact = .ok guests ∧
    ∃ c, parse listed = .ok c ∧ c.groups = [("calc", ⟨"calc.py", none, []⟩)] ∧
      parse (c.written Locator.entries).compact = .ok c ∧ parse c.toJson.compact = .ok c ∧
        ∀ g l, (g, l) ∈ c.groups → c.Accepts g l := by
  have horder : ∀ l, (Locator.entries l).Perm l.entries := fun _ => .refl _
  obtain ⟨hback, hsound⟩ := parse_written horder
  have hsorted : Table.Sorted guests.groups := List.pairwise_pair.2 (by decide)
  have hread : parse listed = .ok ⟨[("calc", ⟨"calc.py", none, []⟩)]⟩ := rfl
  obtain ⟨hwritten, hjson⟩ := hback guests hsorted rfl
  obtain ⟨hwritten', hjson', -, haccepts⟩ := hsound _ _ hread
  exact ⟨hwritten, hjson, _, hread, rfl, hwritten', hjson', haccepts⟩

end Config
end SessionPool
