import Mathlib.Data.List.Forall2
import SessionPool.Proofs.Encoding
import SessionPool.Proofs.Records

/-! What a flush of the call log adds to a file: one line for each actor, in the order of their bytes, and
    nothing else. No line has a newline inside, whatever is in the log, and each reads back as the actor
    with all its entries. Making the directories above a file touches no file, and a path that led
    somewhere leads there still; so the bytes that were there before stay, and a second flush finds
    what the first has left. -/

namespace SessionPool

namespace Json

/-! ### Texts on one line -/

theorem newline_notMem_escape (c : Char) : '\n' ∉ escape c := by
  have hdigit : ∀ n < 16, hexDigit n ≠ '\n' := by decide
  unfold escape
  iterate 7
    split
    · decide
  split
  · rename_i hcontrol
    have hhigh := hdigit (c.toNat / 16) (by omega)
    have hlow := hdigit (c.toNat % 16) (by omega)
    simp [hhigh.symm, hlow.symm]
  · rename_i hne _ _ _
    simpa using Ne.symm hne

theorem newline_notMem_quote (s : String) : '\n' ∉ quote s := by
  simp [quote, newline_notMem_escape]

theorem newline_notMem_number {n : Number} (h : n.Whole) : '\n' ∉ number n := by
  have hdigits : ∀ n, '\n' ∉ Nat.toDigits 10 n := by
    intro n hmem
    exact absurd (Nat.isDigit_of_mem_toDigits (by decide) (by decide) hmem) (by decide)
  obtain (n | n) | _ := n
  · exact hdigits n
  · simp [number, hdigits]
  · exact h.elim

mutual

/-- The compact text of a value is a single line. -/
theorem newline_notMem_chars : ∀ v : Json, v.Plain → '\n' ∉ v.chars
  | .null, _ => by decide
  | .bool b, _ => by cases b <;> decide
  | .num n, h => newline_notMem_number h
  | .str s, _ => newline_notMem_quote s
  | .arr [], _ => by decide
  | .arr (v :: l), h => by
    simp [chars, newline_notMem_chars v h.1, newline_notMem_items l h.2]
  | .obj [], _ => by decide
  | .obj ((k, v) :: e), h => by
    simp [chars, newline_notMem_quote, newline_notMem_chars v h.2.1, newline_notMem_fields e h.2.2]

theorem newline_notMem_items : ∀ l : List Json, PlainItems l → '\n' ∉ itemChars l
  | [], _ => by decide
  | v :: l, h => by simp [itemChars, newline_notMem_chars v h.1, newline_notMem_items l h.2]

theorem newline_notMem_fields : ∀ e : List (String × Json), PlainFields e → '\n' ∉ fieldChars e
  | [], _ => by decide
  | (k, v) :: e, h => by
    simp [fieldChars, newline_notMem_quote, newline_notMem_chars v h.1, newline_notMem_fields e h.2]

end
end Json

/-! ### Files -/

namespace FileTree
variable {t u v : FileTree}

/-- Whatever was a directory is one still, and the files are the same. -/
structure Extends (t u : FileTree) : Prop where
  dirs : ∀ p, t.node? p = some .dir → u.node? p = some .dir
  files : ∀ p content, u.node? p = some (.file content) ↔ t.node? p = some (.file content)

theorem Extends.refl (t : FileTree) : Extends t t := ⟨fun _ h => h, fun _ _ => Iff.rfl⟩

theorem Extends.trans (h : Extends t u) (h' : Extends u v) : Extends t v :=
  ⟨fun p hp => h'.dirs p (h.dirs p hp), fun p c => (h'.files p c).trans (h.files p c)⟩

/-- The nodes after one was put at a place. -/
theorem node?_insert (p : Place) (n : Node) (q : Place) :
    node? (Table.insert (key p) n t) q = if !isBase q && key q = key p then some n else t.node? q := by
  unfold node?
  by_cases hq : isBase q = true
  · simp [hq]
  · by_cases hkey : key q = key p
    · simp [hq, hkey, Table.get?_insert_self]
    · simp [hq, hkey, Table.get?_insert_of_ne hkey]

theorem isBase_eq_false {p : Place} (h : t.node? p ≠ some .dir) : isBase p = false := by
  rw [Bool.eq_false_iff]
  intro hbase
  exact h (if_pos hbase)

/-- A place with the key of another holds the same, unless it is a base. -/
theorem node?_of_key {p q : Place} (hp : isBase p = false) (hq : isBase q = false) (h : key q = key p) :
    t.node? q = t.node? p := by
  rw [node?, node?, hp, hq, h]

/-- Where directories stay directories, a path that led to a place leads there still. -/
theorem walk_of_dirs (hdirs : ∀ p, t.node? p = some .dir → u.node? p = some .dir) {q : Place} :
    ∀ {ns : List String} {p : Place}, walk t p ns = .ok q → walk u p ns = .ok q := by
  intro ns
  induction ns with
  | nil => intro p h; exact h
  | cons n ns ih =>
    intro p h
    rw [walk] at h ⊢
    split at h
    · cases h
    · cases h
    rename_i hdir
    rw [hdirs p hdir]
    simp only
    split
    · rename_i hlong
      rw [if_pos hlong] at h
      cases h
    rename_i hshort
    rw [if_neg hshort] at h
    repeat' split
    all_goals simp_all

theorem locate_of_dirs (hdirs : ∀ p, t.node? p = some .dir → u.node? p = some .dir) {path : String} {q : Place}
    (h : t.locate path = .ok q) : u.locate path = .ok q := by
  rw [locate] at h ⊢
  split at h
  · cases h
  exact walk_of_dirs hdirs h

theorem isDir_iff {path : String} :
    t.isDir path = true ↔ ∃ p, t.locate path = .ok p ∧ t.node? p = some .dir := by
  rw [isDir]
  constructor
  · intro h
    split at h
    · cases h
    · rename_i p hp
      split at h
      · exact ⟨p, hp, ‹_›⟩
      · cases h
  · rintro ⟨p, hp, hdir⟩
    simp [hp, hdir]

theorem isDir_of_dirs (hdirs : ∀ p, t.node? p = some .dir → u.node? p = some .dir) {path : String}
    (h : t.isDir path = true) : u.isDir path = true := by
  obtain ⟨p, hp, hdir⟩ := isDir_iff.1 h
  exact isDir_iff.2 ⟨p, locate_of_dirs hdirs hp, hdirs p hdir⟩

/-- A directory that is made is there, and nothing else changes. -/
theorem makeDir_ok {path : String} (h : t.makeDir path = .ok u) : Extends t u ∧ u.isDir path = true := by
  rw [makeDir] at h
  split at h
  · cases h
  rename_i p hp
  split at h
  · cases h
  rename_i hfree
  cases h
  have hnone : t.node? p = none := by simpa using hfree
  have hbase : isBase p = false := isBase_eq_false (by rw [hnone]; nofun)
  have hextends : Extends t (Table.insert (key p) .dir t) := by
    constructor
    · intro q hq
      rw [node?_insert]
      split
      · rfl
      · exact hq
    · intro q content
      rw [node?_insert]
      split
      · rename_i hkey
        simp only [Bool.and_eq_true, Bool.not_eq_true', decide_eq_true_eq] at hkey
        rw [node?_of_key hbase hkey.1 hkey.2, hnone]
        simp
      · exact Iff.rfl
  refine ⟨hextends, isDir_iff.2 ⟨p, locate_of_dirs hextends.dirs hp, ?_⟩⟩
  rw [node?_insert]
  simp [hbase]

theorem settleDir_extends {path : String} {r : Except FileError FileTree}
    (h : ∀ u, r = .ok u → Extends t u) : Extends t (t.settleDir path r).2 := by
  cases r with
  | ok u => exact h u rfl
  | error e => exact .refl t

theorem settleDir_ok {path : String} {r : Except FileError FileTree} (h : ∀ u, r = .ok u → u.isDir path = true)
    (hok : t.settleDir path r = (.ok (), u)) : u.isDir path = true := by
  cases r with
  | ok v =>
    cases hok
    exact h u rfl
  | error e =>
    simp only [settleDir, Prod.mk.injEq] at hok
    obtain ⟨hdir, rfl⟩ := hok
    split at hdir
    · assumption
    · cases hdir

/-- Making directories touches no file. -/
theorem makeDirs_extends (t : FileTree) : ∀ paths, Extends t (t.makeDirs paths).2 := by
  intro paths
  induction paths with
  | nil => exact .refl t
  | cons path above ih =>
    rw [makeDirs]
    split
    · split
      · rename_i u hu
        rw [hu] at ih
        exact ih
      · rename_i u hu
        rw [hu] at ih
        exact ih.trans (settleDir_extends fun v hv => (makeDir_ok hv).1)
    · exact settleDir_extends fun v hv => (makeDir_ok hv).1

theorem makeDirs_ok {path : String} {above : List String} (h : t.makeDirs (path :: above) = (.ok (), u)) :
    u.isDir path = true := by
  rw [makeDirs] at h
  split at h
  · split at h
    · cases h
    · exact settleDir_ok (fun v hv => (makeDir_ok hv).2) h
  · exact settleDir_ok (fun v hv => (makeDir_ok hv).2) h

/-- A directory that is there need not be made. -/
theorem makeDirs_of_isDir {path : String} (above : List String) (h : t.isDir path = true) :
    t.makeDirs (path :: above) = (.ok (), t) := by
  obtain ⟨p, hp, hdir⟩ := isDir_iff.1 h
  have hmake : t.makeDir path = .error .alreadyThere := by
    rw [makeDir, hp]
    simp [hdir]
  rw [makeDirs, hmake]
  simp [settleDir, h]

theorem makeParents_extends (t : FileTree) (path : String) : Extends t (t.makeParents path).2 := by
  rw [makeParents]
  split
  · exact .refl t
  · exact makeDirs_extends t _

/-- The directories above a file are made once. -/
theorem makeParents_again {path : String} (h : t.makeParents path = (.ok (), u))
    (hdirs : ∀ p, u.node? p = some .dir → v.node? p = some .dir) : v.makeParents path = (.ok (), v) := by
  rw [makeParents] at h ⊢
  split at h
  · rfl
  · cases hpaths : withParents (Path.components path).length _ with
    | nil => rfl
    | cons parent above =>
      rw [hpaths] at h
      exact makeDirs_of_isDir above (isDir_of_dirs hdirs (makeDirs_ok h))

/-- The bytes that stand at a place. -/
def content (t : FileTree) (p : Place) : ByteArray :=
  match t.node? p with
  | some (.file bytes) => bytes
  | _ => .empty

/-- Text is added to what stands at the place of a file, and to nothing else. -/
theorem append_ok {path text : String} : t.append path text = .ok u ↔
    endsOpen path = false ∧ ∃ p, t.locate path = .ok p ∧ t.node? p ≠ some .dir ∧
      u = Table.insert (key p) (.file (t.content p ++ text.toUTF8)) t := by
  constructor
  · intro h
    rw [append] at h
    split at h
    · cases h
    rename_i p hp
    have hopen : endsOpen path = false := by
      rw [Bool.eq_false_iff]
      intro hopen
      rw [locateFile, if_pos hopen] at hp
      repeat' split at hp
      all_goals cases hp
    rw [locateFile, hopen] at hp
    refine ⟨hopen, p, hp, ?_⟩
    rw [content]
    split at h
    · cases h
    · rename_i hnode
      cases h
      simp [hnode]
    · rename_i hnode
      cases h
      simp [hnode]
  · rintro ⟨hopen, p, hp, hdir, rfl⟩
    rw [append, locateFile, hopen]
    simp only [Bool.false_eq_true, if_false, hp, content]
    split
    · contradiction
    · rename_i hnode
      rw [hnode]
    · rename_i hnode
      simp [hnode]

/-- What is there once text was added. -/
theorem insert_file {p : Place} (h : t.node? p ≠ some .dir) (bytes : ByteArray) :
    (∀ q, t.node? q = some .dir → node? (Table.insert (key p) (.file bytes) t) q = some .dir) ∧
      node? (Table.insert (key p) (.file bytes) t) p = some (.file bytes) := by
  have hbase := isBase_eq_false h
  constructor
  · intro q hq
    rw [node?_insert]
    split
    · rename_i hkey
      simp only [Bool.and_eq_true, Bool.not_eq_true', decide_eq_true_eq] at hkey
      rw [node?_of_key hbase hkey.1 hkey.2] at hq
      exact absurd hq h
    · exact hq
  · rw [node?_insert]
    simp [hbase]

theorem read_ok {path : String} {bytes : ByteArray} : t.read path = .ok bytes ↔
    endsOpen path = false ∧ ∃ p, t.locate path = .ok p ∧ t.node? p = some (.file bytes) := by
  rw [read]
  constructor
  · intro h
    split at h
    · cases h
    rename_i p hp
    split at h
    · cases h
    · cases h
    split at h
    · cases h
    · rename_i hnode hopen
      cases h
      exact ⟨by simpa using hopen, p, hp, hnode⟩
  · rintro ⟨hopen, p, hp, hnode⟩
    simp [hp, hnode, hopen]

/-- A destination that can be opened and written to: the directories above it are there or can be made,
    and then text can be added. -/
def Takes (t : FileTree) (path : String) : Prop :=
  ∃ dirs file, t.makeParents path = (.ok (), dirs) ∧ dirs.append path "" = .ok file

/-- What a destination holds already: the bytes of the file, or none if there is no file, not even once
    the directories above it are made. -/
inductive Holds (t : FileTree) (path : String) : ByteArray → Prop
  | file {bytes : ByteArray} (h : t.read path = .ok bytes) : Holds t path bytes
  | fresh (h : ∀ bytes, (t.makeParents path).2.read path ≠ .ok bytes) : Holds t path .empty

/-- The place of a destination, with its directories made, and what stands there. -/
theorem Takes.place {path : String} {before : ByteArray} (h : t.Takes path) (hbefore : t.Holds path before) :
    ∃ dirs p, t.makeParents path = (.ok (), dirs) ∧ endsOpen path = false ∧ dirs.locate path = .ok p ∧
      dirs.node? p ≠ some .dir ∧ dirs.content p = before := by
  obtain ⟨dirs, file, hdirs, happend⟩ := h
  obtain ⟨hopen, p, hp, hdir, -⟩ := append_ok.1 happend
  refine ⟨dirs, p, hdirs, hopen, hp, hdir, ?_⟩
  have hextends : Extends t dirs := by
    have hall := makeParents_extends t path
    rwa [hdirs] at hall
  cases hbefore with
  | file hread =>
    obtain ⟨-, q, hq, hnode⟩ := read_ok.1 hread
    have heq : p = q := Except.ok.inj (hp.symm.trans (locate_of_dirs hextends.dirs hq))
    rw [content, heq, (hextends.files q before).2 hnode]
  | fresh hnone =>
    rw [hdirs] at hnone
    rw [content]
    split
    · rename_i bytes hnode
      exact absurd (read_ok.2 ⟨hopen, p, hp, hnode⟩) (hnone bytes)
    · rfl

end FileTree

/-! ### The log -/

/-- The bytes of lines, each with the newline that ends it. -/
def Text.lined (lines : List String) : List UInt8 := lines.flatMap fun l => Text.octets l ++ [Text.newline]

namespace CallLog

/-- A log as it is kept: the actors are in order, and the arguments of calls have no doubles and are
    nested no deeper than they can be read back. -/
structure Plain (log : CallLog) : Prop where
  sorted : Table.Sorted log
  entries : ∀ e ∈ log, ∀ x ∈ e.2, x.Plain 123

/-- The reader of a line: an actor with its entries. -/
def readLine (line : String) : Except Json.Misread CallLog :=
  Json.readAll (Json.tableOf (Json.listOf LogEntry.read) Json.maxDepth) line

/-- Lines that stand for a log: one for each actor, which reads back as it, without a newline inside,
    and all in the order of the bytes of the actors. -/
structure Lines (log : CallLog) (lines : List String) : Prop where
  reads : List.Forall₂ (fun line e => readLine line = .ok [e]) lines log
  unbroken : ∀ line ∈ lines, Text.newline ∉ Text.octets line
  ordered : (Table.keys log).Pairwise fun a b => Text.octets a < Text.octets b

/-- The object that stands for one actor. -/
def object (e : String × List LogEntry) : Json := .obj [(e.1, .arr (e.2.map LogEntry.toJson))]

/-- The line of one actor, without its end. -/
theorem readLine_object {e : String × List LogEntry} (h : ∀ x ∈ e.2, x.Plain 123) :
    readLine (object e).compact = .ok [e] := by
  have hentries : ∀ x ∈ [e], Json.ReadsBack (Json.listOf LogEntry.read 126)
      (fun l => .arr (l.map LogEntry.toJson)) x.2 := by
    intro x hx
    rw [List.mem_singleton.1 hx]
    exact Json.readsBack_listOf fun y hy => LogEntry.readsBack (h y hy)
  exact (Json.readsBack_tableOf (List.pairwise_singleton _ _) hentries).readAll

theorem plain_entry {x : LogEntry} (h : x.Plain 123) : x.toJson.Plain := by
  cases x with
  | chat user assistant =>
    have hkeys : ["assistant", "user"].Pairwise (· < ·) := by decide
    exact ⟨List.pairwise_singleton _ _, ⟨Table.sorted_of_keys hkeys, trivial, trivial, trivial⟩, trivial⟩
  | tool name args result =>
    have hkeys : ["tool_args", "tool_name", "tool_result"].Pairwise (· < ·) := by decide
    exact ⟨List.pairwise_singleton _ _, ⟨Table.sorted_of_keys hkeys, h.1, trivial, trivial, trivial⟩, trivial⟩

theorem plain_entries {l : List LogEntry} (h : ∀ x ∈ l, x.Plain 123) :
    Json.PlainItems (l.map LogEntry.toJson) := by
  induction l with
  | nil => trivial
  | cons x l ih =>
    exact ⟨plain_entry (h x List.mem_cons_self), ih fun y hy => h y (List.mem_cons_of_mem _ hy)⟩

theorem Plain.lines {log : CallLog} (h : log.Plain) : Lines log (log.map fun e => (object e).compact) := by
  refine ⟨?_, ?_, ?_⟩
  · refine List.forall₂_map_left_iff.2 (List.forall₂_same.2 ?_)
    intro e he
    exact readLine_object (h.entries e he)
  · intro line hline
    obtain ⟨e, he, rfl⟩ := List.mem_map.1 hline
    refine Text.newline_notMem (Json.newline_notMem_chars _ ?_)
    exact ⟨List.pairwise_singleton _ _, plain_entries (h.entries e he), trivial⟩
  · exact List.pairwise_map.2 (h.sorted.imp Text.octets_lt)

/-- The bytes of a log are those of its lines. -/
theorem octets_render (log : CallLog) :
    Text.octets (String.ofList log.render) = Text.lined (log.map fun e => (object e).compact) := by
  rw [Text.octets_ofList]
  induction log with
  | nil => rfl
  | cons e log ih =>
    have hend : String.utf8EncodeChar '\n' = [Text.newline] := by decide
    rw [render, List.flatMap_cons, List.flatMap_append, ← render, ih, List.map_cons, Text.lined, Text.lined,
      List.flatMap_cons, Json.compact, Text.octets_ofList]
    simp [line, object, hend]

/-- A flush goes through where text can be added, and adds the text of the log to what is there. -/
theorem flush_adds (log : CallLog) {files : FileTree} {path : String} {before : ByteArray}
    (htakes : files.Takes path) (hbefore : files.Holds path before) :
    ∃ later, log.flush files path = (.ok log.length, later) ∧
      later.read path = .ok (before ++ (String.ofList log.render).toUTF8) ∧ later.Takes path := by
  obtain ⟨dirs, p, hdirs, hopen, hp, hdir, rfl⟩ := htakes.place hbefore
  have happend : dirs.append path (String.ofList log.render) = .ok _ :=
    FileTree.append_ok.2 ⟨hopen, p, hp, hdir, rfl⟩
  obtain ⟨hkeeps, hnode⟩ := FileTree.insert_file hdir (dirs.content p ++ (String.ofList log.render).toUTF8)
  refine ⟨_, ?_, FileTree.read_ok.2 ⟨hopen, p, FileTree.locate_of_dirs hkeeps hp, hnode⟩, ?_⟩
  · rw [flush, hdirs]
    simp only [happend]
  · refine ⟨_, _, FileTree.makeParents_again hdirs hkeeps, FileTree.append_ok.2
      ⟨hopen, p, FileTree.locate_of_dirs hkeeps hp, ?_, rfl⟩⟩
    rw [hnode]
    nofun

/-- A flush leaves the bytes of a file in place and adds a line for each actor, in the order of their
    bytes, each of which is a single line and reads back as the actor with its entries; it gives the
    number of actors. A second flush adds the same bytes again. -/
theorem flush_lossless (log : CallLog) (hlog : log.Plain) : ∃ (lines : List String) (added : ByteArray),
    Lines log lines ∧ added.data.toList = Text.lined lines ∧
      ∀ (files : FileTree) (path : String) (before : ByteArray), files.Takes path → files.Holds path before →
        ∃ later again : FileTree,
          log.flush files path = (.ok log.length, later) ∧ later.read path = .ok (before ++ added) ∧
          log.flush later path = (.ok log.length, again) ∧
          again.read path = .ok (before ++ added ++ added) := by
  refine ⟨log.map fun e => (object e).compact, (String.ofList log.render).toUTF8, hlog.lines,
    octets_render log, ?_⟩
  intro files path before htakes hbefore
  obtain ⟨later, hflush, hread, hagain⟩ := flush_adds log htakes hbefore
  obtain ⟨again, hflush', hread', -⟩ := flush_adds log hagain (.file hread)
  exact ⟨later, again, hflush, hread, hflush', hread'⟩

/-- A log of two actors, with newlines in the id of one and in what was said to it. -/
def diary : CallLog := [
  ("ada\n", [.chat "one\ntwo" "\"three\""]),
  ("bob", [.tool "add" (.obj [("terms", .arr [.int 1, .int (-2)])]) "-1", .chat "" "\\"])]

/-- It is added twice to a file that is not there yet. -/
theorem flush_diary : diary.Plain ∧ ∃ (lines : List String) (added : ByteArray) (later again : FileTree),
    Lines diary lines ∧ added.data.toList = Text.lined lines ∧
      diary.flush [] defaultPath = (.ok 2, later) ∧ later.read defaultPath = .ok (.empty ++ added) ∧
      diary.flush later defaultPath = (.ok 2, again) ∧
      again.read defaultPath = .ok (.empty ++ added ++ added) := by
  have hplain : diary.Plain := by
    constructor
    · exact Table.sorted_of_keys (by decide)
    · simp [diary, LogEntry.Plain, Json.Plain, Json.PlainFields, Json.PlainItems, Json.int, Number.Whole,
        Json.depth, Json.fieldsDepth, Json.itemsDepth, Table.Sorted]
  have htakes : FileTree.Takes [] defaultPath := ⟨_, _, rfl, rfl⟩
  have hfresh : FileTree.Holds [] defaultPath .empty := .fresh fun bytes h => by cases h
  obtain ⟨lines, added, hlines, hadded, hflush⟩ := flush_lossless diary hplain
  obtain ⟨later, again, hlater⟩ := hflush [] defaultPath .empty htakes hfresh
  exact ⟨hplain, lines, added, later, again, hlines, hadded, hlater⟩

end CallLog
end SessionPool
