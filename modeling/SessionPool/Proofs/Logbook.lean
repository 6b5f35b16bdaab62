import Mathlib.Data.List.Dedup
import SessionPool.Proofs.Desk

/-! The logbook: the call log of a pool between two instructions. It holds, under the name of each actor and
    in the order in which they came about, what was said in chats and the calls that succeeded, over all
    sessions of the actor, since it was last cleared; and nothing else. A job writes what it has heard, so a
    deal does, so a run of instructions does. -/

namespace SessionPool
variable {ρ κ : Type}

/-- The entry for what a server says to a move, if it is the text of a call that succeeded. -/
def Word.noted? : Word κ → Move κ → Option LogEntry
  | .answered (.replied (.ok text)) _, .call operation args => some (.tool operation (.obj args) text)
  | _, _ => none

/-- The entry that a job has to write yet. -/
def Station.due : Station κ → List LogEntry
  | logging p text => [.tool p.operation (.obj p.args) text]
  | _ => []

namespace Station
variable {r : Remote ρ κ} {t : Nat} {st : Station κ} {s : Session κ} {x : ρ} {m : Move κ} {word : Word κ}
  {e : Play ρ κ}

theorem due_served (p : Purpose) (text : String) : (served p text : Station κ).due = [] := by
  cases p with
  | use operation args => rfl
  | load state extra check => cases check <;> rfl
  | echo state message =>
    simp only [served]
    split <;> rfl

/-- A move within the pool writes what is due, and makes nothing due. -/
theorem due_own {reply : m.Reply} (hm : st.move = some m) (ho : m.own? s = some reply) :
    m.noted?.toList ++ (st.after m reply).due = st.due := by
  cases st with
  | waiting w => cases hm; cases w <;> rfl
  | checking state extra check =>
    cases hm
    simp only [after]
    split <;> rfl
  | looking p =>
    cases hm
    simp only [after]
    split
    · rfl
    · split <;> rfl
  | logging p text =>
    cases hm
    rw [after, due_served]
    rfl
  | parting id client => cases hm; cases client <;> rfl
  | marking _ | leaving _ | retiring | sealing _ => cases hm; rfl
  | connecting p | calling p | closing id c => cases hm; cases ho
  | ended _ | dead => cases hm

/-- The text of a call that succeeds is due. -/
theorem due_heard {reply : m.Reply} (hm : st.move = some m) (hr : m.isRemote = true)
    (hreply : word.reply m = some reply) : (st.after m reply).due = st.due ++ (word.noted? m).toList := by
  cases st with
  | connecting p =>
    cases hm
    cases word with
    | connected answer => cases answer <;> (cases hreply; rfl)
    | answered answer client => cases answer <;> cases hreply
    | missing | closed => cases hreply
  | calling p =>
    cases hm
    cases word with
    | answered answer client =>
      cases answer with
      | died => cases hreply
      | replied answer => cases answer <;> (cases hreply; rfl)
    | missing => cases hreply; rfl
    | connected | closed => cases hreply
  | closing id c =>
    cases hm
    cases word with
    | closed answer => cases hreply; rfl
    | answered answer client => cases answer <;> cases hreply
    | connected | missing => cases hreply
  | ended _ | dead => cases hm
  | _ => cases hm; cases hr

theorem due_remote (hm : st.move = some m) (hr : m.isRemote = true) : st.due = [] := by
  cases st <;> first | rfl | (cases hm; cases hr)

theorem entry_of_dead (hreply : word.reply m = none) : word.noted? m = none := by
  unfold Word.noted?
  split
  · cases hreply
  · rfl

/-- A job writes an entry for each call that it heard to succeed, and no other. -/
theorem Plays.noted (h : st.Plays r t s x e) :
    e.noted = st.due ++ e.heard.filterMap fun h => h.2.noted? h.1 := by
  induction h with
  | ended => rfl
  | own hm ho _ ih => rw [ih, ← List.append_assoc, due_own hm ho]
  | @hear st s x x' m word reply e hm hw hreply _ ih =>
    rw [ih, due_heard hm (Plays.isRemote_of_word hw) hreply, List.filterMap_cons]
    cases word.noted? m <;> simp
  | dies hm hw hreply =>
    rw [due_remote hm (Plays.isRemote_of_word hw), List.filterMap_cons, entry_of_dead hreply]
    rfl

end Station

/-- The entry for what is heard, with the session it is for. -/
def Heard.noted? (h : Heard κ) : Option (String × LogEntry) := (h.word.noted? h.move).map fun e => (h.session, e)

/-- Adds entries to a log, each for a session. -/
def CallLog.note (log : CallLog) (entries : List (String × LogEntry)) : CallLog :=
  entries.foldl (fun log e => log.record e.1 e.2) log

namespace Deal

/-- The entries that a deal makes. -/
def entries : Deal κ → List (String × LogEntry)
  | worked d => d.heard.filterMap Heard.noted?
  | chatted session user assistant => [(session, .chat user assistant)]
  | _ => []

/-- What a deal makes of a log. -/
def write : Deal κ → CallLog → CallLog
  | cleared, _ => []
  | d, log => log.note d.entries

end Deal

namespace Front
variable {r : Remote ρ κ} {f f' : Front ρ κ} {d : Deal κ} {ds : List (Deal κ)}

theorem Does.log (h : Does r f d f') : f'.shared.log = d.write f.shared.log := by
  cases h with
  | @worked n t v s e hs _ plays hl =>
    have hentries : (Deal.worked ⟨n, v, e.result, e.words n s.id⟩).entries = e.noted.map fun e => (s.id, e) := by
      rw [plays.noted, Deal.entries, Play.words, List.filterMap_map]
      simp only [Station.due, List.nil_append, List.map_filterMap]
      rfl
    rw [Deal.write, hentries, CallLog.note, List.foldl_map]
    · rfl
    · intro h
      cases h
  | _ => rfl

/-- Unless the log is cleared, deals add their entries to it. -/
theorem Deals.log (h : Deals r f ds f') (hkeep : .cleared ∉ ds) :
    f'.shared.log = f.shared.log.note (ds.flatMap Deal.entries) := by
  induction h with
  | none => rfl
  | @next f f₁ f₂ d ds first _ ih =>
    have hfirst : f₁.shared.log = f.shared.log.note d.entries := by
      rw [first.log]
      cases d with
      | cleared => exact absurd List.mem_cons_self hkeep
      | _ => rfl
    rw [ih fun hmem => hkeep (List.mem_cons_of_mem _ hmem), hfirst, List.flatMap_cons, CallLog.note,
      CallLog.note, CallLog.note, List.foldl_append]

end Front

/-- The actor that a session belongs to. -/
def actor (session : String) : String := (SessionKey.parse session).descoped

/-- A log holds the entries of a book, by the actors whose sessions they are for. -/
structure CallLog.Keeps (log : CallLog) (book : List (String × LogEntry)) : Prop where
  entries : ∀ id, log.entries id = (book.filter fun e => actor e.1 = id).map (·.2)
  actors : log.length = (book.map fun e => actor e.1).dedup.length

namespace CallLog

theorem get?_record (log : CallLog) (session : String) (e : LogEntry) (id : String) :
    Table.get? id (log.record session e) =
      if actor session = id then some (log.entries id ++ [e]) else Table.get? id log := by
  rw [record, Table.alter]
  split
  · rename_i heq
    subst heq
    exact Table.get?_insert_self ..
  · rename_i hne
    exact Table.get?_insert_of_ne (Ne.symm hne) ..

theorem entries_record (log : CallLog) (session : String) (e : LogEntry) (id : String) :
    (log.record session e).entries id = log.entries id ++ if actor session = id then [e] else [] := by
  rw [entries, get?_record]
  split
  · rfl
  · rw [List.append_nil]
    rfl

theorem write_eq_note (log : CallLog) (id : String) (entries : List LogEntry) :
    log.write id entries = log.note (entries.map fun e => (id, e)) := by
  rw [write, note, List.foldl_map]

theorem note_append (log : CallLog) (book later : List (String × LogEntry)) :
    log.note (book ++ later) = (log.note book).note later := List.foldl_append

theorem sorted_note {log : CallLog} (h : Table.Sorted log) (book : List (String × LogEntry)) :
    Table.Sorted (log.note book) := by
  induction book generalizing log with
  | nil => exact h
  | cons e book ih => exact ih (Table.Sorted.insert _ _ h)

theorem entries_note (log : CallLog) (book : List (String × LogEntry)) (id : String) :
    (log.note book).entries id = log.entries id ++ (book.filter fun e => actor e.1 = id).map (·.2) := by
  induction book generalizing log with
  | nil => exact (List.append_nil _).symm
  | cons e book ih =>
    rw [note, List.foldl_cons, ← note, ih, entries_record, List.append_assoc, List.filter_cons]
    by_cases h : actor e.1 = id <;> simp [h]

theorem mem_keys_note {log : CallLog} (h : Table.Sorted log) (book : List (String × LogEntry)) (id : String) :
    id ∈ Table.keys (log.note book) ↔ id ∈ Table.keys log ∨ id ∈ book.map fun e => actor e.1 := by
  induction book generalizing log with
  | nil => simp [note]
  | cons e book ih =>
    have hsorted : Table.Sorted (log.record e.1 e.2) := Table.Sorted.insert _ _ h
    rw [note, List.foldl_cons, ← note, ih hsorted, Table.mem_keys_iff hsorted, Table.mem_keys_iff h,
      get?_record, List.map_cons, List.mem_cons]
    by_cases heq : actor e.1 = id
    · simp [heq]
    · simp [heq, Ne.symm heq]

/-- What is noted in an empty log is all that it holds. -/
theorem keeps_note (book : List (String × LogEntry)) : Keeps (note [] book) book := by
  refine ⟨fun id => ?_, ?_⟩
  · rw [entries_note]
    rfl
  · have hsorted : Table.Sorted (note [] book) := sorted_note .nil book
    have hsame : ∀ id, id ∈ Table.keys (note [] book) ↔ id ∈ (book.map fun e => actor e.1).dedup := by
      intro id
      rw [mem_keys_note .nil, List.mem_dedup]
      exact or_iff_right List.not_mem_nil
    have hperm := (List.perm_ext_iff_of_nodup hsorted.keys_nodup (List.nodup_dedup _)).2 hsame
    rw [← hperm.length_eq, Table.keys, List.length_map]

end CallLog

/-- The entry for what is said in a chat. -/
def Instruction.said : Instruction → List (String × LogEntry)
  | chat session user assistant => [(session, .chat user assistant)]
  | _ => []

/-- Closing all sessions clears the log at its end. -/
theorem Sweeps.log {r : Remote ρ κ} {f f' : Front ρ κ} {ds : List (Deal κ)} (h : Sweeps ds)
    (hdeals : Front.Deals r f ds f') : f'.shared.log = [] := by
  obtain ⟨-⟩ := h
  obtain ⟨f₁, -, hlast⟩ := hdeals.split
  cases hlast with
  | next first later =>
    cases later
    exact first.log

namespace Instruction
variable {r : Remote ρ κ} {f f' : Front ρ κ} {i : Instruction} {x : Upshot} {d : Deal κ} {ds : List (Deal κ)}

theorem Makes.cleared (h : i.Makes r f x ds f') (hdeals : Front.Deals r f ds f') (hi : i.sweeps = true) :
    f'.shared.log = [] := by
  cases h with
  | ordered hmakes =>
    cases hmakes with
    | swept hsweeps => exact hsweeps.log hdeals
    | ended hsweeps =>
      obtain ⟨f₁, hfirst, hlast⟩ := hdeals.split
      cases hlast with
      | next first later =>
        cases later
        exact first.log.trans (hsweeps.log hfirst)
    | _ => cases hi
  | _ => cases hi

/-- Other instructions make an entry for what is said and for the calls that succeed. -/
theorem Makes.entries (h : i.Makes r f x ds f') (hi : i.sweeps = false) : .cleared ∉ ds ∧
    ds.flatMap Deal.entries = i.said ++ (ds.flatMap Deal.heard).filterMap Heard.noted? := by
  have hpermits := fun d hd => h.permits (d := d) hd
  refine ⟨fun hmem => ?_, ?_⟩
  · cases hpermits _ hmem with
    | cleared hsweeps =>
      rw [hi] at hsweeps
      cases hsweeps
  · cases h with
    | chatted => rfl
    | _ =>
      show _ = List.filterMap Heard.noted? _
      rw [List.filterMap_flatMap]
      refine List.flatMap_congr fun d hd => ?_
      cases hpermits d hd with
      | chatted hchat => cases hchat
      | _ => rfl

end Instruction

namespace Desk
variable {r : Remote ρ κ} {d : Desk ρ κ}

/-- The book after instructions: what was said, and the calls that were heard to succeed. It begins anew
    when all sessions are closed. -/
def book (r : Remote ρ κ) : Desk ρ κ → List Instruction → List (String × LogEntry) → List (String × LogEntry)
  | _, [], entries => entries
  | d, i :: run, entries =>
    book r (d.obey r i).2 run <|
      if i.sweeps then [] else entries ++ i.said ++ (d.heard r i).filterMap Heard.noted?

/-- An instruction clears the log, or adds to it what was said and the calls that succeeded. -/
theorem log_obey (hr : r.Prompt) (h : d.pool.Quiet) (i : Instruction) :
    (d.obey r i).2.pool.shared.log = if i.sweeps then []
      else d.pool.shared.log.note (i.said ++ (d.heard r i).filterMap Heard.noted?) := by
  obtain ⟨x, ds, d', hobey, hheard, hdeals, hmakes, -⟩ := obeys hr h i
  rw [hobey, hheard]
  split
  · rename_i hi
    exact hmakes.cleared hdeals hi
  · rename_i hi
    obtain ⟨hkeep, hentries⟩ := hmakes.entries (Bool.eq_false_iff.2 hi)
    rw [← hentries]
    exact hdeals.log hkeep

theorem log_after (hr : r.Prompt) (run : List Instruction) : ∀ {d : Desk ρ κ} {entries : List (String × LogEntry)},
    d.pool.Quiet → d.pool.shared.log = CallLog.note [] entries →
    (d.after r run).pool.shared.log = CallLog.note [] (d.book r run entries) := by
  induction run with
  | nil => exact fun _ hlog => hlog
  | cons i run ih =>
    intro d entries h hlog
    refine ih (obey_quiet hr h i) ?_
    rw [log_obey hr h, hlog]
    split
    · rfl
    · rw [List.append_assoc, CallLog.note_append [] entries]

end Desk

/-- The log of a pool holds what happened since all sessions were last closed. -/
structure Logged (r : Remote ρ κ) (p : Pool ρ κ) : Prop where
  returns : ∀ files before i, (((Desk.mk p files).after r before).obey r i).1 ≠ .stuck
  keeps : ∀ files run,
    ((Desk.mk p files).after r run).pool.shared.log.Keeps ((Desk.mk p files).book r run [])

/-- Servers that hold no call up have their successful calls logged, and nothing else is but chats. -/
theorem Remote.Prompt.logged {r : Remote ρ κ} {p : Pool ρ κ} (hr : r.Prompt) (hp : p.Made r) : Logged r p where
  returns files before i := Desk.returns hr (Desk.after_quiet hr before hp.quiet) i
  keeps files run := by
    have hlog : p.shared.log = CallLog.note [] [] := hp.fresh.2.1
    rw [Desk.log_after hr run hp.quiet hlog]
    exact CallLog.keeps_note _

/-- A pool for two groups. -/
def salon : Pool Nat Nat :=
  .ofCatalog [("cards", ⟨⟨"dealer", none, []⟩, []⟩), ("chess", ⟨⟨"board", none, []⟩, []⟩)] {} 0

/-- An evening on which one actor plays in both groups, after all was cleared. -/
def evening : List Instruction :=
  [.order (.invoke "cards-ada" "deal" (.structured [])), .order .closeAll,
    .order (.invoke "chess-ada" "chess-move" (.text "\x7b\"to\": \"e4\"\x7d")), .chat "cards-ada" "hi" "ho",
    .order (.invoke "darts-bob" "throw" (.structured [])), .dump none,
    .order (.load "cards-ada" (.bool true) [] true)]

theorem logged_evening : Logged tally salon ∧
    ((Desk.mk salon []).after tally evening).pool.shared.log = [("ada", [
      .tool "move" (.obj [("to", .str "e4")]) "first", .chat "hi" "ho",
      .tool "load_scenario" (.obj [("scenario", .bool true)]) "first", .tool "save_scenario" (.obj []) "again"])] :=
  ⟨Remote.Prompt.logged (fun _ _ _ => rfl) (.ofCatalog ..), rfl⟩

end SessionPool
