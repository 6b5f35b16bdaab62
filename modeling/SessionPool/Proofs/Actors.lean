import SessionPool.Proofs.Logbook
import SessionPool.Proofs.Replay

/-! Actors: whose entries are found under one name in the log. The name is the instance of a session, or its
    group if the instance is empty. So sessions with instances share a name only if they share the instance.
    A group alone is an actor by its own name, and shares it with the sessions of any group that have this
    name for their instance. -/

namespace SessionPool

namespace SessionKey
variable {k k' : SessionKey}

/-- A group with an empty instance, and a session that has the name of this group for its instance. -/
def Doubles (k k' : SessionKey) : Prop :=
  k.instanceName = "" ∧ k'.instanceName ≠ "" ∧ k.group = k'.instanceName

theorem descoped_of_empty (h : k.instanceName = "") : k.descoped = k.group := by
  simp [descoped, h]

theorem descoped_of_ne (h : k.instanceName ≠ "") : k.descoped = k.instanceName := by
  simp [descoped, h]

/-- Two sessions are of one actor if they have the same instance, or are a group alone and its double. -/
theorem descoped_eq_iff : k.descoped = k'.descoped ↔
    (k.instanceName = k'.instanceName ∧ (k.instanceName = "" → k.group = k'.group)) ∨
      Doubles k k' ∨ Doubles k' k := by
  by_cases h : k.instanceName = "" <;> by_cases h' : k'.instanceName = ""
  · rw [descoped_of_empty h, descoped_of_empty h']
    simp [Doubles, h, h']
  · rw [descoped_of_empty h, descoped_of_ne h']
    simp [Doubles, h, h', Ne.symm h']
  · rw [descoped_of_ne h, descoped_of_empty h', eq_comm]
    simp [Doubles, h, h']
  · rw [descoped_of_ne h, descoped_of_ne h']
    simp [Doubles, h, h']

end SessionKey

/-- A log that keeps the entries of a book apart by the instances of the sessions they are for. -/
structure CallLog.Separates (log : CallLog) (book : List (String × LogEntry)) : Prop where
  /-- Under each name are the entries of the sessions of this actor, and no others. -/
  keeps : log.Keeps book
  /-- Sessions that share a name have the same instance, or are a group alone and its double. -/
  shared : ∀ a b : String, actor a = actor b → (SessionKey.parse a).instanceName = (SessionKey.parse b).instanceName ∨
    SessionKey.Doubles (.parse a) (.parse b) ∨ SessionKey.Doubles (.parse b) (.parse a)
  /-- Instances that are not empty are kept apart. -/
  instances : ∀ a b : String, (SessionKey.parse a).instanceName ≠ "" → (SessionKey.parse b).instanceName ≠ "" →
    (actor a = actor b ↔ (SessionKey.parse a).instanceName = (SessionKey.parse b).instanceName)
  /-- A group alone is kept apart from all instances but the one that is called like it. -/
  groups : ∀ a b : String, (SessionKey.parse a).instanceName = "" → (SessionKey.parse b).instanceName ≠ "" →
    (actor a = actor b ↔ (SessionKey.parse a).group = (SessionKey.parse b).instanceName)

theorem CallLog.Keeps.separated {log : CallLog} {book : List (String × LogEntry)} (h : log.Keeps book) :
    log.Separates book where
  keeps := h
  shared a b heq := (SessionKey.descoped_eq_iff.1 heq).imp And.left id
  instances a b ha hb := by
    rw [actor, actor, SessionKey.descoped_of_ne ha, SessionKey.descoped_of_ne hb]
  groups a b ha hb := by
    rw [actor, actor, SessionKey.descoped_of_empty ha, SessionKey.descoped_of_ne hb]

/-! ### The book of a run -/

/-- Enters what an event records, for the session it is recorded for, into a book that begins anew when the log
    is cleared. -/
def Event.book {κ : Type} (ids : List String) (entries : List (String × LogEntry)) :
    Event κ → List (String × LogEntry)
  | .chatted session user assistant => entries ++ [(session, .chat user assistant)]
  | .asked _ .clearLog _ => []
  | .work n _ d => entries ++ d.entry?.toList.map fun e => (ids[n]?.getD "", e)
  | _ => entries

namespace Scene
variable {ρ κ : Type} {r : Remote ρ κ} {c : Catalog} {o : Options} {remote : ρ} {past : List (Event κ)}
  {S : Scene ρ κ}

/-- What is recorded by chats, calls and loads since the log was last cleared, with the session of each. -/
def book (S : Scene ρ κ) (past : List (Event κ)) : List (String × LogEntry) :=
  past.foldl (Event.book S.names) []

theorem write_note (ids : List String) (entries : List (String × LogEntry)) (e : Event κ) :
    e.write ids (CallLog.note [] entries) = CallLog.note [] (e.book ids entries) := by
  cases e with
  | chatted session user assistant =>
    rw [Event.book, CallLog.note_append]
    rfl
  | work n t d => rw [Event.write, Event.book, CallLog.note_append, CallLog.write_eq_note]
  | asked i a reply => cases a <;> rfl
  | _ => rfl

theorem foldl_write_note (ids : List String) (past : List (Event κ)) : ∀ entries,
    past.foldl (Event.write ids) (CallLog.note [] entries) = CallLog.note [] (past.foldl (Event.book ids) entries) := by
  induction past with
  | nil => exact fun _ => rfl
  | cons e past ih =>
    intro entries
    rw [List.foldl_cons, write_note, ih, List.foldl_cons]

/-- Whatever happens in a pool, the log keeps the entries of actors apart, but for groups and their doubles. -/
theorem Run.separates (run : Run r c o remote past S) : S.pool.shared.log.Separates (S.book past) := by
  have hlog : S.pool.shared.log = CallLog.note [] (S.book past) := by
    rw [run.log]
    exact foldl_write_note S.names past []
  rw [hlog]
  exact (CallLog.keeps_note _).separated

/-- A session of a group alone and one that has the group's name for its instance are called, one after the
    other. -/
def doubles : List (Choice Unit) :=
  List.flatten [[.come (.invoke "game" "act" (.structured [])), .ask 0, .ask 0, .read], List.replicate 9 (.go 0),
    [.come (.invoke "game-game" "bow" (.structured [])), .ask 1, .ask 1, .read], List.replicate 9 (.go 1)]

/-- Their entries are under one name, though only one has an instance. -/
theorem shared_doubles : ∃ past S, play obliging doubles ([], quiet) = some (past, S) ∧
    S.book past = [("game", .tool "act" (.obj []) "true"), ("game-game", .tool "bow" (.obj []) "true")] ∧
    S.pool.shared.log = [("game", [.tool "act" (.obj []) "true", .tool "bow" (.obj []) "true"])] ∧
    ¬∀ a ∈ S.book past, ∀ b ∈ S.book past, actor a.1 = actor b.1 →
      (SessionKey.parse a.1).instanceName = (SessionKey.parse b.1).instanceName := by
  have hplay : (play obliging doubles ([], quiet)).map (fun x => (x.2.book x.1, x.2.pool.shared.log)) =
      some ([("game", .tool "act" (.obj []) "true"), ("game-game", .tool "bow" (.obj []) "true")],
        [("game", [.tool "act" (.obj []) "true", .tool "bow" (.obj []) "true"])]) := rfl
  obtain ⟨⟨past, S⟩, hplay, heq⟩ := Option.map_eq_some_iff.1 hplay
  rw [Prod.mk.injEq] at heq
  refine ⟨past, S, hplay, heq.1, heq.2, fun hapart => ?_⟩
  have hsame := hapart ("game", .tool "act" (.obj []) "true") (by simp [heq.1])
    ("game-game", .tool "bow" (.obj []) "true") (by simp [heq.1]) (by decide)
  exact absurd hsame (by decide)

/-- A session with an instance is called, and chats go on for it, for its group alone and for another group
    with this instance. -/
def company : List (Choice Unit) :=
  List.flatten [[.come (.invoke "game-ada" "act" (.structured [])), .ask 0, .ask 0, .read,
    .chat "game" "hi" "ho", .chat "darts-ada" "well" "so"], List.replicate 9 (.go 0), [.chat "game-ada-1" "a" "b"]]

theorem separates_company : ∃ past S, play obliging company ([], quiet) = some (past, S) ∧
    S.pool.shared.log = [("ada", [.chat "well" "so", .tool "act" (.obj []) "true"]),
      ("ada-1", [.chat "a" "b"]), ("game", [.chat "hi" "ho"])] ∧
    S.pool.shared.log.Separates (S.book past) := by
  have hplay : (play obliging company ([], quiet)).map (fun x => x.2.pool.shared.log) =
      some [("ada", [.chat "well" "so", .tool "act" (.obj []) "true"]), ("ada-1", [.chat "a" "b"]),
        ("game", [.chat "hi" "ho"])] := rfl
  obtain ⟨⟨past, S⟩, hplay, heq⟩ := Option.map_eq_some_iff.1 hplay
  exact ⟨past, S, hplay, heq, Run.separates (run_of_play hplay .start)⟩

end Scene
end SessionPool
