import SessionPool.Config

/-! Names with a separator. A session id is a group and an instance, the name of a tool a group and an
    operation; both are divided at the first separator. Sessions of one actor in several groups share
    their de-scoped id. -/

namespace SessionPool

/-- Divides characters at the first separator; `none` if there is none. -/
def divide : List Char → Option (List Char × List Char)
  | [] => none
  | c :: s => if c = separator then some ([], s) else (divide s).map fun p => (c :: p.1, p.2)

/-- Divides a text at the first separator. -/
def divideText (s : String) : Option (String × String) :=
  (divide s.toList).map fun p => (String.ofList p.1, String.ofList p.2)

theorem divide_eq_none_iff : ∀ {l : List Char}, divide l = none ↔ separator ∉ l
  | [] => by simp [divide]
  | c :: s => by
    by_cases hc : c = separator
    · simp [divide, hc]
    · simp [divide, hc, Ne.symm hc, divide_eq_none_iff (l := s)]

/-- The first part has no separator, and the rest may have some. -/
theorem divide_eq_some_iff : ∀ {l a b : List Char},
    divide l = some (a, b) ↔ l = a ++ separator :: b ∧ separator ∉ a
  | [], a, b => by simp [divide]
  | c :: s, a, b => by
    by_cases hc : c = separator
    · subst hc
      cases a with
      | nil => simp [divide]
      | cons d a =>
        simp only [divide, if_true, List.cons_append, List.cons.injEq, List.mem_cons, not_or]
        exact ⟨nofun, fun h => absurd h.1.1 h.2.1⟩
    · cases a with
      | nil => simp [divide, hc]
      | cons d a =>
        have ih := divide_eq_some_iff (l := s) (a := a) (b := b)
        simp only [divide, hc, if_false, Option.map_eq_some_iff, Prod.mk.injEq, Prod.exists,
          List.cons.injEq, List.cons_append, List.mem_cons, not_or]
        constructor
        · rintro ⟨a', b', h, ⟨rfl, rfl⟩, rfl⟩
          obtain ⟨rfl, ha⟩ := ih.1 h
          exact ⟨⟨rfl, rfl⟩, Ne.symm hc, ha⟩
        · rintro ⟨⟨rfl, rfl⟩, -, ha⟩
          exact ⟨a, b, ih.2 ⟨rfl, ha⟩, ⟨rfl, rfl⟩, rfl⟩

/-- What a session id names. -/
structure SessionKey where
  group : String
  instanceName : String
  deriving DecidableEq

namespace SessionKey

/-- An id without a separator has an empty instance. -/
def parse (id : String) : SessionKey :=
  match divideText id with
  | some (g, i) => ⟨g, i⟩
  | none => ⟨id, ""⟩

/-- The id without its group, or the group if nothing else is left. -/
def descoped (k : SessionKey) : String := if k.instanceName.isEmpty then k.group else k.instanceName

end SessionKey

/-- The name under which a tool of a group is called from outside. -/
def routedName (group operation : String) : String := group ++ String.ofList [separator] ++ operation

theorem routedName_toList (g i : String) :
    (routedName g i).toList = g.toList ++ separator :: i.toList := by
  simp [routedName]

namespace SessionKey

theorem parse_bare {g : String} (h : separator ∉ g.toList) : parse g = ⟨g, ""⟩ := by
  rw [parse, divideText, divide_eq_none_iff.2 h]
  rfl

theorem parse_routedName {g : String} (h : separator ∉ g.toList) (i : String) :
    parse (routedName g i) = ⟨g, i⟩ := by
  rw [parse, divideText, divide_eq_some_iff.2 ⟨routedName_toList g i, h⟩]
  simp

/-- An id is a group without a separator, or a group with an instance behind the separator. -/
theorem bare_or_routed (id : String) : separator ∉ id.toList ∨
    ∃ g i, separator ∉ g.toList ∧ id = routedName g i := by
  cases h : divide id.toList with
  | none => exact .inl (divide_eq_none_iff.1 h)
  | some p =>
    obtain ⟨hid, hg⟩ := divide_eq_some_iff.1 (show divide id.toList = some (p.1, p.2) from h)
    refine .inr ⟨String.ofList p.1, String.ofList p.2, by simpa using hg, ?_⟩
    rw [← String.toList_inj, routedName_toList, hid]
    simp

end SessionKey

/-- The name of a tool without its group, if it has one. -/
def operationName (name : String) : String :=
  match divideText name with
  | some (_, operation) => operation
  | none => name

/-- Whether a text occurs in another. -/
def occurs (part : List Char) : List Char → Bool
  | [] => part.isEmpty
  | c :: s => part.isPrefixOf (c :: s) || occurs part s

/-- Operations whose name holds this set the state of a session. -/
def loadScenario : String := "load_scenario"

/-- The operation that tells the state of a session. -/
def saveScenario : String := "save_scenario"

/-- Whether an operation sets the state of a session. -/
def isLoad (operation : String) : Bool := occurs loadScenario.toList operation.toList

end SessionPool
