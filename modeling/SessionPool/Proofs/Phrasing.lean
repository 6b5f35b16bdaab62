import SessionPool.Proofs.Spelling

/-! Phrasings: an object may be given as arguments in several ways: as it is, as a value, or as its compact
    text with white space around it. Whoever reads the arguments cannot tell them apart. Blank text and the
    value null stand for the empty object, and whatever else is no object is refused with its text. -/

namespace SessionPool
variable {ρ κ : Type}

namespace Json

/-- Whether a text consists of white space only, as the format sees it. -/
def isSpaces (s : String) : Bool := s.toList.all isSpace

theorem skipSpace_append {before : List Char} (h : ∀ c ∈ before, isSpace c = true) (s : List Char) :
    skipSpace (before ++ s) = skipSpace s := List.dropWhile_append_of_pos h

theorem stops_of_spaces {s : List Char} (h : ∀ c ∈ s, isSpace c = true) : Stops s := by
  rintro c t rfl
  have hspace := h c List.mem_cons_self
  simp only [isSpace, Bool.or_eq_true, decide_eq_true_eq] at hspace
  rcases hspace with ((rfl | rfl) | rfl) | rfl <;> decide

/-- White space around the text of a value does not matter. -/
theorem parse_spaced {v : Json} (hv : v.Plain) (hd : v.depth ≤ maxDepth) {before after : String}
    (hbefore : isSpaces before = true) (hafter : isSpaces after = true) :
    parse (before ++ v.compact ++ after) = .ok v := by
  have hrest := List.all_eq_true.1 hafter
  have hread := readValue_chars maxDepth v hv hd after.toList (stops_of_spaces hrest)
  have hspaced : readValue maxDepth (before ++ v.compact ++ after).toList = .ok (v, after.toList) := by
    rw [String.toList_append, String.toList_append, compact, String.toList_ofList, List.append_assoc,
      readValue.eq_def, skipSpace_append (List.all_eq_true.1 hbefore), ← readValue.eq_def]
    exact hread
  have hend := skipSpace_append hrest []
  rw [List.append_nil] at hend
  rw [parse, readAll, hspaced]
  simp only [hend]
  rfl

theorem digit_of_blank {c : Char} (h : Text.isBlankChar c = true) : c.isDigit = false := by
  rw [Bool.eq_false_iff]
  intro hdigit
  have hrange : 48 ≤ c.toNat ∧ c.toNat ≤ 57 := Char.isDigit_iff_toNat.1 hdigit
  simp only [Text.isBlankChar, Text.blankRanges, List.any_cons, List.any_nil, Bool.or_eq_true,
    Bool.and_eq_true, decide_eq_true_eq, Bool.or_false] at h
  omega

/-- A value does not begin with white space. -/
theorem readScalar_of_blank {c : Char} (h : Text.isBlankChar c = true) (r : List Char) :
    ∃ e, readScalar (c :: r) = .error e := by
  unfold readScalar
  split
  case h_1 heq => cases heq
  case h_7 heq =>
    cases heq
    rw [if_neg (by rw [digit_of_blank h]; exact Bool.false_ne_true)]
    exact ⟨_, rfl⟩
  all_goals
    rename_i heq
    cases heq
    exact absurd h (by decide)

/-- White space of any kind is not the text of a value. -/
theorem parse_of_blank {s : String} (h : Text.isBlank s = true) (v : Json) : parse s ≠ .ok v := by
  have hblank : ∀ c ∈ skipSpace s.toList, Text.isBlankChar c = true := fun c hc =>
    List.all_eq_true.1 h c (List.dropWhile_subset _ hc)
  have hread : ∃ e, readValue maxDepth s.toList = .error e := by
    rw [readValue.eq_def]
    split
    · rename_i heq
      exact absurd (hblank '[' (by rw [heq]; exact List.mem_cons_self)) (by decide)
    · rename_i heq
      exact absurd (hblank '\x7b' (by rw [heq]; exact List.mem_cons_self)) (by decide)
    · cases hrest : skipSpace s.toList with
      | nil => exact ⟨_, rfl⟩
      | cons c r => exact readScalar_of_blank (hblank c (by rw [hrest]; exact List.mem_cons_self)) r
  obtain ⟨e, he⟩ := hread
  rw [parse, readAll, he]
  rintro ⟨⟩

end Json

namespace Arguments

/-- The ways to give an object as arguments. -/
inductive Phrases (o : Fields) : Arguments → Prop
  | object : Phrases o (.structured o)
  | value : Phrases o (.ofJson (.obj o))
  | text {before after : String} (hbefore : Json.isSpaces before = true)
      (hafter : Json.isSpaces after = true) :
      Phrases o (.text (before ++ (Json.obj o).compact ++ after))
  | quoted {before after : String} (hbefore : Json.isSpaces before = true)
      (hafter : Json.isSpaces after = true) :
      Phrases o (.ofJson (.str (before ++ (Json.obj o).compact ++ after)))

/-- A value that stands for no arguments: it is no object, nor the text of one, nor null. -/
def isStray : Json → Bool
  | .arr _ => true
  | .bool _ => true
  | .num _ => true
  | _ => false

/-- A text that says a value stands for it, if that is an object. -/
theorem fields_of_parse {s : String} {v : Json} (h : Json.parse s = .ok v) : (text s).fields =
    match v with
    | .obj e => .ok e
    | v => .error (.malformedArguments ("expected a JSON object, got " ++ v.compact)) := by
  have hsolid : ¬Text.isBlank s = true := fun hblank => Json.parse_of_blank hblank v h
  rw [fields, if_neg hsolid]
  simp only [h]
  cases v <;> rfl

/-- However an object is given, it is what the arguments are. -/
theorem Phrases.fields_eq {o : Fields} {a : Arguments} (h : Phrases o a) (ho : (Json.obj o).Plain)
    (hd : (Json.obj o).depth ≤ Json.maxDepth) : a.fields = .ok o := by
  cases h with
  | object | value => rfl
  | text hbefore hafter | quoted hbefore hafter => exact fields_of_parse (Json.parse_spaced ho hd hbefore hafter)

theorem fields_blank {s : String} (h : Text.isBlank s = true) : (text s).fields = .ok [] := by
  rw [fields, if_pos h]

/-- A text that is not blank is read as JSON, and has to be an object. -/
theorem fields_solid {s : String} (h : Text.isBlank s = false) (m : Fields) :
    (text s).fields = .ok m ↔ Json.parse s = .ok (.obj m) := by
  cases hparse : Json.parse s with
  | error e =>
    rw [fields, if_neg (by rw [h]; exact Bool.false_ne_true)]
    simp only [hparse]
    constructor
    · rintro ⟨⟩
    · rintro ⟨⟩
  | ok v =>
    rw [fields_of_parse hparse]
    cases v <;> simp

theorem malformed_of_solid {s : String} (h : Text.isBlank s = false) (hno : ∀ m, Json.parse s ≠ .ok (.obj m)) :
    ∃ message, (text s).fields = .error (.malformedArguments message) := by
  cases hparse : Json.parse s with
  | error e =>
    rw [fields, if_neg (by rw [h]; exact Bool.false_ne_true)]
    simp only [hparse]
    exact ⟨_, rfl⟩
  | ok v =>
    rw [fields_of_parse hparse]
    cases v with
    | obj m => exact absurd hparse (hno m)
    | _ => exact ⟨_, rfl⟩

/-- A value that is no object is given as its text, which is read back to say what it was. -/
theorem fields_stray {v : Json} (hv : v.Plain) (hd : v.depth ≤ Json.maxDepth) (hstray : isStray v = true) :
    (ofJson v).fields = .error (.malformedArguments ("expected a JSON object, got " ++ v.compact)) := by
  have hread := fields_of_parse (Json.parse_compact hv hd)
  cases v with
  | arr _ | bool _ | num _ => exact hread
  | null | str _ | obj _ => cases hstray

/-- What arguments say is the same however they are given. -/
structure Phrased (r : Remote ρ κ) : Prop where
  object : ∀ o a, (Json.obj o).Plain → (Json.obj o).depth ≤ Json.maxDepth → Phrases o a → a.fields = .ok o
  invoked : ∀ o a a', (Json.obj o).Plain → (Json.obj o).depth ≤ Json.maxDepth → Phrases o a → Phrases o a' →
    ∀ c id name, Order.Alike r c (.invoke id name a) (.invoke id name a')
  blank : ∀ s, Text.isBlank s = true → (text s).fields = .ok []
  null : (ofJson .null).fields = .ok []
  solid : ∀ s, Text.isBlank s = false → ∀ m, (text s).fields = .ok m ↔ Json.parse s = .ok (.obj m)
  malformed : ∀ s, Text.isBlank s = false → (∀ m, Json.parse s ≠ .ok (.obj m)) →
    ∃ message, (text s).fields = .error (.malformedArguments message)
  stray : ∀ v, v.Plain → v.depth ≤ Json.maxDepth → isStray v = true →
    (ofJson v).fields = .error (.malformedArguments ("expected a JSON object, got " ++ v.compact))

end Arguments

/-- An invocation reads its arguments once, so what stands for the same object makes the same order. -/
theorem Order.alike_of_fields {r : Remote ρ κ} {c : Catalog} {id name : String} {a a' : Arguments}
    (h : a.fields = a'.fields) : Alike r c (.invoke id name a) (.invoke id name a') := by
  have hprogram : (invoke id name a).program c = (invoke id name a').program c := by
    simp only [program, Caller.invoke, h]
  exact ⟨fun p => by rw [hprogram], fun p => by rw [hprogram], hprogram⟩

/-- Arguments say what they say however they are given. -/
theorem Arguments.phrased (r : Remote ρ κ) : Phrased r where
  object _ _ ho hd h := h.fields_eq ho hd
  invoked _ _ _ ho hd h h' _ _ _ := Order.alike_of_fields ((h.fields_eq ho hd).trans (h'.fields_eq ho hd).symm)
  blank _ h := fields_blank h
  null := rfl
  solid _ h m := fields_solid h m
  malformed _ h hno := malformed_of_solid h hno
  stray _ hv hd h := fields_stray hv hd h

/-- The same ticket in two phrasings, a text that is blank though not as JSON sees it, and a list. -/
theorem phrased_ticket : Arguments.Phrased clerk ∧
    Order.Alike clerk counter.catalog (.invoke "shop-1" "sum" (.structured [("seat", .int 7)]))
      (.invoke "shop-1" "sum" (.text "\t\x7b\"seat\":7\x7d\r\n")) ∧
    (Arguments.text "\u00a0\u2003").fields = .ok [] ∧
    (Arguments.ofJson (.arr [.int (-7), .str "\n"])).fields =
      .error (.malformedArguments "expected a JSON object, got [-7,\"\\n\"]") := by
  have ho : (Json.obj [("seat", .int 7)]).Plain := ⟨List.pairwise_singleton .., ⟨by decide, by decide⟩, trivial⟩
  have hbefore : Json.isSpaces "\t" = true := by decide
  have hafter : Json.isSpaces "\r\n" = true := by decide
  have hlist : (Json.arr [.int (-7), .str "\n"]).Plain := ⟨⟨by decide, by decide⟩, trivial, trivial⟩
  have hphrased := Arguments.phrased clerk
  exact ⟨hphrased, hphrased.invoked _ _ _ ho (by decide) .object (.text hbefore hafter) _ _ _,
    hphrased.blank _ (by decide), hphrased.stray _ hlist (by decide) rfl⟩

end SessionPool
