import SessionPool.CallLog
import SessionPool.Proofs.RoundTrip

/-! Typed data that reads back: texts, lists and tables of data that reads back, records that are written
    as objects, and the entries of the call log. A record is read into a draft; what an object does to
    the draft, entry by entry, is `Fills`, and the reader does exactly that. -/

namespace SessionPool

namespace Json

/-- A value of a container stands behind its opening, and the text of a container begins with it. -/
theorem arr_chars (l : List Json) : ∃ s, (Json.arr l).chars = '[' :: s := by
  cases l <;> exact ⟨_, rfl⟩

theorem obj_chars (e : List (String × Json)) : ∃ s, (Json.obj e).chars = '\x7b' :: s := by
  obtain - | ⟨⟨k, v⟩, e⟩ := e <;> exact ⟨_, rfl⟩

theorem opening_cons {c : Char} (wanted : String) (s : List Char) (h : isSpace c = false) :
    opening c wanted (c :: s) = .ok s := by
  rw [opening, skipSpace_cons s h]
  exact if_pos rfl

/-- A text reads back, whatever it is wanted as. -/
theorem textOf_chars (wanted : String) (d : Nat) (s : String) (rest : List Char) :
    textOf wanted d ((Json.str s).chars ++ rest) = .ok (s, rest) := by
  rw [chars, quote_append, textOf, opening_cons _ _ (by decide)]
  exact readString_quoted s rest

theorem text_chars (d : Nat) (s : String) (rest : List Char) :
    text d ((Json.str s).chars ++ rest) = .ok (s, rest) := textOf_chars _ d s rest

theorem readsBack_text (d : Nat) (s : String) : ReadsBack (text d) .str s :=
  ⟨⟨'"', _, rfl, by constructor <;> decide⟩, fun rest _ => text_chars d s rest⟩

/-- A text where something may be left out. -/
theorem optional_text_chars (d : Nat) (s : String) (rest : List Char) :
    optional text d ((Json.str s).chars ++ rest) = .ok (some s, rest) := by
  have hread := text_chars d s rest
  rw [chars, quote_append] at hread ⊢
  rw [optional, skipSpace_cons _ (by decide)]
  show (text d _).map _ = _
  rw [hread]
  rfl

section
variable {α : Type} {item : TypedReader α} {f : α → Json} {d : Nat}

/-- A list reads back when its items do. -/
theorem readsBack_listOf {as : List α} (h : ∀ a ∈ as, ReadsBack (item d) f a) :
    ReadsBack (listOf item (d + 1)) (fun as => .arr (as.map f)) as := by
  obtain ⟨s, hs⟩ := arr_chars (as.map f)
  refine ⟨⟨'[', s, hs, by constructor <;> decide⟩, ?_⟩
  intro rest _
  show listOf item (d + 1) ((Json.arr (as.map f)).chars ++ rest) = _
  rw [hs, List.cons_append, listOf, opening_cons _ _ (by decide)]
  exact readList_chars hs h rest

/-- A table reads back when its values do. -/
theorem readsBack_tableOf {es : Table α} (hsorted : Table.Sorted es)
    (h : ∀ e ∈ es, ReadsBack (item d) f e.2) :
    ReadsBack (tableOf item (d + 1)) (fun es => .obj (es.map fun e => (e.1, f e.2))) es := by
  obtain ⟨s, hs⟩ := obj_chars (es.map fun e => (e.1, f e.2))
  refine ⟨⟨'\x7b', s, hs, by constructor <;> decide⟩, ?_⟩
  intro rest _
  show tableOf item (d + 1) ((Json.obj (es.map fun e => (e.1, f e.2))).chars ++ rest) = _
  rw [hs, List.cons_append, tableOf, opening_cons _ _ (by decide)]
  exact readTable_chars hs hsorted h rest

/-- A whole text that is written of data that reads back. -/
theorem ReadsBack.readAll {read : Reader α} {a : α} (h : ReadsBack read f a) :
    readAll read (f a).compact = .ok a := by
  refine readAll_of_read ?_
  have hread := h.2 [] stops_nil
  rw [List.append_nil] at hread
  simpa [compact] using hread

end

/-! ### Records -/

section
variable {σ α : Type} {fields : List (Field σ)} {d : Nat}

/-- Entries of an object fill a draft: each names a field that is still open and that reads its value. -/
inductive Fills (fields : List (Field σ)) (d : Nat) : σ → List (String × Json) → σ → Prop
  | nil (draft : σ) : Fills fields d draft [] draft
  | cons {draft filled : σ} {k : String} {v : Json} {es : List (String × Json)} {f : Field σ} {g : σ → σ}
      (field : fields.find? (·.name = k) = some f) (vacant : f.filled draft = false)
      (reads : ∀ rest, Stops rest → f.read d (v.chars ++ rest) = .ok (g, rest))
      (others : Fills fields d (g draft) es filled) : Fills fields d draft ((k, v) :: es) filled

/-- The entries behind an entry, one field of the draft for each. -/
theorem Fills.readMembers {draft filled : σ} {es : List (String × Json)} (h : Fills fields d draft es filled)
    (rest : List Char) : ∀ fuel, es.length < fuel →
      Layout.readMembers fields d fuel false draft (fieldChars es ++ rest) = .ok (filled, rest) := by
  induction h with
  | nil draft =>
    intro fuel hfuel
    obtain ⟨fuel, rfl⟩ := Nat.exists_eq_add_of_lt hfuel
    rfl
  | cons field vacant reads others ih =>
    rename_i es f g
    intro fuel hfuel
    obtain ⟨fuel, rfl⟩ : ∃ n, fuel = n + 1 := ⟨fuel - 1, by omega⟩
    have hvalue := reads _ (stops_fieldChars es rest)
    have hrest := ih fuel (by simpa using hfuel)
    simp only [fieldChars, List.cons_append, List.append_assoc, Layout.readMembers, nextKey_next, field, vacant,
      Bool.false_eq_true, if_false, readColon_cons, hvalue, hrest]

/-- The entries of an object, from behind the opening brace. -/
theorem Fills.readObject {draft filled : σ} {es : List (String × Json)} {s : List Char}
    (h : Fills fields d draft es filled) (hs : (Json.obj es).chars = '\x7b' :: s) (rest : List Char) :
    Layout.readMembers fields d ((s ++ rest).length + 1) true draft (s ++ rest) = .ok (filled, rest) := by
  cases h with
  | nil =>
    cases hs
    rfl
  | cons field vacant reads others =>
    rename_i k v es f g
    have hvalue := reads _ (stops_fieldChars es rest)
    have hlong := length_le_fieldChars es
    have hrest := others.readMembers rest
    simp only [chars, List.cons.injEq, true_and] at hs
    subst hs
    simp only [List.append_assoc, List.cons_append, Layout.readMembers, nextKey_first, field, vacant,
      Bool.false_eq_true, if_false, readColon_cons, hvalue]
    rw [hrest]
    simp only [List.length_cons, List.length_append]
    omega

/-- A record reads back when its object fills a draft that lacks nothing. -/
theorem Fills.read {l : Layout σ α} {filled : σ} {es : List (String × Json)}
    (h : Fills l.fields d l.blank es filled)
    (hall : (l.fields.find? fun f => f.required && !f.filled filled) = none) (rest : List Char) :
    l.read (d + 1) ((Json.obj es).chars ++ rest) = .ok (l.build filled, rest) := by
  obtain ⟨s, hs⟩ := obj_chars es
  have hread := h.readObject hs rest
  rw [hs, List.cons_append, Layout.read, skipSpace_cons _ (by decide)]
  simp only [deeper, bind, Except.bind, hread, hall]
  rfl

/-- A field that keeps what its reader gives. -/
theorem Field.of_read {β : Type} {name : String} {required : Bool} {get : σ → Option β} {set : β → σ → σ}
    {item : TypedReader β} {b : β} {s rest : List Char} (h : item d s = .ok (b, rest)) :
    (Field.of name required get set item).read d s = .ok (set b, rest) := by
  show (item d s).map _ = _
  rw [h]
  rfl

end
end Json

namespace LogEntry

/-- An entry without doubles, whose arguments are nested at most so deep. -/
def Plain (d : Nat) : LogEntry → Prop
  | chat _ _ => True
  | tool _ args _ => args.Plain ∧ args.depth ≤ d

/-- An object with a tag as its only key is read as the tag says. -/
theorem read_tagged {d : Nat} {tag : String} {inner : Json} {v : Json.TypedReader LogEntry} {e : LogEntry}
    (htag : variant? tag = some v)
    (hinner : ∀ rest, Json.Stops rest → v d (inner.chars ++ rest) = .ok (e, rest)) (rest : List Char) :
    read (d + 1) ((Json.obj [(tag, inner)]).chars ++ rest) = .ok (e, rest) := by
  have hvalue := hinner ('\x7d' :: rest) (Json.stops_cons _ (by decide))
  simp only [Json.chars, Json.fieldChars, Json.quote_append, List.append_assoc, List.cons_append,
    List.nil_append, read]
  rw [Json.skipSpace_cons _ (by decide)]
  simp only [Json.deeper, openTag, bind, Except.bind]
  rw [Json.skipSpace_cons _ (by decide)]
  simp only [readTag, Json.readString_quoted, bind, Except.bind, htag, pure, Except.pure,
    Json.readColon_cons, hvalue]
  rw [Json.skipSpace_cons _ (by decide)]
  rfl

theorem chat_fills (d : Nat) (user assistant : String) :
    Json.Fills chatLayout.fields d chatLayout.blank [("assistant", .str assistant), ("user", .str user)]
      ⟨some user, some assistant⟩ := by
  refine .cons rfl rfl (fun rest _ => Json.Field.of_read (Json.text_chars d assistant rest)) ?_
  refine .cons rfl rfl (fun rest _ => Json.Field.of_read (Json.text_chars d user rest)) ?_
  exact .nil _

theorem tool_fills {d : Nat} {args : Json} (hargs : args.Plain) (hdepth : args.depth ≤ d)
    (name result : String) :
    Json.Fills toolLayout.fields d toolLayout.blank
      [("tool_args", args), ("tool_name", .str name), ("tool_result", .str result)]
      ⟨some name, some args, some result⟩ := by
  refine .cons rfl rfl (fun rest hrest => Json.Field.of_read
    (Json.readValue_chars d args hargs hdepth rest hrest)) ?_
  refine .cons rfl rfl (fun rest _ => Json.Field.of_read (Json.text_chars d name rest)) ?_
  refine .cons rfl rfl (fun rest _ => Json.Field.of_read (Json.text_chars d result rest)) ?_
  exact .nil _

/-- An entry of the log reads back. -/
theorem readsBack {d : Nat} {e : LogEntry} (h : e.Plain d) : Json.ReadsBack (read (d + 2)) toJson e := by
  cases e with
  | chat user assistant =>
    refine ⟨⟨'\x7b', _, rfl, by constructor <;> decide⟩, ?_⟩
    intro rest _
    exact read_tagged (v := chatLayout.read) rfl
      (fun rest _ => (chat_fills d user assistant).read rfl rest) rest
  | tool name args result =>
    refine ⟨⟨'\x7b', _, rfl, by constructor <;> decide⟩, ?_⟩
    intro rest _
    exact read_tagged (v := toolLayout.read) rfl
      (fun rest _ => (tool_fills h.1 h.2 name result).read rfl rest) rest

end LogEntry
end SessionPool
