import SessionPool.Outcome
import SessionPool.Reply
import SessionPool.Proofs.Nesting

/-! Decoding: how a reply is understood, whatever value it is. A reply is refused exactly if it is flagged as
    an error. Any other comes to its first text, or if nothing among its contents has a text, to the text of
    its structured content; with neither it is a failure. The structured content is found again in what that
    text says, unless it is nested too deep. -/

namespace SessionPool

/-- A value without doubles is found again in its text unless it is nested too deep. -/
theorem Normalized.ofText_compact_iff {v : Json} (hv : v.Plain) :
    (ofText v.compact).value = v ↔ v.depth ≤ Json.maxDepth := by
  constructor
  · intro heq
    cases hparse : Json.parse v.compact with
    | ok w =>
      simp only [ofText, hparse] at heq
      exact (Json.parse_compact_iff hv).1 (heq ▸ hparse)
    | error e =>
      -- A text that is no JSON stands for itself, and a string is not nested.
      simp only [ofText, hparse] at heq
      exact heq ▸ Nat.zero_le _
  · intro hd
    rw [ofText, (Json.parse_compact_iff hv).2 hd]

namespace Reply
variable {reply item : Json} {items : List Json} {t : String}

/-! ### What a reply carries -/

/-- An element of the contents has a text. -/
def Says (item : Json) (t : String) : Prop := item.get? "text" = some (.str t)

/-- An element without a text. It may have something else in this place, or be no object. -/
def Mute (item : Json) : Prop := ∀ t, ¬Says item t

/-- `t` is the first text among the contents. -/
def Tells (reply : Json) (t : String) : Prop := ∃ before item after,
  reply.get? "content" = some (.arr (before ++ item :: after)) ∧ (∀ i ∈ before, Mute i) ∧ Says item t

/-- There is no text among the contents. There may be no contents, or no list of them. -/
def Wordless (reply : Json) : Prop := ∀ items, reply.get? "content" = some (.arr items) → ∀ i ∈ items, Mute i

/-- `v` is the structured content. Null is none. -/
def Holds (reply v : Json) : Prop := reply.get? "structuredContent" = some v ∧ v ≠ .null

/-- A reply is flagged as an error. No other value is a flag. -/
def Flagged (reply : Json) : Prop := reply.get? "isError" = some (.bool true)

/-- The text that a reply carries. -/
inductive Carries (reply : Json) : String → Prop
  | told {t : String} (h : Tells reply t) : Carries reply t
  | held {v : Json} (hno : Wordless reply) (h : Holds reply v) : Carries reply v.compact

theorem says_iff : (item.get? "text").bind Json.text? = some t ↔ Says item t := by
  simp [Option.bind_eq_some_iff, Json.text?_eq_some_iff, Says]

theorem mute_iff : (item.get? "text").bind Json.text? = none ↔ Mute item := by
  rw [Option.eq_none_iff_forall_ne_some]
  exact forall_congr' fun t => not_congr says_iff

theorem contents_iff : (reply.get? "content").bind Json.items? = some items ↔
    reply.get? "content" = some (.arr items) := by
  simp [Option.bind_eq_some_iff, Json.items?_eq_some_iff]

theorem firstText?_eq_some_iff : firstText? reply = some t ↔ Tells reply t := by
  rw [firstText?, Option.bind_eq_bind, Option.bind_eq_some_iff]
  constructor
  · rintro ⟨items, hitems, hfirst⟩
    obtain ⟨before, item, after, rfl, hitem, hbefore⟩ := List.findSome?_eq_some_iff.1 hfirst
    exact ⟨before, item, after, contents_iff.1 hitems,
      fun i hi => mute_iff.1 (hbefore i hi), says_iff.1 hitem⟩
  · rintro ⟨before, item, after, hitems, hbefore, hitem⟩
    refine ⟨_, contents_iff.2 hitems, List.findSome?_eq_some_iff.2 ⟨before, item, after, rfl, ?_, ?_⟩⟩
    · exact says_iff.2 hitem
    · exact fun i hi => mute_iff.2 (hbefore i hi)

theorem firstText?_eq_none_iff : firstText? reply = none ↔ Wordless reply := by
  rw [firstText?, Option.bind_eq_bind, Option.bind_eq_none_iff]
  constructor
  · intro h items hitems i hi
    exact mute_iff.1 (List.findSome?_eq_none_iff.1 (h items (contents_iff.2 hitems)) i hi)
  · intro h items hitems
    refine List.findSome?_eq_none_iff.2 fun i hi => mute_iff.2 ?_
    exact h items (contents_iff.1 hitems) i hi

theorem structured?_eq_some_iff : structured? reply = some t ↔ ∃ v, Holds reply v ∧ v.compact = t := by
  rw [structured?]
  split <;> rename_i heq
  · simp [Holds, heq]
  · simp [Holds, heq]
  · rename_i hne
    constructor
    · rintro ⟨⟩
      exact ⟨_, ⟨heq, hne⟩, rfl⟩
    · rintro ⟨w, ⟨hw, -⟩, rfl⟩
      cases heq.symm.trans hw
      rfl

theorem isError_eq_true_iff : isError reply = true ↔ Flagged reply := by
  rw [isError, Flagged]
  split
  · rename_i b heq
    simp [heq]
  · rename_i hno
    simp only [Bool.false_eq_true, false_iff]
    exact hno true

/-- The text that is looked for in a reply is the one that it carries. -/
theorem carried_eq_some_iff : (firstText? reply).or (structured? reply) = some t ↔ Carries reply t := by
  rw [Option.or_eq_some_iff, firstText?_eq_some_iff, firstText?_eq_none_iff, structured?_eq_some_iff]
  constructor
  · rintro (h | ⟨hno, v, hv, rfl⟩)
    · exact .told h
    · exact .held hno hv
  · rintro (h | ⟨hno, hv⟩)
    · exact .inl h
    · exact .inr ⟨hno, _, hv, rfl⟩

theorem carried_eq_none_iff :
    (firstText? reply).or (structured? reply) = none ↔ ∀ t, ¬Carries reply t := by
  rw [Option.eq_none_iff_forall_ne_some]
  exact forall_congr' fun t => not_congr carried_eq_some_iff

/-- A text among the contents is there if there is a first one. -/
theorem exists_tells_iff : (∃ t, Tells reply t) ↔
    ∃ items, reply.get? "content" = some (.arr items) ∧ ∃ item ∈ items, ∃ t, Says item t := by
  constructor
  · rintro ⟨t, before, item, after, hitems, -, hitem⟩
    exact ⟨_, hitems, item, List.mem_append_right _ List.mem_cons_self, t, hitem⟩
  · rintro ⟨items, hitems, item, hmem, t, hitem⟩
    cases hfirst : firstText? reply with
    | some t' => exact ⟨t', firstText?_eq_some_iff.1 hfirst⟩
    | none => exact absurd hitem (firstText?_eq_none_iff.1 hfirst items hitems item hmem t)

theorem not_carries (hno : Wordless reply) (hnone : ∀ v, ¬Holds reply v) (t : String) : ¬Carries reply t := by
  rintro (h | ⟨-, h⟩)
  · obtain ⟨items, hitems, item, hmem, t, hitem⟩ := exists_tells_iff.1 ⟨t, h⟩
    exact hno items hitems item hmem t hitem
  · exact hnone _ h

/-! ### What is made of it -/

theorem decode_of_flagged (h : Flagged reply) : decode reply =
    .error (.rejected (((firstText? reply).or (structured? reply)).getD "tool reported an error")) := by
  rw [decode, if_pos (isError_eq_true_iff.2 h)]

theorem decode_of_carries (h : ¬Flagged reply) (ht : Carries reply t) : decode reply = .ok t := by
  rw [decode, if_neg (mt isError_eq_true_iff.1 h), carried_eq_some_iff.2 ht]

theorem decode_of_not_carries (h : ¬Flagged reply) (hno : ∀ t, ¬Carries reply t) :
    decode reply = .error (.unexpected "reply carried no content") := by
  rw [decode, if_neg (mt isError_eq_true_iff.1 h), carried_eq_none_iff.2 hno]

theorem decode_rejected_iff : (∃ why, decode reply = .error (.rejected why)) ↔ Flagged reply := by
  constructor
  · rintro ⟨why, hwhy⟩
    by_cases hflag : Flagged reply
    · exact hflag
    by_cases hcarries : ∃ t, Carries reply t
    · obtain ⟨t, ht⟩ := hcarries
      cases (decode_of_carries hflag ht).symm.trans hwhy
    · cases (decode_of_not_carries hflag (not_exists.1 hcarries)).symm.trans hwhy
  · intro h
    exact ⟨_, decode_of_flagged h⟩

/-- How a reply is understood. -/
structure Understood (reply : Json) : Prop where
  /-- It is refused exactly if it is flagged as an error, whatever else it holds. -/
  refused : (∃ why, decode reply = .error (.rejected why)) ↔ Flagged reply
  /-- The reason of a refusal is what the reply carries. -/
  reason : Flagged reply → ∀ t, Carries reply t → decode reply = .error (.rejected t)
  unreasoned : Flagged reply → (∀ t, ¬Carries reply t) →
    decode reply = .error (.rejected "tool reported an error")
  /-- If anything among the contents has a text, then there is a first text. -/
  spoken : (∃ t, Tells reply t) ↔
    ∃ items, reply.get? "content" = some (.arr items) ∧ ∃ item ∈ items, ∃ t, Says item t
  /-- The first text is the result, whatever comes before and after it and beside the contents. -/
  told : ¬Flagged reply → ∀ t, Tells reply t → decode reply = .ok t
  /-- Without a text the structured content is the result. Without doubles it is found again in what its
      text says, unless it is nested too deep. -/
  held : ¬Flagged reply → Wordless reply → ∀ v, Holds reply v → decode reply = .ok v.compact ∧
    (v.Plain → ((Normalized.ofText v.compact).value = v ↔ v.depth ≤ 127))
  /-- A reply with neither is a failure. -/
  empty : ¬Flagged reply → Wordless reply → (∀ v, ¬Holds reply v) →
    decode reply = .error (.unexpected "reply carried no content")

/-- Any value at all is understood as a reply. -/
theorem understood (reply : Json) : Understood reply where
  refused := decode_rejected_iff
  reason h t ht := by rw [decode_of_flagged h, carried_eq_some_iff.2 ht, Option.getD_some]
  unreasoned h hno := by rw [decode_of_flagged h, carried_eq_none_iff.2 hno, Option.getD_none]
  spoken := exists_tells_iff
  told h _ ht := decode_of_carries h (.told ht)
  held h hno _ hv := ⟨decode_of_carries h (.held hno hv), fun hplain => Normalized.ofText_compact_iff hplain⟩
  empty h hno hnone := decode_of_not_carries h (not_carries hno hnone)

/-- A reply whose flag is no truth value, and whose contents are of many kinds. -/
def scrapbook : Json := .obj
  [("content", .arr [.int 3, .obj [("text", .int 5)], .obj [("type", .str "image")], .obj [("text", .str "5")],
      .obj [("text", .str "6")]]),
    ("isError", .str "true"), ("structuredContent", .obj [("result", .int 7)])]

/-- The largest integer, and characters that have to be escaped. -/
def gift : Json := .obj [("n", .int 18446744073709551615), ("s", .arr [.str "\"\n\x01", .null])]

/-- A reply whose contents are no list, with a gift beside them. -/
def parcel (flag : Json) : Json :=
  .obj [("content", .str "5"), ("isError", flag), ("structuredContent", gift)]

theorem understood_mail :
    (Understood scrapbook ∧ ¬Flagged scrapbook ∧ decode scrapbook = .ok "5") ∧
    (¬Flagged (parcel .null) ∧ decode (parcel .null) = .ok gift.compact ∧
      (Normalized.ofText gift.compact).value = gift) ∧
    (Flagged (parcel (.bool true)) ∧ decode (parcel (.bool true)) = .error (.rejected gift.compact)) ∧
    decode .null = .error (.unexpected "reply carried no content") := by
  have hscraps : ¬Flagged scrapbook := by rintro ⟨⟩
  have hfirst : Tells scrapbook "5" :=
    ⟨[.int 3, .obj [("text", .int 5)], .obj [("type", .str "image")]], .obj [("text", .str "5")],
      [.obj [("text", .str "6")]], rfl, by simp [Mute, Says, Json.get?, Json.int, Table.get?], rfl⟩
  have hparcel : ¬Flagged (parcel .null) := by rintro ⟨⟩
  have hwordless : ∀ flag, Wordless (parcel flag) := by rintro flag items ⟨⟩
  have hgift : ∀ flag, Holds (parcel flag) gift := fun flag => ⟨rfl, Json.noConfusion⟩
  have hplain : gift.Plain := by
    refine ⟨Table.sorted_of_keys (by decide), ?_⟩
    simp [Json.Plain, Json.PlainFields, Json.PlainItems, Json.int, Number.Whole]
  obtain ⟨hdecode, hkept⟩ := (understood (parcel .null)).held hparcel (hwordless _) gift (hgift _)
  refine ⟨⟨understood scrapbook, hscraps, (understood scrapbook).told hscraps "5" hfirst⟩,
    ⟨hparcel, hdecode, (hkept hplain).2 (by decide)⟩, ⟨rfl, ?_⟩, ?_⟩
  · exact (understood (parcel (.bool true))).reason rfl _ (.held (hwordless _) (hgift _))
  · exact (understood .null).empty (by rintro ⟨⟩) (by rintro items ⟨⟩) (by rintro v ⟨⟨⟩, -⟩)

end Reply
end SessionPool
