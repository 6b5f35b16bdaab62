import SessionPool.Proofs.RoundTrip

/-! Nesting: whatever text is read, the value that comes of it is nested no deeper than the reader goes. So a
    value without doubles reads back from its text exactly if it is nested no deeper. What holds of all that
    is read goes over from items to the lists and the objects of them. -/

namespace SessionPool.Json

section
variable {α β : Type} {P : α → Prop} {Q : β → Prop} {item : Reader α} {r : Except Misread (α × List Char)}

/-- What was read, if anything was, has a property. -/
def Gives (P : α → Prop) (r : Except Misread (α × List Char)) : Prop := ∀ v rest, r = .ok (v, rest) → P v

theorem Gives.any (r : Except Misread (α × List Char)) : Gives (fun _ => True) r := fun _ _ _ => trivial

theorem Gives.error (e : Misread) : Gives P (.error e) := by
  rintro _ _ ⟨⟩

theorem Gives.ok {v : α} (h : P v) (rest : List Char) : Gives P (.ok (v, rest)) := by
  rintro _ _ ⟨⟩
  exact h

theorem Gives.mono {P' : α → Prop} (h : Gives P r) (hmono : ∀ v, P v → P' v) : Gives P' r :=
  fun v rest hr => hmono v (h v rest hr)

theorem Gives.map {f : α × List Char → β × List Char} (h : Gives P r) (hf : ∀ p, P p.1 → Q (f p).1) :
    Gives Q (r.map f) := by
  cases r with
  | error e => exact .error e
  | ok p => exact .ok (hf p (h p.1 p.2 rfl)) (f p).2

theorem readItems_gives (h : ∀ s, Gives P (item s)) : ∀ (fuel : Nat) (first : Bool) (s : List Char),
    Gives (fun l => ∀ v ∈ l, P v) (readItems item fuel first s) := by
  intro fuel
  induction fuel with
  | zero => intro first s; exact .error _
  | succ fuel ih =>
    intro first s
    rw [readItems]
    split
    · exact .error _
    · exact .ok (List.forall_mem_nil _) _
    · -- An item, and what is left of the list behind it.
      split
      · exact .error _
      · rename_i v t hitem
        exact (ih false t).map fun p hp => List.forall_mem_cons.2 ⟨h _ v t hitem, hp⟩

theorem readEntries_gives (h : ∀ s, Gives P (item s)) : ∀ (fuel : Nat) (first : Bool) (s : List Char),
    Gives (fun es => ∀ e ∈ es, P e.2) (readEntries item fuel first s) := by
  intro fuel
  induction fuel with
  | zero => intro first s; exact .error _
  | succ fuel ih =>
    intro first s
    rw [readEntries]
    split
    · exact .error _
    · exact .ok (List.forall_mem_nil _) _
    · split
      · exact .error _
      · split
        · exact .error _
        · rename_i v t hitem
          exact (ih false t).map fun p hp => List.forall_mem_cons.2 ⟨h _ v t hitem, hp⟩

theorem readWord_gives (v : α) : ∀ ws s : List Char, Gives (· = v) (readWord v ws s)
  | [], s => .ok (P := (· = v)) rfl s
  | _ :: _, [] => .error _
  | w :: ws, c :: s => by
    rw [readWord]
    split
    · exact readWord_gives v ws s
    · exact .error _

end

theorem itemsDepth_le {d : Nat} : ∀ {l : List Json}, (∀ v ∈ l, v.depth ≤ d) → itemsDepth l ≤ d
  | [], _ => Nat.zero_le d
  | _ :: _, h => Nat.max_le.2 ⟨h _ List.mem_cons_self, itemsDepth_le fun v hv => h v (List.mem_cons_of_mem _ hv)⟩

theorem fieldsDepth_le {d : Nat} : ∀ {e : List (String × Json)}, (∀ x ∈ e, x.2.depth ≤ d) → fieldsDepth e ≤ d
  | [], _ => Nat.zero_le d
  | _ :: _, h => Nat.max_le.2 ⟨h _ List.mem_cons_self, fieldsDepth_le fun x hx => h x (List.mem_cons_of_mem _ hx)⟩

/-- No scalar opens a container. -/
theorem readScalar_flat (s : List Char) : Gives (fun v => v.depth = 0) (readScalar s) := by
  have hword : ∀ v : Json, v.depth = 0 → ∀ ws r, Gives (fun v => v.depth = 0) (readWord v ws r) :=
    fun v hv ws r => (readWord_gives v ws r).mono fun w hw => hw ▸ hv
  unfold readScalar
  split
  · exact .error _
  · exact hword _ rfl _ _
  · exact hword _ rfl _ _
  · exact hword _ rfl _ _
  · exact (Gives.any _).map fun _ _ => rfl
  · exact (Gives.any _).map fun _ _ => rfl
  · split
    · exact (Gives.any _).map fun _ _ => rfl
    · exact .error _

/-- What is read is nested no deeper than its reader goes. -/
theorem readValue_shallow : ∀ (d : Nat) (s : List Char), Gives (fun v => v.depth ≤ d) (readValue d s) := by
  have hscalar : ∀ d s, Gives (fun v => v.depth ≤ d) (readScalar s) := fun d s =>
    (readScalar_flat s).mono fun v hv => hv.symm ▸ Nat.zero_le d
  intro d
  induction d with
  | zero =>
    intro s
    rw [readValue.eq_def]
    split
    · exact .error _
    · exact .error _
    · exact hscalar 0 _
  | succ d ih =>
    intro s
    rw [readValue.eq_def]
    split
    · exact (readItems_gives ih _ _ _).map fun p hp => Nat.succ_le_succ (itemsDepth_le hp)
    · refine Gives.map (P := fun t : Table Json => ∀ x ∈ t, x.2.depth ≤ d) ?_ fun p hp =>
        Nat.succ_le_succ (fieldsDepth_le hp)
      exact (readEntries_gives ih _ _ _).map fun p hp x hx => hp x (Table.mem_of_mem_ofList hx)
    · exact hscalar (d + 1) _

theorem depth_le_of_parse {text : String} {v : Json} (h : parse text = .ok v) : v.depth ≤ maxDepth := by
  obtain ⟨rest, hread⟩ := read_of_readAll h
  exact readValue_shallow maxDepth _ v rest hread

/-- How deep a value may be nested to read back from its text. -/
theorem parse_compact_iff {v : Json} (hv : v.Plain) : parse v.compact = .ok v ↔ v.depth ≤ maxDepth :=
  ⟨depth_le_of_parse, parse_compact hv⟩

end SessionPool.Json
