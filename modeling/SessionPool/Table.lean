/-! Tables: association lists kept in increasing order of their string keys, each key once. Strings
    compare by code point, which for text is also the order of the encoded bytes. A table is seen
    through `get?`; `insert` and `erase` keep the order, so a table built with them lists its keys
    sorted and equal contents give equal lists. -/

namespace SessionPool

/-- A list of keyed values, meant to be sorted by key. -/
abbrev Table (α : Type) := List (String × α)

namespace Table
variable {α β : Type}

/-- The keys follow one another in strictly increasing order. -/
def Sorted (t : Table α) : Prop := t.Pairwise (fun a b => a.1 < b.1)

/-- The value under a key. -/
def get? (k : String) : Table α → Option α
  | [] => none
  | (k', v) :: t => if k = k' then some v else get? k t

/-- Whether a key is present. -/
def has (k : String) (t : Table α) : Bool := (t.get? k).isSome

/-- Puts a value under a key, in the place of an earlier value if there is one. -/
def insert (k : String) (v : α) : Table α → Table α
  | [] => [(k, v)]
  | (k', v') :: t =>
    if k = k' then (k, v) :: t
    else if k < k' then (k, v) :: (k', v') :: t
    else (k', v') :: insert k v t

/-- The table without a key. -/
def erase (k : String) : Table α → Table α
  | [] => []
  | (k', v) :: t => if k = k' then t else (k', v) :: erase k t

/-- Applies `f` to the value under a key, starting from `none` if the key is absent. -/
def alter (k : String) (f : Option α → α) (t : Table α) : Table α := t.insert k (f (t.get? k))

/-- The table of a list of pairs, of which the last with a key counts. -/
def ofList (l : List (String × α)) : Table α := l.foldl (fun t p => t.insert p.1 p.2) []

/-- The first table, overwritten by the second. -/
def merge (t u : Table α) : Table α := u.foldl (fun t p => t.insert p.1 p.2) t

def keys (t : Table α) : List String := t.map (·.1)

@[simp] theorem get?_nil (k : String) : get? k ([] : Table α) = none := rfl

theorem get?_insert_self (k : String) (v : α) : ∀ t : Table α, (t.insert k v).get? k = some v
  | [] => by simp [insert, get?]
  | (k', v') :: t => by
    by_cases h : k = k'
    · simp [insert, get?, h]
    · by_cases hl : k < k'
      · simp [insert, get?, h, hl]
      · simp [insert, get?, h, hl, get?_insert_self k v t]

theorem get?_insert_of_ne {j k : String} (hjk : j ≠ k) (v : α) :
    ∀ t : Table α, (t.insert k v).get? j = t.get? j
  | [] => by simp [insert, get?, hjk]
  | (k', v') :: t => by
    by_cases h : k = k'
    · subst h; simp [insert, get?, hjk]
    · by_cases hl : k < k'
      · simp [insert, get?, h, hl, hjk]
      · by_cases hj : j = k'
        · simp [insert, get?, h, hl, hj]
        · simp [insert, get?, h, hl, hj, get?_insert_of_ne hjk v t]

theorem lt_of_not_lt {j k : String} (hne : k ≠ j) (h : ¬k < j) : j < k :=
  (Std.lt_trichotomy k j).elim (fun hl => absurd hl h) fun h => h.elim (fun he => absurd he hne) id

/-- Inserting adds no entry but its own. -/
theorem mem_insert_cases {k : String} {v : α} {p : String × α} :
    ∀ {t : Table α}, p ∈ t.insert k v → p = (k, v) ∨ p ∈ t
  | [], h => .inl (List.mem_singleton.1 h)
  | (k', v') :: t, h => by
    rw [insert] at h
    split at h
    · exact (List.mem_cons.1 h).imp id (List.mem_cons_of_mem _)
    · split at h
      · exact List.mem_cons.1 h
      · rcases List.mem_cons.1 h with h | h
        · exact .inr (h ▸ List.mem_cons_self ..)
        · exact (mem_insert_cases h).imp id (List.mem_cons_of_mem _)

/-- Inserting adds no key but its own. -/
theorem fst_of_mem_insert {k : String} {v : α} {p : String × α} {t : Table α} (h : p ∈ t.insert k v) :
    p.1 = k ∨ p ∈ t := (mem_insert_cases h).imp (congrArg Prod.fst) id

theorem Sorted.insert (k : String) (v : α) : ∀ {t : Table α}, Sorted t → Sorted (t.insert k v)
  | [], _ => List.pairwise_singleton _ _
  | (k', v') :: t, h => by
    have ⟨hhead, htail⟩ := List.pairwise_cons.1 h
    by_cases hk : k = k'
    · subst hk
      rw [Table.insert, if_pos rfl]
      exact List.pairwise_cons.2 ⟨hhead, htail⟩
    · by_cases hl : k < k'
      · simp only [Table.insert, hk, hl, if_true, if_false]
        refine List.pairwise_cons.2 ⟨fun p hp => ?_, h⟩
        rcases List.mem_cons.1 hp with rfl | hp
        · exact hl
        · exact String.lt_trans hl (hhead p hp)
      · simp only [Table.insert, hk, hl, if_false]
        refine List.pairwise_cons.2 ⟨fun p hp => ?_, Sorted.insert k v htail⟩
        rcases fst_of_mem_insert hp with hpk | hp
        · rw [hpk]; exact lt_of_not_lt hk hl
        · exact hhead p hp

theorem erase_sublist (k : String) : ∀ t : Table α, (t.erase k).Sublist t
  | [] => .slnil
  | (k', v) :: t => by
    by_cases h : k = k'
    · simp [erase, h]
    · simpa [erase, h] using erase_sublist k t

theorem Sorted.erase (k : String) {t : Table α} (h : Sorted t) : Sorted (t.erase k) :=
  List.Pairwise.sublist (erase_sublist k t) h

theorem Sorted.ofList (l : List (String × α)) : Sorted (Table.ofList l) := by
  suffices ∀ t : Table α, Sorted t → Sorted (l.foldl (fun t p => t.insert p.1 p.2) t) from
    this [] .nil
  induction l with
  | nil => exact fun _ h => h
  | cons p l ih => exact fun t h => ih _ (h.insert p.1 p.2)

/-- A table has no entries but those of the list it is made from. -/
theorem mem_of_mem_ofList {p : String × α} {l : List (String × α)} (h : p ∈ Table.ofList l) : p ∈ l := by
  suffices hfold : ∀ t : Table α, p ∈ l.foldl (fun t e => t.insert e.1 e.2) t → p ∈ t ∨ p ∈ l from
    (hfold [] h).resolve_left List.not_mem_nil
  clear h
  induction l with
  | nil => exact fun _ h => .inl h
  | cons e l ih =>
    intro t h
    rcases ih _ h with h | h
    · exact (mem_insert_cases h).elim (fun h => .inr (h ▸ List.mem_cons_self)) .inl
    · exact .inr (List.mem_cons_of_mem _ h)

/-- A key below all keys of a table has no value in it. -/
theorem get?_eq_none_of_lt {k : String} : ∀ {t : Table α}, (∀ p ∈ t, k < p.1) → t.get? k = none
  | [], _ => rfl
  | (k', v) :: t, h => by
    have hk : k ≠ k' := fun he => String.lt_irrefl k (he ▸ h (k', v) (by simp) : k < k)
    simp only [get?, hk, if_false]
    exact get?_eq_none_of_lt fun p hp => h p (List.mem_cons_of_mem _ hp)

theorem get?_erase_self {k : String} : ∀ {t : Table α}, Sorted t → (t.erase k).get? k = none
  | [], _ => rfl
  | (k', v) :: t, h => by
    have ⟨hhead, htail⟩ := List.pairwise_cons.1 h
    by_cases hk : k = k'
    · subst hk
      simpa [erase] using get?_eq_none_of_lt hhead
    · simpa [erase, get?, hk] using get?_erase_self htail

theorem get?_erase_of_ne {j k : String} (hjk : j ≠ k) :
    ∀ t : Table α, (t.erase k).get? j = t.get? j
  | [] => rfl
  | (k', v) :: t => by
    by_cases h : k = k'
    · subst h; simp [erase, get?, hjk]
    · by_cases hj : j = k'
      · simp [erase, get?, h, hj]
      · simp [erase, get?, h, hj, get?_erase_of_ne hjk t]

/-- Taking away a key that is not there changes nothing. -/
theorem erase_of_get?_none {k : String} : ∀ {t : Table α}, get? k t = none → t.erase k = t
  | [], _ => rfl
  | (k', v) :: t, h => by
    rw [get?] at h
    split at h
    · cases h
    rename_i hne
    rw [erase, if_neg hne, erase_of_get?_none h]

theorem Sorted.get?_of_mem : ∀ {t : Table α}, Sorted t → ∀ {e}, e ∈ t → get? e.1 t = some e.2
  | (k, v) :: t, h, e, hmem => by
    obtain ⟨hhead, htail⟩ := List.pairwise_cons.1 h
    rcases List.mem_cons.1 hmem with rfl | hmem
    · exact if_pos rfl
    · have hne : e.1 ≠ k := fun heq => String.lt_irrefl k (heq ▸ hhead e hmem)
      rw [get?, if_neg hne]
      exact Sorted.get?_of_mem htail hmem

theorem get?_eq_none {k : String} : ∀ {t : Table α}, k ∉ keys t → get? k t = none
  | [], _ => rfl
  | (k', v) :: t, h => by
    have hne : k ≠ k' := fun heq => h (heq ▸ List.mem_cons_self)
    rw [get?, if_neg hne]
    exact get?_eq_none fun hmem => h (List.mem_cons_of_mem _ hmem)

theorem mem_keys_iff {k : String} {t : Table α} (h : Sorted t) : k ∈ keys t ↔ (get? k t).isSome := by
  constructor
  · intro hmem
    obtain ⟨e, he, rfl⟩ := List.mem_map.1 hmem
    rw [h.get?_of_mem he]
    rfl
  · intro hsome
    refine Decidable.byContradiction fun hnot => ?_
    rw [get?_eq_none hnot] at hsome
    cases hsome

theorem Sorted.keys_nodup {t : Table α} (h : Sorted t) : (keys t).Nodup := by
  refine List.pairwise_map.2 (h.imp fun hlt heq => ?_)
  rw [heq] at hlt
  exact String.lt_irrefl _ hlt

/-- What a table has under a key. -/
theorem filter_keys (f : String → α) (k : String) : ∀ {ks : List String}, ks.Nodup →
    (ks.map fun k => (k, f k)).filter (fun e => e.1 = k) = if k ∈ ks then [(k, f k)] else []
  | [], _ => rfl
  | k' :: ks, h => by
    obtain ⟨hnew, hrest⟩ := List.nodup_cons.1 h
    rw [List.map_cons, List.filter_cons, filter_keys f k hrest]
    by_cases hk : k' = k
    · subst hk
      simp [hnew]
    · simp [hk, Ne.symm hk]

end Table
end SessionPool
