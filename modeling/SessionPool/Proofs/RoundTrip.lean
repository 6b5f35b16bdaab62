import SessionPool.Json.Reader

/-! Round trips: the compact text of a value reads back as that value. This holds of values without
    doubles in which containers are nested no deeper than the reader goes. The reader of a list or of
    an object is given the reader of what it holds, so what is shown of containers is shown for data of
    any kind that is written as a value: if each item reads back, then so does the list of them. -/

namespace SessionPool

namespace Table
variable {α : Type}

/-- A key above all others goes to the end. -/
theorem insert_of_gt {k : String} (v : α) : ∀ {t : Table α}, (∀ e ∈ t, e.1 < k) →
    t.insert k v = t ++ [(k, v)]
  | [], _ => rfl
  | (k', v') :: t, h => by
    have hlt : k' < k := h (k', v') List.mem_cons_self
    have hne : k ≠ k' := fun heq => String.lt_irrefl k (heq ▸ hlt)
    have hnot : ¬k < k' := fun hgt => String.lt_irrefl k (String.lt_trans hgt hlt)
    simp only [insert, hne, hnot, if_false, List.cons_append]
    rw [insert_of_gt v fun e he => h e (List.mem_cons_of_mem _ he)]

/-- A list that is sorted already is the table of its entries. -/
theorem Sorted.ofList_eq {t : Table α} (h : Sorted t) : Table.ofList t = t := by
  suffices hfold : ∀ later before : Table α, Sorted (before ++ later) →
      later.foldl (fun t e => t.insert e.1 e.2) before = before ++ later from hfold t [] h
  intro later
  induction later with
  | nil => intro before _; simp
  | cons e later ih =>
    intro before hsorted
    have hbelow : ∀ e' ∈ before, e'.1 < e.1 := by
      intro e' he'
      exact (List.pairwise_append.1 hsorted).2.2 e' he' e List.mem_cons_self
    rw [List.foldl_cons, insert_of_gt e.2 hbelow, ih]
    · simp
    · simpa using hsorted

/-- A table is sorted by its keys alone. -/
theorem sorted_of_keys {t : Table α} (h : (keys t).Pairwise (· < ·)) : Sorted t := List.pairwise_map.1 h

end Table

/-- An integer that 64 bits hold, with a sign or without. -/
def Number.Whole : Number → Prop
  | .int i => -0x8000000000000000 ≤ i ∧ i < 0x10000000000000000
  | .double _ => False

namespace Json

mutual

/-- A value without doubles, as it is built: objects are tables, and integers have 64 bits. -/
def Plain : Json → Prop
  | .num n => n.Whole
  | .arr l => PlainItems l
  | .obj e => Table.Sorted e ∧ PlainFields e
  | _ => True

def PlainItems : List Json → Prop
  | [] => True
  | v :: l => v.Plain ∧ PlainItems l

def PlainFields : List (String × Json) → Prop
  | [] => True
  | (_, v) :: e => v.Plain ∧ PlainFields e

end

mutual

/-- How deep containers are nested. -/
def depth : Json → Nat
  | .arr l => itemsDepth l + 1
  | .obj e => fieldsDepth e + 1
  | _ => 0

def itemsDepth : List Json → Nat
  | [] => 0
  | v :: l => max v.depth (itemsDepth l)

def fieldsDepth : List (String × Json) → Nat
  | [] => 0
  | (_, v) :: e => max v.depth (fieldsDepth e)

end

/-- A text that cannot prolong a number. -/
def Stops (s : List Char) : Prop :=
  ∀ c t, s = c :: t → c.isDigit = false ∧ c ≠ '.' ∧ c ≠ 'e' ∧ c ≠ 'E'

theorem stops_nil : Stops [] := nofun

theorem stops_cons {c : Char} (s : List Char) (h : c.isDigit = false ∧ c ≠ '.' ∧ c ≠ 'e' ∧ c ≠ 'E') :
    Stops (c :: s) := by
  rintro c' t heq
  cases heq
  exact h

theorem stops_itemChars (l : List Json) (rest : List Char) : Stops (itemChars l ++ rest) := by
  cases l <;> exact stops_cons _ (by decide)

theorem stops_fieldChars (e : List (String × Json)) (rest : List Char) : Stops (fieldChars e ++ rest) := by
  obtain - | ⟨⟨k, v⟩, e⟩ := e <;> exact stops_cons _ (by decide)

/-! ### White space -/

theorem skipSpace_cons {c : Char} (s : List Char) (h : isSpace c = false) :
    skipSpace (c :: s) = c :: s := by
  simp [skipSpace, h]

/-- The text of a value begins with a character that cannot be taken for anything else. -/
structure Opens (c : Char) : Prop where
  space : isSpace c = false
  bracket : c ≠ ']'
  comma : c ≠ ','

theorem opens_of_digit {c : Char} (h : c.isDigit = true) : Opens c := by
  refine ⟨?_, ?_, ?_⟩
  · rw [Bool.eq_false_iff]
    intro hspace
    simp only [isSpace, Bool.or_eq_true, decide_eq_true_eq] at hspace
    rcases hspace with ((rfl | rfl) | rfl) | rfl <;> revert h <;> decide
  · rintro rfl; revert h; decide
  · rintro rfl; revert h; decide

theorem number_head {n : Number} (h : n.Whole) : ∃ c t, number n = c :: t ∧ Opens c := by
  obtain (n | n) | _ := n
  · obtain ⟨c, t, hdigits⟩ := List.exists_cons_of_ne_nil (Nat.toDigits_ne_nil (n := n) (b := 10))
    have hc : c ∈ Nat.toDigits 10 n := by rw [hdigits]; exact List.mem_cons_self
    exact ⟨c, t, hdigits, opens_of_digit (Nat.isDigit_of_mem_toDigits (by decide) (by decide) hc)⟩
  · exact ⟨'-', _, rfl, by constructor <;> decide⟩
  · exact h.elim

theorem chars_head {v : Json} (h : v.Plain) : ∃ c t, v.chars = c :: t ∧ Opens c := by
  cases v with
  | null => exact ⟨'n', _, rfl, by constructor <;> decide⟩
  | bool b => cases b <;> exact ⟨_, _, rfl, by constructor <;> decide⟩
  | num n => exact number_head h
  | str s => exact ⟨'"', _, rfl, by constructor <;> decide⟩
  | arr l => cases l <;> exact ⟨'[', _, rfl, by constructor <;> decide⟩
  | obj e => obtain - | ⟨⟨k, v⟩, e⟩ := e <;> exact ⟨'\x7b', _, rfl, by constructor <;> decide⟩

/-! ### Numbers -/

/-- The digits of a number that is not zero do not begin with a zero. -/
theorem toDigits_head {n : Nat} (h : 0 < n) : ∃ c t, Nat.toDigits 10 n = c :: t ∧ c ≠ '0' := by
  have hsmall : ∀ n < 10, 0 < n → n.digitChar ≠ '0' := by decide
  induction n using Nat.strongRecOn with
  | ind n ih =>
    rw [Nat.toDigits_eq_if (by decide)]
    split
    · rename_i hlt
      exact ⟨n.digitChar, [], rfl, hsmall n hlt h⟩
    · obtain ⟨c, t, hdigits, hc⟩ := ih (n / 10) (by omega) (by omega)
      exact ⟨c, t ++ [(n % 10).digitChar], by rw [hdigits]; rfl, hc⟩

theorem takeWhile_digits {ds rest : List Char} (hds : ∀ c ∈ ds, c.isDigit = true) (h : Stops rest) :
    (ds ++ rest).takeWhile Char.isDigit = ds ∧ (ds ++ rest).dropWhile Char.isDigit = rest := by
  have hrest : rest.takeWhile Char.isDigit = [] ∧ rest.dropWhile Char.isDigit = rest := by
    cases rest with
    | nil => exact ⟨rfl, rfl⟩
    | cons c t => simp [(h c t rfl).1]
  rw [List.takeWhile_append_of_pos hds, List.dropWhile_append_of_pos hds, hrest.1, hrest.2]
  simp

theorem readFraction_stops {negative : Bool} {whole rest : List Char} {n : Number} (h : Stops rest)
    (hn : wholeNumber negative whole = some n) : readFraction negative whole rest = .ok (n, rest) := by
  rw [readFraction.eq_def]
  cases rest with
  | nil => simp [hn]
  | cons c t =>
    obtain ⟨-, hpoint, he, hE⟩ := h c t rfl
    simp [hn, hpoint, he, hE]

/-- A number that is no zero is read by its digits. -/
theorem readUnsigned_digits {negative : Bool} {n : Nat} {m : Number} {rest : List Char} (hpos : 0 < n)
    (h : Stops rest) (hm : wholeNumber negative (Nat.toDigits 10 n) = some m) :
    readUnsigned negative (Nat.toDigits 10 n ++ rest) = .ok (m, rest) := by
  have hall : ∀ c ∈ Nat.toDigits 10 n, c.isDigit = true := fun c hc =>
    Nat.isDigit_of_mem_toDigits (by decide) (by decide) hc
  obtain ⟨htake, hdrop⟩ := takeWhile_digits hall h
  obtain ⟨c, t, hdigits, hc⟩ := toDigits_head hpos
  have hdigit : c.isDigit = true := hall c (by rw [hdigits]; exact List.mem_cons_self)
  rw [hdigits, List.cons_append] at htake hdrop ⊢
  rw [hdigits] at hm
  rw [readUnsigned.eq_def]
  simp only [hdigit, if_true, htake, hdrop]
  exact readFraction_stops h hm

theorem wholeNumber_nat {n : Nat} (h : n < Decimal.wordBound) :
    wholeNumber false (Nat.toDigits 10 n) = some (.int n) := by
  rw [wholeNumber, Nat.ofDigitChars_toDigits (by decide) (by decide)]
  simp only [Bool.not_false, decide_eq_true h, Bool.and_self, if_true]

theorem wholeNumber_neg {n : Nat} (hpos : 0 < n) (h : n ≤ Decimal.wordBound / 2) :
    wholeNumber true (Nat.toDigits 10 n) = some (.int (-n)) := by
  rw [wholeNumber, Nat.ofDigitChars_toDigits (by decide) (by decide)]
  simp only [Bool.not_true, Bool.false_and, Bool.false_eq_true, if_false, decide_eq_true hpos,
    decide_eq_true h, Bool.and_self, if_true]

theorem readScalar_digit {c : Char} {t : List Char} (h : c.isDigit = true) :
    readScalar (c :: t) = (readUnsigned false (c :: t)).map fun p => (.num p.1, p.2) := by
  rw [readScalar.eq_def]
  split <;> rename_i heq
  · cases heq
  all_goals cases heq
  · exact absurd h (by decide)
  · exact absurd h (by decide)
  · exact absurd h (by decide)
  · exact absurd h (by decide)
  · exact absurd h (by decide)
  · rw [if_pos h]

theorem readScalar_number {n : Number} {rest : List Char} (hn : n.Whole) (h : Stops rest) :
    readScalar (number n ++ rest) = .ok (.num n, rest) := by
  obtain (n | n) | _ := n
  · have hlt : n < Decimal.wordBound := by
      have := hn.2
      simp only [Int.ofNat_eq_natCast] at this
      rw [Decimal.wordBound]
      omega
    have hread : readUnsigned false (Nat.toDigits 10 n ++ rest) = .ok (.int n, rest) := by
      rcases Nat.eq_zero_or_pos n with rfl | hpos
      · have hzero : readFraction false ['0'] rest = .ok (.int 0, rest) :=
          readFraction_stops h (wholeNumber_nat (n := 0) (by decide))
        cases rest with
        | nil => exact hzero
        | cons c t =>
          show readUnsigned false ('0' :: c :: t) = _
          simpa [readUnsigned, (h c t rfl).1] using hzero
      · exact readUnsigned_digits hpos h (wholeNumber_nat hlt)
    obtain ⟨c, t, hdigits⟩ := List.exists_cons_of_ne_nil (Nat.toDigits_ne_nil (n := n) (b := 10))
    have hdigit : c.isDigit = true :=
      Nat.isDigit_of_mem_toDigits (b := 10) (n := n) (by decide) (by decide)
        (by rw [hdigits]; exact List.mem_cons_self)
    show readScalar (Nat.toDigits 10 n ++ rest) = _
    rw [hdigits, List.cons_append] at hread ⊢
    rw [readScalar_digit hdigit, hread]
    rfl
  · have hle : n + 1 ≤ Decimal.wordBound / 2 := by
      have := hn.1
      rw [Decimal.wordBound]
      omega
    show (readUnsigned true (Nat.toDigits 10 (n + 1) ++ rest)).map _ = _
    rw [readUnsigned_digits (Nat.succ_pos n) h (wholeNumber_neg (Nat.succ_pos n) hle)]
    rfl
  · exact hn.elim

/-! ### Strings -/

theorem bytes_cons (c : Char) (s : List Char) : bytes (c :: s) = c.utf8Size + bytes s := by
  suffices h : ∀ (s : List Char) n, s.foldl (fun n c => n + c.utf8Size) n = n + bytes s by
    rw [bytes, List.foldl_cons, h]
    simp
  intro s
  induction s with
  | nil => intro n; rfl
  | cons c s ih =>
    intro n
    rw [bytes, List.foldl_cons, List.foldl_cons, ih, ih]
    omega

theorem hexValue_hexDigit : ∀ n < 16, hexValue? (hexDigit n) = some n := by decide

/-- A control character is written by its number. -/
theorem readHex_control {c : Char} (h : c.toNat < 32) (r : List Char) :
    readHex ('0' :: '0' :: hexDigit (c.toNat / 16) :: hexDigit (c.toNat % 16) :: r) = .ok (c.toNat, r) := by
  have hzero : hexValue? '0' = some 0 := by decide
  have hlong : ¬bytes ('0' :: '0' :: hexDigit (c.toNat / 16) :: hexDigit (c.toNat % 16) :: r) < 4 := by
    simp only [bytes_cons]
    have h₁ := Char.utf8Size_pos '0'
    have h₂ := Char.utf8Size_pos (hexDigit (c.toNat / 16))
    have h₃ := Char.utf8Size_pos (hexDigit (c.toNat % 16))
    omega
  have hvalue : ((0 * 16 + 0) * 16 + c.toNat / 16) * 16 + c.toNat % 16 = c.toNat := by omega
  rw [readHex, if_neg hlong]
  simp only [hzero, hexValue_hexDigit _ (show c.toNat / 16 < 16 by omega),
    hexValue_hexDigit _ (show c.toNat % 16 < 16 by omega), hvalue]

theorem readChar_escape (c : Char) (r : List Char) : readChar (escape c ++ r) = .ok (some c, r) := by
  unfold escape
  iterate 7
    split
    · subst_vars; rfl
  split
  · rename_i hcontrol
    have hread := readHex_control hcontrol r
    have hlow : ¬(0xdc00 ≤ c.toNat ∧ c.toNat ≤ 0xdfff) := by omega
    have hhigh : ¬(0xd800 ≤ c.toNat ∧ c.toNat ≤ 0xdbff) := by omega
    have hunicode : readUnicode ('0' :: '0' :: hexDigit (c.toNat / 16) :: hexDigit (c.toNat % 16) :: r) =
        .ok (c, r) := by
      simp only [readUnicode, hread, bind, Except.bind, Bool.and_eq_true, decide_eq_true_eq, hlow, hhigh,
        if_false, Char.ofNat_toNat]
      rfl
    simp only [List.cons_append, List.nil_append, readChar, hunicode]
    rfl
  · rename_i hquote hback _ _ _ _ _ hprintable
    show readChar (c :: r) = _
    rw [readChar.eq_def]
    split <;> rename_i heq
    · cases heq
    · cases heq; exact absurd rfl hquote
    · cases heq; exact absurd rfl hback
    · cases heq; exact absurd rfl hback
    · cases heq; exact absurd rfl hback
    · cases heq; rw [if_neg hprintable]

theorem readChars_escaped (rest : List Char) : ∀ (cs : List Char) (fuel : Nat), cs.length < fuel →
    readChars fuel (cs.flatMap escape ++ '"' :: rest) = .ok (cs, rest) := by
  intro cs
  induction cs with
  | nil =>
    intro fuel hfuel
    obtain ⟨fuel, rfl⟩ := Nat.exists_eq_add_of_lt hfuel
    rfl
  | cons c cs ih =>
    intro fuel hfuel
    obtain ⟨fuel, rfl⟩ : ∃ n, fuel = n + 1 := ⟨fuel - 1, by omega⟩
    have hrest := ih fuel (by simpa using hfuel)
    simp only [List.flatMap_cons, List.append_assoc, readChars, readChar_escape, hrest]
    rfl

theorem length_le_escaped (cs : List Char) : cs.length ≤ (cs.flatMap escape).length := by
  induction cs with
  | nil => simp
  | cons c cs ih =>
    have hone : 1 ≤ (escape c).length := by
      unfold escape
      repeat' split
      all_goals simp
    simp only [List.flatMap_cons, List.length_append, List.length_cons]
    omega

/-- A string reads back from behind its opening quote. -/
theorem readString_quoted (s : String) (rest : List Char) :
    readString (s.toList.flatMap escape ++ '"' :: rest) = .ok (s, rest) := by
  have hlong := length_le_escaped s.toList
  rw [readString, readChars_escaped]
  · simp [Except.map]
  · simp only [List.length_append, List.length_cons]
    omega

theorem quote_append (s : String) (rest : List Char) :
    quote s ++ rest = '"' :: (s.toList.flatMap escape ++ '"' :: rest) := by
  simp [quote]

/-! ### Containers -/

section
variable {α : Type} {item : Reader α} {f : α → Json}

/-- Data that is written as a value reads back. -/
def ReadsBack (item : Reader α) (f : α → Json) (a : α) : Prop :=
  (∃ c t, (f a).chars = c :: t ∧ Opens c) ∧
    ∀ rest, Stops rest → item ((f a).chars ++ rest) = .ok (a, rest)

theorem nextItem_first {c : Char} (t : List Char) (h : Opens c) : nextItem true (c :: t) = .ok (true, c :: t) := by
  rw [nextItem, skipSpace_cons t h.space]
  split <;> rename_i heq
  · cases heq
  · cases heq; exact absurd rfl h.bracket
  · cases heq; exact absurd rfl h.comma
  · rfl

theorem nextItem_next {c : Char} (t : List Char) (h : Opens c) :
    nextItem false (',' :: c :: t) = .ok (true, c :: t) := by
  rw [nextItem, skipSpace_cons _ (by decide)]
  simp only [Bool.false_eq_true, if_false, skipSpace_cons t h.space]
  split <;> rename_i heq
  · cases heq
  · cases heq; exact absurd rfl h.bracket
  · rfl

/-- The items behind an item. -/
theorem readItems_itemChars (rest : List Char) : ∀ (as : List α) (fuel : Nat),
    (∀ a ∈ as, ReadsBack item f a) → as.length < fuel →
    readItems item fuel false (itemChars (as.map f) ++ rest) = .ok (as, rest) := by
  intro as
  induction as with
  | nil =>
    intro fuel _ hfuel
    obtain ⟨fuel, rfl⟩ := Nat.exists_eq_add_of_lt hfuel
    rfl
  | cons a as ih =>
    intro fuel hback hfuel
    obtain ⟨fuel, rfl⟩ : ∃ n, fuel = n + 1 := ⟨fuel - 1, by omega⟩
    obtain ⟨⟨c, t, hchars, hopens⟩, hread⟩ := hback a List.mem_cons_self
    have hitem := hread _ (stops_itemChars (as.map f) rest)
    have hrest := ih fuel (fun a ha => hback a (List.mem_cons_of_mem _ ha)) (by simpa using hfuel)
    rw [hchars, List.cons_append] at hitem
    simp only [List.map_cons, itemChars, List.cons_append, List.append_assoc, hchars, readItems,
      nextItem_next _ hopens, hitem, hrest]
    rfl

/-- What follows an item is as long as there are items in it, at least. -/
theorem length_le_itemChars (l : List Json) : l.length < (itemChars l).length := by
  induction l with
  | nil => decide
  | cons v l ih =>
    simp only [itemChars, List.length_cons, List.length_append]
    omega

/-- A list reads back from behind its opening bracket. -/
theorem readList_chars {as : List α} {s : List Char} (hs : (Json.arr (as.map f)).chars = '[' :: s)
    (hback : ∀ a ∈ as, ReadsBack item f a) (rest : List Char) : readList item (s ++ rest) = .ok (as, rest) := by
  cases as with
  | nil =>
    cases hs
    rfl
  | cons a as =>
    obtain ⟨⟨c, t, hchars, hopens⟩, hread⟩ := hback a List.mem_cons_self
    have hitem := hread _ (stops_itemChars (as.map f) rest)
    have hlong := length_le_itemChars (as.map f)
    have hrest := fun fuel => readItems_itemChars rest as fuel fun a ha => hback a (List.mem_cons_of_mem _ ha)
    simp only [List.map_cons, chars, List.cons.injEq, true_and] at hs
    subst hs
    rw [List.length_map] at hlong
    rw [hchars, List.cons_append] at hitem
    rw [readList, hchars, List.cons_append, List.cons_append, List.append_assoc, readItems,
      nextItem_first _ hopens]
    simp only [hitem]
    rw [hrest]
    · rfl
    · simp only [List.length_cons, List.length_append]
      omega

theorem nextKey_first (k : String) (rest : List Char) :
    nextKey true (quote k ++ rest) = .ok (some k, rest) := by
  rw [quote_append, nextKey, skipSpace_cons _ (by decide)]
  simp only [if_true, readString_quoted]
  rfl

theorem nextKey_next (k : String) (rest : List Char) :
    nextKey false (',' :: (quote k ++ rest)) = .ok (some k, rest) := by
  rw [quote_append, nextKey, skipSpace_cons _ (by decide)]
  split <;> rename_i heq <;> cases heq
  simp only [Bool.false_eq_true, if_false, if_true]
  rw [skipSpace_cons _ (by decide)]
  simp only [readString_quoted]
  rfl

theorem readColon_cons (rest : List Char) : readColon (':' :: rest) = .ok rest := rfl

/-- The entries behind an entry. -/
theorem readEntries_fieldChars (rest : List Char) : ∀ (es : List (String × α)) (fuel : Nat),
    (∀ e ∈ es, ReadsBack item f e.2) → es.length < fuel →
    readEntries item fuel false (fieldChars (es.map fun e => (e.1, f e.2)) ++ rest) = .ok (es, rest) := by
  intro es
  induction es with
  | nil =>
    intro fuel _ hfuel
    obtain ⟨fuel, rfl⟩ := Nat.exists_eq_add_of_lt hfuel
    rfl
  | cons e es ih =>
    intro fuel hback hfuel
    obtain ⟨fuel, rfl⟩ : ∃ n, fuel = n + 1 := ⟨fuel - 1, by omega⟩
    have hitem := (hback e List.mem_cons_self).2 _ (stops_fieldChars (es.map fun e => (e.1, f e.2)) rest)
    have hrest := ih fuel (fun a ha => hback a (List.mem_cons_of_mem _ ha)) (by simpa using hfuel)
    simp only [List.map_cons, fieldChars, List.cons_append, List.append_assoc, readEntries, nextKey_next,
      readColon_cons, hitem, hrest]
    rfl

theorem length_le_fieldChars (e : List (String × Json)) : e.length < (fieldChars e).length := by
  induction e with
  | nil => decide
  | cons x e ih =>
    obtain ⟨k, v⟩ := x
    simp only [fieldChars, List.length_cons, List.length_append]
    omega

/-- A table reads back from behind its opening brace. -/
theorem readTable_chars {es : Table α} {s : List Char}
    (hs : (Json.obj (es.map fun e => (e.1, f e.2))).chars = '\x7b' :: s) (hsorted : Table.Sorted es)
    (hback : ∀ e ∈ es, ReadsBack item f e.2) (rest : List Char) :
    readTable item (s ++ rest) = .ok (es, rest) := by
  suffices h : readEntries item ((s ++ rest).length + 1) true (s ++ rest) = .ok (es, rest) by
    rw [readTable, h]
    simp [Except.map, hsorted.ofList_eq]
  cases es with
  | nil =>
    cases hs
    rfl
  | cons e es =>
    have hitem := (hback e List.mem_cons_self).2 _ (stops_fieldChars (es.map fun e => (e.1, f e.2)) rest)
    have hlong := length_le_fieldChars (es.map fun e => (e.1, f e.2))
    have hrest := fun fuel => readEntries_fieldChars rest es fuel fun e he =>
      hback e (List.mem_cons_of_mem _ he)
    simp only [List.map_cons, chars, List.cons.injEq, true_and] at hs
    subst hs
    rw [List.length_map] at hlong
    simp only [List.append_assoc, List.cons_append, readEntries, nextKey_first, readColon_cons, hitem]
    rw [hrest]
    · rfl
    · simp only [List.length_cons, List.length_append]
      omega

end

/-! ### Values -/

theorem plain_of_mem {l : List Json} (h : PlainItems l) : ∀ v ∈ l, v.Plain ∧ v.depth ≤ itemsDepth l := by
  induction l with
  | nil => intro v hv; cases hv
  | cons w l ih =>
    intro v hv
    rcases List.mem_cons.1 hv with rfl | hv
    · exact ⟨h.1, Nat.le_max_left ..⟩
    · obtain ⟨hplain, hdepth⟩ := ih h.2 v hv
      exact ⟨hplain, Nat.le_trans hdepth (Nat.le_max_right ..)⟩

theorem plain_of_mem_fields {e : List (String × Json)} (h : PlainFields e) :
    ∀ x ∈ e, x.2.Plain ∧ x.2.depth ≤ fieldsDepth e := by
  induction e with
  | nil => intro x hx; cases hx
  | cons y e ih =>
    obtain ⟨k, w⟩ := y
    intro x hx
    rcases List.mem_cons.1 hx with rfl | hx
    · exact ⟨h.1, Nat.le_max_left ..⟩
    · obtain ⟨hplain, hdepth⟩ := ih h.2 x hx
      exact ⟨hplain, Nat.le_trans hdepth (Nat.le_max_right ..)⟩

/-- A value that is no container is read as a scalar. -/
theorem readValue_scalar {c : Char} (d : Nat) (t : List Char) (hc : Opens c) (hlist : c ≠ '[')
    (hobject : c ≠ '\x7b') : readValue d (c :: t) = readScalar (c :: t) := by
  rw [readValue.eq_def, skipSpace_cons t hc.space]
  split <;> rename_i heq
  · cases heq; exact absurd rfl hlist
  · cases heq; exact absurd rfl hobject
  · rfl

theorem readValue_number (d : Nat) {n : Number} {rest : List Char} (hn : n.Whole) (h : Stops rest) :
    readValue d (number n ++ rest) = .ok (.num n, rest) := by
  have hread := readScalar_number hn h
  obtain ⟨c, t, hchars, hopens⟩ := number_head hn
  rw [hchars, List.cons_append] at hread ⊢
  rw [readValue_scalar d _ hopens, hread]
  · rintro rfl
    cases hread
  · rintro rfl
    cases hread

theorem readsBack_items {d : Nat} (h : ∀ v : Json, v.Plain → v.depth ≤ d → ∀ rest, Stops rest →
    readValue d (v.chars ++ rest) = .ok (v, rest)) {v : Json} (hv : v.Plain) (hd : v.depth ≤ d) :
    ReadsBack (readValue d) id v :=
  ⟨chars_head hv, h v hv hd⟩

theorem readValue_leaf (d : Nat) {v : Json} (hv : v.Plain) (hd : v.depth = 0) {rest : List Char}
    (h : Stops rest) : readValue d (v.chars ++ rest) = .ok (v, rest) := by
  cases v with
  | null => cases d <;> rfl
  | bool b => cases b <;> cases d <;> rfl
  | num n => exact readValue_number d hv h
  | str s =>
    rw [chars, quote_append, readValue_scalar d _ (by constructor <;> decide) (by decide) (by decide)]
    simp [readScalar, readString_quoted, Except.map]
  | arr l | obj e => simp [depth] at hd

/-- The text of a value reads back, whatever follows it. -/
theorem readValue_chars : ∀ (d : Nat) (v : Json), v.Plain → v.depth ≤ d → ∀ rest, Stops rest →
    readValue d (v.chars ++ rest) = .ok (v, rest) := by
  intro d
  induction d with
  | zero =>
    intro v hv hd rest hrest
    exact readValue_leaf 0 hv (Nat.le_zero.1 hd) hrest
  | succ d ih =>
    intro v hv hd rest hrest
    cases v with
    | null | bool _ | num _ | str _ => exact readValue_leaf _ hv rfl hrest
    | arr l =>
      obtain ⟨s, hs⟩ : ∃ s, (Json.arr l).chars = '[' :: s := by cases l <;> exact ⟨_, rfl⟩
      have hback : ∀ v ∈ l, ReadsBack (readValue d) id v := by
        intro v hmem
        obtain ⟨hplain, hdepth⟩ := plain_of_mem hv v hmem
        exact readsBack_items ih hplain (Nat.le_trans hdepth (Nat.le_of_succ_le_succ hd))
      rw [hs, List.cons_append, readValue, skipSpace_cons _ (by decide)]
      simp only [readList_chars (f := id) (by rw [List.map_id]; exact hs) hback]
      rfl
    | obj e =>
      obtain ⟨s, hs⟩ : ∃ s, (Json.obj e).chars = '\x7b' :: s := by
        obtain - | ⟨⟨k, v⟩, e⟩ := e <;> exact ⟨_, rfl⟩
      have hback : ∀ x ∈ e, ReadsBack (readValue d) id x.2 := by
        intro x hmem
        obtain ⟨hplain, hdepth⟩ := plain_of_mem_fields hv.2 x hmem
        exact readsBack_items ih hplain (Nat.le_trans hdepth (Nat.le_of_succ_le_succ hd))
      rw [hs, List.cons_append, readValue, skipSpace_cons _ (by decide)]
      simp only [readTable_chars (f := id) (by simpa using hs) hv.1 hback]
      rfl

/-- A text that begins with what a reader reads, and ends there. -/
theorem readAll_of_read {α : Type} {read : Reader α} {a : α} {text : String}
    (h : read text.toList = .ok (a, [])) : readAll read text = .ok a := by
  rw [readAll, h]
  rfl

theorem read_of_readAll {α : Type} {read : Reader α} {text : String} {a : α}
    (h : readAll read text = .ok a) : ∃ rest, read text.toList = .ok (a, rest) := by
  rw [readAll] at h
  split at h
  · cases h
  · split at h <;> cases h
    exact ⟨_, ‹_›⟩

/-- The compact text of a value is the text of that value. -/
theorem parse_compact {v : Json} (hv : v.Plain) (hd : v.depth ≤ maxDepth) : parse v.compact = .ok v := by
  refine readAll_of_read ?_
  have hread := readValue_chars maxDepth v hv hd [] stops_nil
  rw [List.append_nil] at hread
  simpa [compact] using hread

mutual

/-- A value is the same as itself. -/
theorem same_refl : ∀ v : Json, v.same v = true
  | .null => rfl
  | .bool b => by simp [same]
  | .num n => n.same_refl
  | .str s => by simp [same]
  | .arr l => sameItems_refl l
  | .obj e => sameFields_refl e

theorem sameItems_refl : ∀ l : List Json, sameItems l l = true
  | [] => rfl
  | v :: l => by simp [sameItems, same_refl v, sameItems_refl l]

theorem sameFields_refl : ∀ e : List (String × Json), sameFields e e = true
  | [] => rfl
  | (k, v) :: e => by simp [sameFields, same_refl v, sameFields_refl e]

end

end Json
end SessionPool
