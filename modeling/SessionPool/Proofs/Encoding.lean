import Mathlib.Data.List.Basic

/-! Texts as bytes. The bytes of a text are those of its characters, one after the other; a newline byte
    stands for the newline character alone, and texts compare by their bytes as they do by their
    characters. -/

namespace SessionPool.Text

/-- The bytes of a text. -/
def octets (s : String) : List UInt8 := s.toUTF8.data.toList

/-- The byte that ends a line. -/
def newline : UInt8 := 10

theorem octets_eq (s : String) : octets s = s.toList.flatMap String.utf8EncodeChar := by
  obtain ⟨l, rfl⟩ : ∃ l, s = String.ofList l := ⟨s.toList, by simp⟩
  simp [octets, String.toUTF8, List.utf8Encode]

theorem octets_ofList (l : List Char) : octets (String.ofList l) = l.flatMap String.utf8EncodeChar := by
  simp [octets_eq]

theorem val_lt (c : Char) : c.val.toNat < 0x110000 := by
  have hvalid := c.valid
  simp only [UInt32.isValidChar, Nat.isValidChar] at hvalid
  omega

/-- No character but the newline has its byte. -/
theorem eq_newline {c : Char} (h : newline ∈ String.utf8EncodeChar c) : c = '\n' := by
  have hc := val_lt c
  have hten : newline.toNat = 10 := rfl
  suffices hval : c.val.toNat = 10 from Char.ext (UInt32.toNat_inj.1 hval)
  revert h
  unfold String.utf8EncodeChar
  simp only
  repeat' split
  all_goals
    simp only [List.mem_cons, List.not_mem_nil, ← UInt8.toNat_inj, UInt8.toNat_ofNat', or_false]
    omega

theorem newline_notMem {l : List Char} (h : '\n' ∉ l) : newline ∉ octets (String.ofList l) := by
  rw [octets_ofList]
  intro hmem
  obtain ⟨c, hc, hbyte⟩ := List.mem_flatMap.1 hmem
  exact h (eq_newline hbyte ▸ hc)

/-! ### The order of texts -/

/-- A smaller byte decides, and equal bytes leave it to the others. -/
theorem byte_lt {m n : Nat} {s t : List UInt8} (hn : n < 256) (h : m < n ∨ m = n ∧ s < t) :
    UInt8.ofNat m :: s < UInt8.ofNat n :: t := by
  rw [List.cons_lt_cons_iff, UInt8.lt_iff_toNat_lt, ← UInt8.toNat_inj]
  simp only [UInt8.toNat_ofNat']
  rcases h with h | ⟨rfl, h⟩
  · left
    omega
  · exact .inr ⟨rfl, h⟩

/-- The next six bits of two characters that agree in all bits above. -/
theorem tail_lt {x y : Nat} {s t : List UInt8} (hq : x / 64 = y / 64) (h : x < y ∨ x = y ∧ s < t) :
    UInt8.ofNat (x % 64 + 128) :: s < UInt8.ofNat (y % 64 + 128) :: t := by
  refine byte_lt (by omega) ?_
  rcases h with h | ⟨rfl, h⟩
  · left
    omega
  · exact .inr ⟨rfl, h⟩

/-- The bytes of characters compare as the characters do, whatever follows. -/
theorem encoded_lt {c d : Char} (h : c < d) (s t : List UInt8) :
    String.utf8EncodeChar c ++ s < String.utf8EncodeChar d ++ t := by
  have hlt : c.val.toNat < d.val.toNat := h
  have hd := val_lt d
  unfold String.utf8EncodeChar
  generalize c.val.toNat = m at *
  generalize d.val.toNat = n at *
  have h₁ : m / 64 < n / 64 ∨ m / 64 = n / 64 := by omega
  have h₂ : m / 4096 < n / 4096 ∨ m / 4096 = n / 4096 := by omega
  have h₃ : m / 262144 < n / 262144 ∨ m / 262144 = n / 262144 := by omega
  simp only
  -- a character with more bytes begins with a greater byte; of equal lengths the bits are compared
  split
  · split
    · exact byte_lt (by omega) (.inl hlt)
    · repeat' split
      all_goals exact byte_lt (by omega) (.inl (by omega))
  split
  · rw [if_neg (by omega)]
    split
    · exact byte_lt (by omega) (h₁.imp (by omega) fun he₁ => ⟨by omega, tail_lt he₁ (.inl hlt)⟩)
    · split <;> exact byte_lt (by omega) (.inl (by omega))
  split
  · rw [if_neg (by omega), if_neg (by omega)]
    split
    · refine byte_lt (by omega) (h₂.imp (by omega) fun he₂ => ⟨by omega, tail_lt (by omega) ?_⟩)
      exact h₁.imp id fun he₁ => ⟨he₁, tail_lt he₁ (.inl hlt)⟩
    · exact byte_lt (by omega) (.inl (by omega))
  · rw [if_neg (by omega), if_neg (by omega), if_neg (by omega)]
    refine byte_lt (by omega) (h₃.imp (by omega) fun he₃ => ⟨by omega, tail_lt (by omega) ?_⟩)
    refine h₂.imp id fun he₂ => ⟨he₂, tail_lt (by omega) ?_⟩
    exact h₁.imp id fun he₁ => ⟨he₁, tail_lt he₁ (.inl hlt)⟩

theorem flatMap_lt {s t : List Char} (h : s < t) :
    s.flatMap String.utf8EncodeChar < t.flatMap String.utf8EncodeChar := by
  induction s generalizing t with
  | nil =>
    cases t with
    | nil => exact absurd h (List.lt_irrefl _)
    | cons d t =>
      obtain ⟨b, u, hb⟩ := List.exists_cons_of_ne_nil (String.utf8EncodeChar_ne_nil (c := d))
      rw [List.flatMap_cons, hb]
      exact List.nil_lt_cons _ _
  | cons c s ih =>
    cases t with
    | nil => exact absurd h (List.not_lt_nil _)
    | cons d t =>
      rw [List.flatMap_cons, List.flatMap_cons]
      rcases List.cons_lt_cons_iff.1 h with hlt | ⟨rfl, hlt⟩
      · exact encoded_lt hlt _ _
      · exact List.append_left_lt (ih hlt)

/-- Texts in the order of their characters are in the order of their bytes. -/
theorem octets_lt {a b : String} (h : a < b) : octets a < octets b := by
  rw [octets_eq, octets_eq]
  exact flatMap_lt (String.lt_iff.1 h)

end SessionPool.Text
