import SessionPool.Proofs.History

/-! Turns: when work starts in the order in which it arrived, it has the session in that order. Jobs stand
    in line in the order of their tickets, so that a job comes in only when all earlier ones are through
    with the session but for the close of its client; the server is asked one thing at a time, and
    only by the earliest job that has something to ask. -/

namespace SessionPool

/-- Whether work is through with the session, but for the close of its client. -/
def Station.isOver {κ : Type} : Station κ → Bool
  | closing _ _ => true
  | ended _ => true
  | dead => true
  | _ => false

/-- Whether work has a client that is not closed yet. -/
def Station.hasClient {κ : Type} : Station κ → Bool
  | parting _ client => client.isSome
  | closing _ _ => true
  | _ => false

namespace Session
variable {κ : Type} {s : Session κ} {t u : Nat}

theorem mem_after_of_ne (m : Move κ) (hut : u ≠ t) (hu : u ∈ s.line) : u ∈ (s.after t m).line := by
  cases m with
  | lock =>
    simp only [after, lined]
    split
    · exact hu
    · exact List.mem_append_left _ hu
  | unlock => exact (List.mem_erase_of_ne hut).2 hu
  | _ => exact hu

theorem mem_lined (s : Session κ) (t : Nat) : t ∈ (s.lined t).line := by
  simp only [lined]
  split
  · rename_i h
    simpa using h
  · simp

theorem mem_hear_of_ne (word : Word κ) (hut : u ≠ t) (hu : u ∈ s.line) : u ∈ (s.hear t word).line := by
  unfold hear
  split
  · exact hu
  · exact hu
  · exact (List.mem_erase_of_ne hut).2 hu
  · exact hu

theorem mem_of_mem_after {m : Move κ} (hu : u ∈ (s.after t m).line) : u = t ∨ u ∈ s.line := by
  cases m with
  | lock =>
    simp only [after, lined] at hu
    split at hu
    · exact .inr hu
    · exact (List.mem_append.1 hu).symm.imp List.mem_singleton.1 fun h => h
  | unlock => exact .inr (List.mem_of_mem_erase hu)
  | _ => exact .inr hu

theorem mem_of_mem_hear {word : Word κ} (hu : u ∈ (s.hear t word).line) : u ∈ s.line := by
  unfold hear at hu
  split at hu
  · exact hu
  · exact hu
  · exact List.mem_of_mem_erase hu
  · exact hu

end Session

namespace Lane
variable {κ : Type} {marks : Prop} {id : String} {locator : Locator} {past later : List (Note κ)}
  {l l' : Lane κ} {e : Note κ} {t u : Nat} {w v w' : Work} {st st' : Station κ} {d : Doing κ}

/-- Work does nothing before all work that arrived before it has done something. -/
def InOrder (past : List (Note κ)) : Prop :=
  ∀ before u d after, past = before ++ .did u d :: after →
    ∀ t w, .arrived t w ∈ before → t < u → ∃ d', .did t d' ∈ before

theorem InOrder.of_append (h : InOrder (past ++ later)) : InOrder past := by
  intro before u d after hpast t w ht hlt
  exact h before u d (after ++ later) (by rw [hpast]; simp) t w ht hlt

/-- Whether work that goes on is never later than some of the idle work, which has done nothing yet. -/
def keepsOrder : List Nat → List (Note κ) → Bool
  | _, [] => true
  | idle, .arrived t _ :: rest => keepsOrder (t :: idle) rest
  | idle, .did u _ :: rest => idle.all (fun t => u ≤ t) && keepsOrder (idle.filter (· ≠ u)) rest

/-- The order can be checked note by note. -/
theorem inOrder_of_keepsOrder {idle : List Nat} (h : keepsOrder idle later = true)
    (hidle : ∀ t w, .arrived t w ∈ past → t ∈ idle ∨ ∃ d, .did t d ∈ past) (ho : InOrder past) :
    InOrder (past ++ later) := by
  induction later generalizing past idle with
  | nil => rwa [List.append_nil]
  | cons e later ih =>
    rw [List.append_cons]
    cases e with
    | arrived t w =>
      refine ih h (fun u v hu => ?_) fun before u d after hpast => ?_
      · rcases List.mem_append.1 hu with hu | hu
        · exact (hidle u v hu).imp (List.mem_cons_of_mem _) fun ⟨d, hd⟩ => ⟨d, List.mem_append_left _ hd⟩
        · cases List.mem_singleton.1 hu
          exact .inl (List.mem_cons_self ..)
      · -- The last is no doing, so what is split at a doing ends in it.
        rcases List.eq_nil_or_concat after with rfl | ⟨after, e, rfl⟩
        · have := List.append_inj_right' hpast rfl
          cases this
        · rw [List.concat_eq_append, ← List.cons_append, ← List.append_assoc] at hpast
          exact ho before u d after (List.append_inj_left' hpast rfl)
    | did u d =>
      rw [keepsOrder, Bool.and_eq_true, List.all_eq_true] at h
      refine ih h.2 (fun t w ht => ?_) fun before v d' after hpast t w ht hlt => ?_
      · have ht : .arrived t w ∈ past := (List.mem_append.1 ht).resolve_right (by simp)
        by_cases htu : t = u
        · exact .inr ⟨d, by simp [htu]⟩
        · rcases hidle t w ht with h' | ⟨d', hd'⟩
          · exact .inl (List.mem_filter.2 ⟨h', by simpa using htu⟩)
          · exact .inr ⟨d', List.mem_append_left _ hd'⟩
      · rcases List.eq_nil_or_concat after with rfl | ⟨after, e, rfl⟩
        · obtain ⟨rfl, he⟩ := List.append_inj' hpast rfl
          cases he
          rcases hidle t w ht with h' | hd'
          · exact absurd hlt (by simpa using h.1 t h')
          · exact hd'
        · rw [List.concat_eq_append, ← List.cons_append, ← List.append_assoc] at hpast
          exact ho before v d' after (List.append_inj_left' hpast rfl) t w ht hlt

theorem inOrder_of_check (h : keepsOrder [] past = true) : InOrder past := by
  have hnil : InOrder ([] : List (Note κ)) := fun before u d after hpast => by simp at hpast
  exact inOrder_of_keepsOrder h (fun t w ht => by cases ht) hnil

/-- Who is in line has done something. -/
theorem Run.started_of_line (run : Run marks id locator past l) (hu : u ∈ l.session.line) :
    ∃ d, .did u d ∈ past := by
  induction run with
  | refl => cases hu
  | @step past e l₁ l₂ run h ih =>
    have hold : u ∈ l₁.session.line → ∃ d, .did u d ∈ past ++ [e] := fun hu =>
      let ⟨d, hd⟩ := ih hu
      ⟨d, List.mem_append_left _ hd⟩
    have hnew : ∀ d, e = .did u d → ∃ d, .did u d ∈ past ++ [e] := fun d he =>
      ⟨d, List.mem_append_right _ (List.mem_singleton.2 he.symm)⟩
    cases h with
    | queue _ _ =>
      rcases Session.mem_of_mem_after (m := .lock) hu with rfl | hu
      · exact hnew _ rfl
      · exact hold hu
    | move _ _ _ _ =>
      rcases Session.mem_of_mem_after hu with rfl | hu
      · exact hnew _ rfl
      · exact hold hu
    | hear _ _ _ _ => exact hold (Session.mem_of_mem_hear hu)
    | arrive _ _ | send _ _ _ _ | yield _ _ => exact hold hu
  | mark _ _ ih => exact ih hu

/-- What has arrived before other work was there already at any time when the other was. -/
theorem Steps.units_of_lt (run : Steps marks l later l') (hu : l.units u = some (v, st))
    (ht : l'.units t = some (w, st')) (hlt : t < u) : ∃ st, l.units t = some (w, st) := by
  induction run generalizing st' with
  | refl => exact ⟨_, ht⟩
  | @step past e l₁ l₂ run h ih =>
    rcases h.units_cases ht with ⟨rfl, -, -⟩ | ⟨st₁, ht₁⟩
    · obtain ⟨st₁, hu₁⟩ := run.units_of_some hu
      cases h with
      | arrive _ hfresh => exact absurd (hfresh u _ hu₁) (Nat.lt_asymm hlt)
    · exact ih ht₁
  | mark _ _ ih => exact ih ht

theorem Run.started_of_lt (run : Run marks id locator past l) (ho : InOrder past) (hd : .did u d ∈ past)
    (ht : l.units t = some (w, st)) (hlt : t < u) : ∃ d', .did t d' ∈ past := by
  obtain ⟨before, after, rfl⟩ := List.append_of_mem hd
  obtain ⟨l₁, l₂, run₁, h, run₂⟩ := Steps.split_step run
  obtain ⟨v, st₁, hu⟩ := h.units_of_did
  obtain ⟨st₂, hu₂⟩ := h.units_of_some hu
  obtain ⟨st₃, ht₂⟩ := run₂.units_of_lt hu₂ ht hlt
  have ht₁ : ∃ st, l₁.units t = some (w, st) := by
    rcases h.units_cases ht₂ with ⟨he, -, -⟩ | ht₁
    · cases he
    · exact ht₁
  obtain ⟨d', hd'⟩ := ho before u d after rfl t w ((Run.arrived_iff run₁).2 ht₁) hlt
  exact ⟨d', List.mem_append_left _ hd'⟩

/-- Work that waits and has done something stands in line. -/
theorem Run.line_of_waiting (run : Run marks id locator past l) (hu : l.units u = some (v, .waiting w'))
    (hd : .did u d ∈ past) : u ∈ l.session.line := by
  induction run with
  | refl => cases hd
  | @step past e l₁ l₂ run h ih =>
    rcases List.mem_append.1 hd with hpast | he
    · have hthere := Run.units_of_past run hpast
      cases h with
      | arrive _ ht =>
        rcases put_cases hu with ⟨rfl, -, -⟩ | ⟨-, hu⟩
        · obtain ⟨w, st, h₁⟩ := hthere
          rw [units_of_arrive ht] at h₁
          cases h₁
        · exact ih hu hpast
      | @queue t _ _ _ _ =>
        by_cases hut : u = t
        · exact hut ▸ Session.mem_lined ..
        · exact Session.mem_after_of_ne .lock hut (ih hu hpast)
      | @move t _ _ m _ _ hm _ _ =>
        rcases put_cases hu with ⟨-, -, hst⟩ | ⟨hut, hu⟩
        · exact absurd hst.symm (Station.after_ne_waiting hm _ w')
        · exact Session.mem_after_of_ne m hut (ih hu hpast)
      | @hear t _ _ _ word _ hm _ _ =>
        rcases put_cases hu with ⟨-, -, hst⟩ | ⟨hut, hu⟩
        · exact absurd hst.symm (Station.heard_ne_waiting hm _ w')
        · exact Session.mem_hear_of_ne word hut (ih hu hpast)
      | send _ _ _ _ | yield _ _ => exact ih hu hpast
    · -- The first that it does is to stand in line.
      rw [List.mem_singleton] at he
      subst he
      obtain rfl := Run.of_waiting (.step run h) hu hd
      cases h with
      | queue _ _ => exact Session.mem_lined ..
  | mark _ _ ih => exact ih hu hd

/-- Who joins the line comes behind all that are in it. -/
theorem Run.lt_of_join (run : Run marks id locator past l) (ho : InOrder past)
    (ht : l.units t = some (w, .waiting w')) (hnot : t ∉ l.session.line) (hu : u ∈ l.session.line) :
    u < t := by
  rcases Nat.lt_trichotomy u t with hlt | rfl | hlt
  · exact hlt
  · exact absurd hu hnot
  · obtain ⟨d, hd⟩ := Run.started_of_line run hu
    obtain ⟨d', hd'⟩ := Run.started_of_lt run ho hd ht hlt
    exact absurd (Run.line_of_waiting run ht hd') hnot

/-- The line is in the order of tickets. -/
theorem Run.line_sorted (run : Run marks id locator past l) (ho : InOrder past) :
    l.session.line.Pairwise (· < ·) := by
  induction run with
  | refl => exact .nil
  | @step past e l₁ l₂ run h ih =>
    have hsorted := ih ho.of_append
    have hjoin : ∀ {t w w'}, l₁.units t = some (w, .waiting w') →
        (l₁.session.lined t).line.Pairwise (· < ·) := by
      intro t w w' ht
      simp only [Session.lined]
      split
      · exact hsorted
      · rename_i hnot
        refine List.pairwise_append.2 ⟨hsorted, List.pairwise_singleton _ _, fun a ha b hb => ?_⟩
        rw [List.mem_singleton.1 hb]
        exact Run.lt_of_join run ho.of_append ht (by simpa using hnot) ha
    cases h with
    | queue ht _ => exact hjoin ht
    | @move t w st m reply ht hm _ _ =>
      cases m with
      | lock =>
        obtain ⟨w', rfl⟩ := Station.waiting_of_lock hm
        exact hjoin ht
      | unlock => exact hsorted.sublist List.erase_sublist
      | _ => exact hsorted
    | hear _ _ _ _ =>
      show (Session.hear _ _ _).line.Pairwise _
      unfold Session.hear
      split
      · exact hsorted
      · exact hsorted
      · exact hsorted.sublist List.erase_sublist
      · exact hsorted
    | arrive _ _ | send _ _ _ _ | yield _ _ => exact hsorted
  | mark _ _ ih => exact ih ho

/-! ### One after the other -/

/-- Work that is first in line has no earlier work before it that is not over. -/
theorem Run.over_of_first (run : Run marks id locator past l) (ho : InOrder (past ++ .did u d :: later))
    (hu : l.units u = some (v, .waiting w')) (hhead : (l.session.lined u).line.head? = some u)
    (ht : l.units t = some (w, st)) (hlt : t < u) : st.isOver = true := by
  have hfirst : ∀ x ∈ l.session.line, u ≤ x := by
    intro x hx
    have hsorted := Run.line_sorted run ho.of_append
    simp only [Session.lined] at hhead
    split at hhead
    · obtain ⟨rest, hline⟩ := List.head?_eq_some_iff.1 hhead
      rw [hline] at hx hsorted
      rcases List.mem_cons.1 hx with rfl | hx
      · exact Nat.le_refl _
      · exact Nat.le_of_lt ((List.pairwise_cons.1 hsorted).1 x hx)
    · rename_i hnot
      obtain ⟨y, hy⟩ : ∃ y, l.session.line.head? = some y :=
        Option.isSome_iff_exists.1 (by cases hline : l.session.line <;> simp_all)
      rw [List.head?_append, hy] at hhead
      cases hhead
      exact absurd (List.mem_of_mem_head? hy) (by simpa using hnot)
  -- Earlier work would stand in line, and in front.
  have hnot : t ∉ l.session.line := fun hx => absurd (hfirst t hx) (Nat.not_le.2 hlt)
  have hinside : st.isInside = false := by
    rw [Bool.eq_false_iff]
    exact fun hin => hnot (List.mem_of_mem_head? ((Run.sound run).queued.first _ _ _ ht hin))
  cases st with
  | waiting x =>
    obtain ⟨d', hd'⟩ := ho past u d later rfl t w ((Run.arrived_iff run).2 ⟨_, ht⟩) hlt
    exact absurd (Run.line_of_waiting run ht hd') hnot
  | closing _ _ | ended _ | dead => rfl
  | _ => cases hinside

/-- While work is not over all later work waits. -/
theorem Run.waiting_of_later (run : Run marks id locator past l) (ho : InOrder past)
    (ht : l.units t = some (w, st)) (hst : st.isOver = false) (hlt : t < u)
    (hu : l.units u = some (v, st')) : ∃ w', st' = .waiting w' := by
  induction run generalizing st st' with
  | refl => cases hu
  | @step past e l₁ l₂ run h ih =>
    have hprev := ho.of_append
    cases h with
    | arrive _ hfresh =>
      rcases put_cases hu with ⟨-, -, rfl⟩ | ⟨-, hu₁⟩
      · exact ⟨_, rfl⟩
      · rcases put_cases ht with ⟨rfl, -, -⟩ | ⟨-, ht₁⟩
        · exact absurd (hfresh u _ hu₁) (Nat.lt_asymm hlt)
        · exact ih hprev ht₁ hst hu₁
    | @move x y z m reply hx hm hown hline =>
      rcases put_cases ht with ⟨rfl, rfl, rfl⟩ | ⟨-, ht₁⟩
      · -- The earlier work moves, and was not over before either.
        have hz : z.isOver = false := by
          cases z with
          | closing _ _ => cases hm; cases hown
          | ended _ | dead => cases hm
          | _ => rfl
        rcases put_cases hu with ⟨rfl, -, -⟩ | ⟨-, hu₁⟩
        · exact absurd hlt (Nat.lt_irrefl _)
        · exact ih hprev hx hz hu₁
      · rcases put_cases hu with ⟨rfl, rfl, rfl⟩ | ⟨-, hu₁⟩
        · -- The later work would have to be first in line.
          obtain ⟨w', rfl⟩ := ih hprev ht₁ hst hx
          cases hm
          have := Run.over_of_first run ho hx (hline rfl) ht₁ hlt
          rw [hst] at this
          cases this
        · exact ih hprev ht₁ hst hu₁
    | @hear x y z m word hx hm _ hw =>
      rcases put_cases ht with ⟨rfl, rfl, rfl⟩ | ⟨-, ht₁⟩
      · have hz : z.isOver = false := by
          cases z with
          | closing _ _ =>
            cases hm
            cases word with
            | closed reply => cases reply <;> cases hst
            | _ => exact hw.elim
          | ended _ | dead => cases hm
          | _ => rfl
        rcases put_cases hu with ⟨rfl, -, -⟩ | ⟨-, hu₁⟩
        · exact absurd hlt (Nat.lt_irrefl _)
        · exact ih hprev hx hz hu₁
      · rcases put_cases hu with ⟨rfl, rfl, rfl⟩ | ⟨-, hu₁⟩
        · obtain ⟨w', rfl⟩ := ih hprev ht₁ hst hx
          cases hm
          exact hw.elim
        · exact ih hprev ht₁ hst hu₁
    | queue _ _ | send _ _ _ _ | yield _ _ => exact ih hprev ht hst hu
  | mark _ _ ih => exact ih ho ht hst hu

end Lane

/-! ### One question at a time -/

namespace Station
variable {κ : Type} {s : Session κ} {st : Station κ} {m : Move κ}

theorem closed_of_client (h : st.hasClient = true) (hk : st.Knows s) : s.closed = true := by
  cases st with
  | parting _ _ | closing _ _ => exact hk.2
  | _ => cases h

/-- Who moves within the pool is not over. -/
theorem not_over_of_own {reply : m.Reply} (hm : st.move = some m) (ho : m.own? s = some reply) :
    st.isOver = false := by
  cases st with
  | closing _ _ => cases hm; cases ho
  | ended _ | dead => cases hm
  | _ => rfl

/-- A client is had from the session, by whoever seals it. -/
theorem client_after {reply : m.Reply} (hm : st.move = some m) (ho : m.own? s = some reply)
    (h : (st.after m reply).hasClient = true) :
    st.hasClient = true ∨ (∃ i, st = sealing i) ∧ s.client.isSome = true := by
  cases st with
  | waiting w => cases hm; cases w <;> cases h
  | checking state extra check =>
    cases hm
    simp only [after] at h
    split at h <;> cases h
  | looking p =>
    cases hm
    simp only [after] at h
    split at h
    · cases h
    · split at h <;> cases h
  | logging p text =>
    cases hm
    cases p with
    | use operation args => cases h
    | load state extra check => cases check <;> cases h
    | echo state message =>
      simp only [after, served] at h
      split at h <;> cases h
  | sealing i => cases hm; cases ho; exact .inr ⟨⟨i, rfl⟩, h⟩
  | parting i client =>
    cases hm
    cases client with
    | none => cases h
    | some c => exact .inl rfl
  | marking _ | leaving _ | retiring => cases hm; cases h
  | connecting _ | calling _ | closing _ _ => cases hm; cases ho
  | ended _ | dead => cases hm

theorem client_heard (word : Word κ) (hm : st.move = some m) (hr : m.isRemote = true) :
    (st.heard m word).hasClient = false := by
  unfold heard
  split
  · rename_i reply hreply
    cases st with
    | connecting p | calling p | closing i c => cases hm; cases reply <;> rfl
    | ended _ | dead => cases hm
    | _ => cases hm; cases hr
  · rfl

end Station

/-- A word of the server, with the move that it answers and who made it. -/
def Note.answer? {κ : Type} : Note κ → Option (Nat × Move κ × Word κ)
  | .did t (.heard m word) => some (t, m, word)
  | _ => none

/-- The words of the server, in order. -/
def answers {κ : Type} (past : List (Note κ)) : List (Nat × Move κ × Word κ) :=
  past.filterMap Note.answer?

theorem answers_append {κ : Type} (past : List (Note κ)) (e : Note κ) :
    answers (past ++ [e]) = answers past ++ e.answer?.toList := by
  rw [answers, List.filterMap_append]
  cases h : e.answer? <;> simp [h, answers]

namespace Lane
variable {κ : Type} {marks : Prop} {id : String} {locator : Locator} {past later : List (Note κ)}
  {l l' : Lane κ} {e : Note κ} {t u : Nat} {w v w' : Work} {st st' : Station κ} {d : Doing κ}
  {m m' : Move κ}

/-- At most one job has the client of the session when it is closed. -/
theorem Run.one_client (run : Run marks id locator past l) (ht : l.units t = some (w, st))
    (hu : l.units u = some (v, st')) (hst : st.hasClient = true) (hst' : st'.hasClient = true) : t = u := by
  induction run generalizing t u w v st st' with
  | refl => cases ht
  | @step past e l₁ l₂ run h ih =>
    have hsound : l₁.Sound := Run.sound run
    cases h with
    | arrive _ _ =>
      rcases put_cases ht with ⟨-, -, rfl⟩ | ⟨-, ht₁⟩
      · cases hst
      rcases put_cases hu with ⟨-, -, rfl⟩ | ⟨-, hu₁⟩
      · cases hst'
      exact ih ht₁ hu₁ hst hst'
    | @move x y z m reply hx hm hown _ =>
      -- Whoever seals a session with a client is the first to have it.
      have hfirst : ∀ {a b c}, l₁.units a = some (b, c) → c.hasClient = true →
          (z.after m reply).hasClient = true → x = a := by
        intro a b c ha hc hz
        rcases Station.client_after hm hown hz with hz | ⟨-, hclient⟩
        · exact ih hx ha hz hc
        · rw [hsound.vacant (Station.closed_of_client hc (hsound.knows _ _ _ ha))] at hclient
          cases hclient
      rcases put_cases ht with ⟨rfl, rfl, rfl⟩ | ⟨-, ht₁⟩ <;>
        rcases put_cases hu with ⟨rfl, rfl, rfl⟩ | ⟨-, hu₁⟩
      · rfl
      · exact hfirst hu₁ hst' hst
      · exact (hfirst ht₁ hst hst').symm
      · exact ih ht₁ hu₁ hst hst'
    | @hear x y z m word hx hm _ hw =>
      have hnone := Station.client_heard word hm hw.isRemote
      rcases put_cases ht with ⟨rfl, rfl, rfl⟩ | ⟨-, ht₁⟩
      · rw [hnone] at hst; cases hst
      rcases put_cases hu with ⟨rfl, rfl, rfl⟩ | ⟨-, hu₁⟩
      · rw [hnone] at hst'; cases hst'
      exact ih ht₁ hu₁ hst hst'
    | queue _ _ | send _ _ _ _ | yield _ _ => exact ih ht hu hst hst'
  | mark _ _ ih => exact ih ht hu hst hst'

/-- At most one job has something to ask of the server. -/
theorem Run.one_asker (run : Run marks id locator past l) (ht : l.units t = some (w, st))
    (hu : l.units u = some (v, st')) (hm : st.move = some m) (hr : m.isRemote = true)
    (hm' : st'.move = some m') (hr' : m'.isRemote = true) : t = u := by
  have hsound : l.Sound := Run.sound run
  have hclosing : ∀ {x y z q}, l.units x = some (y, z) → z.move = some q → q.isRemote = true →
      z.isInside = false → z.hasClient = true := by
    intro x y z q _ hq hrq hout
    cases z with
    | closing _ _ => rfl
    | waiting _ => cases hq; cases hrq
    | ended _ | dead => cases hq
    | _ => cases hout
  cases hin : st.isInside with
  | true =>
    cases hin' : st'.isInside with
    | true => exact hsound.queued.eq_of_inside ht hin hu hin'
    | false =>
      have hopen := Station.open_of_remote (hsound.knows _ _ _ ht) hm hr hin
      have hclosed := Station.closed_of_client (hclosing hu hm' hr' hin') (hsound.knows _ _ _ hu)
      rw [hopen] at hclosed
      cases hclosed
  | false =>
    have hclient := hclosing ht hm hr hin
    cases hin' : st'.isInside with
    | true =>
      have hopen := Station.open_of_remote (hsound.knows _ _ _ hu) hm' hr' hin'
      have hclosed := Station.closed_of_client hclient (hsound.knows _ _ _ ht)
      rw [hopen] at hclosed
      cases hclosed
    | false => exact run.one_client ht hu hclient (hclosing hu hm' hr' hin')

/-- The request that waits for its answer, if there is one. -/
structure Flight (l : Lane κ) (flight : List (Nat × Move κ)) : Prop where
  short : flight.length ≤ 1
  flying : ∀ t m, (t, m) ∈ flight → l.flying t = true ∧ ∃ w st, l.units t = some (w, st) ∧ st.move = some m
  listed : ∀ t, l.flying t = true → ∃ m, (t, m) ∈ flight

/-- A job that is not up for an answer goes on by itself. -/
theorem Flight.of_ne {flight : List (Nat × Move κ)} (h : l.Flight flight) (hflying : l'.flying = l.flying)
    (hunits : ∀ u, l.flying u = true → l'.units u = l.units u) : l'.Flight flight := by
  refine ⟨h.short, fun u m hmem => ?_, fun u hu => h.listed u (by rw [← hflying]; exact hu)⟩
  obtain ⟨hf, v, st, hu, hst⟩ := h.flying u m hmem
  exact ⟨by rw [hflying]; exact hf, v, st, (hunits u hf).trans hu, hst⟩

/-- Whoever had an answer to come would be the one who asks now. -/
theorem Flight.nil_of_send {flight : List (Nat × Move κ)} (h : l.Flight flight)
    (run : Run marks id locator past l) (ht : l.units t = some (w, st)) (hm : st.move = some m)
    (hr : m.isRemote = true) (hf : l.flying t = false) : flight = [] := by
  cases flight with
  | nil => rfl
  | cons x rest =>
    obtain ⟨u, m'⟩ := x
    obtain ⟨hfu, -⟩ := h.flying u m' List.mem_cons_self
    obtain ⟨v, st', m'', hu, hm', hr'⟩ := (Run.sound run).flight u hfu
    obtain rfl := Run.one_asker run ht hu hm hr hm' hr'
    rw [hf] at hfu
    cases hfu

/-- The answer that comes is that to the request that waits. -/
theorem Flight.eq_of_hear {flight : List (Nat × Move κ)} (h : l.Flight flight)
    (ht : l.units t = some (w, st)) (hm : st.move = some m) (hf : l.flying t = true) :
    flight = [(t, m)] := by
  obtain ⟨m', hmem⟩ := h.listed t hf
  obtain ⟨-, w', st', ht', hm'⟩ := h.flying t m' hmem
  rw [ht, Option.some.injEq, Prod.mk.injEq] at ht'
  obtain ⟨rfl, rfl⟩ := ht'
  obtain rfl : m = m' := Option.some.inj (hm.symm.trans hm')
  have hshort := h.short
  match flight, hmem, hshort with
  | [x], hmem, _ => rw [List.mem_singleton.1 hmem]

/-- Each request is answered before the next one. -/
theorem Run.flight (run : Run marks id locator past l) :
    ∃ flight, l.Flight flight ∧ requests past = (answers past).map (fun a => (a.1, a.2.1)) ++ flight := by
  induction run with
  | refl => exact ⟨[], ⟨Nat.zero_le _, fun _ _ h => (nomatch h), fun _ h => (nomatch h)⟩, rfl⟩
  | @step past e l₁ l₂ run h ih =>
    obtain ⟨flight, hflight, heq⟩ := ih
    have hsound : l₁.Sound := Run.sound run
    suffices h : ∃ flight', l₂.Flight flight' ∧
        flight ++ e.request?.toList = e.answer?.toList.map (fun a => (a.1, a.2.1)) ++ flight' by
      obtain ⟨flight', hflight', heq'⟩ := h
      refine ⟨flight', hflight', ?_⟩
      rw [requests_append, answers_append, List.map_append, heq, List.append_assoc, heq',
        List.append_assoc]
    have hnone : flight ++ [] = [] ++ flight := List.append_nil _
    cases h with
    | @arrive t w _ ht =>
      refine ⟨flight, hflight.of_ne rfl fun u hu => put_of_ne _ ?_, hnone⟩
      rintro rfl
      obtain ⟨v, st, m, hunit, -⟩ := hsound.flight u hu
      rw [units_of_arrive ht] at hunit
      cases hunit
    | queue _ _ | yield _ _ => exact ⟨flight, hflight.of_ne rfl fun _ _ => rfl, hnone⟩
    | @move t w st m reply ht hm ho _ =>
      refine ⟨flight, hflight.of_ne rfl fun u hu => put_of_ne _ ?_, hnone⟩
      rintro rfl
      rw [hsound.not_flying ht hm (Move.isRemote_of_own ho)] at hu
      cases hu
    | @send t w st m ht hm hr hf =>
      obtain rfl := hflight.nil_of_send run ht hm hr hf
      refine ⟨[(t, m)], ⟨Nat.le_refl _, fun u m' hmem => ?_, fun u hu => ?_⟩, rfl⟩
      · cases List.mem_singleton.1 hmem
        exact ⟨Function.update_self .., w, st, ht, hm⟩
      · by_cases hut : u = t
        · exact ⟨m, hut ▸ List.mem_singleton_self _⟩
        · obtain ⟨m', hmem⟩ := hflight.listed u ((Function.update_of_ne hut ..).symm.trans hu)
          cases hmem
    | @hear t w st m word ht hm hf hw =>
      obtain rfl := hflight.eq_of_hear ht hm hf
      refine ⟨[], ⟨Nat.zero_le _, fun _ _ h => (nomatch h), fun u hu => ?_⟩, rfl⟩
      replace hu : Function.update l₁.flying t false u = true := hu
      by_cases hut : u = t
      · rw [hut, Function.update_self] at hu
        cases hu
      · obtain ⟨m', hmem⟩ := hflight.listed u ((Function.update_of_ne hut ..).symm.trans hu)
        cases List.mem_singleton.1 hmem
        exact absurd rfl hut
  | mark _ _ ih =>
    obtain ⟨flight, hflight, heq⟩ := ih
    exact ⟨flight, ⟨hflight.short, hflight.flying, hflight.listed⟩, heq⟩

end Lane

/-! ### Nothing after the close -/

/-- Whether a job goes on by what it does. -/
def Doing.isTurn {κ : Type} : Doing κ → Bool
  | moved _ => true
  | heard _ _ => true
  | _ => false

/-- Whether something is seen outside of the session: by the server, or in the log. -/
def Doing.isSeen {κ : Type} : Doing κ → Bool
  | sent _ => true
  | heard _ _ => true
  | moved (.record _ _ _) => true
  | _ => false

namespace Lane
variable {κ : Type} {marks : Prop} {id : String} {locator : Locator} {past later : List (Note κ)}
  {l l' : Lane κ} {e : Note κ} {t u : Nat} {w v w' : Work} {st st' : Station κ} {d : Doing κ}
  {m m' : Move κ}

/-- When work goes on all earlier work is over. -/
theorem Run.over_of_turn (run : Run marks id locator past l) (ho : InOrder (past ++ .did u d :: later))
    (h : Step l (.did u d) l') (hd : d.isTurn = true) (ht : l.units t = some (w, st)) (hlt : t < u) :
    st.isOver = true := by
  by_contra hst
  rw [Bool.not_eq_true] at hst
  cases h with
  | queue _ _ | send _ _ _ _ | yield _ _ => cases hd
  | move hu hm _ hline =>
    obtain ⟨w', rfl⟩ := run.waiting_of_later ho.of_append ht hst hlt hu
    cases hm
    have := run.over_of_first ho hu (hline rfl) ht hlt
    rw [hst] at this
    cases this
  | hear hu hm _ hw =>
    obtain ⟨w', rfl⟩ := run.waiting_of_later ho.of_append ht hst hlt hu
    cases hm
    exact hw.elim

/-- Once work closes the client nothing is seen of later work. -/
theorem Run.unseen_of_closing {i : String} {c : κ} (run : Run marks id locator past l) (ho : InOrder past)
    (ht : l.units t = some (w, .closing i c)) (hlt : t < u) (hd : .did u d ∈ past) : d.isSeen = false := by
  induction run with
  | refl => cases hd
  | @step past e l₁ l₂ run h ih =>
    have hsound : l₁.Sound := Run.sound run
    by_cases hold : l₁.units t = some (w, .closing i c)
    · rcases List.mem_append.1 hd with hd | hd
      · exact ih ho.of_append hold hd
      rw [List.mem_singleton] at hd
      subst hd
      cases h with
      | queue _ _ | yield _ _ => rfl
      | send hu hm hr _ => exact absurd (Run.one_asker run hold hu rfl rfl hm hr) (Nat.ne_of_lt hlt)
      | hear hu hm _ hw =>
        exact absurd (Run.one_asker run hold hu rfl rfl hm hw.isRemote) (Nat.ne_of_lt hlt)
      | @move _ _ z m _ hu hm _ _ =>
        cases m with
        | record _ _ _ =>
          -- Nothing is logged on a closed session.
          cases z with
          | logging p text =>
            have hopen : l₁.session.closed = false := (hsound.knows _ _ _ hu).1
            rw [(hsound.knows _ _ _ hold).2] at hopen
            cases hopen
          | _ => cases hm
        | _ => rfl
    · -- It has come there just now, and all later work waits.
      have hwaits : ∀ z, l₁.units t = some (w, z) → z.isOver = false → e ≠ .did u d → d.isSeen = false := by
        intro z hz hzo he
        have hpast : .did u d ∈ past := (List.mem_append.1 hd).resolve_right fun hd =>
          he (List.mem_singleton.1 hd).symm
        obtain ⟨v, st', hu⟩ := Run.units_of_past run hpast
        obtain ⟨w', rfl⟩ := Run.waiting_of_later run ho.of_append hz hzo hlt hu
        rw [Run.of_waiting run hu hpast]
        rfl
      cases h with
      | arrive _ _ =>
        rcases put_cases ht with ⟨-, -, hst⟩ | ⟨-, ht₁⟩
        · cases hst
        · exact absurd ht₁ hold
      | @move x y z m reply hx hm ho' _ =>
        rcases put_cases ht with ⟨rfl, rfl, -⟩ | ⟨-, ht₁⟩
        · refine hwaits z hx (Station.not_over_of_own hm ho') fun he => ?_
          cases he
          exact absurd hlt (Nat.lt_irrefl _)
        · exact absurd ht₁ hold
      | @hear x y z m word hx hm _ hw =>
        rcases put_cases ht with ⟨rfl, rfl, hst⟩ | ⟨-, ht₁⟩
        · have hnone := Station.client_heard word hm hw.isRemote
          rw [← hst] at hnone
          cases hnone
        · exact absurd ht₁ hold
      | queue _ _ | send _ _ _ _ | yield _ _ => exact absurd ht hold
  | mark _ _ ih => exact ih ho ht hd

/-- Who has something to ask has asked after all earlier work. -/
theorem Run.le_of_request (run : Run marks id locator past l) (ho : InOrder past)
    (ht : l.units t = some (w, st)) (hm : st.move = some m) (hu : (u, m') ∈ requests past) : u ≤ t := by
  by_contra hlt
  rw [Nat.not_le] at hlt
  have hd := mem_requests.1 hu
  cases hst : st.isOver with
  | false =>
    obtain ⟨v, st', hv⟩ := run.units_of_past hd
    obtain ⟨w', rfl⟩ := run.waiting_of_later ho ht hst hlt hv
    cases run.of_waiting hv hd
  | true =>
    cases st with
    | closing i c => cases run.unseen_of_closing ho ht hlt hd
    | ended _ | dead => cases hm
    | _ => cases hst

/-- The requests come in the order of tickets. -/
theorem Run.requests_sorted (run : Run marks id locator past l) (ho : InOrder past) :
    (requests past).Pairwise fun a b => a.1 ≤ b.1 := by
  induction run with
  | refl => exact .nil
  | @step past e l₁ l₂ run h ih =>
    rw [requests_append]
    refine List.pairwise_append.2 ⟨ih ho.of_append, ?_, fun a ha b hb => ?_⟩
    · cases e.request? <;> simp
    · cases h with
      | send ht hm _ _ =>
        rw [List.mem_singleton.1 hb]
        exact Run.le_of_request run ho.of_append ht hm ha
      | arrive _ _ | queue _ _ | move _ _ _ _ | hear _ _ _ _ | yield _ _ => cases hb
  | mark _ _ ih => exact ih ho

end Lane
end SessionPool
