import SessionPool.Proofs.History

/-! Clients: a session has at most one client in its life, and gives it up once. The client is made by the
    one connect that succeeds, it is taken away by whoever seals the session, and that job has it until
    it asks the server to close it. From the moment a release has the session, nobody else asks for
    anything any more. -/

namespace SessionPool

/-- Whether a connect succeeds. -/
def Note.connects {κ : Type} : Note κ → Bool
  | .did _ (.heard .connect (.connected (.ok _))) => true
  | _ => false

/-- Whether the server is asked to close a client. -/
def Note.closes {κ : Type} : Note κ → Bool
  | .did _ (.sent (.close _)) => true
  | _ => false

/-! ### Whose the client is -/

/-- Whether the work has a client that it has not yet asked to close. -/
def Station.holds {κ : Type} (flying : Bool) : Station κ → Bool
  | parting _ client => client.isSome
  | closing _ _ => !flying
  | _ => false

namespace Station
variable {κ : Type} {s : Session κ} {st : Station κ} {m : Move κ} {flying : Bool}

/-- Who holds a client has seen that the session is closed. -/
theorem closed_of_holds (h : st.holds flying = true) (hk : st.Knows s) : s.closed = true := by
  cases st with
  | parting _ _ | closing _ _ => exact hk.2
  | _ => cases h

theorem holds_after {reply : m.Reply} (hm : st.move = some m) (ho : m.own? s = some reply)
    (hne : ∀ i, st ≠ sealing i) : (st.after m reply).holds false = st.holds false := by
  cases st with
  | waiting w => cases hm; cases w <;> rfl
  | checking state extra check =>
    cases hm
    simp only [after]
    split <;> rfl
  | looking p =>
    cases hm
    simp only [after]
    split
    · rfl
    · split <;> rfl
  | logging p text =>
    cases hm
    cases p with
    | use operation args => rfl
    | load state extra check => cases check <;> rfl
    | echo state message =>
      simp only [after, served]
      split <;> rfl
  | sealing i => exact absurd rfl (hne i)
  | parting i client => cases hm; cases client <;> rfl
  | marking _ | leaving _ | retiring => cases hm; rfl
  | connecting _ | calling _ | closing _ _ => cases hm; cases ho
  | ended _ | dead => cases hm

theorem holds_heard {word : Word κ} (hm : st.move = some m) (hr : m.isRemote = true) :
    (st.heard m word).holds false = false := by
  unfold heard
  split
  · rename_i reply hreply
    cases st with
    | connecting p | calling p | closing i c => cases hm; cases reply <;> rfl
    | ended _ | dead => cases hm
    | _ => cases hm; cases hr
  · rfl

theorem not_holding_of_flying (hm : st.move = some m) (hr : m.isRemote = true) :
    st.holds true = false := by
  cases st with
  | parting i client => cases hm; cases hr
  | _ => rfl

end Station

namespace Lane
variable {κ : Type}

/-- Whether a job has a client that it has not yet asked to close. -/
def Holds (l : Lane κ) (t : Nat) : Prop :=
  ∃ w st, l.units t = some (w, st) ∧ st.holds (l.flying t) = true

/-- An open session has the client that was connected for it; of a closed one the client is closed, or
    one job still has it. -/
structure Balanced (l : Lane κ) (past : List (Note κ)) : Prop where
  once : past.countP Note.connects ≤ 1
  opened : l.session.closed = false → past.countP Note.closes = 0 ∧
    past.countP Note.connects = if l.session.client.isSome then 1 else 0
  spent : l.session.closed = true →
    (past.countP Note.connects = past.countP Note.closes ∧ ∀ t, ¬l.Holds t) ∨
    (past.countP Note.connects = past.countP Note.closes + 1 ∧ ∃ t, l.Holds t ∧ ∀ u, l.Holds u → u = t)

variable {marks : Prop} {id : String} {locator : Locator} {past later : List (Note κ)}
  {l l' : Lane κ} {e : Note κ} {t u : Nat} {w v : Work} {st : Station κ}

/-- A step at which no client comes, goes or changes hands. -/
theorem Balanced.same (h : l.Balanced past) (hconnects : e.connects = false) (hcloses : e.closes = false)
    (hclosed : l'.session.closed = l.session.closed)
    (hclient : l'.session.client.isSome = l.session.client.isSome)
    (hholds : ∀ t, l'.Holds t ↔ l.Holds t) : l'.Balanced (past ++ [e]) := by
  have hsame : (past ++ [e]).countP Note.connects = past.countP Note.connects ∧
      (past ++ [e]).countP Note.closes = past.countP Note.closes := by
    simp [List.countP_append, hconnects, hcloses]
  refine ⟨hsame.1 ▸ h.once, fun hc => ?_, fun hc => ?_⟩
  · rw [hsame.1, hsame.2, hclient]
    exact h.opened (hclosed ▸ hc)
  · rw [hsame.1, hsame.2]
    rcases h.spent (hclosed ▸ hc) with ⟨heq, hnone⟩ | ⟨heq, t, ht, hunique⟩
    · exact .inl ⟨heq, fun t ht => hnone t ((hholds t).1 ht)⟩
    · exact .inr ⟨heq, t, (hholds t).2 ht, fun u hu => hunique u ((hholds u).1 hu)⟩

/-- Only the job that moves may come to hold a client or cease to. -/
theorem holds_of_ne {l₁ : Lane κ} (hunits : l₁.units u = l.units u) (hflying : l₁.flying u = l.flying u) :
    l₁.Holds u ↔ l.Holds u := by
  rw [Holds, Holds, hunits, hflying]

theorem holds_iff (hu : l.units t = some (w, st)) : l.Holds t ↔ st.holds (l.flying t) = true := by
  constructor
  · rintro ⟨v, st', h, hholds⟩
    rw [hu] at h
    cases h
    exact hholds
  · exact fun h => ⟨w, st, hu, h⟩

/-- An open session has nobody else who has its client. -/
theorem not_holds_of_open (hl : l.Sound) (hc : l.session.closed = false) (u : Nat) : ¬l.Holds u := by
  rintro ⟨v, st, hu, hholds⟩
  rw [Station.closed_of_holds hholds (hl.knows u v st hu)] at hc
  cases hc

/-- The client, if there is one, goes over to the job that seals the session. -/
theorem Balanced.seal (h : l.Balanced past) (hl : l.Sound) {i : String}
    (ht : l.units t = some (w, .sealing i)) (hf : l.flying t = false) :
    (({ l with session := l.session.after t .seal } : Lane κ).put t w
      (.parting i l.session.client)).Balanced (past ++ [.did t (.moved .seal)]) := by
  have hself := put_self ({ l with session := l.session.after t .seal } : Lane κ) t w
    (.parting i l.session.client)
  have hothers : ∀ u, u ≠ t → ((({ l with session := l.session.after t .seal } : Lane κ).put t w
      (.parting i l.session.client)).Holds u ↔ l.Holds u) := fun u hut =>
    holds_of_ne (put_of_ne _ hut) rfl
  have hcounts : (past ++ [Note.did t (.moved .seal)]).countP Note.connects = past.countP Note.connects ∧
      (past ++ [Note.did t (.moved .seal)]).countP Note.closes = past.countP Note.closes := by
    simp [List.countP_append, Note.connects, Note.closes]
  cases hc : l.session.closed with
  | false =>
    obtain ⟨hcloses, hconnects⟩ := h.opened hc
    refine ⟨hcounts.1 ▸ h.once, fun hc' => (nomatch hc'), fun _ => ?_⟩
    rw [hcounts.1, hcounts.2, hcloses, hconnects]
    cases hclient : l.session.client with
    | none =>
      refine .inl ⟨rfl, fun u => ?_⟩
      by_cases hut : u = t
      · subst hut
        rw [hclient] at hself
        rw [holds_iff hself]
        nofun
      · rw [← hclient, hothers u hut]
        exact not_holds_of_open hl hc u
    | some c =>
      rw [hclient] at hself hothers
      refine .inr ⟨rfl, t, (holds_iff hself).2 rfl, fun u hu => ?_⟩
      by_cases hut : u = t
      · exact hut
      · exact absurd ((hothers u hut).1 hu) (not_holds_of_open hl hc u)
  | true =>
    have hnone := hl.vacant hc
    refine ⟨hcounts.1 ▸ h.once, fun hc' => (nomatch hc'), fun _ => ?_⟩
    have hsame : ∀ u, (({ l with session := l.session.after t .seal } : Lane κ).put t w
        (.parting i l.session.client)).Holds u ↔ l.Holds u := by
      intro u
      by_cases hut : u = t
      · subst hut
        rw [holds_iff hself, holds_iff ht, hnone]
        exact Iff.rfl
      · exact hothers u hut
    rw [hcounts.1, hcounts.2]
    rcases h.spent hc with ⟨heq, hno⟩ | ⟨heq, t', ht', hunique⟩
    · exact .inl ⟨heq, fun u hu => hno u ((hsame u).1 hu)⟩
    · exact .inr ⟨heq, t', (hsame t').2 ht', fun u hu => hunique u ((hsame u).1 hu)⟩

/-- A move within the pool does not concern the client, unless it seals the session. -/
theorem Balanced.move (h : l.Balanced past) (hl : l.Sound) {m : Move κ} {reply : m.Reply}
    (ht : l.units t = some (w, st)) (hm : st.move = some m) (ho : m.own? l.session = some reply) :
    (({ l with session := l.session.after t m } : Lane κ).put t w (st.after m reply)).Balanced
      (past ++ [.did t (.moved m)]) := by
  have hf := hl.not_flying ht hm (Move.isRemote_of_own ho)
  by_cases hseal : ∃ i, st = .sealing i
  · obtain ⟨i, rfl⟩ := hseal
    cases hm
    cases ho
    exact h.seal hl ht hf
  · have hne : ∀ i, st ≠ .sealing i := fun i hi => hseal ⟨i, hi⟩
    have hkeeps : (l.session.after t m).closed = l.session.closed ∧
        (l.session.after t m).client = l.session.client := by
      cases st <;> first | (cases hm; exact ⟨rfl, rfl⟩) | cases hm
      exact absurd rfl (hne _)
    refine h.same rfl rfl hkeeps.1 (congrArg _ hkeeps.2) fun u => ?_
    by_cases hut : u = t
    · subst hut
      rw [holds_iff ht, holds_iff (put_self ..), hf]
      show (st.after m reply).holds (l.flying u) = true ↔ _
      rw [hf, Station.holds_after hm ho hne]
    · exact holds_of_ne (put_of_ne _ hut) rfl
/-- A job that asks for the close of the client that it has does not have it any more. -/
theorem Balanced.send (h : l.Balanced past) (hl : l.Sound) {m : Move κ} (ht : l.units t = some (w, st))
    (hm : st.move = some m) (hr : m.isRemote = true) (hf : l.flying t = false) :
    ({ l with flying := Function.update l.flying t true } : Lane κ).Balanced
      (past ++ [.did t (.sent m)]) := by
  have hothers : ∀ u, u ≠ t →
      (({ l with flying := Function.update l.flying t true } : Lane κ).Holds u ↔ l.Holds u) :=
    fun u hut => holds_of_ne rfl (Function.update_of_ne hut ..)
  have hself : ¬({ l with flying := Function.update l.flying t true } : Lane κ).Holds t := by
    rw [holds_iff (l := { l with flying := Function.update l.flying t true }) ht]
    show ¬st.holds (Function.update l.flying t true t) = true
    rw [Function.update_self, Station.not_holding_of_flying hm hr]
    nofun
  by_cases hclose : ∃ i c, st = .closing i c
  · obtain ⟨i, c, rfl⟩ := hclose
    cases hm
    have hc : l.session.closed = true := (hl.knows _ _ _ ht).2
    have hholds : l.Holds t := (holds_iff ht).2 (by rw [hf]; rfl)
    refine ⟨?_, fun hc' => ?_, fun _ => .inl ⟨?_, fun u hu => ?_⟩⟩
    · simpa [List.countP_append, Note.connects] using h.once
    · rw [show l.session.closed = false from hc'] at hc
      cases hc
    · rcases h.spent hc with ⟨-, hno⟩ | ⟨heq, -⟩
      · exact absurd hholds (hno t)
      · simpa [List.countP_append, Note.connects, Note.closes] using heq
    · rcases h.spent hc with ⟨-, hno⟩ | ⟨-, t', -, hunique⟩
      · exact hno t hholds
      · by_cases hut : u = t
        · exact hself (hut ▸ hu)
        · exact hut ((hunique u ((hothers u hut).1 hu)).trans (hunique t hholds).symm)
  · have hcloses : (Note.did t (.sent m) : Note κ).closes = false := by
      cases st with
      | closing i c => exact absurd ⟨i, c, rfl⟩ hclose
      | connecting _ | calling _ => cases hm; rfl
      | ended _ | dead => cases hm
      | _ => cases hm; cases hr
    refine h.same rfl hcloses rfl rfl fun u => ?_
    by_cases hut : u = t
    · subst hut
      refine ⟨fun hh => absurd hh hself, fun hh => ?_⟩
      rw [holds_iff ht, hf] at hh
      cases st with
      | closing i c => exact absurd ⟨i, c, rfl⟩ hclose
      | parting i c => cases hm; cases hr
      | _ => cases hh
    · exact hothers u hut
/-- A session gets its client when it hears that it is connected, and had none before. -/
theorem Balanced.hear (h : l.Balanced past) (hl : l.Sound) {m : Move κ} {word : Word κ}
    (ht : l.units t = some (w, st)) (hm : st.move = some m) (hf : l.flying t = true)
    (hw : word.Fits l.session m) :
    (({ l with
      session := l.session.hear t word
      flying := Function.update l.flying t false } : Lane κ).put t w (st.heard m word)).Balanced
        (past ++ [.did t (.heard m word)]) := by
  have hholds : ∀ u, (({ l with
      session := l.session.hear t word
      flying := Function.update l.flying t false } : Lane κ).put t w (st.heard m word)).Holds u ↔
      l.Holds u := by
    intro u
    by_cases hut : u = t
    · subst hut
      rw [holds_iff (put_self ..), holds_iff ht, hf, Station.not_holding_of_flying hm hw.isRemote]
      show (st.heard m word).holds (Function.update l.flying u false u) = true ↔ _
      rw [Function.update_self, Station.holds_heard hm hw.isRemote]
    · exact holds_of_ne (put_of_ne _ hut) (Function.update_of_ne hut ..)
  by_cases hconnect : ∃ c, m = .connect ∧ word = .connected (.ok c)
  · obtain ⟨c, rfl, rfl⟩ := hconnect
    obtain ⟨hc, hnone⟩ : l.session.closed = false ∧ l.session.client = none := by
      have hk := hl.knows _ _ _ ht
      cases st with
      | connecting p =>
        cases p with
        | echo _ _ => exact hk.elim
        | _ => exact hk
      | _ => cases hm
    obtain ⟨hcloses, hconnects⟩ := h.opened hc
    rw [hnone] at hconnects
    have hone : (past ++ [Note.did t (.heard .connect (.connected (.ok c)))]).countP Note.connects = 1 := by
      simp [List.countP_append, Note.connects, hconnects]
    refine ⟨Nat.le_of_eq hone, fun _ => ⟨?_, hone⟩, fun hc' => ?_⟩
    · simpa [List.countP_append, Note.closes] using hcloses
    · rw [show l.session.closed = true from hc'] at hc
      cases hc
  · have hconnects : (Note.did t (.heard m word) : Note κ).connects = false := by
      unfold Note.connects
      split
      · rename_i heq
        cases heq
        exact absurd ⟨_, rfl, rfl⟩ hconnect
      · rfl
    have hclient : (l.session.hear t word).client.isSome = l.session.client.isSome := by
      cases m with
      | connect =>
        cases word with
        | connected reply =>
          cases reply with
          | ok c => exact absurd ⟨c, rfl, rfl⟩ hconnect
          | error e => rfl
        | _ => exact hw.elim
      | call operation args =>
        cases word with
        | answered answer c => cases answer <;> exact hw.symm
        | missing => rfl
        | _ => exact hw.elim
      | close c =>
        cases word with
        | closed reply => rfl
        | _ => exact hw.elim
      | _ => exact hw.elim
    exact h.same hconnects rfl (Session.hear_closed ..) hclient hholds
theorem Balanced.step (h : l.Balanced past) (hl : l.Sound) (hstep : Step l e l') :
    l'.Balanced (past ++ [e]) := by
  cases hstep with
  | @arrive t w hw ht =>
    refine h.same rfl rfl rfl rfl fun u => ?_
    by_cases hut : u = t
    · subst hut
      rw [holds_iff (put_self l u w (.waiting w))]
      refine ⟨fun hh => (nomatch hh), ?_⟩
      rintro ⟨v, st, hu, -⟩
      rw [units_of_arrive ht] at hu
      cases hu
    · exact holds_of_ne (put_of_ne l hut) rfl
  | queue _ _ => exact h.same rfl rfl rfl rfl fun _ => Iff.rfl
  | move ht hm ho _ => exact h.move hl ht hm ho
  | send ht hm hr hf => exact h.send hl ht hm hr hf
  | hear ht hm hf hw => exact h.hear hl ht hm hf hw
  | yield _ _ => exact h.same rfl rfl rfl rfl fun _ => Iff.rfl

theorem Run.balanced (run : Run marks id locator past l) : l.Balanced past := by
  induction run with
  | refl => exact ⟨Nat.zero_le _, fun _ => ⟨rfl, rfl⟩, fun h => (nomatch h)⟩
  | step run hstep ih => exact ih.step (Run.sound run) hstep
  | mark _ _ ih => exact ⟨ih.once, ih.opened, ih.spent⟩

/-- A client is closed at most once. -/
theorem Balanced.closes_le (h : l.Balanced past) : past.countP Note.closes ≤ past.countP Note.connects := by
  cases hc : l.session.closed with
  | false => rw [(h.opened hc).1]; exact Nat.zero_le _
  | true =>
    rcases h.spent hc with ⟨heq, -⟩ | ⟨heq, -⟩
    · exact Nat.le_of_eq heq.symm
    · omega

/-- When the session is closed and all work has ended or died, the client is closed. -/
theorem Balanced.eq_of_over (h : l.Balanced past) (hc : l.session.closed = true)
    (hover : ∀ t w st, l.units t = some (w, st) → (∃ result, st = .ended result) ∨ st = .dead) :
    past.countP Note.connects = past.countP Note.closes := by
  rcases h.spent hc with ⟨heq, -⟩ | ⟨-, t, ⟨w, st, hu, hholds⟩, -⟩
  · exact heq
  · rcases hover t w st hu with ⟨result, rfl⟩ | rfl <;> cases hholds

end Lane

/-! ### Releases -/

namespace Station
variable {κ : Type} {s : Session κ} {st : Station κ} {m : Move κ}

/-- Whether a release has sealed the session. -/
def hasSealed : Station κ → Bool
  | parting _ _ => true
  | closing _ _ => true
  | ended _ => true
  | _ => false

theorem sealed_after {reply : m.Reply} (hin : st.In .release) (hm : st.move = some m)
    (h : (st.after m reply).hasSealed = true) : st.hasSealed = true ∨ m = .seal := by
  cases st with
  | waiting w => cases hm; cases w <;> cases h
  | checking _ _ _ => cases hin
  | looking _ | connecting _ | calling _ | logging _ _ => exact hin.elim
  | marking _ => exact hin.1.elim
  | leaving _ => exact absurd rfl hin.2
  | retiring => cases hm; cases h
  | sealing _ => cases hm; exact .inr rfl
  | parting _ _ | closing _ _ | ended _ => exact .inl rfl
  | dead => cases hm

/-- A release asks for nothing but the close, and does not die of it. -/
theorem closing_of_release (hin : st.In .release) (hm : st.move = some m) (hr : m.isRemote = true) :
    ∃ i c, st = .closing i c := by
  cases st with
  | closing i c => exact ⟨i, c, rfl⟩
  | connecting _ | calling _ => exact hin.elim
  | ended _ | dead => cases hm
  | _ => cases hm; cases hr

end Station

namespace Lane
variable {κ : Type} {marks : Prop} {id : String} {locator : Locator} {past later : List (Note κ)}
  {l l' : Lane κ} {e : Note κ} {t u : Nat} {w v : Work} {st : Station κ}

theorem Step.closed (h : Step l e l') (hc : l.session.closed = true) : l'.session.closed = true := by
  cases h with
  | move _ _ _ _ => exact Session.after_closed _ _ hc
  | hear _ _ _ _ => exact (Session.hear_closed ..).trans hc
  | arrive _ _ | queue _ _ | send _ _ _ _ | yield _ _ => exact hc

/-- A release that is through has closed the session, and does not die. -/
theorem Run.sealed (run : Run marks id locator past l) (hu : l.units t = some (.release, st)) :
    st ≠ .dead ∧ (st.hasSealed = true → l.session.closed = true) := by
  induction run generalizing st with
  | refl => cases hu
  | @step past e l₁ l₂ run hstep ih =>
    have hsound : l₁.Sound := Run.sound run
    have hclosed := hstep.closed
    cases hstep with
    | arrive _ _ =>
      rcases put_cases hu with ⟨-, -, rfl⟩ | ⟨-, hu⟩
      · exact ⟨nofun, nofun⟩
      · exact ih hu
    | @move t' w' st' m reply ht hm ho _ =>
      rcases put_cases hu with ⟨rfl, rfl, rfl⟩ | ⟨-, hu⟩
      · refine ⟨fun hdead => ?_, fun hs => ?_⟩
        · rcases Station.own_cases hm ho with ⟨-, -, hin⟩ | ⟨rfl, hin, -⟩ | ⟨-, hin, -⟩
          · rw [hdead] at hin; cases hin
          · cases st' with
            | leaving _ => cases hm; cases hdead
            | parting i c => cases hm; cases c <;> cases hdead
            | _ => cases hm
          · rw [hdead] at hin; cases hin
        · rcases Station.sealed_after (hsound.works _ _ _ ht).2 hm hs with hs | rfl
          · exact hclosed ((ih ht).2 hs)
          · rfl
      · exact ⟨(ih hu).1, fun hs => hclosed ((ih hu).2 hs)⟩
    | @hear t' w' st' m word ht hm _ hw =>
      rcases put_cases hu with ⟨rfl, rfl, rfl⟩ | ⟨-, hu⟩
      · obtain ⟨i, c, rfl⟩ := Station.closing_of_release (hsound.works _ _ _ ht).2 hm hw.isRemote
        cases hm
        cases word with
        | closed reply =>
          exact ⟨by cases reply <;> nofun, fun _ => hclosed ((ih ht).2 rfl)⟩
        | _ => exact hw.elim
      · exact ⟨(ih hu).1, fun hs => hclosed ((ih hu).2 hs)⟩
    | queue _ _ | send _ _ _ _ | yield _ _ => exact ih hu
  | mark _ _ ih => exact ih hu

/-- Sessions are closed by releases only. -/
theorem Run.release_of_closed (run : Run marks id locator past l) (hc : l.session.closed = true) :
    ∃ t, .arrived t .release ∈ past := by
  induction run with
  | refl => cases hc
  | @step past e l₁ l₂ run hstep ih =>
    suffices l₁.session.closed = true ∨ ∃ t, .arrived t .release ∈ past by
      rcases this with hc | ⟨t, ht⟩
      · obtain ⟨t, ht⟩ := ih hc
        exact ⟨t, List.mem_append_left _ ht⟩
      · exact ⟨t, List.mem_append_left _ ht⟩
    cases hstep with
    | @move t w st m reply ht hm ho _ =>
      cases st with
      | sealing i =>
        obtain rfl : w = .release := ((Run.sound run).works _ _ _ ht).2
        exact .inr ⟨t, (Run.arrived_iff run).2 ⟨_, ht⟩⟩
      | ended _ | dead => cases hm
      | _ => cases hm; exact .inl hc
    | hear _ _ _ _ => exact .inl ((Session.hear_closed ..).symm.trans hc)
    | arrive _ _ | queue _ _ | send _ _ _ _ | yield _ _ => exact .inl hc
  | mark _ _ ih => exact ih hc

/-! ### After a release has the session -/

/-- The session is closed, or a release that has it is about to close it. -/
def Shut (l : Lane κ) : Prop :=
  l.session.closed = true ∨
    ∃ t w st, l.units t = some (w, st) ∧ (st = .retiring ∨ ∃ i, st = .sealing i)

theorem Shut.step (h : l.Shut) (hstep : Step l e l') : l'.Shut := by
  rcases h with hc | ⟨t, w, st, hu, hst⟩
  · exact .inl (hstep.closed hc)
  have hstay : ∀ {l₁ : Lane κ}, l₁.units t = some (w, st) → l₁.Shut := fun h => .inr ⟨t, w, st, h, hst⟩
  cases hstep with
  | arrive _ ht => exact hstay ((put_of_ne l (Nat.ne_of_lt (ht t _ hu))).trans hu)
  | @move t' w' st' m reply ht hm ho _ =>
    by_cases htt : t = t'
    · subst htt
      rw [hu, Option.some.injEq, Prod.mk.injEq] at ht
      obtain ⟨rfl, rfl⟩ := ht
      rcases hst with rfl | ⟨i, rfl⟩
      · cases hm
        exact .inr ⟨t, w, _, put_self .., .inr ⟨_, rfl⟩⟩
      · cases hm
        exact .inl rfl
    · exact hstay ((put_of_ne _ htt).trans hu)
  | @hear t' w' st' m word ht hm _ hw =>
    refine hstay ((put_of_ne _ ?_).trans hu)
    rintro rfl
    rw [hu, Option.some.injEq, Prod.mk.injEq] at ht
    have hr := hw.isRemote
    rcases hst with rfl | ⟨i, rfl⟩ <;> (rw [← ht.2] at hm; cases hm; cases hr)
  | queue _ _ | send _ _ _ _ | yield _ _ => exact hstay hu

theorem Steps.shut (run : Steps marks l later l') (h : l.Shut) : l'.Shut := by
  induction run with
  | refl => exact h
  | step _ hstep ih => exact ih.step hstep
  | mark _ _ ih => exact ih

/-- Nobody asks a shut session's server for anything but the close. -/
theorem Shut.close_of_request (h : l.Shut) (hl : l.Sound) {m : Move κ} (hu : l.units u = some (v, st))
    (hm : st.move = some m) (hr : m.isRemote = true) : ∃ c, m = .close c := by
  cases hin : st.isInside with
  | true =>
    have hopen := Station.open_of_remote (hl.knows _ _ _ hu) hm hr hin
    rcases h with hc | ⟨t, w, st', ht, hst⟩
    · rw [hopen] at hc; cases hc
    · have hin' : st'.isInside = true := by rcases hst with rfl | ⟨i, rfl⟩ <;> rfl
      obtain rfl := hl.queued.eq_of_inside ht hin' hu hin
      rw [hu, Option.some.injEq, Prod.mk.injEq] at ht
      rcases hst with rfl | ⟨i, rfl⟩ <;> (rw [ht.2] at hm; cases hm; cases hr)
  | false =>
    cases st with
    | closing i c => cases hm; exact ⟨c, rfl⟩
    | waiting _ => cases hm; cases hr
    | ended _ | dead => cases hm
    | _ => cases hin

/-- A release that takes the lock shuts the session. -/
theorem Step.shut_of_lock (h : Step l (.did t (.moved .lock)) l') (hl : l.Sound)
    (hu : l.units t = some (.release, st)) : l'.Shut := by
  cases h with
  | @move t w st' m reply ht hm ho _ =>
    rw [hu, Option.some.injEq, Prod.mk.injEq] at ht
    obtain ⟨rfl, rfl⟩ := ht
    obtain ⟨w', rfl⟩ := Station.waiting_of_lock hm
    obtain rfl : w' = .release := (hl.works _ _ _ hu).2
    exact .inr ⟨t, .release, _, put_self .., .inl rfl⟩

theorem Run.shut (run : Run marks id locator (past ++ .did t (.moved .lock) :: later) l)
    (hu : .arrived t .release ∈ past) : l.Shut := by
  obtain ⟨l₁, l₂, run₁, hstep, run₂⟩ := Steps.split_step run
  obtain ⟨st, hu⟩ := (Run.arrived_iff run₁).1 hu
  exact run₂.shut (hstep.shut_of_lock (Run.sound run₁) hu)

/-- After a release has taken the lock nothing is asked for but the close. -/
theorem Run.close_after_release {m : Move κ}
    (run : Run marks id locator (past ++ .did t (.moved .lock) :: later) l)
    (ht : .arrived t .release ∈ past) (h : .did u (.sent m) ∈ later) : ∃ c, m = .close c := by
  obtain ⟨between, after, rfl⟩ := List.append_of_mem h
  have hcons : past ++ Note.did t (.moved .lock) :: (between ++ .did u (.sent m) :: after) =
      (past ++ .did t (.moved .lock) :: between) ++ .did u (.sent m) :: after := by simp
  rw [hcons] at run
  obtain ⟨l₁, v, st, run₁, hu, hm, hr, -⟩ := Run.of_request run
  exact (Run.shut run₁ ht).close_of_request (Run.sound run₁) hu hm hr

/-- Who takes the lock of a shut session finds it closed. -/
theorem Shut.closed_of_lock (h : l.Shut) (hl : l.Sound) (hstep : Step l (.did u (.moved .lock)) l') :
    l.session.closed = true := by
  rcases h with hc | ⟨t, w, st, ht, hst⟩
  · exact hc
  have hin : st.isInside = true := by rcases hst with rfl | ⟨i, rfl⟩ <;> rfl
  have hfirst := hl.queued.first t w st ht hin
  cases hstep with
  | @move _ v st' _ reply hu hm ho hline =>
    have hlined : (l.session.lined u).line.head? = some t := by
      simp only [Session.lined]
      split
      · exact hfirst
      · rw [List.head?_append, hfirst]; rfl
    obtain rfl : t = u := Option.some.inj (hlined.symm.trans (hline rfl))
    rw [ht, Option.some.injEq, Prod.mk.injEq] at hu
    rcases hst with rfl | ⟨i, rfl⟩ <;> (rw [← hu.2] at hm; cases hm)

end Lane

/-- What work gives that finds its session closed; a load may find it ready, and looks no further. -/
def Refusal (id : String) (v : Work) (result : Except PoolError Yield) : Prop :=
  result = .error (.sessionClosed id) ∨
    (∃ state extra check, v = .load state extra check) ∧ result = .ok (.outcome .alreadyInitialized)

/-- Where work stands that finds its session closed. -/
def Station.Refuses {κ : Type} (id : String) (v : Work) : Station κ → Prop
  | checking state extra check => v = .load state extra check
  | looking p => p.In v ∧ ∀ state message, p ≠ .echo state message
  | leaving result => Refusal id v result
  | ended result => Refusal id v result
  | _ => False

namespace Station
variable {κ : Type} {s : Session κ} {st : Station κ} {id : String} {v : Work}

theorem failure_of_closed {p : Purpose} (hp : ∀ state message, p ≠ .echo state message) (id : String) :
    p.failure (.closed id) = .error (.sessionClosed id) := by
  cases p with
  | use _ _ | load _ _ _ => rfl
  | echo state message => exact absurd rfl (hp state message)

theorem refuses_closed (id : String) (v : Work) : Lane.Closed
    (fun s : Session κ => s.closed = true ∧ s.id = id) (fun st => st.Refuses id v) where
  after s t m h := ⟨Session.after_closed m t h.1, (Session.after_id ..).trans h.2⟩
  hear s t word h := ⟨(Session.hear_closed ..).trans h.1, (Session.hear_id ..).trans h.2⟩
  mark _ h := h
  own st m hq hm := by
    cases st with
    | checking _ _ _ | looking _ | leaving _ => cases hm; rfl
    | ended _ => cases hm
    | _ => exact hq.elim
  moves s st m reply hs hq hm ho := by
    cases st with
    | checking state extra check =>
      cases hm
      simp only [after]
      split
      · exact .inr ⟨⟨state, extra, check, hq⟩, rfl⟩
      · rw [show v = _ from hq]
        exact ⟨.inl rfl, fun _ _ h => by cases h⟩
    | looking p =>
      cases hm
      cases ho
      simp only [after, hs.1, hs.2, if_true]
      exact .inl (failure_of_closed hq.2 id)
    | leaving result => cases hm; exact hq
    | ended _ => cases hm
    | _ => exact hq.elim

theorem refuses_entered (hv : v ≠ .release) : (entered v : Station κ).Refuses id v := by
  cases v with
  | call operation args => exact ⟨rfl, nofun⟩
  | load state extra check => exact rfl
  | release => exact absurd rfl hv

end Station

namespace Lane
variable {κ : Type} {marks : Prop} {id : String} {locator : Locator} {past later : List (Note κ)}
  {l : Lane κ} {t u : Nat} {v : Work}

/-- Work that finds its session closed asks nobody. -/
abbrev Refused (l : Lane κ) (id : String) (u : Nat) (v : Work) (past : List (Note κ)) : Prop :=
  Confined (fun s => s.closed = true ∧ s.id = id) (fun st => st.Refuses id v) l u v past

/-- After a release has taken the lock all other work is refused. -/
theorem Run.refused (run : Run marks id locator (past ++ .did t (.moved .lock) :: later) l)
    (ht : .arrived t .release ∈ past) (hv : v ≠ .release)
    (hu : .arrived u v ∈ past ++ .did t (.moved .lock) :: later) (hlock : .did u (.moved .lock) ∈ later) :
    l.Refused id u v (past ++ .did t (.moved .lock) :: later) := by
  refine Run.confined (Station.refuses_closed id v) run (fun between l₁ l₂ st run₁ hu₁ hstep => ?_) hu
    hlock (Station.refuses_entered hv)
  exact ⟨(Run.shut run₁ ht).closed_of_lock (Run.sound run₁) hstep, Run.session_id run₁⟩

end Lane
end SessionPool
