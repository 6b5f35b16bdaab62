import SessionPool.Proofs.Desk

/-! Readiness: a session is ready because it has earned it. It does so by a load whose calls succeed and, if
    the state is asked for again, give it back; by being marked; or by a call while its group has no
    state. Nothing else makes it ready, and nothing takes it back. -/

namespace SessionPool
variable {ρ κ : Type}

/-! ### One job -/

/-- A call is heard to succeed with a text. -/
def Succeeded (heard : List (Move κ × Word κ)) (operation : String) (args : Fields) (text : String) : Prop :=
  ∃ client, (.call operation args, .answered (.replied (.ok text)) client) ∈ heard

/-- The state is heard to be given back. -/
def Confirmed (heard : List (Move κ × Word κ)) (state : Json) : Prop :=
  ∃ echo v, Succeeded heard saveScenario [] echo ∧ Json.parse echo = .ok v ∧ v.same state = true

/-- A load is heard to succeed, and the state to be given back if it is asked for. -/
def Settled (heard : List (Move κ × Word κ)) (state : Json) (extra : Fields) (check : Bool) : Prop :=
  (∃ message, Succeeded heard loadScenario (Table.insert Arguments.scenarioKey state extra) message) ∧
    (check = true → Confirmed heard state)

namespace Purpose

/-- What has to be heard from a call on for the session to be ready. -/
def Earns (heard : List (Move κ × Word κ)) : Purpose → Prop
  | use _ _ => False
  | load state extra check => Settled heard state extra check
  | echo state _ => Confirmed heard state

end Purpose

namespace Station

/-- What has to be heard from a station on for the session to be ready. -/
def Earns (heard : List (Move κ × Word κ)) : Station κ → Prop
  | waiting (.load state extra check) => Settled heard state extra check
  | checking state extra check => Settled heard state extra check
  | looking p => p.Earns heard
  | connecting p => p.Earns heard
  | calling p => p.Earns heard
  | logging (.load state _ check) _ => check = true → Confirmed heard state
  | logging (.echo state message) echo => (LoadOutcome.ofEcho state message echo).isReady = true
  | marking _ => True
  | _ => False

/-- Nothing is heard from here on. -/
def isSilent : Station κ → Bool
  | logging (.echo _ _) _ => true
  | marking _ => true
  | leaving _ => true
  | ended _ => true
  | _ => false

variable {r : Remote ρ κ} {t : Nat} {st : Station κ} {s : Session κ} {x : ρ} {e : Play ρ κ}

theorem silent_after {m : Move κ} (h : st.isSilent = true) (hm : st.move = some m) (reply : m.Reply) :
    (st.after m reply).isSilent = true := by
  cases st with
  | logging p text =>
    cases p with
    | echo state message =>
      cases hm
      simp only [after, served]
      split <;> rfl
    | _ => cases h
  | marking o | leaving result => cases hm; rfl
  | ended result => cases hm
  | _ => cases h

theorem not_remote_of_silent {m : Move κ} (h : st.isSilent = true) (hm : st.move = some m) :
    m.isRemote = false := by
  cases st with
  | logging _ _ | marking _ | leaving _ => cases hm; rfl
  | ended _ => cases hm
  | _ => cases h

theorem Plays.silent (h : st.Plays r t s x e) (hst : st.isSilent = true) : e.heard = [] := by
  induction h with
  | ended => rfl
  | own hm _ _ ih => exact ih (silent_after hst hm _)
  | hear hm hw | dies hm hw =>
    have hremote := Plays.isRemote_of_word hw
    rw [not_remote_of_silent hst hm] at hremote
    cases hremote

end Station

theorem not_earns_nil (p : Purpose) : ¬p.Earns ([] : List (Move κ × Word κ)) := by
  cases p with
  | use operation args => exact id
  | load state extra check =>
    rintro ⟨⟨message, client, hmem⟩, -⟩
    cases hmem
  | echo state message =>
    rintro ⟨echo, v, ⟨client, hmem⟩, -⟩
    cases hmem

/-- What is heard first matters only if it is the success that is asked for. -/
theorem succeeded_cons {m : Move κ} {word : Word κ} {heard : List (Move κ × Word κ)} {operation text : String}
    {args : Fields} : Succeeded ((m, word) :: heard) operation args text ↔
      (m = .call operation args ∧ ∃ client, word = .answered (.replied (.ok text)) client) ∨
        Succeeded heard operation args text := by
  constructor
  · rintro ⟨client, hmem⟩
    rcases List.mem_cons.1 hmem with heq | hmem
    · cases heq
      exact .inl ⟨rfl, client, rfl⟩
    · exact .inr ⟨client, hmem⟩
  · rintro (⟨rfl, client, rfl⟩ | ⟨client, hmem⟩)
    · exact ⟨client, List.mem_cons_self⟩
    · exact ⟨client, List.mem_cons_of_mem _ hmem⟩

/-- Only a call of that name may confirm a state. -/
theorem confirmed_cons {m : Move κ} {word : Word κ} {heard : List (Move κ × Word κ)} {state : Json}
    (hm : ∀ echo client, m = .call saveScenario [] → word ≠ .answered (.replied (.ok echo)) client) :
    Confirmed ((m, word) :: heard) state ↔ Confirmed heard state := by
  constructor
  · rintro ⟨echo, v, hcall, hparse, hsame⟩
    rcases succeeded_cons.1 hcall with ⟨hsave, client, hword⟩ | hcall
    · exact absurd hword (hm echo client hsave)
    · exact ⟨echo, v, hcall, hparse, hsame⟩
  · rintro ⟨echo, v, hcall, hparse, hsame⟩
    exact ⟨echo, v, succeeded_cons.2 (.inr hcall), hparse, hsame⟩

theorem earns_cons {m : Move κ} {word : Word κ} {heard : List (Move κ × Word κ)} (p : Purpose)
    (hm : ∀ operation args text client, m = .call operation args → word ≠ .answered (.replied (.ok text)) client) :
    p.Earns ((m, word) :: heard) ↔ p.Earns heard := by
  have hsame : ∀ state, Confirmed ((m, word) :: heard) state ↔ Confirmed heard state :=
    fun state => confirmed_cons fun echo client hsave => hm _ _ _ _ hsave
  cases p with
  | use operation args => exact Iff.rfl
  | echo state message => exact hsame state
  | load state extra check =>
    refine and_congr (exists_congr fun message => ?_) (imp_congr_right fun _ => hsame state)
    rw [succeeded_cons]
    refine or_iff_right ?_
    rintro ⟨hcall, client, hword⟩
    exact hm _ _ _ _ hcall hword

/-- An echo tells whether the load was right. -/
theorem LoadOutcome.isReady_ofEcho (state : Json) (message echo : String) :
    (ofEcho state message echo).isReady = true ↔ ∃ v, Json.parse echo = .ok v ∧ v.same state = true := by
  rw [ofEcho]
  cases hparse : Json.parse echo with
  | error e => simp [isReady]
  | ok v =>
    simp only [Except.ok.injEq, exists_eq_left']
    split
    · rename_i hsame
      exact iff_of_true rfl hsame
    · rename_i hsame
      exact iff_of_false Bool.false_ne_true hsame

namespace Station
variable {r : Remote ρ κ} {t : Nat} {st : Station κ} {s : Session κ} {x : ρ} {e : Play ρ κ}
  {heard : List (Move κ × Word κ)} {m : Move κ} {word : Word κ}

/-- A move within the pool makes the session ready if nothing is left to be heard for it. -/
theorem earns_own {reply : m.Reply} (hm : st.move = some m) (ho : m.own? s = some reply)
    (hsilent : (st.after m reply).isSilent = true → heard = []) :
    (s.after t m).ready = true ∨ (st.after m reply).Earns heard ↔ s.ready = true ∨ st.Earns heard := by
  cases st with
  | waiting w => cases hm; cases w <;> exact Iff.rfl
  | checking state extra check =>
    cases hm
    cases ho
    simp only [after]
    split
    · rename_i hready
      exact iff_of_true (.inl hready) (.inl hready)
    · exact Iff.rfl
  | looking p =>
    cases hm
    cases ho
    simp only [after] at hsilent ⊢
    split
    · rename_i hclosed
      rw [if_pos hclosed] at hsilent
      rw [hsilent rfl]
      exact or_congr_right (iff_of_false id (not_earns_nil p))
    · split <;> exact Iff.rfl
  | logging p text =>
    cases hm
    cases p with
    | use operation args => exact Iff.rfl
    | load state extra check =>
      cases check with
      | true => exact or_congr_right ⟨fun h _ => h, fun h => h rfl⟩
      | false => exact or_congr_right (iff_of_true trivial fun h => by cases h)
    | echo state message =>
      simp only [after, served]
      split
      · rename_i ho
        exact or_congr_right (iff_of_true trivial ho)
      · rename_i ho
        exact or_congr_right (iff_of_false id ho)
  | marking o =>
    cases hm
    exact iff_of_true (.inl rfl) (.inr trivial)
  | parting id client => cases hm; cases client <;> exact Iff.rfl
  | leaving _ | retiring | sealing _ => cases hm; exact Iff.rfl
  | connecting p | calling p | closing id c => cases hm; cases ho
  | ended _ | dead => cases hm

/-- The text of a call is what has to be heard at a station, or leaves that to the next. -/
theorem earns_heard {reply : m.Reply} (hm : st.move = some m) (hw : word.Fits s m)
    (hreply : word.reply m = some reply) (hsilent : (st.after m reply).isSilent = true → heard = []) :
    (st.after m reply).Earns heard ↔ st.Earns ((m, word) :: heard) := by
  cases st with
  | connecting p =>
    cases hm
    refine Iff.trans ?_ (earns_cons p nofun).symm
    cases reply with
    | ok _ => exact Iff.rfl
    | error e =>
      rw [hsilent rfl]
      exact iff_of_false id (not_earns_nil p)
  | calling p =>
    cases hm
    cases reply with
    | error e =>
      refine Iff.trans ?_ (earns_cons p ?_).symm
      · rw [hsilent rfl]
        exact iff_of_false id (not_earns_nil p)
      · rintro operation args text client - rfl
        cases hreply
    | ok text =>
      obtain ⟨client, rfl⟩ : ∃ client, word = .answered (.replied (.ok text)) client := by
        cases word with
        | answered answer client =>
          cases answer with
          | died => cases hreply
          | replied answer => cases hreply; exact ⟨client, rfl⟩
        | missing | connected | closed => cases hreply
      cases p with
      | use operation args => exact Iff.rfl
      | load state extra check =>
        -- The text of the load itself confirms nothing.
        have hname : saveScenario ≠ loadScenario := by decide
        refine Iff.trans ?_ (and_iff_right ⟨text, client, List.mem_cons_self⟩).symm
        refine imp_congr_right fun _ => (confirmed_cons fun echo client hsave => ?_).symm
        exact absurd (Move.call.inj hsave).1.symm hname
      | echo state message =>
        rw [hsilent rfl]
        refine (LoadOutcome.isReady_ofEcho state message text).trans ?_
        constructor
        · rintro ⟨v, hparse, hsame⟩
          exact ⟨text, v, ⟨client, List.mem_cons_self⟩, hparse, hsame⟩
        · rintro ⟨echo, v, ⟨client', hmem⟩, hparse, hsame⟩
          cases List.mem_singleton.1 hmem
          exact ⟨v, hparse, hsame⟩
  | closing id c => cases hm; exact Iff.rfl
  | ended _ | dead => cases hm
  | _ => cases hm; exact hw.elim

/-- A job makes its session ready if it hears what it takes. -/
theorem Plays.ready (h : st.Plays r t s x e) : e.session.ready = true ↔ s.ready = true ∨ st.Earns e.heard := by
  induction h with
  | ended => exact (or_iff_left id).symm
  | own hm ho later ih => exact ih.trans (earns_own hm ho later.silent)
  | hear hm hw hreply later ih =>
    rw [ih, Session.hear_ready, earns_heard hm (Remote.word_fits hw) hreply later.silent]
  | @dies st s x x' m word hm hw hreply =>
    rw [Session.hear_ready]
    refine (or_iff_left ?_).symm
    have hdead : ∀ operation args text client, m = .call operation args →
        word ≠ .answered (.replied (.ok text)) client := by
      rintro operation args text client rfl rfl
      cases hreply
    cases st with
    | connecting p | calling p => exact fun h => not_earns_nil p ((earns_cons p hdead).1 h)
    | ended _ | dead => cases hm
    | closing _ _ => exact id
    | _ => cases hm; exact (Remote.word_fits hw).elim

/-- Whether a session is ready after a load with a result. -/
def readyAfter : Except PoolError LoadOutcome → Bool
  | .ok o => o.isReady
  | .error _ => false

/-- Whether the session of a load is ready is as the load will tell. -/
def Agrees (s : Session κ) : Station κ → Prop
  | looking _ => s.ready = false
  | connecting _ => s.ready = false
  | calling _ => s.ready = false
  | logging _ _ => s.ready = false
  | marking o => o.isReady = true
  | leaving result => s.ready = readyAfter (result.map Yield.toOutcome)
  | ended result => s.ready = readyAfter (result.map Yield.toOutcome)
  | dead => s.ready = false
  | _ => True

variable {state : Json} {extra : Fields} {check : Bool}

/-- A call of a load that fails does not leave the session ready. -/
theorem agrees_failure {p : Purpose} (hp : p.In (.load state extra check)) (hready : s.ready = false)
    (error : RemoteError) : (leaving (p.failure error)).Agrees s := by
  rcases hp with rfl | ⟨-, message, rfl⟩ <;> exact hready

theorem agrees_own {reply : m.Reply} (hst : st.In (.load state extra check)) (hs : st.Agrees s)
    (hm : st.move = some m) (ho : m.own? s = some reply) : (st.after m reply).Agrees (s.after t m) := by
  cases st with
  | waiting w => cases hm; cases hst; exact trivial
  | checking state extra check =>
    cases hm
    cases ho
    simp only [after]
    split
    · rename_i hready
      exact hready
    · rename_i hready
      exact Bool.eq_false_iff.2 hready
  | looking p =>
    cases hm
    cases ho
    simp only [after]
    split
    · exact agrees_failure hst hs _
    · split <;> exact hs
  | logging p text =>
    cases hm
    rcases hst with rfl | ⟨-, message, rfl⟩
    · cases check with
      | true => exact hs
      | false => exact rfl
    · simp only [after, served]
      split
      · rename_i ho
        exact ho
      · rename_i ho
        exact hs.trans (Bool.eq_false_iff.2 ho).symm
  | marking o => cases hm; exact hs.symm
  | leaving result => cases hm; exact hs
  | retiring | sealing _ | parting _ _ => cases hst
  | connecting p | calling p | closing id c => cases hm; cases ho
  | ended _ | dead => cases hm

theorem agrees_heard (hst : st.In (.load state extra check)) (hs : st.Agrees s) (hm : st.move = some m)
    (hw : word.Fits s m) : (st.heard m word).Agrees (s.hear t word) := by
  cases st with
  | connecting p =>
    cases hm
    cases word with
    | connected reply =>
      cases reply with
      | ok client => exact hs
      | error error => exact agrees_failure hst hs _
    | _ => exact hw.elim
  | calling p =>
    cases hm
    cases word with
    | answered answer client =>
      cases answer with
      | died => exact hs
      | replied reply =>
        cases reply with
        | ok text => exact hs
        | error error => exact agrees_failure (s := { s with client := some client }) hst hs _
    | missing => exact agrees_failure hst hs _
    | _ => exact hw.elim
  | closing id c => cases hst
  | ended _ | dead => cases hm
  | _ => cases hm; exact hw.elim

/-- After a load the session is ready as its result says. -/
theorem Plays.tells (h : (waiting (.load state extra check)).Plays r t s x e) :
    e.session.ready = readyAfter ((e.result.getD (.error .workerClosed)).map Yield.toOutcome) := by
  have hlast := h.ends (P := fun st s _ => st.In (.load state extra check) ∧ st.Agrees s)
    (fun ⟨hst, hs⟩ hm ho => ⟨in_after hst hm _, agrees_own hst hs hm ho⟩)
    (fun ⟨hst, hs⟩ hm hw => ⟨in_heard hst hm _, agrees_heard hst hs hm (Remote.word_fits hw)⟩)
    ⟨rfl, trivial⟩
  rw [Play.last] at hlast
  cases hresult : e.result with
  | none =>
    rw [hresult] at hlast
    exact hlast.2
  | some result =>
    rw [hresult] at hlast
    exact hlast.2

end Station

/-! ### Deals -/

/-- What is heard at a place. -/
def heardAt (n : Nat) (heard : List (Heard κ)) : List (Move κ × Word κ) :=
  heard.filterMap fun h => if h.place = n then some (h.move, h.word) else none

theorem heardAt_words {ρ : Type} (e : Play ρ κ) (n m : Nat) (id : String) :
    heardAt n (e.words m id) = if m = n then e.heard else [] := by
  rw [heardAt, Play.words, List.filterMap_map]
  split
  · rename_i heq
    simp [heq]
  · rename_i hne
    simp [hne]

theorem heardAt_flatMap (n : Nat) (ds : List (Deal κ)) :
    heardAt n (ds.flatMap Deal.heard) = ds.flatMap fun d => heardAt n d.heard := List.filterMap_flatMap

/-- Whether a deal makes the session at a place ready. -/
def Deal.Earns (n : Nat) : Deal κ → Prop
  | marked _ m => m = n
  | worked d => d.place = n ∧ (Station.waiting d.work : Station κ).Earns (heardAt n d.heard)
  | _ => False

namespace Front
variable {r : Remote ρ κ} {f f' f₁ : Front ρ κ} {d : Deal κ} {ds : List (Deal κ)} {n m : Nat} {id : String}

theorem isReady_set {w : Shared ρ κ} {s s' : Session κ} (hs : f.shared.sessions[m]? = some s)
    (hw : w.sessions = f.shared.sessions.set m s') :
    isReady { f with shared := w } n = if m = n then s'.ready else f.isReady n := by
  rw [isReady, hw, List.getElem?_set]
  split
  · rw [if_pos (List.getElem?_eq_some_iff.1 hs).1]
    rfl
  · rfl

/-- A deal makes the session at a place ready if it is one that does. -/
theorem Does.ready (h : Does r f d f') (n : Nat) :
    f'.isReady n = true ↔ f.isReady n = true ∨ d.Earns n := by
  cases h with
  | found | removed | drained | cleared | chatted | stopped => exact (or_iff_left fun h => h).symm
  | @made id l hn hl =>
    refine Iff.trans ?_ (or_iff_left fun h => h).symm
    rw [isReady, isReady, List.getElem?_append]
    split
    · exact Iff.rfl
    · rename_i hge
      rw [List.getElem?_eq_none (Nat.not_lt.1 hge), List.getElem?_singleton]
      split <;> exact Iff.rfl
  | @marked id m s hn hs =>
    rw [isReady_set hs rfl]
    split
    · rename_i heq
      exact iff_of_true rfl (.inr heq)
    · rename_i hne
      exact (or_iff_left hne).symm
  | @worked m t v s e hs _ plays hl =>
    rw [isReady_set hs rfl]
    split
    · rename_i heq
      subst heq
      rw [plays.ready, isReady, hs]
      refine or_congr_right ?_
      rw [Deal.Earns, heardAt_words, if_pos rfl]
      exact (and_iff_right rfl).symm
    · rename_i hne
      exact (or_iff_left fun h => hne h.1).symm

/-- So do deals one after the other. -/
theorem Deals.ready (h : Deals r f ds f') (n : Nat) :
    f'.isReady n = true ↔ f.isReady n = true ∨ ∃ d ∈ ds, d.Earns n := by
  induction h with
  | none => simp
  | next first _ ih => rw [ih, first.ready, List.exists_mem_cons_iff, or_assoc]

theorem Deals.stays_ready (h : Deals r f ds f') (hn : f.isReady n = true) : f'.isReady n = true :=
  (h.ready n).2 (.inl hn)

/-- A session is no readier for being asked for. -/
theorem Does.idle (h : Does r f (.obtained id m) f') (n : Nat) : f'.isReady n = f.isReady n :=
  Bool.eq_iff_iff.2 ((h.ready n).trans (or_iff_left fun h => h))

end Front

namespace Calls
variable {r : Remote ρ κ} {f f' : Front ρ κ} {id operation : String} {args : Fields}
  {y : Except PoolError Normalized} {ds : List (Deal κ)} {n : Nat}

/-- A session whose group has no state is ready once it was called. -/
theorem ready (h : Calls f id operation args y ds) (hdeals : Front.Deals r f ds f')
    (hstateless : f.catalog.isStateless (SessionKey.parse id).group = true)
    (hn : Table.get? id f'.registry = some n) : f'.isReady n = true := by
  have hkeeps := h.keeps id
  cases h with
  | unknown hnone =>
    cases hdeals
    rw [hnone] at hn
    cases hn
  | plain hready hsent =>
    rw [hdeals.names_obtained fun d hd => hkeeps d (List.mem_cons_of_mem _ hd)] at hn
    cases hn
    rcases hready with hready | hstateful
    · exact hdeals.stays_ready hready
    · rw [hstateless] at hstateful
      cases hstateful
  | stateless _ hsent =>
    rw [hdeals.names_obtained fun d hd => hkeeps d (List.mem_cons_of_mem _ hd)] at hn
    cases hn
    exact (hdeals.ready n).2 (.inr ⟨.marked id n, List.mem_cons_of_mem _ List.mem_cons_self, rfl⟩)

end Calls

/-- So are all of them once they were asked for their states. -/
theorem Saves.ready {r : Remote ρ κ} {f f' : Front ρ κ} {ids : List String} {t : Table Json}
    {ds : List (Deal κ)} {id : String} {n : Nat} (h : Saves r f ids t ds f') (hid : id ∈ ids)
    (hstateless : f.catalog.isStateless (SessionKey.parse id).group = true)
    (hn : Table.get? id f.registry = some n) : f'.isReady n = true := by
  induction h with
  | none => cases hid
  | next hcalls hdeals later ih =>
    have hn' := hdeals.names (hcalls.keeps id) hn
    rcases List.mem_cons.1 hid with rfl | hid
    · exact later.deals.stays_ready (hcalls.ready hdeals hstateless hn')
    · exact ih hid (hdeals.catalog ▸ hstateless) hn'

/-! ### Instructions -/

theorem Succeeded.mono {heard heard' : List (Move κ × Word κ)} {operation text : String} {args : Fields}
    (hsub : heard ⊆ heard') (h : Succeeded heard operation args text) :
    Succeeded heard' operation args text := by
  obtain ⟨client, hmem⟩ := h
  exact ⟨client, hsub hmem⟩

theorem Settled.mono {heard heard' : List (Move κ × Word κ)} {state : Json} {extra : Fields} {check : Bool}
    (hsub : heard ⊆ heard') (h : Settled heard state extra check) : Settled heard' state extra check := by
  obtain ⟨⟨message, hload⟩, hcheck⟩ := h
  refine ⟨⟨message, hload.mono hsub⟩, fun hc => ?_⟩
  obtain ⟨echo, v, hsave, hparse, hsame⟩ := hcheck hc
  exact ⟨echo, v, hsave.mono hsub, hparse, hsame⟩

/-- How an instruction earns the session at a place its readiness. -/
inductive Desk.Earns (r : Remote ρ κ) (d : Desk ρ κ) (n : Nat) (i : Instruction) : Prop
  /-- Its id is marked. -/
  | marked {id : String} (hi : i = .mark id) (hn : Table.get? id d.pool.registry = some n)
  /-- A state is loaded into it, and given back if that is asked for. -/
  | loaded {l : Loading} (hi : i.load? = some l) (hstate : isEmptyScenario l.state = false)
      (settled : Settled (heardAt n (d.heard r i)) l.state l.extra l.check)
  /-- An operation is called on it that loads nothing, and its group has no state. -/
  | stateless {id : String} (hi : (i.call? id).isSome = true)
      (hn : Table.get? id (d.obey r i).2.pool.registry = some n)
      (hstateless : d.pool.catalog.isStateless (SessionKey.parse id).group = true)

namespace Desk
variable {r : Remote ρ κ} {d d' : Desk ρ κ} {i : Instruction} {x : Upshot} {ds : List (Deal κ)} {n : Nat}

theorem Obeys.heardAt_mem (h : Obeys r d i x ds d') {deal : Deal κ} (hd : deal ∈ ds) :
    heardAt n deal.heard ⊆ heardAt n (d.heard r i) := by
  intro e he
  rw [h.heard, heardAt_flatMap]
  exact List.mem_flatMap.2 ⟨deal, hd, he⟩

/-- A deal that makes a session ready shows how the instruction earns it. -/
theorem Obeys.earns (h : Obeys r d i x ds d') {deal : Deal κ} (hd : deal ∈ ds) (hearns : deal.Earns n) :
    d.Earns r n i := by
  cases h.makes.permits hd with
  | marked hi hn =>
    obtain rfl := hearns
    exact .marked hi hn
  | @stateless id m hi hstateless =>
    obtain rfl := hearns
    refine .stateless hi ?_ hstateless
    rw [h.obey]
    -- The id named the session when it was marked, and a call takes no id away.
    have hkeeps := h.makes.keeps_call hi id
    obtain ⟨before, later, rfl⟩ := List.append_of_mem hd
    obtain ⟨f₁, -, hrest⟩ := h.deals.split
    cases hrest with
    | next first rest =>
      have hnamed : Table.get? id f₁.registry = some m := by
        cases first with
        | marked hn hs => exact hn
      exact rest.names (fun d hd => hkeeps d (List.mem_append_right _ (List.mem_cons_of_mem _ hd)))
        (first.names rfl hnamed)
  | loaded hi hstate => exact .loaded hi hstate (hearns.2.mono (h.heardAt_mem hd))
  | called | released | swept => exact hearns.2.elim
  | _ => exact hearns.elim

/-- Words are heard at the place where a job works. -/
theorem place_of_does {f f' : Front ρ κ} {stint : Stint κ} (h : Front.Does r f (.worked stint) f') :
    ∀ word ∈ stint.heard, word.place = stint.place := by
  cases h with
  | worked hs _ plays hl =>
    intro word hword
    obtain ⟨e, -, rfl⟩ := List.mem_map.1 hword
    rfl

/-- An instruction that loads does so by one job. -/
theorem Obeys.ready_loaded (h : Obeys r d i x ds d') {l : Loading} (hi : i.load? = some l)
    (settled : Settled (heardAt n (d.heard r i)) l.state l.extra l.check) : d'.pool.isReady n = true := by
  obtain ⟨y, -, hloads⟩ := h.makes.loads hi
  have hdeals := h.deals
  rw [h.heard] at settled
  have hsilent : ¬Settled ([] : List (Move κ × Word κ)) l.state l.extra l.check :=
    not_earns_nil (.load l.state l.extra l.check)
  cases hloads with
  | unknown | already | empty => exact absurd settled hsilent
  | @sent m y ds hready hstate hsent =>
    rcases hsent.inversion with ⟨-, -, rfl⟩ | ⟨result, heard, -, -, rfl⟩
    · exact absurd settled hsilent
    · have hall : heardAt n ((Deal.obtained l.session m :: [.worked ⟨m, .load l.state l.extra l.check, result,
          heard⟩]).flatMap Deal.heard) = heardAt n heard := by
        simp [Deal.heard]
      rw [hall] at settled
      have hplace : m = n := by
        obtain ⟨⟨message, client, hmem⟩, -⟩ := settled
        obtain ⟨word, hword, heq⟩ := List.mem_filterMap.1 hmem
        split at heq
        · rename_i hn
          cases hdeals with
          | next _ later =>
            cases later with
            | next job _ => exact (place_of_does job word hword).symm.trans hn
        · cases heq
      exact (hdeals.ready n).2 (.inr ⟨_, List.mem_cons_of_mem _ List.mem_cons_self, hplace, settled⟩)

/-- A call on a session whose group has no state makes it ready. -/
theorem Obeys.ready_stateless (h : Obeys r d i x ds d') (ht : d.pool.Quiet) {id : String}
    (hi : (i.call? id).isSome = true) (hn : Table.get? id d'.pool.registry = some n)
    (hstateless : d.pool.catalog.isStateless (SessionKey.parse id).group = true) :
    d'.pool.isReady n = true := by
  obtain ⟨⟨operation, args⟩, hcall⟩ := Option.isSome_iff_exists.1 hi
  by_cases hall : i = .order .saveAll
  · subst hall
    have hdeals := h.deals
    cases h.makes with
    | ordered hmakes =>
      cases hmakes with
      | saved hsaves =>
        have hnamed := hsaves.names ht.tidy hn
        have hid := (Table.mem_keys_iff ht.tidy.sorted).2 (Option.isSome_iff_exists.2 ⟨n, hnamed⟩)
        exact hsaves.ready hid hstateless hnamed
  · obtain ⟨y, -, hcalls⟩ := h.makes.calls hcall hall
    exact hcalls.ready h.deals hstateless hn

/-- An instruction makes the session at a place ready if it earns it, and not otherwise. -/
theorem ready_obey (hr : r.Prompt) (h : d.pool.Quiet) (i : Instruction) (n : Nat) :
    (d.obey r i).2.pool.isReady n = true ↔ d.pool.isReady n = true ∨ d.Earns r n i := by
  obtain ⟨x, ds, d', hobeys⟩ := obeys hr h i
  rw [hobeys.obey]
  constructor
  · intro hready
    rcases (hobeys.deals.ready n).1 hready with hready | ⟨deal, hd, hearns⟩
    · exact .inl hready
    · exact .inr (hobeys.earns hd hearns)
  · rintro (hready | hearns)
    · exact hobeys.deals.stays_ready hready
    cases hearns with
    | @marked id hi hn =>
      subst hi
      have hdeals := hobeys.deals
      cases hobeys.makes with
      | marked hn' =>
        rw [show Table.get? id d.pool.front.registry = some n from hn] at hn'
        cases hn'
        exact (hdeals.ready n).2 (.inr ⟨_, List.mem_cons_self, rfl⟩)
      | unmarked hnone =>
        rw [show Table.get? id d.pool.front.registry = some n from hn] at hnone
        cases hnone
    | loaded hi hstate settled => exact hobeys.ready_loaded hi settled
    | stateless hi hn hstateless =>
      rw [hobeys.obey] at hn
      exact hobeys.ready_stateless h hi hn hstateless

/-- What instructions one after the other make ready. -/
theorem ready_after (hr : r.Prompt) (n : Nat) (run : List Instruction) : ∀ {d : Desk ρ κ}, d.pool.Quiet →
    ((d.after r run).pool.isReady n = true ↔ d.pool.isReady n = true ∨
      ∃ before i later, run = before ++ i :: later ∧ (d.after r before).Earns r n i) := by
  induction run with
  | nil =>
    intro d _
    refine (or_iff_left ?_).symm
    rintro ⟨before, i, later, heq, -⟩
    cases before <;> cases heq
  | cons i run ih =>
    intro d h
    refine (ih (obey_quiet hr h i)).trans ?_
    rw [ready_obey hr h i n, or_assoc]
    refine or_congr_right ⟨?_, ?_⟩
    · rintro (hearns | ⟨before, j, later, rfl, hearns⟩)
      · exact ⟨[], i, run, rfl, hearns⟩
      · exact ⟨i :: before, j, later, rfl, hearns⟩
    · rintro ⟨before, j, later, heq, hearns⟩
      cases before with
      | nil =>
        cases heq
        exact .inl hearns
      | cons i' before =>
        cases heq
        exact .inr ⟨before, j, later, rfl, hearns⟩

end Desk

/-- After a load that is told of, its session is ready as its outcome says. -/
theorem Loads.tells {r : Remote ρ κ} {f f' : Front ρ κ} {id : String} {state : Json} {extra : Fields}
    {check : Bool} {y : Except PoolError LoadOutcome} {ds : List (Deal κ)}
    (h : Loads f id state extra check y ds) (hdeals : Front.Deals r f ds f') :
    (Table.get? id f'.registry = none ∧ ∃ e, y = .error e) ∨
      ∃ n, Table.get? id f'.registry = some n ∧ f'.isReady n = Station.readyAfter y := by
  have hidle : ∀ {m}, f.isReady m = false → Front.Deals r f [.obtained id m] f' → f'.isReady m = false := by
    intro m hready hdeals
    cases hdeals with
    | next first none =>
      cases none
      exact (first.idle m).trans hready
  cases h with
  | unknown hn =>
    cases hdeals
    exact .inl ⟨hn, _, rfl⟩
  | already hready => exact .inr ⟨_, hdeals.names_obtained nofun, hdeals.stays_ready hready⟩
  | empty hready => exact .inr ⟨_, hdeals.names_obtained nofun, hidle hready hdeals⟩
  | @sent m y ds hready hstate hsent =>
    rcases hsent.inversion with ⟨-, rfl, rfl⟩ | ⟨result, heard, -, rfl, rfl⟩
    · exact .inr ⟨_, hdeals.names_obtained nofun, hidle hready hdeals⟩
    · have hkeeps : ∀ d ∈ [Deal.worked ⟨m, .load state extra check, result, heard⟩], d.removes id = false := by
        intro d hd
        cases List.mem_singleton.1 hd
        rfl
      refine .inr ⟨_, hdeals.names_obtained hkeeps, ?_⟩
      cases hdeals with
      | next _ later =>
        cases later with
        | next job none =>
          cases none
          cases job with
          | worked hs _ plays hl => rw [Front.isReady_set hs rfl, if_pos rfl, plays.tells]

/-- The sessions of a pool, by their places, are ready exactly if they have earned it. -/
structure Earnest (r : Remote ρ κ) (p : Pool ρ κ) : Prop where
  returns : ∀ files before i, (((Desk.mk p files).after r before).obey r i).1 ≠ .stuck
  earned : ∀ files run n, ((Desk.mk p files).after r run).pool.isReady n = true ↔
    ∃ before i later, run = before ++ i :: later ∧ ((Desk.mk p files).after r before).Earns r n i
  kept : ∀ files before later n, ((Desk.mk p files).after r before).pool.isReady n = true →
    ((Desk.mk p files).after r (before ++ later)).pool.isReady n = true
  /-- A load tells whether its session is ready then. -/
  tells : ∀ files before i l, i.load? = some l →
    ∃ y d', ((Desk.mk p files).after r before).obey r i = (i.report y, d') ∧
      match y with
      | .ok o => ∃ n, Table.get? l.session d'.pool.registry = some n ∧ d'.pool.isReady n = o.isReady
      | .error _ => ∀ n, Table.get? l.session d'.pool.registry = some n → d'.pool.isReady n = false

/-- Where no call is held up, sessions are ready exactly if they have earned it. -/
theorem Remote.Prompt.earnest {r : Remote ρ κ} {p : Pool ρ κ} (hr : r.Prompt) (hp : p.Made r) : Earnest r p where
  returns files before i := Desk.returns hr (Desk.after_quiet hr before hp.quiet) i
  earned files run n := by
    have hnew : p.isReady n = false := by
      rw [Pool.isReady, hp.fresh.2.2]
      rfl
    refine (Desk.ready_after hr n run hp.quiet).trans (or_iff_right ?_)
    rw [hnew]
    exact Bool.false_ne_true
  kept files before later n h := by
    have hquiet : ((Desk.mk p files).after r before).pool.Quiet := Desk.after_quiet hr before hp.quiet
    rw [Desk.after_append, Desk.ready_after hr n later hquiet]
    exact .inl h
  tells files before i l hi := by
    have hquiet : ((Desk.mk p files).after r before).pool.Quiet := Desk.after_quiet hr before hp.quiet
    obtain ⟨x, ds, d', hobeys⟩ := Desk.obeys hr hquiet i
    obtain ⟨y, rfl, hloads⟩ := hobeys.makes.loads hi
    refine ⟨y, d', hobeys.obey, ?_⟩
    rcases hloads.tells hobeys.deals with ⟨hnone, e, rfl⟩ | ⟨n, hn, hready⟩
    · intro n hn
      rw [show Table.get? l.session d'.pool.registry = none from hnone] at hn
      cases hn
    · cases y with
      | ok o => exact ⟨n, hn, hready⟩
      | error e =>
        intro m hm
        rw [show Table.get? l.session d'.pool.registry = some n from hn] at hm
        cases hm
        exact hready

/-- A pool for two groups, of which one has no state. -/
def lounge : Pool Nat Nat := .ofCatalog
  [("cards", ⟨⟨"dealer", none, []⟩, []⟩),
    ("clock", ⟨⟨"tower", none, []⟩, [⟨"time", "", Operation.anyInput⟩]⟩)] {} 0

/-- Sessions that are loaded and not, closed and made again, marked and called. -/
def sojourn : List Instruction :=
  [.order (.load "cards-ada" (.bool true) [] false), .order (.load "cards-bob" (.str "first") [] true),
    .order (.close "cards-ada"), .order (.invoke "cards-ada" "deal" (.structured [])), .mark "cards-cleo",
    .order (.obtain "cards-cleo"), .mark "cards-cleo", .order (.obtain "clock-dan"), .order .saveAll]

theorem earnest_sojourn : Earnest tally lounge ∧
    ((Desk.mk lounge []).after tally sojourn).pool.readiness =
      [("cards-ada", false), ("cards-bob", false), ("cards-cleo", true), ("clock-dan", true)] :=
  ⟨Remote.Prompt.earnest (fun _ _ _ => rfl) (.ofCatalog ..), rfl⟩

end SessionPool
