import SessionPool.Proofs.Station

/-! Effects: what a move does to the session it is made on. A move either stays within the pool, and then
    its reply and its effect follow from the session alone, or it asks the server, and then both follow
    from the session and the server's word. `Shared.host` does just that; the lemmas at the end say it
    once for all moves, and nothing else needs to look at single moves. -/

namespace SessionPool

/-- What a server says when it is asked. -/
inductive Word (κ : Type) where
  | connected (reply : Except RemoteError κ)
  /-- The client is as it is after the call. -/
  | answered (answer : Answer) (client : κ)
  /-- There was no client to call. -/
  | missing
  | closed (reply : Except RemoteError Unit)

namespace Word
variable {κ : Type}

/-- The reply that a word is to a move; a job that dies gets none. -/
def reply : Word κ → (m : Move κ) → Option m.Reply
  | connected r, .connect => some (r.map fun _ => ())
  | answered (.replied r) _, .call _ _ => some r
  | missing, .call _ _ => some (.error (.unexpected "client unavailable"))
  | closed r, .close _ => some r
  | _, _ => none

/-- Whether a word may come from the server of a session that is asked by a move. -/
def Fits (s : Session κ) : Move κ → Word κ → Prop
  | .connect, connected _ => True
  | .call _ _, answered _ _ => s.client.isSome
  | .call _ _, missing => s.client = none
  | .close _, closed _ => True
  | _, _ => False

theorem Fits.isRemote {s : Session κ} {m : Move κ} {word : Word κ} (h : word.Fits s m) :
    m.isRemote = true := by
  cases m <;> first | rfl | exact h.elim

end Word

/-- What the server says to a move on a session. -/
def Remote.word {ρ κ : Type} (r : Remote ρ κ) (s : Session κ) (remote : ρ) : Move κ → Option (Word κ × ρ)
  | .connect => some (.connected (r.connect s.locator remote).1, (r.connect s.locator remote).2)
  | .call operation args =>
    match s.client with
    | none => some (.missing, remote)
    | some client =>
      let a := r.call client operation args remote
      some (.answered a.1.1 a.1.2, a.2)
  | .close client => some (.closed (r.close client remote).1, (r.close client remote).2)
  | _ => none

/-- The reply to a move that asks no server. -/
def Move.own? {κ : Type} (s : Session κ) : (m : Move κ) → Option m.Reply
  | .lock => some ()
  | .unlock => some ()
  | .look => some s
  | .markReady => some ()
  | .record _ _ _ => some ()
  | .seal => some s.client
  | _ => none

theorem Move.isRemote_of_own {κ : Type} {s : Session κ} {m : Move κ} {reply : m.Reply}
    (h : m.own? s = some reply) : m.isRemote = false := by
  cases m <;> first | rfl | cases h

theorem Move.own_of_not_remote {κ : Type} (s : Session κ) {m : Move κ} (h : m.isRemote = false) :
    ∃ reply, m.own? s = some reply := by
  cases m with
  | connect | call _ _ | close _ => cases h
  | _ => exact ⟨_, rfl⟩

namespace Session
variable {κ : Type}

/-- A session whose line a job stands in. -/
def lined (s : Session κ) (t : Nat) : Session κ :=
  { s with line := if s.line.contains t then s.line else s.line ++ [t] }

/-- A session after a move that asks no server. -/
def after (s : Session κ) (t : Nat) : Move κ → Session κ
  | .lock => s.lined t
  | .unlock => { s with line := s.line.erase t }
  | .markReady => { s with ready := true }
  | .seal => { s with closed := true, client := none }
  | _ => s

/-- A session after a word of its server; a job that dies of it leaves the line. -/
def hear (s : Session κ) (t : Nat) : Word κ → Session κ
  | .connected (.ok client) => { s with client := some client }
  | .answered (.replied _) client => { s with client := some client }
  | .answered .died client => { s with client := some client, line := s.line.erase t }
  | _ => s

theorem after_id (s : Session κ) (t : Nat) (m : Move κ) : (s.after t m).id = s.id := by
  cases m <;> rfl

theorem hear_id (s : Session κ) (t : Nat) (word : Word κ) : (s.hear t word).id = s.id := by
  unfold hear
  split <;> rfl

theorem after_locator (s : Session κ) (t : Nat) (m : Move κ) : (s.after t m).locator = s.locator := by
  cases m <;> rfl

theorem hear_locator (s : Session κ) (t : Nat) (word : Word κ) :
    (s.hear t word).locator = s.locator := by
  unfold hear
  split <;> rfl

theorem after_closed {s : Session κ} (m : Move κ) (t : Nat) (h : s.closed = true) :
    (s.after t m).closed = true := by
  cases m <;> first | exact h | rfl

theorem hear_closed (s : Session κ) (t : Nat) (word : Word κ) : (s.hear t word).closed = s.closed := by
  unfold hear
  split <;> rfl

theorem after_vacant {s : Session κ} (m : Move κ) (t : Nat) (h : s.closed = true → s.client = none)
    (hc : (s.after t m).closed = true) : (s.after t m).client = none := by
  cases m <;> first | exact h hc | rfl

theorem after_ready {s : Session κ} (m : Move κ) (t : Nat) (h : s.ready = true) :
    (s.after t m).ready = true := by
  cases m <;> first | exact h | rfl

theorem hear_ready (s : Session κ) (t : Nat) (word : Word κ) : (s.hear t word).ready = s.ready := by
  unfold hear
  split <;> rfl

end Session

/-- What a job has seen of its session and relies on. -/
def Station.Knows {κ : Type} (s : Session κ) : Station κ → Prop
  | .looking (.echo _ _) => s.closed = false ∧ s.client.isSome = true
  | .connecting (.echo _ _) => False
  | .connecting _ => s.closed = false ∧ s.client = none
  | .calling _ => s.closed = false ∧ s.client.isSome = true
  | .logging _ _ => s.closed = false ∧ s.client.isSome = true
  | .marking _ => s.closed = false ∧ s.client.isSome = true
  | .sealing id => id = s.id
  | .parting id _ => id = s.id ∧ s.closed = true
  | .closing id _ => id = s.id ∧ s.closed = true
  | _ => True

/-- The station after a word of the server; without a reply the job is dead. -/
def Station.heard {κ : Type} (st : Station κ) (m : Move κ) (word : Word κ) : Station κ :=
  match word.reply m with
  | some reply => st.after m reply
  | none => .dead

namespace Station
variable {κ : Type} {s : Session κ} {st : Station κ} {m : Move κ} {t : Nat}

theorem in_heard {w : Work} (hst : st.In w) (hm : st.move = some m) (word : Word κ) :
    (st.heard m word).In w := by
  unfold heard
  split
  · exact in_after hst hm _
  · exact trivial

theorem heard_ne_waiting (hm : st.move = some m) (word : Word κ) (w : Work) :
    st.heard m word ≠ waiting w := by
  unfold heard
  split
  · exact after_ne_waiting hm _ w
  · nofun

/-- Whoever asks the server from inside has seen that the session is open. -/
theorem open_of_remote (hk : st.Knows s) (hm : st.move = some m) (hr : m.isRemote = true)
    (hin : st.isInside = true) : s.closed = false := by
  cases st with
  | connecting p =>
    cases p with
    | echo _ _ => exact hk.elim
    | _ => exact hk.1
  | calling p => exact hk.1
  | closing _ _ | ended _ | dead => cases hin
  | _ => cases hm; cases hr

theorem knows_served {p : Purpose} {text : String} (h : s.closed = false ∧ s.client.isSome = true) :
    (served p text).Knows s := by
  cases p with
  | use operation args => exact trivial
  | load state extra check => cases check <;> exact h
  | echo state message =>
    simp only [served]
    split
    · exact h
    · exact trivial

/-- What a job knows follows from what it has seen, as long as nobody else moves. -/
theorem knows_after {reply : m.Reply} (hk : st.Knows s) (hm : st.move = some m)
    (ho : m.own? s = some reply) : (st.after m reply).Knows (s.after t m) := by
  cases st with
  | waiting w => cases hm; cases w <;> exact trivial
  | checking state extra check =>
    cases hm; cases ho
    simp only [after]
    split <;> exact trivial
  | looking p =>
    cases hm; cases ho
    simp only [after]
    split
    · exact trivial
    rename_i hc
    have hc : s.closed = false := Bool.eq_false_iff.2 hc
    split
    · rename_i hs
      exact ⟨hc, hs⟩
    · rename_i hs
      have hnone := Option.not_isSome_iff_eq_none.1 hs
      cases p with
      | echo _ _ => exact hs hk.2
      | _ => exact ⟨hc, hnone⟩
  | logging p text => cases hm; exact knows_served hk
  | marking o => cases hm; exact trivial
  | leaving result => cases hm; exact trivial
  | retiring => cases hm; cases ho; exact rfl
  | sealing id => cases hm; exact ⟨hk, rfl⟩
  | parting id client =>
    cases hm
    cases client with
    | none => exact trivial
    | some c => exact hk
  | connecting p | calling p | closing id c => cases hm; cases ho
  | ended result | dead => cases hm

theorem knows_heard {word : Word κ} (hk : st.Knows s) (hm : st.move = some m)
    (hw : word.Fits s m) : (st.heard m word).Knows (s.hear t word) := by
  cases st with
  | connecting p =>
    cases hm
    cases word with
    | connected reply =>
      cases reply with
      | error e => exact trivial
      | ok c =>
        cases p with
        | echo _ _ => exact hk.elim
        | _ => exact ⟨hk.1, rfl⟩
    | _ => exact hw.elim
  | calling p =>
    cases hm
    cases word with
    | answered answer c =>
      cases answer with
      | died => exact trivial
      | replied reply =>
        cases reply with
        | error e => exact trivial
        | ok text => exact ⟨hk.1, rfl⟩
    | missing => exact trivial
    | _ => exact hw.elim
  | closing id c =>
    cases hm
    cases word with
    | closed reply => exact trivial
    | _ => exact hw.elim
  | ended result | dead => cases hm
  | _ => cases hm; exact hw.elim

theorem knows_congr {s' : Session κ} (hi : s'.id = s.id) (hc : s'.closed = s.closed)
    (hcl : s'.client = s.client) : st.Knows s' = st.Knows s := by
  cases st with
  | looking p | connecting p => cases p <;> simp only [Knows, hc, hcl]
  | _ => simp only [Knows, hi, hc, hcl]

/-- What is known outside of the line holds for good. -/
theorem knows_outside {s' : Session κ} (hk : st.Knows s) (hst : st.isInside = false) (hi : s'.id = s.id)
    (hc : s.closed = true → s'.closed = true) : st.Knows s' := by
  cases st with
  | closing id c => exact ⟨hk.1.trans hi.symm, hc hk.2⟩
  | waiting w | ended result | dead => exact trivial
  | _ => cases hst

/-- A move within the pool is the way into the session, the way out of it, or made inside. -/
theorem own_cases {reply : m.Reply} (hm : st.move = some m) (ho : m.own? s = some reply) :
    (m = .lock ∧ (∃ w, st = .waiting w) ∧ (st.after m reply).isInside = true) ∨
    (m = .unlock ∧ st.isInside = true ∧ (st.after m reply).isInside = false) ∨
    (st.isInside = true ∧ (st.after m reply).isInside = true ∧ ∀ t, (s.after t m).line = s.line) := by
  cases st with
  | waiting w => cases hm; exact .inl ⟨rfl, ⟨w, rfl⟩, by cases w <;> rfl⟩
  | checking state extra check =>
    cases hm
    refine .inr (.inr ⟨rfl, ?_, fun _ => rfl⟩)
    simp only [after]
    split <;> rfl
  | looking p =>
    cases hm
    refine .inr (.inr ⟨rfl, ?_, fun _ => rfl⟩)
    simp only [after]
    split
    · rfl
    · split <;> rfl
  | logging p text =>
    cases hm
    refine .inr (.inr ⟨rfl, ?_, fun _ => rfl⟩)
    cases p with
    | use operation args => rfl
    | load state extra check => cases check <;> rfl
    | echo state message =>
      simp only [after, served]
      split <;> rfl
  | leaving result => cases hm; exact .inr (.inl ⟨rfl, rfl, rfl⟩)
  | parting id client => cases hm; exact .inr (.inl ⟨rfl, rfl, by cases client <;> rfl⟩)
  | marking _ | retiring | sealing _ => cases hm; exact .inr (.inr ⟨rfl, rfl, fun _ => rfl⟩)
  | connecting p | calling p | closing id c => cases hm; cases ho
  | ended result | dead => cases hm

/-- A word of the server is heard inside, where one stays unless one dies of it, or it is the last. -/
theorem heard_cases {word : Word κ} (hm : st.move = some m) (hw : word.Fits s m) :
    (st.isInside = true ∧ (st.heard m word).isInside = true ∧ (s.hear t word).line = s.line) ∨
    (st.isInside = true ∧ st.heard m word = .dead ∧ (s.hear t word).line = s.line.erase t) ∨
    (∃ id c reply, st = .closing id c ∧ word = .closed reply) := by
  cases st with
  | connecting p =>
    cases hm
    cases word with
    | connected reply => cases reply <;> exact .inl ⟨rfl, rfl, rfl⟩
    | _ => exact hw.elim
  | calling p =>
    cases hm
    cases word with
    | answered answer c =>
      cases answer with
      | died => exact .inr (.inl ⟨rfl, rfl, rfl⟩)
      | replied reply => cases reply <;> exact .inl ⟨rfl, rfl, rfl⟩
    | missing => exact .inl ⟨rfl, rfl, rfl⟩
    | _ => exact hw.elim
  | closing id c =>
    cases hm
    cases word with
    | closed reply => exact .inr (.inr ⟨id, c, reply, rfl, rfl⟩)
    | _ => exact hw.elim
  | ended result | dead => cases hm
  | _ => cases hm; exact hw.elim

/-- With nobody else there, the line is who is inside. -/
theorem line_after {reply : m.Reply} (hm : st.move = some m) (ho : m.own? s = some reply)
    (hs : s.line = if st.isInside then [t] else []) :
    (s.after t m).line = if (st.after m reply).isInside then [t] else [] := by
  rcases own_cases hm ho with ⟨rfl, ⟨w, rfl⟩, hin⟩ | ⟨rfl, hin, hout⟩ | ⟨hin, hin', hsame⟩
  · have hnil : s.line = [] := hs
    rw [hin]
    show (s.lined t).line = [t]
    simp [Session.lined, hnil]
  · rw [hin] at hs
    rw [hout]
    show s.line.erase t = []
    simp [hs]
  · rw [hsame, hs, hin, hin']

theorem line_heard {word : Word κ} (hm : st.move = some m) (hw : word.Fits s m)
    (hs : s.line = if st.isInside then [t] else []) :
    (s.hear t word).line = if (st.heard m word).isInside then [t] else [] := by
  rcases heard_cases (t := t) hm hw with ⟨hin, hin', hsame⟩ | ⟨hin, hdead, hsame⟩ |
    ⟨i, c, reply, rfl, rfl⟩
  · rw [hsame, hs, hin, hin']
  · rw [hin] at hs
    rw [hsame, hdead, hs]
    simp [isInside]
  · cases hm
    exact hs

end Station

theorem set_self {α : Type} {l : List α} {n : Nat} {a : α} (h : l[n]? = some a) : l.set n a = l := by
  obtain ⟨hn, rfl⟩ := List.getElem?_eq_some_iff.1 h
  exact List.set_getElem_self hn

/-- What a move writes into the log. -/
def CallLog.after {κ : Type} (log : CallLog) (id : String) : Move κ → CallLog
  | .record operation args text => log.record id (.tool operation (.obj args) text)
  | _ => log

/-- The state in which an action leaves things. -/
def Turn.state {σ ρ : Type} : Turn σ ρ → σ
  | .went _ s _ => s
  | .waits s => s
  | .occupies s => s
  | .died s _ => s

/-- Whom an action wakes. -/
def Turn.woken {σ ρ : Type} : Turn σ ρ → List Nat
  | .went _ _ woken => woken
  | .waits _ => []
  | .occupies _ => []
  | .died _ woken => woken

namespace Shared
variable {ρ κ : Type} {r : Remote ρ κ} {t n : Nat} {w : Shared ρ κ} {s : Session κ}

/-- What is shared after a move that asks no server. -/
def own (w : Shared ρ κ) (t n : Nat) (s : Session κ) (m : Move κ) : Shared ρ κ :=
  { w with sessions := w.sessions.set n (s.after t m), log := w.log.after s.id m }

/-- What is shared after a word of a server. -/
def heard (w : Shared ρ κ) (t n : Nat) (s : Session κ) (word : Word κ) (remote : ρ) : Shared ρ κ :=
  { w with sessions := w.sessions.set n (s.hear t word), remote := remote }

/-- A move that asks no server goes, unless it is to stand in a line behind others. -/
theorem host_own (hs : w.sessions[n]? = some s) {m : Move κ} {reply : m.Reply}
    (hm : m.own? s = some reply) :
    (∃ woken, host r t ⟨n, m⟩ w = .went reply (w.own t n s m) woken ∧
        (m = .lock → (s.lined t).line.head? = some t)) ∨
      (host r t ⟨n, m⟩ w = .waits (w.put n (s.lined t)) ∧ m = .lock ∧
        (s.lined t).line.head? ≠ some t) := by
  cases m with
  | lock =>
    cases hm
    have hline : host r t ⟨n, .lock⟩ w = if (s.lined t).line.head? = some t
        then .went () (w.put n (s.lined t)) [] else .waits (w.put n (s.lined t)) := by
      simp only [host, hs, move]; rfl
    by_cases h : (s.lined t).line.head? = some t
    · exact .inl ⟨[], by rw [hline, if_pos h]; rfl, fun _ => h⟩
    · exact .inr ⟨by rw [hline, if_neg h], rfl, h⟩
  | look | record _ _ _ =>
    cases hm
    exact .inl ⟨[], by simp only [host, hs, move, own, Session.after, set_self hs]; rfl, nofun⟩
  | connect | call _ _ | close _ => cases hm
  | _ => cases hm; exact .inl ⟨_, by simp only [host, hs, move]; rfl, nofun⟩

/-- What a job gets that asks a server: the reply that the server's word is, or its death. -/
def turn (w : Shared ρ κ) (m : Move κ) (reply : Option m.Reply) (woken : List Nat) :
    Turn (Shared ρ κ) m.Reply :=
  match reply with
  | some reply => .went reply w woken
  | none => .died w woken

theorem turn_inj {w' : Shared ρ κ} {m : Move κ} {reply reply' : Option m.Reply} {woken woken' : List Nat}
    (h : turn w m reply woken = turn w' m reply' woken') : w = w' ∧ reply = reply' := by
  cases reply <;> cases reply' <;> cases h <;> exact ⟨rfl, rfl⟩

/-- A move that asks a server waits while the server lets nothing through, and otherwise the server has
    its word. -/
theorem host_remote (hs : w.sessions[n]? = some s) {m : Move κ} {word : Word κ} {remote : ρ}
    (hm : r.word s w.remote m = some (word, remote)) :
    word.Fits s m ∧ (host r t ⟨n, m⟩ w = .waits w ∨
      ∃ woken, host r t ⟨n, m⟩ w = turn (w.heard t n s word remote) m (word.reply m) woken) := by
  cases m with
  | connect =>
    cases hm
    refine ⟨trivial, .inr ⟨[], ?_⟩⟩
    simp only [host, hs, move]
    cases h : r.connect s.locator w.remote with
    | mk reply remote =>
      cases reply with
      | error e => simp only [turn, heard, Word.reply, Session.hear, set_self hs]; rfl
      | ok client => rfl
  | call operation args =>
    cases hc : s.client with
    | none =>
      simp only [Remote.word, hc, Option.some.injEq, Prod.mk.injEq] at hm
      obtain ⟨rfl, rfl⟩ := hm
      refine ⟨hc, .inr ⟨[], ?_⟩⟩
      simp only [host, hs, move, hc, turn, heard, Word.reply, Session.hear, set_self hs]
    | some client =>
      simp only [Remote.word, hc, Option.some.injEq, Prod.mk.injEq] at hm
      obtain ⟨rfl, rfl⟩ := hm
      refine ⟨by simp [Word.Fits, hc], ?_⟩
      simp only [host, hs, move, hc]
      split
      · exact .inl rfl
      · cases h : r.call client operation args w.remote with
        | mk a remote =>
        obtain ⟨answer, client'⟩ := a
        cases answer with
        | replied reply => exact .inr ⟨[], rfl⟩
        | died => exact .inr ⟨_, rfl⟩
  | close client =>
    cases hm
    refine ⟨trivial, .inr ⟨[], ?_⟩⟩
    simp only [host, hs, move, turn, heard, Word.reply, Session.hear, set_self hs]
  | _ => cases hm

/-- Servers that let everything through answer at once. -/
theorem host_prompt {m : Move κ} {word : Word κ} {remote : ρ}
    (hr : ∀ client operation remote, r.stalls client operation remote = false)
    (hs : w.sessions[n]? = some s) (hm : r.word s w.remote m = some (word, remote)) :
    ∃ woken, host r t ⟨n, m⟩ w = turn (w.heard t n s word remote) m (word.reply m) woken := by
  rcases (host_remote (t := t) hs hm).2 with hwait | hgo
  · cases m with
    | call operation args =>
      simp only [host, hs, move, hr] at hwait
      cases hc : s.client with
      | none => simp [hc] at hwait
      | some client =>
        simp only [hc, Bool.false_eq_true, if_false] at hwait
        split at hwait <;> cases hwait
    | connect =>
      simp only [host, hs, move] at hwait
      split at hwait <;> cases hwait
    | close client =>
      simp only [host, hs, move] at hwait
      cases hwait
    | _ => cases hm
  · exact hgo

theorem word_of_remote (s : Session κ) {m : Move κ} (h : m.isRemote = true) :
    ∃ word remote, r.word s w.remote m = some (word, remote) := by
  cases m with
  | connect | close _ => exact ⟨_, _, rfl⟩
  | call operation args =>
    simp only [Remote.word]
    cases s.client with
    | none => exact ⟨_, _, rfl⟩
    | some client => exact ⟨_, _, rfl⟩
  | _ => cases h

theorem names_set {s s' : Session κ} {l : List (Session κ)} (hs : l[n]? = some s) (hid : s'.id = s.id) :
    (l.set n s').map Session.id = l.map Session.id := by
  rw [List.map_set, hid]
  exact set_self (by rw [List.getElem?_map, hs]; rfl)

/-- No deed makes a session, takes one away or gives it another name. -/
theorem host_names (r : Remote ρ κ) (t : Nat) (d : Deed κ) (w : Shared ρ κ) :
    (host r t d w).state.sessions.map Session.id = w.sessions.map Session.id := by
  obtain ⟨n, m⟩ := d
  cases hs : w.sessions[n]? with
  | none => simp only [host, hs]; rfl
  | some s =>
    cases hr : m.isRemote with
    | false =>
      obtain ⟨reply, ho⟩ := Move.own_of_not_remote s hr
      rcases host_own (r := r) (t := t) hs ho with ⟨woken, hgo, -⟩ | ⟨hwait, -⟩
      · rw [hgo]; exact names_set hs (Session.after_id ..)
      · rw [hwait]; exact names_set hs rfl
    | true =>
      obtain ⟨word, remote, hword⟩ := word_of_remote (r := r) (w := w) s hr
      rcases (host_remote (t := t) hs hword).2 with hwait | ⟨woken, hgo⟩
      · rw [hwait]; rfl
      · rw [hgo]
        cases word.reply m <;> exact names_set hs (Session.hear_id ..)

/-- No deed makes a session or takes one away. -/
theorem host_length (r : Remote ρ κ) (t : Nat) (d : Deed κ) (w : Shared ρ κ) :
    (host r t d w).state.sessions.length = w.sessions.length := by
  have h := congrArg List.length (host_names r t d w)
  rwa [List.length_map, List.length_map] at h

/-- A deed that goes within the pool writes what its move says. -/
theorem host_log_own {m : Move κ} {reply : m.Reply} {w' : Shared ρ κ} {woken : List Nat}
    (hs : w.sessions[n]? = some s) (hr : m.isRemote = false)
    (hw : host r t ⟨n, m⟩ w = .went reply w' woken) : w'.log = w.log.after s.id m := by
  obtain ⟨reply', ho⟩ := Move.own_of_not_remote s hr
  rcases host_own (r := r) (t := t) hs ho with ⟨woken', hgo, -⟩ | ⟨hwait, -⟩
  · rw [hgo] at hw
    cases hw
    rfl
  · rw [hwait] at hw
    cases hw

/-- Who waits, and who asks a server, writes nothing. -/
theorem host_log {m : Move κ} (hs : w.sessions[n]? = some s)
    (h : m.isRemote = true ∨ ∃ w', host r t ⟨n, m⟩ w = .waits w') :
    (host r t ⟨n, m⟩ w).state.log = w.log := by
  cases hr : m.isRemote with
  | false =>
    obtain ⟨reply, ho⟩ := Move.own_of_not_remote s hr
    rcases host_own (r := r) (t := t) hs ho with ⟨woken, hgo, -⟩ | ⟨hwait, -⟩
    · rw [hr, hgo] at h
      rcases h with h | ⟨w', h⟩ <;> cases h
    · rw [hwait]
      rfl
  | true =>
    obtain ⟨word, remote, hword⟩ := word_of_remote (r := r) (w := w) s hr
    rcases (host_remote (t := t) hs hword).2 with hwait | ⟨woken, hgo⟩
    · rw [hwait]
      rfl
    · rw [hgo]
      cases word.reply m <;> rfl

/-- A job with nobody behind it wakes nobody. -/
theorem host_woken (hs : w.sessions[n]? = some s) (hl : s.line = [] ∨ s.line = [t]) (m : Move κ) :
    (host r t ⟨n, m⟩ w).woken = [] := by
  have hnone : (depart s.line t).2 = [] := by
    rcases hl with hl | hl <;> simp [depart, hl]
  cases m with
  | unlock =>
    simp only [host, hs, move]
    exact hnone
  | call operation args =>
    simp only [host, hs, move]
    split
    · rfl
    · split
      · rfl
      · split
        · rfl
        · exact hnone
  | lock =>
    simp only [host, hs, move]
    split <;> (split <;> rfl)
  | connect =>
    simp only [host, hs, move]
    split <;> rfl
  | look | markReady | record _ _ _ | «seal» | close _ =>
    simp only [host, hs, move]
    rfl

/-- A job that does not stand in line goes on by a move that asks no server. -/
theorem advance_own {p : Errand κ (Except PoolError Yield)} {st : Station κ} {m : Move κ}
    {reply : m.Reply} (hs : w.sessions[n]? = some s) (hp : Errand.Follows n p st)
    (hm : st.move = some m) (ho : m.own? s = some reply) (hl : m ≠ .lock) :
    ∃ rest, Errand.Follows n rest (st.after m reply) ∧
      (p.advance (host r t) w).progress = (rest.advance (host r t) (w.own t n s m)).progress ∧
      (p.advance (host r t) w).state = (rest.advance (host r t) (w.own t n s m)).state := by
  cases p with
  | done result => cases hp; cases hm
  | act d next =>
    obtain ⟨m', mv⟩ := d
    obtain ⟨rfl, hm', hnext⟩ := hp
    obtain rfl : m = mv := Option.some.inj (hm.symm.trans hm')
    rcases host_own (r := r) (t := t) hs ho with ⟨woken, hgo, -⟩ | ⟨-, hlock, -⟩
    · refine ⟨next reply, hnext reply, ?_, ?_⟩ <;> (rw [Program.advance, hgo])
    · exact absurd hlock hl

theorem own_session (hs : w.sessions[n]? = some s) (t : Nat) (m : Move κ) :
    (w.own t n s m).sessions[n]? = some (s.after t m) :=
  List.getElem?_set_self (List.getElem?_eq_some_iff.1 hs).1

theorem heard_session (hs : w.sessions[n]? = some s) (t : Nat) (word : Word κ) (remote : ρ) :
    (w.heard t n s word remote).sessions[n]? = some (s.hear t word) :=
  List.getElem?_set_self (List.getElem?_eq_some_iff.1 hs).1

theorem advance_ended {p : Errand κ (Except PoolError Yield)} {result : Except PoolError Yield}
    (hp : Errand.Follows n p (.ended result)) :
    (p.advance (host r t) w).progress = .finished result ∧
      (p.advance (host r t) w).state.remote = w.remote := by
  cases p with
  | done result' => cases hp; exact ⟨rfl, rfl⟩
  | act d next => cases hp.2.1

/-- A job that is about to leave ends, and asks no server. -/
theorem advance_leaving {p : Errand κ (Except PoolError Yield)} {result : Except PoolError Yield}
    (hs : w.sessions[n]? = some s) (hp : Errand.Follows n p (.leaving result)) :
    (p.advance (host r t) w).progress = .finished result ∧
      (p.advance (host r t) w).state.remote = w.remote := by
  obtain ⟨rest, hrest, hprogress, hstate⟩ := advance_own (r := r) (t := t) hs hp rfl rfl nofun
  rw [hprogress, hstate]
  exact advance_ended hrest

end Shared
end SessionPool
