import SessionPool.Proofs.Lockstep
import SessionPool.Proofs.Replay
import SessionPool.Proofs.Watch

/-! Plays: what work comes to on a session that nobody else moves on, when every call gets through. A play
    follows the stations of the work, from one to the next; it depends on the session, on what the servers
    share and on what they say, and on nothing else. Whatever is shown of work is shown along plays, by
    cases on stations. -/

namespace SessionPool

/-- What a job came to: its result, if it did not die, the session and the servers then, the words that it
    heard and the entries that it made. -/
structure Play (ρ κ : Type) where
  result : Option (Except PoolError Yield)
  session : Session κ
  remote : ρ
  heard : List (Move κ × Word κ) := []
  noted : List LogEntry := []

/-- The entry that a move makes. -/
def Move.noted? {κ : Type} : Move κ → Option LogEntry
  | .record operation args text => some (.tool operation (.obj args) text)
  | _ => none

theorem CallLog.after_entry {κ : Type} (log : CallLog) (id : String) (m : Move κ) :
    log.after id m = log.write id m.noted?.toList := by
  cases m <;> rfl

variable {ρ κ : Type}

/-- From a station on a session, a job with a ticket comes to a play. -/
inductive Station.Plays (r : Remote ρ κ) (t : Nat) : Station κ → Session κ → ρ → Play ρ κ → Prop
  | ended {result : Except PoolError Yield} {s : Session κ} {x : ρ} :
      Plays r t (.ended result) s x { result := some result, session := s, remote := x }
  | own {st : Station κ} {s : Session κ} {x : ρ} {m : Move κ} {reply : m.Reply} {e : Play ρ κ}
      (hm : st.move = some m) (ho : m.own? s = some reply)
      (later : Plays r t (st.after m reply) (s.after t m) x e) :
      Plays r t st s x { e with noted := m.noted?.toList ++ e.noted }
  | hear {st : Station κ} {s : Session κ} {x x' : ρ} {m : Move κ} {word : Word κ} {reply : m.Reply}
      {e : Play ρ κ} (hm : st.move = some m) (hw : r.word s x m = some (word, x'))
      (hreply : word.reply m = some reply) (later : Plays r t (st.after m reply) (s.hear t word) x' e) :
      Plays r t st s x { e with heard := (m, word) :: e.heard }
  | dies {st : Station κ} {s : Session κ} {x x' : ρ} {m : Move κ} {word : Word κ} (hm : st.move = some m)
      (hw : r.word s x m = some (word, x')) (hreply : word.reply m = none) :
      Plays r t st s x { result := none, session := s.hear t word, remote := x', heard := [(m, word)] }

namespace Play

/-- How far the program of the job got. -/
def progress (e : Play ρ κ) : Program.Progress (Deed κ) Deed.Reply (Except PoolError Yield) :=
  match e.result with
  | some result => .finished result
  | none => .died

/-- Where the job stands in the end. -/
def last (e : Play ρ κ) : Station κ :=
  match e.result with
  | some result => .ended result
  | none => .dead

/-- The words that were heard, at a place. -/
def words (e : Play ρ κ) (n : Nat) (id : String) : List (Heard κ) :=
  e.heard.map fun h => ⟨n, id, h.1, h.2⟩

end Play

namespace Shared

/-- What is shared after a play at a place. -/
def played (w : Shared ρ κ) (n : Nat) (id : String) (e : Play ρ κ) : Shared ρ κ :=
  { sessions := w.sessions.set n e.session, log := w.log.write id e.noted, remote := e.remote }

variable {r : Remote ρ κ} {n t : Nat} {w : Shared ρ κ} {s : Session κ} {st : Station κ} {m : Move κ}

theorem listen_own {reply : m.Reply} (hs : w.sessions[n]? = some s) (ho : m.own? s = some reply) :
    listen r ⟨n, m⟩ w = [] := by
  rw [listen]
  simp only [hs]
  cases m with
  | connect | call _ _ | close _ => cases ho
  | _ => rfl

theorem listen_word {word : Word κ} {x : ρ} (hs : w.sessions[n]? = some s)
    (hw : r.word s w.remote m = some (word, x)) : listen r ⟨n, m⟩ w = [⟨n, s.id, m, word⟩] := by
  rw [listen]
  simp only [hs, hw]

/-- Alone on a session, a job that is watched comes to a play, wherever it is. -/
theorem watch_plays (hr : r.Prompt) : ∀ (p : Errand κ (Except PoolError Yield)) (hs : List (Heard κ))
    {st : Station κ} {w : Shared ρ κ} {s : Session κ}, Errand.Follows n p st →
    w.sessions[n]? = some s → (s.line = if st.isInside then [t] else []) →
    ∃ e, st.Plays r t s w.remote e ∧ e.session.line = [] ∧
      p.advance (watch r t) (w, hs) = ⟨e.progress, (w.played n s.id e, hs ++ e.words n s.id), []⟩ := by
  intro p
  induction p with
  | done result =>
    intro hs st w s hp hat hl
    cases hp
    refine ⟨_, .ended, hl, ?_⟩
    simp only [Program.advance, Play.progress, played, set_self hat, CallLog.write, List.foldl_nil, Play.words,
      List.map_nil, List.append_nil]
  | act d next ih =>
    intro hs st w s hp hat hl
    obtain ⟨n₀, m⟩ := d
    obtain ⟨rfl, hm, hnext⟩ := hp
    cases hremote : m.isRemote with
    | false =>
      obtain ⟨reply, ho⟩ := Move.own_of_not_remote s hremote
      have hgo := host_own_alone (r := r) hat hm ho hl
      obtain ⟨e, hplays, hline, hadvance⟩ := ih reply hs (hnext reply) (own_session hat t m)
        (Station.line_after hm ho hl)
      refine ⟨_, .own hm ho hplays, hline, ?_⟩
      rw [Program.advance, watch, hgo, listen_own hat ho, List.append_nil]
      simp only [Turn.beside, hadvance]
      simp only [Play.progress, played, own, List.set_set, CallLog.after_entry, ← CallLog.write_append,
        Session.after_id, Play.words, List.append_nil]
    | true =>
      obtain ⟨word, x, hword⟩ := word_of_remote (r := r) (w := w) s hremote
      have hfits := (host_remote (t := t) hat hword).1
      have hgo := host_word_alone (t := t) hr hat hword hl
      have hline := Station.line_heard hm hfits hl
      cases hreply : word.reply m with
      | none =>
        rw [hreply] at hgo
        rw [Station.heard, hreply] at hline
        refine ⟨_, .dies hm hword hreply, hline, ?_⟩
        rw [Program.advance, watch, hgo, listen_word hat hword]
        simp only [turn, Turn.beside]
        rfl
      | some reply =>
        rw [hreply] at hgo
        rw [Station.heard, hreply] at hline
        obtain ⟨e, hplays, hlast, hadvance⟩ := ih reply (hs ++ [⟨n₀, s.id, m, word⟩]) (hnext reply)
          (heard_session hat t word x) hline
        refine ⟨_, .hear hm hword hreply hplays, hlast, ?_⟩
        rw [Program.advance, watch, hgo, listen_word hat hword]
        simp only [turn, Turn.beside, hadvance]
        simp only [Play.progress, played, heard, List.set_set, Session.hear_id, Play.words, List.map_cons,
          List.append_assoc, List.singleton_append, List.append_nil]

end Shared

/-- What a server says fits what it is asked. -/
theorem Remote.word_fits {r : Remote ρ κ} {s : Session κ} {x x' : ρ} {m : Move κ} {word : Word κ}
    (h : r.word s x m = some (word, x')) : word.Fits s m := by
  cases m with
  | connect | close _ =>
    cases h
    exact trivial
  | call operation args =>
    rw [Remote.word] at h
    split at h
    · rename_i hc
      cases h
      exact hc
    · rename_i client hc
      cases h
      exact Option.isSome_iff_exists.2 ⟨client, hc⟩
  | _ => cases h

/-- Only a release closes a session. -/
theorem Station.open_after {st : Station κ} {s : Session κ} {m : Move κ} {w : Work} (hst : st.In w)
    (hw : w ≠ .release) (hopen : s.closed = false) (hm : st.move = some m) (t : Nat) :
    (s.after t m).closed = false := by
  cases st with
  | sealing id => exact absurd hst hw
  | ended _ | dead => cases hm
  | _ => cases hm; exact hopen

namespace Station.Plays
variable {r : Remote ρ κ} {t : Nat} {st : Station κ} {s : Session κ} {x : ρ} {e e' : Play ρ κ}

/-- A job that dies, or stays within the pool, has no choice. -/
theorem isRemote_of_word {m : Move κ} {word : Word κ} {x' : ρ} (h : r.word s x m = some (word, x')) :
    m.isRemote = true := by
  cases m <;> first | rfl | cases h

/-- A session keeps its name and its place in the catalog. -/
theorem keeps (h : st.Plays r t s x e) : e.session.id = s.id ∧ e.session.locator = s.locator := by
  induction h with
  | ended => exact ⟨rfl, rfl⟩
  | own _ _ _ ih => exact ⟨ih.1.trans (Session.after_id ..), ih.2.trans (Session.after_locator ..)⟩
  | hear _ _ _ _ ih => exact ⟨ih.1.trans (Session.hear_id ..), ih.2.trans (Session.hear_locator ..)⟩
  | dies => exact ⟨Session.hear_id .., Session.hear_locator ..⟩

/-- What every station hands on to the next holds at the end. -/
theorem ends {P : Station κ → Session κ → ρ → Prop}
    (hown : ∀ {st s x m} {reply : m.Reply}, P st s x → st.move = some m → m.own? s = some reply →
      P (st.after m reply) (s.after t m) x)
    (hhear : ∀ {st s x m word x'}, P st s x → st.move = some m → r.word s x m = some (word, x') →
      P (st.heard m word) (s.hear t word) x')
    (h : st.Plays r t s x e) (hP : P st s x) : P e.last e.session e.remote := by
  induction h with
  | ended => exact hP
  | own hm ho _ ih => exact ih (hown hP hm ho)
  | hear hm hw hreply _ ih =>
    have hnext := hhear hP hm hw
    rw [Station.heard, hreply] at hnext
    exact ih hnext
  | dies hm hw hreply =>
    have hnext := hhear hP hm hw
    rw [Station.heard, hreply] at hnext
    exact hnext

/-- A session stays open unless it is released. -/
theorem stays_open {w : Work} (h : (waiting w).Plays r t s x e) (hw : w ≠ .release) (hopen : s.closed = false) :
    e.session.closed = false := by
  refine (h.ends (P := fun st s _ => st.In w ∧ s.closed = false) ?_ ?_ ⟨rfl, hopen⟩).2
  · rintro st s x m reply ⟨hst, hopen⟩ hm -
    exact ⟨in_after hst hm reply, open_after hst hw hopen hm t⟩
  · rintro st s x m word x' ⟨hst, hopen⟩ hm -
    exact ⟨in_heard hst hm word, (Session.hear_closed ..).trans hopen⟩

/-! ### Step by step -/

section Steps
variable {x' : ρ} {m : Move κ} {word : Word κ} {reply : m.Reply}

/-- A play goes on after a move within the pool. -/
theorem of_own (h : st.Plays r t s x e) (hm : st.move = some m) (ho : m.own? s = some reply) :
    ∃ later, (st.after m reply).Plays r t (s.after t m) x later ∧
      e = { later with noted := m.noted?.toList ++ later.noted } := by
  cases h with
  | ended => cases hm
  | own hm' ho' later =>
    obtain rfl := Option.some.inj (hm.symm.trans hm')
    obtain rfl := Option.some.inj (ho.symm.trans ho')
    exact ⟨_, later, rfl⟩
  | hear hm' hw | dies hm' hw =>
    obtain rfl := Option.some.inj (hm.symm.trans hm')
    have hremote := isRemote_of_word hw
    rw [Move.isRemote_of_own ho] at hremote
    cases hremote

/-- A play goes on after a word of the server, if the word is a reply. -/
theorem of_word (h : st.Plays r t s x e) (hm : st.move = some m) (hw : r.word s x m = some (word, x')) :
    (∀ reply, word.reply m = some reply → ∃ later, (st.after m reply).Plays r t (s.hear t word) x' later ∧
      e = { later with heard := (m, word) :: later.heard }) ∧
    (word.reply m = none →
      e = { result := none, session := s.hear t word, remote := x', heard := [(m, word)] }) := by
  cases h with
  | ended => cases hm
  | own hm' ho' later =>
    obtain rfl := Option.some.inj (hm.symm.trans hm')
    have hremote := isRemote_of_word hw
    rw [Move.isRemote_of_own ho'] at hremote
    cases hremote
  | hear hm' hw' hreply' later =>
    obtain rfl := Option.some.inj (hm.symm.trans hm')
    cases hw.symm.trans hw'
    refine ⟨fun reply hreply => ?_, fun hnone => ?_⟩
    · cases hreply.symm.trans hreply'
      exact ⟨_, later, rfl⟩
    · cases hnone.symm.trans hreply'
  | dies hm' hw' hnone =>
    obtain rfl := Option.some.inj (hm.symm.trans hm')
    cases hw.symm.trans hw'
    refine ⟨fun reply hreply => ?_, fun _ => rfl⟩
    cases hreply.symm.trans hnone

theorem of_ended {result : Except PoolError Yield} (h : (Station.ended result).Plays r t s x e) :
    e = { result := some result, session := s, remote := x } := by
  cases h with
  | ended => rfl
  | own hm | hear hm | dies hm => cases hm

end Steps

end Station.Plays

/-! ### Session by session -/

/-- Sessions are seen to one after the other, each at its place. What comes of one is a step, from the servers
    as they are then to what they are for the next. -/
inductive Rounds {δ : Type} (step : Session κ → ρ → δ → ρ → Prop) (place : δ → Nat) (sessions : List (Session κ)) :
    ρ → List δ → ρ → Prop
  | none {x : ρ} : Rounds step place sessions x [] x
  | next {x x₁ x₂ : ρ} {s : Session κ} {d : δ} {ds : List δ} (hs : sessions[place d]? = some s)
      (first : step s x d x₁) (later : Rounds step place sessions x₁ ds x₂) :
      Rounds step place sessions x (d :: ds) x₂

namespace Rounds
variable {δ : Type} {step : Session κ → ρ → δ → ρ → Prop} {place : δ → Nat} {sessions sessions' : List (Session κ)}
  {x x' : ρ} {ds : List δ}

/-- Only the sessions that are seen to count. -/
theorem congr (h : Rounds step place sessions x ds x')
    (hsame : ∀ d ∈ ds, sessions[place d]? = sessions'[place d]?) : Rounds step place sessions' x ds x' := by
  induction h with
  | none => exact .none
  | next hs first _ ih =>
    exact .next ((hsame _ List.mem_cons_self).symm.trans hs) first
      (ih fun d hd => hsame d (List.mem_cons_of_mem _ hd))

theorem mem {d : δ} (h : Rounds step place sessions x ds x') (hd : d ∈ ds) :
    ∃ s y y', sessions[place d]? = some s ∧ step s y d y' := by
  induction h with
  | none => cases hd
  | next hs first _ ih =>
    rcases List.mem_cons.1 hd with rfl | hd
    · exact ⟨_, _, _, hs, first⟩
    · exact ih hd

end Rounds
end SessionPool
