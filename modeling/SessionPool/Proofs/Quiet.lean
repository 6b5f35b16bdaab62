import SessionPool.Proofs.Rest
import SessionPool.Proofs.Play

/-! Quiet: a pool between two commands, its worker at rest or ended for good. What callers do to it then
    comes down to a few deals: a session is found or made, marked, taken out of the registry, or worked
    on. Work that is sent to a worker that rests is done as soon as it is waited for, job by job, each as
    a play on its session. -/

namespace SessionPool
variable {ρ κ : Type}

/-- What callers of a pool act on. -/
structure Front (ρ κ : Type) where
  catalog : Catalog
  registry : Table Nat
  shared : Shared ρ κ
  /-- Whether the worker has ended. -/
  ended : Bool

/-- A job that has come to its end: where, what for, with which result, unless it died, and what it heard. -/
structure Stint (κ : Type) where
  place : Nat
  work : Work
  result : Option (Except PoolError Yield)
  heard : List (Heard κ)

/-- What is done to a pool in one go. -/
inductive Deal (κ : Type) where
  | obtained (id : String) (n : Nat)
  | marked (id : String) (n : Nat)
  | removed (id : String)
  | drained
  | cleared
  | chatted (session user assistant : String)
  | stopped
  | worked (d : Stint κ)

/-- What is heard in a deal. -/
def Deal.heard : Deal κ → List (Heard κ)
  | worked d => d.heard
  | _ => []

/-- Whether a deal takes an id out of the registry. -/
def Deal.removes (id : String) : Deal κ → Bool
  | removed j => j = id
  | drained => true
  | _ => false

/-- Work may be done at a place; a session is not released as long as it is in the registry. -/
def Work.Proper (g : Table Nat) (n : Nat) (v : Work) : Prop := v = .release → ∀ id, Table.get? id g ≠ some n

namespace Front

/-- What a deal does. -/
inductive Does (r : Remote ρ κ) (f : Front ρ κ) : Deal κ → Front ρ κ → Prop
  | found {id : String} {n : Nat} (hn : Table.get? id f.registry = some n) : Does r f (.obtained id n) f
  | made {id : String} {l : Locator} (hn : Table.get? id f.registry = none)
      (hl : f.catalog.locator? (SessionKey.parse id).group = some l) :
      Does r f (.obtained id f.shared.sessions.length) { f with
        registry := f.registry.insert id f.shared.sessions.length
        shared := { f.shared with sessions := f.shared.sessions ++ [{ id := id, locator := l }] } }
  | marked {id : String} {n : Nat} {s : Session κ} (hn : Table.get? id f.registry = some n)
      (hs : f.shared.sessions[n]? = some s) :
      Does r f (.marked id n) { f with shared := f.shared.put n { s with ready := true } }
  | removed {id : String} : Does r f (.removed id) { f with registry := f.registry.erase id }
  | drained : Does r f .drained { f with registry := [] }
  | cleared : Does r f .cleared { f with shared := { f.shared with log := [] } }
  | chatted {session user assistant : String} : Does r f (.chatted session user assistant) { f with
      shared := { f.shared with log := f.shared.log.record session (.chat user assistant) } }
  | stopped : Does r f .stopped { f with ended := true }
  | worked {n t : Nat} {v : Work} {s : Session κ} {e : Play ρ κ} (hs : f.shared.sessions[n]? = some s)
      (proper : v.Proper f.registry n) (plays : (Station.waiting v).Plays r t s f.shared.remote e)
      (hl : e.session.line = []) :
      Does r f (.worked ⟨n, v, e.result, e.words n s.id⟩) { f with shared := f.shared.played n s.id e }

/-- Deals one after the other. -/
inductive Deals (r : Remote ρ κ) : Front ρ κ → List (Deal κ) → Front ρ κ → Prop
  | none {f : Front ρ κ} : Deals r f [] f
  | next {f f₁ f₂ : Front ρ κ} {d : Deal κ} {ds : List (Deal κ)} (first : Does r f d f₁)
      (later : Deals r f₁ ds f₂) : Deals r f (d :: ds) f₂

variable {r : Remote ρ κ} {f f₁ f₂ : Front ρ κ} {d : Deal κ} {ds ds' : List (Deal κ)}

theorem Deals.one (h : Does r f d f₁) : Deals r f [d] f₁ := .next h .none

theorem Deals.append (h : Deals r f ds f₁) (h' : Deals r f₁ ds' f₂) : Deals r f (ds ++ ds') f₂ := by
  induction h with
  | none => exact h'
  | next first _ ih => exact .next first (ih h')

theorem Deals.split (h : Deals r f (ds ++ ds') f₂) : ∃ f₁, Deals r f ds f₁ ∧ Deals r f₁ ds' f₂ := by
  induction ds generalizing f with
  | nil => exact ⟨f, .none, h⟩
  | cons d ds ih =>
    cases h with
    | next first later =>
      obtain ⟨f₁, h, h'⟩ := ih later
      exact ⟨f₁, .next first h, h'⟩

/-- Nobody is in line for a client, and the registry names sessions by their ids. -/
structure Tidy (f : Front ρ κ) : Prop where
  free : ∀ s ∈ f.shared.sessions, s.line = []
  sorted : Table.Sorted f.registry
  named : ∀ id n, Table.get? id f.registry = some n → ∃ s, f.shared.sessions[n]? = some s ∧ s.id = id

/-- A session is changed, but not its name. -/
theorem named_set {sessions : List (Session κ)} {n m : Nat} {s s' : Session κ} {id : String}
    (hs : sessions[n]? = some s) (hid : s'.id = s.id)
    (h : ∃ s, sessions[m]? = some s ∧ s.id = id) : ∃ s, (sessions.set n s')[m]? = some s ∧ s.id = id := by
  obtain ⟨s₀, hs₀, hid₀⟩ := h
  rw [List.getElem?_set]
  split
  · rename_i heq
    subst heq
    have hlt := (List.getElem?_eq_some_iff.1 hs).1
    rw [if_pos hlt]
    rw [hs] at hs₀
    cases hs₀
    exact ⟨s', rfl, hid.trans hid₀⟩
  · exact ⟨s₀, hs₀, hid₀⟩

/-- No two ids name one place. -/
theorem Tidy.inj {n : Nat} {i j : String} (h : f.Tidy) (hi : Table.get? i f.registry = some n)
    (hj : Table.get? j f.registry = some n) : i = j := by
  obtain ⟨s, hs, rfl⟩ := h.named i n hi
  obtain ⟨s', hs', rfl⟩ := h.named j n hj
  rw [hs] at hs'
  rw [Option.some.inj hs']

/-- A session that is taken out of the registry may be released. -/
theorem Tidy.proper_removed {n : Nat} {id : String} (h : f.Tidy) (hn : Table.get? id f.registry = some n) :
    Work.Proper (f.registry.erase id) n .release := by
  intro _ j hj
  by_cases heq : j = id
  · rw [heq, Table.get?_erase_self h.sorted] at hj
    cases hj
  · rw [Table.get?_erase_of_ne heq] at hj
    exact heq (h.inj hj hn)

theorem Does.tidy (h : Does r f d f₁) (ht : f.Tidy) : f₁.Tidy := by
  cases h with
  | found => exact ht
  | @made id l hn hl =>
    have hlast : (f.shared.sessions ++ [({ id := id, locator := l } : Session κ)])[f.shared.sessions.length]? =
        some { id := id, locator := l } := List.getElem?_concat_length
    refine ⟨?_, ht.sorted.insert .., ?_⟩
    · intro s hs
      rcases List.mem_append.1 hs with hs | hs
      · exact ht.free s hs
      · cases List.mem_singleton.1 hs
        rfl
    · intro j m hm
      by_cases hj : j = id
      · subst hj
        rw [Table.get?_insert_self] at hm
        cases hm
        exact ⟨_, hlast, rfl⟩
      · rw [Table.get?_insert_of_ne hj] at hm
        obtain ⟨s, hs, hid⟩ := ht.named j m hm
        exact ⟨s, (List.getElem?_append_left (List.getElem?_eq_some_iff.1 hs).1).trans hs, hid⟩
  | @marked id n s hn hs =>
    have hline : ({ s with ready := true } : Session κ).line = [] := ht.free s (List.mem_of_getElem? hs)
    exact ⟨Shared.free_set ht.free hline, ht.sorted, fun j m hm => named_set hs rfl (ht.named j m hm)⟩
  | removed =>
    rename_i id
    refine ⟨ht.free, ht.sorted.erase id, fun j m hm => ?_⟩
    by_cases hj : j = id
    · rw [hj, Table.get?_erase_self ht.sorted] at hm
      cases hm
    · rw [Table.get?_erase_of_ne hj] at hm
      exact ht.named j m hm
  | drained => exact ⟨ht.free, .nil, nofun⟩
  | cleared | chatted | stopped => exact ⟨ht.free, ht.sorted, ht.named⟩
  | worked hs _ plays hl =>
    exact ⟨Shared.free_set ht.free hl, ht.sorted,
      fun j m hm => named_set hs plays.keeps.1 (ht.named j m hm)⟩

theorem Deals.tidy (h : Deals r f ds f₁) (ht : f.Tidy) : f₁.Tidy := by
  induction h with
  | none => exact ht
  | next first _ ih => exact ih (first.tidy ht)

/-- The live sessions are all of a kind. -/
def Live (f : Front ρ κ) (P : String → Session κ → Prop) : Prop :=
  ∀ id n s, Table.get? id f.registry = some n → f.shared.sessions[n]? = some s → P id s

/-- A live session is changed, and stays of its kind. -/
theorem Live.set {P : String → Session κ → Prop} {n : Nat} {s s' : Session κ} {shared : Shared ρ κ}
    (h : f.Live P) (hs : f.shared.sessions[n]? = some s) (hset : shared.sessions = f.shared.sessions.set n s')
    (hP : ∀ id, Table.get? id f.registry = some n → P id s → P id s') :
    Live { f with shared := shared } P := by
  intro id m s₀ hm hs₀
  rw [show ({ f with shared := shared } : Front ρ κ).shared.sessions = _ from hset, List.getElem?_set] at hs₀
  split at hs₀
  · rename_i heq
    subst heq
    rw [if_pos (List.getElem?_eq_some_iff.1 hs).1] at hs₀
    cases hs₀
    exact hP id hm (h id n s hm hs)
  · exact h id m s₀ hm hs₀

/-- Live sessions stay of a kind if new ones are of it, and marks and work short of a release keep it. -/
theorem Does.live {P : String → Session κ → Prop} (h : Does r f d f₁) (ht : f.Tidy)
    (hnew : ∀ id l, f.catalog.locator? (SessionKey.parse id).group = some l → P id { id := id, locator := l })
    (hmark : ∀ id s, P id s → P id { s with ready := true })
    (hwork : ∀ {id v t s e}, v ≠ .release → (Station.waiting v).Plays r t s f.shared.remote e → P id s →
      P id e.session)
    (hP : f.Live P) : f₁.Live P := by
  cases h with
  | found | cleared | chatted | stopped => exact hP
  | @made j l hj hl =>
    intro id n s hn hat
    by_cases heq : id = j
    · subst heq
      rw [Table.get?_insert_self] at hn
      cases hn
      cases List.getElem?_concat_length.symm.trans hat
      exact hnew id l hl
    · rw [Table.get?_insert_of_ne heq] at hn
      obtain ⟨s', hs', -⟩ := ht.named id n hn
      cases ((List.getElem?_append_left (List.getElem?_eq_some_iff.1 hs').1).trans hs').symm.trans hat
      exact hP id n s hn hs'
  | marked hn hs => exact hP.set hs rfl fun id _ => hmark id _
  | @removed j =>
    intro id n s hn hat
    by_cases heq : id = j
    · rw [heq, Table.get?_erase_self ht.sorted] at hn
      cases hn
    · rw [Table.get?_erase_of_ne heq] at hn
      exact hP id n s hn hat
  | drained => exact nofun
  | worked hs proper plays =>
    -- A session that is named is not released.
    exact hP.set hs rfl fun id hn => hwork (fun hrelease => proper hrelease id hn) plays

/-- An id that is not removed goes on naming its session. -/
theorem Does.names {id : String} {n : Nat} (h : Does r f d f₁) (hd : d.removes id = false)
    (hn : Table.get? id f.registry = some n) : Table.get? id f₁.registry = some n := by
  cases h with
  | found | marked | cleared | chatted | stopped | worked => exact hn
  | @made j l hj hl =>
    have hne : id ≠ j := by
      rintro rfl
      rw [hn] at hj
      cases hj
    exact (Table.get?_insert_of_ne hne ..).trans hn
  | @removed j =>
    have hne : id ≠ j := fun heq => of_decide_eq_false hd heq.symm
    exact (Table.get?_erase_of_ne hne _).trans hn
  | drained => cases hd

theorem Deals.names {id : String} {n : Nat} (h : Deals r f ds f₁) (hds : ∀ d ∈ ds, d.removes id = false)
    (hn : Table.get? id f.registry = some n) : Table.get? id f₁.registry = some n := by
  induction h with
  | none => exact hn
  | next first _ ih =>
    exact ih (fun d hd => hds d (List.mem_cons_of_mem _ hd)) (first.names (hds _ List.mem_cons_self) hn)

/-- An id names a new session only because a caller asked for it. -/
theorem Does.names_of {id : String} {n : Nat} (h : Does r f d f₁) (ht : f.Tidy)
    (hn : Table.get? id f₁.registry = some n) : Table.get? id f.registry = some n ∨ d = .obtained id n := by
  cases h with
  | found | marked | cleared | chatted | stopped | worked => exact .inl hn
  | @made j l hj hl =>
    by_cases heq : id = j
    · subst heq
      rw [Table.get?_insert_self] at hn
      cases hn
      exact .inr rfl
    · rw [Table.get?_insert_of_ne heq] at hn
      exact .inl hn
  | @removed j =>
    by_cases heq : id = j
    · rw [heq, Table.get?_erase_self ht.sorted] at hn
      cases hn
    · rw [Table.get?_erase_of_ne heq] at hn
      exact .inl hn
  | drained => cases hn

theorem Deals.names_of {id : String} {n : Nat} (h : Deals r f ds f₁) (ht : f.Tidy)
    (hn : Table.get? id f₁.registry = some n) : Table.get? id f.registry = some n ∨ .obtained id n ∈ ds := by
  induction h with
  | none => exact .inl hn
  | next first _ ih =>
    rcases ih (first.tidy ht) hn with hn | hmem
    · rcases first.names_of ht hn with hn | rfl
      · exact .inl hn
      · exact .inr List.mem_cons_self
    · exact .inr (List.mem_cons_of_mem _ hmem)

/-- The place that a caller gets for an id is named by it. -/
theorem Does.names_obtained {id : String} {n : Nat} (h : Does r f (.obtained id n) f₁) :
    Table.get? id f₁.registry = some n := by
  cases h with
  | found hn => exact hn
  | made => exact Table.get?_insert_self ..

theorem Deals.names_obtained {id : String} {n : Nat} (h : Deals r f (.obtained id n :: ds) f₁)
    (hds : ∀ d ∈ ds, d.removes id = false) : Table.get? id f₁.registry = some n := by
  cases h with
  | next first later => exact later.names hds first.names_obtained

theorem Does.catalog (h : Does r f d f₁) : f₁.catalog = f.catalog := by
  cases h <;> rfl

theorem Deals.catalog (h : Deals r f ds f₁) : f₁.catalog = f.catalog := by
  induction h with
  | none => rfl
  | next first _ ih => exact ih.trans first.catalog

/-- A worker ends only because it is stopped. -/
theorem Does.running (h : Does r f d f₁) (hd : d ≠ .stopped) : f₁.ended = f.ended := by
  cases h with
  | stopped => exact absurd rfl hd
  | _ => rfl

theorem Deals.running (h : Deals r f ds f₁) (hds : .stopped ∉ ds) : f₁.ended = f.ended := by
  induction h with
  | none => rfl
  | next first _ ih =>
    exact (ih fun hd => hds (List.mem_cons_of_mem _ hd)).trans
      (first.running fun heq => hds (heq ▸ List.mem_cons_self))

end Front

/-! ### The worker -/

namespace Worker
variable {A : Type} {R : A → Type} {α σ : Type} {host : Nat → Host σ A R}

theorem take_joined (w : Worker A R α) (m : Message) : (w.take m).joined = w.joined := by
  cases m with
  | run t =>
    rw [take]
    split <;> rfl
  | stop => rfl

theorem receive_joined (w : Worker A R α) : w.receive.joined = w.joined := by
  suffices h : ∀ (mail : List Message) (w : Worker A R α), (mail.foldl take w).joined = w.joined from h _ _
  intro mail
  induction mail with
  | nil => intro w; rfl
  | cons m mail ih => intro w; exact (ih _).trans (take_joined w m)

theorem poll_joined (w : Worker A R α) (t : Nat) (s : σ) : (poll host w t s).1.joined = w.joined := by
  rw [poll]
  split
  · simp only [note]
    split <;> rfl
  · rfl

/-- Nobody waits for the end because of what the worker does. -/
theorem settle_joined (w : Worker A R α) (s : σ) : (settle host w s).1.joined = w.joined := by
  suffices h : ∀ fuel (w : Worker A R α) (s : σ), (work host fuel w s).1.joined = w.joined from h ..
  intro fuel
  induction fuel with
  | zero => intro w s; rfl
  | succ fuel ih =>
    intro w s
    rw [work]
    cases hstep : step host w s with
    | none => rfl
    | some x =>
      refine (ih x.1 x.2).trans ?_
      rw [step] at hstep
      split at hstep
      · cases hstep
      split at hstep
      · simp only at hstep
        split at hstep
        · cases hstep
        · cases hstep
          exact poll_joined ..
      · cases hstep
        rw [turn]
        simp only
        split
        · rfl
        · exact poll_joined ..
      · split at hstep
        · cases hstep
        · cases hstep
          exact receive_joined w

/-- A job that is not pending is not waited for in vain. -/
theorem exists_result {w : Worker A R α} {t : Nat} (h : ∀ p, w.jobs[t]? ≠ some (.pending p)) :
    ∃ result, w.result? t = some result := by
  rw [result?]
  cases hjob : w.jobs[t]? with
  | none => exact ⟨_, rfl⟩
  | some job =>
    cases job with
    | pending p => exact absurd hjob (h p)
    | finished result => exact ⟨_, rfl⟩
    | dropped => exact ⟨_, rfl⟩

/-- A worker that has ended does nothing. -/
theorem settle_ended {w : Worker A R α} (h : w.ended = true) (s : σ) : settle host w s = (w, s) := by
  obtain ⟨fuel, hfuel⟩ : ∃ fuel, w.toil = fuel + 1 := ⟨w.toil - 1, by rw [toil]; omega⟩
  rw [settle, hfuel, work, step, if_pos h]

/-- A worker at rest that gets word to stop ends, and does nothing else. -/
theorem settle_leave {w : Worker A R α} (h : w.Resting) (s : σ) :
    settle host w.leave.2 s = ({ w.leave.2.finish with left := roundLength }, s) := by
  obtain ⟨fuel, hfuel⟩ : ∃ fuel, w.leave.2.toil = fuel + 1 + 1 :=
    ⟨w.leave.2.toil - 2, by rw [toil]; omega⟩
  rw [settle, hfuel]
  obtain ⟨jobs, inbox, turns, roused, stalled, holder, left, looks, ended, joined⟩ := w
  obtain ⟨⟨hended, hholder, hroused, hinbox⟩, hturns, hleft⟩ := h
  cases hended
  cases hholder
  cases hroused
  cases hinbox
  cases hturns
  cases hleft
  -- It reads the message in its first step and has ended before its second.
  rfl

end Worker

/-! ### The pool -/

namespace Shared
variable {r : Remote ρ κ} {w : Shared ρ κ} {jobs : List (Job (Deed κ) Deed.Reply Yield)} {n t : Nat}
  {s : Session κ} {v : Work} {e : Play ρ κ}

/-- A job is over, and the others are as they were. -/
theorem Ready.played (h : Ready jobs w) (hs : w.sessions[n]? = some s) (hl : e.session.line = []) :
    Ready (jobs.set t (.ended e.result)) (w.played n s.id e) := by
  refine ⟨?_, free_set h.free hl⟩
  intro t' p hpending
  rw [List.getElem?_set] at hpending
  split at hpending
  · split at hpending
    · cases hresult : e.result <;> rw [hresult] at hpending <;> cases hpending
    · cases hpending
  · obtain ⟨n', v', s', he, hs'⟩ := h.fresh t' p hpending
    refine ⟨n', v', ?_⟩
    by_cases hn : n = n'
    · subst hn
      exact ⟨_, he, List.getElem?_set_self (List.getElem?_eq_some_iff.1 hs).1⟩
    · exact ⟨s', he, (List.getElem?_set_ne hn).trans hs'⟩

/-- A fresh job plays when it gets a turn. -/
theorem work_plays (hr : r.Prompt) (hs : w.sessions[n]? = some s) (hl : s.line = []) (hs' : List (Heard κ)) :
    ∃ e, (Station.waiting v).Plays r t s w.remote e ∧ e.session.line = [] ∧
      (Errand.ofWork n v).advance (watch r t) (w, hs') =
        ⟨e.progress, (w.played n s.id e, hs' ++ e.words n s.id), []⟩ :=
  watch_plays hr _ hs' (Errand.ofWork_follows n v) hs hl

theorem Play.of_progress (e : Play ρ κ) : Job.of e.progress = .ended e.result := by
  rw [Play.progress]
  cases e.result <;> rfl

theorem watch_smooth (hr : r.Prompt) :
    Worker.Smooth (watch r) (fun jobs (x : Shared ρ κ × List (Heard κ)) => Ready jobs x.1) := by
  intro jobs x t p hready hjob
  obtain ⟨n, v, s, rfl, hs⟩ := hready.fresh t p hjob
  obtain ⟨e, -, hline, hadvance⟩ :=
    work_plays (t := t) (v := v) hr hs (hready.free s (List.mem_of_getElem? hs)) x.2
  rw [show x = (x.1, x.2) from rfl, hadvance]
  refine ⟨rfl, ?_, ?_⟩
  · simp only [Play.progress]
    cases e.result with
    | none => exact .inr rfl
    | some result => exact .inl ⟨result, rfl⟩
  · rw [Play.of_progress]
    exact hready.played hs hline

/-- Jobs that were sent play one after the other. -/
theorem drain_plays (hr : r.Prompt) (c : Catalog) (g : Table Nat) (ended : Bool) : ∀ (posts : List (Post κ))
    (jobs : List (Job (Deed κ) Deed.Reply Yield)) (w : Shared ρ κ) (hs : List (Heard κ)),
    (∀ q ∈ posts, q.place < w.sessions.length ∧ q.work.Proper g q.place) →
    (∀ s ∈ w.sessions, s.line = []) → ∃ (ds : List (Stint κ)) (w' : Shared ρ κ),
      Worker.drain (watch r) (List.range' jobs.length posts.length) (jobs ++ posts.map Post.job, (w, hs)) =
        (jobs ++ ds.map fun d => .ended d.result, (w', hs ++ ds.flatMap Stint.heard)) ∧
      ds.map (fun d => (d.place, d.work)) = posts.map (fun q => (q.place, q.work)) ∧
      Front.Deals r ⟨c, g, w, ended⟩ (ds.map .worked) ⟨c, g, w', ended⟩ := by
  intro posts
  induction posts with
  | nil =>
    intro jobs w hs _ _
    exact ⟨[], w, by simp [Worker.drain], rfl, .none⟩
  | cons q posts ih =>
    intro jobs w hs hplace hfree
    obtain ⟨hlt, hproper⟩ := hplace q List.mem_cons_self
    have hat : w.sessions[q.place]? = some w.sessions[q.place] := List.getElem?_eq_getElem hlt
    obtain ⟨e, hplays, hline, hadvance⟩ := work_plays (t := jobs.length) (v := q.work) hr hat
      (hfree _ (List.mem_of_getElem? hat)) hs
    have hjob : (jobs ++ (q :: posts).map Post.job)[jobs.length]? =
        some (.pending (Errand.ofWork q.place q.work)) := by
      rw [List.getElem?_append_right (Nat.le_refl _), Nat.sub_self]
      rfl
    have hset : (jobs ++ (q :: posts).map Post.job).set jobs.length (.ended e.result) =
        (jobs ++ [.ended e.result]) ++ posts.map Post.job := by
      rw [List.set_append_right _ _ (Nat.le_refl _), Nat.sub_self, List.append_assoc]
      rfl
    have hplace' : ∀ q' ∈ posts, q'.place < (w.played q.place w.sessions[q.place].id e).sessions.length ∧
        q'.work.Proper g q'.place := by
      intro q' hq'
      rw [played, List.length_set]
      exact hplace q' (List.mem_cons_of_mem _ hq')
    obtain ⟨ds, w', hdrain, hposts, hdeals⟩ := ih (jobs ++ [.ended e.result])
      (w.played q.place w.sessions[q.place].id e) (hs ++ e.words q.place w.sessions[q.place].id) hplace'
      (free_set hfree hline)
    refine ⟨⟨q.place, q.work, e.result, e.words q.place w.sessions[q.place].id⟩ :: ds, w', ?_, ?_, ?_⟩
    · rw [List.length_append] at hdrain
      rw [List.length_cons, List.range'_succ, Worker.drain, hjob]
      simp only [hadvance, Play.of_progress, hset]
      refine hdrain.trans ?_
      simp
    · simp [hposts]
    · exact .next (.worked hat hproper hplays hline) hdeals

end Shared

namespace Pool
variable {r : Remote ρ κ} {p p' : Pool ρ κ}

def front (p : Pool ρ κ) : Front ρ κ := ⟨p.catalog, p.registry, p.shared, p.worker.ended⟩

/-- Between two commands: the worker has ended or has nothing to do, and no job is pending. -/
structure Quiet (p : Pool ρ κ) : Prop where
  idle : p.worker.ended = true ∨ p.worker.Resting ∧ p.worker.joined = false
  settled : ∀ (t : Nat) (e : Errand κ (Except PoolError Yield)), p.worker.jobs[t]? ≠ some (.pending e)
  tidy : p.front.Tidy

/-- The worker is not concerned. -/
theorem Quiet.of_worker (h : p.Quiet) (hworker : p'.worker = p.worker) (htidy : p'.front.Tidy) : p'.Quiet :=
  ⟨by rw [hworker]; exact h.idle, by rw [hworker]; exact h.settled, htidy⟩

/-- A quiet worker does nothing. -/
theorem Quiet.settle_watch (h : p.Quiet) (r : Remote ρ κ) :
    p.worker.settle (Shared.watch r) (p.shared, []) = (p.worker, (p.shared, [])) := by
  rcases h.idle with hended | ⟨hrest, -⟩
  · exact Worker.settle_ended hended _
  · exact hrest.settle ..

theorem Quiet.settle (h : p.Quiet) (r : Remote ρ κ) : p.settle r = p ∧ p.overheard r = [] := by
  rw [Pool.settle_watch, overheard, h.settle_watch]
  exact ⟨rfl, rfl⟩

theorem Quiet.lt_of_get? (h : p.Quiet) {id : String} {n : Nat} (hn : Table.get? id p.registry = some n) :
    n < p.shared.sessions.length := by
  obtain ⟨s, hs, -⟩ := h.tidy.named id n hn
  exact (List.getElem?_eq_some_iff.1 hs).1

/-- The worker does what was sent, job by job, and the pool is quiet again. -/
theorem Quiet.settle_posted (h : p.Quiet) (hr : r.Prompt) (hopen : p.worker.ended = false)
    {posts : List (Post κ)}
    (hplace : ∀ q ∈ posts, q.place < p.shared.sessions.length ∧ q.work.Proper p.registry q.place) :
    ∃ ds : List (Stint κ), ((p.posted posts).settle r).Quiet ∧
      ((p.posted posts).settle r).worker.jobs = p.worker.jobs ++ ds.map (fun d => .ended d.result) ∧
      (p.posted posts).overheard r = ds.flatMap Stint.heard ∧
      ds.map (fun d => (d.place, d.work)) = posts.map (fun q => (q.place, q.work)) ∧
      Front.Deals r p.front (ds.map .worked) ((p.posted posts).settle r).front := by
  obtain ⟨hrest, hjoined⟩ : p.worker.Resting ∧ p.worker.joined = false := by
    rcases h.idle with hended | hrest
    · rw [hopen] at hended
      cases hended
    · exact hrest
  have hcalm : (p.posted posts).worker.Calm (List.range' p.worker.jobs.length posts.length) :=
    ⟨hrest.ended, hrest.holder, hrest.roused, by
      rw [posted, hrest.inbox]
      rfl⟩
  have hready : Shared.Ready (p.posted posts).worker.jobs p.shared := by
    refine ⟨fun t e hjob => ?_, h.tidy.free⟩
    rcases Nat.lt_or_ge t p.worker.jobs.length with ht | ht
    · exact absurd ((List.getElem?_append_left ht).symm.trans hjob) (h.settled t e)
    · have hpost := (List.getElem?_append_right ht).symm.trans hjob
      obtain ⟨q, hq, heq⟩ := List.mem_map.1 (List.mem_of_getElem? hpost)
      cases heq
      exact ⟨q.place, q.work, _, rfl, List.getElem?_eq_getElem (hplace q hq).1⟩
  obtain ⟨worker, hsettle, hjobs, hagain⟩ :=
    Worker.settle_drains (s := (p.shared, [])) (Shared.watch_smooth hr) hcalm hready
  obtain ⟨ds, w, hdrain, hposts, hdeals⟩ :=
    Shared.drain_plays hr p.catalog p.registry false posts p.worker.jobs p.shared [] hplace h.tidy.free
  have hturns : (p.posted posts).worker.turns = [] := hrest.turns
  rw [hturns, List.nil_append] at hsettle hjobs
  replace hsettle := hsettle.trans (congrArg (fun x => (worker, x.2)) hdrain)
  replace hjobs := hjobs.trans (congrArg Prod.fst hdrain)
  have hkept : worker.joined = false := by
    have hsame : ((p.posted posts).worker.settle (Shared.watch r) (p.shared, [])).1.joined = p.worker.joined :=
      Worker.settle_joined ..
    rw [hsettle] at hsame
    exact hsame.trans hjoined
  have hpool : (p.posted posts).settle r = { p with worker := worker, shared := w } := by
    rw [Pool.settle_watch, show (p.posted posts).shared = p.shared from rfl, hsettle]
    rfl
  rw [hpool]
  have hfront : p.front = ⟨p.catalog, p.registry, p.shared, false⟩ := by rw [front, hopen]
  have hfront' : ({ p with worker := worker, shared := w } : Pool ρ κ).front =
      ⟨p.catalog, p.registry, w, false⟩ := by rw [front, hagain.ended]
  rw [← hfront, ← hfront'] at hdeals
  refine ⟨ds, ⟨.inr ⟨hagain, hkept⟩, ?_, hdeals.tidy h.tidy⟩, hjobs, ?_, hposts, hdeals⟩
  · intro t e hjob
    rw [show ({ p with worker := worker, shared := w } : Pool ρ κ).worker.jobs = _ from hjobs] at hjob
    rcases Nat.lt_or_ge t p.worker.jobs.length with ht | ht
    · exact h.settled t e ((List.getElem?_append_left ht).symm.trans hjob)
    · have hended := (List.getElem?_append_right ht).symm.trans hjob
      obtain ⟨d, -, heq⟩ := List.mem_map.1 (List.mem_of_getElem? hended)
      cases hresult : d.result <;> rw [hresult] at heq <;> cases heq
  · rw [overheard, show (p.posted posts).shared = p.shared from rfl, hsettle, List.nil_append]

end Pool
end SessionPool
