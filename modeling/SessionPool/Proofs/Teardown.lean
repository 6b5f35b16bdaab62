import Mathlib.Data.List.Induction
import SessionPool.Proofs.Docket
import SessionPool.Proofs.Overlap
import SessionPool.Proofs.Replay

/-! Teardown: what the log holds once a caller has closed all sessions. It takes the sessions out, releases
    them and clears the log. A release waits for the work that was sent before it, so what that work has
    logged is cleared too, if the caller waits for the release to its end. What can be logged afterwards,
    of work that was sent before, is of sessions that are still retiring: those that the caller has given
    up waiting for, and those that others had taken out. -/

namespace SessionPool

/-! ### Dockets over time -/

/-- What an event does to the docket of a caller. -/
def Event.docket {κ : Type} (i : Nat) (d : Docket) : Event κ → Docket
  | .asked j a reply => if j = i then d.after a reply else d
  | .gaveUp j (.await t) => if j = i then d.heard t else d
  | _ => d

/-- The docket of a caller. -/
def docket {κ : Type} (i : Nat) (past : List (Event κ)) : Docket := past.foldl (Event.docket i) {}

section
variable {κ : Type} {past : List (Event κ)} {i : Nat} {d : Docket} {e : Event κ}

theorem docket_append (i : Nat) (past : List (Event κ)) (e : Event κ) :
    docket i (past ++ [e]) = e.docket i (docket i past) := by
  rw [docket, List.foldl_append]
  rfl

theorem docket_asked (i : Nat) (past : List (Event κ)) (a : Ask) (reply : a.Reply) :
    docket i (past ++ [.asked i a reply]) = (docket i past).after a reply :=
  (docket_append ..).trans (if_pos rfl)

/-- A docket changes when its caller is answered, or gives up waiting. -/
theorem Event.docket_cases (i : Nat) (d : Docket) (e : Event κ) : e.docket i d = d ∨
    (∃ a reply, e = .asked i a reply ∧ e.docket i d = d.after a reply) ∨
    ∃ t, e = .gaveUp i (.await t) ∧ e.docket i d = d.heard t := by
  unfold docket
  split
  · split
    · subst_vars
      exact .inr (.inl ⟨_, _, rfl, rfl⟩)
    · exact .inl rfl
  · split
    · subst_vars
      exact .inr (.inr ⟨_, rfl, rfl⟩)
    · exact .inl rfl
  · exact .inl rfl

theorem Event.docket_of_ne (h : ∀ a reply, e ≠ .asked i a reply) (h' : ∀ a, e ≠ .gaveUp i a) :
    e.docket i d = d := by
  rcases e.docket_cases i d with heq | ⟨a, reply, rfl, -⟩ | ⟨t, rfl, -⟩
  · exact heq
  · exact absurd rfl (h a reply)
  · exact absurd rfl (h' _)

theorem Event.drained_of_docket (i : Nat) (d : Docket) (e : Event κ) (h : (e.docket i d).drained = true) :
    d.drained = true ∨ ∃ sessions, e = .asked i .drain sessions := by
  rcases e.docket_cases i d with heq | ⟨a, reply, rfl, heq⟩ | ⟨t, -, heq⟩
  · exact .inl (heq ▸ h)
  · rw [heq] at h
    cases a with
    | drain => exact .inr ⟨_, rfl⟩
    | submit n w => cases w <;> cases reply <;> exact .inl h
    | _ => exact .inl h
  · rw [heq] at h
    exact .inl h

theorem Event.cleared_of_docket (i : Nat) (d : Docket) (e : Event κ) (h : (e.docket i d).cleared = true) :
    d.cleared = true ∨ e = .asked i .clearLog () := by
  rcases e.docket_cases i d with heq | ⟨a, reply, rfl, heq⟩ | ⟨t, -, heq⟩
  · exact .inl (heq ▸ h)
  · rw [heq] at h
    cases a with
    | clearLog => exact .inr rfl
    | submit n w => cases w <;> cases reply <;> exact .inl h
    | _ => exact .inl h
  · rw [heq] at h
    exact .inl h

/-- A session is on the docket until its release is asked for. -/
theorem Event.unsent_of_docket (i : Nat) (e : Event κ) {n : Nat} (h : n ∈ d.unsent) : n ∈ (e.docket i d).unsent ∨
    (∃ t, e = .asked i (.submit n .release) (.ok t)) ∨ ∃ error, e = .asked i (.submit n .release) (.error error) := by
  rcases e.docket_cases i d with heq | ⟨a, reply, rfl, heq⟩ | ⟨t, -, heq⟩
  · rw [heq]
    exact .inl h
  · rw [heq]
    cases a with
    | drain => exact .inl (List.mem_append_right _ h)
    | submit m w =>
      cases w with
      | release =>
        by_cases hm : n = m
        · subst hm
          cases reply with
          | ok t => exact .inr (.inl ⟨t, rfl⟩)
          | error error => exact .inr (.inr ⟨error, rfl⟩)
        · have hstays := (List.mem_erase_of_ne hm).2 h
          cases reply <;> exact .inl hstays
      | _ => cases reply <;> exact .inl h
    | _ => exact .inl h
  · rw [heq]
    exact .inl h

/-- A release is on the docket until it was waited for, to its end or not. -/
theorem Event.unheard_of_docket (i : Nat) (e : Event κ) {t : Nat} (h : t ∈ d.unheard) : t ∈ (e.docket i d).unheard ∨
    (∃ result, e = .asked i (.await t) result) ∨ e = .gaveUp i (.await t) := by
  have hstays : ∀ u, t ≠ u → t ∈ (d.heard u).unheard := fun u hu => (List.mem_erase_of_ne hu).2 h
  rcases e.docket_cases i d with heq | ⟨a, reply, rfl, heq⟩ | ⟨u, rfl, heq⟩
  · rw [heq]
    exact .inl h
  · rw [heq]
    cases a with
    | await u =>
      by_cases hu : t = u
      · exact .inr (.inl ⟨reply, hu ▸ rfl⟩)
      · exact .inl (hstays u hu)
    | submit m w =>
      cases w with
      | release =>
        cases reply with
        | ok u => exact .inl (List.mem_append_left _ h)
        | error error => exact .inl h
      | _ => cases reply <;> exact .inl h
    | _ => exact .inl h
  · rw [heq]
    by_cases hu : t = u
    · exact .inr (.inr (hu ▸ rfl))
    · exact .inl (hstays u hu)

/-- What holds in the end and not at the start came about at some time. -/
theorem exists_of_foldl {σ α : Type} {step : σ → α → σ} {P : σ → Prop} {Q : α → Prop}
    (hstep : ∀ s a, P (step s a) → P s ∨ Q a) {s : σ} (hs : ¬P s) {l : List α} (h : P (l.foldl step s)) :
    ∃ before a after, l = before ++ a :: after ∧ Q a := by
  induction l generalizing s with
  | nil => exact absurd h hs
  | cons a l ih =>
    by_cases ha : P (step s a)
    · exact ⟨[], a, l, rfl, (hstep s a ha).resolve_left hs⟩
    · obtain ⟨before, b, after, rfl, hb⟩ := ih ha h
      exact ⟨a :: before, b, after, rfl, hb⟩

/-- Who has taken all sessions out did so at some time. -/
theorem drained_of_docket (h : (docket i past).drained = true) :
    ∃ before sessions after, past = before ++ .asked i .drain sessions :: after := by
  obtain ⟨before, e, after, hpast, sessions, rfl⟩ :=
    exists_of_foldl (P := fun d : Docket => d.drained = true) (Event.drained_of_docket i)
      Bool.false_ne_true h
  exact ⟨before, sessions, after, hpast⟩

theorem cleared_of_docket (h : (docket i past).cleared = true) :
    ∃ before after, past = before ++ .asked i .clearLog () :: after := by
  obtain ⟨before, e, after, hpast, rfl⟩ :=
    exists_of_foldl (P := fun d : Docket => d.cleared = true) (Event.cleared_of_docket i)
      Bool.false_ne_true h
  exact ⟨before, after, hpast⟩

end

namespace Scene
variable {ρ κ : Type} {r : Remote ρ κ} {c : Catalog} {o : Options} {remote : ρ}
  {past before between after : List (Event κ)} {e : Event κ} {S S' : Scene ρ κ} {i n t u : Nat}

/-- How a caller goes on, and what it says at its end. -/
abbrev Heeds (p : Caller Response) (d : Docket) : Prop :=
  Caller.Heeds (fun x d => x.isSweep = true → d.cleared = true) p d

/-- All callers go on as their dockets say, and who has not come yet has nothing on its docket. -/
structure Heedful (past : List (Event κ)) (S : Scene ρ κ) : Prop where
  heeds : ∀ i p, S.callers[i]? = some p → Heeds p (docket i past)
  fresh : ∀ i, S.callers.length ≤ i → docket i past = {}

/-- A step of one caller. -/
theorem Heedful.set (h : Heedful past S) {p : Caller Response} (hcallers : S'.callers = S.callers.set i p)
    (hi : i < S.callers.length) (hp : Heeds p (docket i (past ++ [e])))
    (he : ∀ j, j ≠ i → docket j (past ++ [e]) = docket j past) : Heedful (past ++ [e]) S' where
  heeds j q hq := by
    rw [hcallers] at hq
    by_cases hj : j = i
    · subst hj
      rw [List.getElem?_set_self hi, Option.some.injEq] at hq
      exact hq ▸ hp
    · rw [List.getElem?_set_ne (Ne.symm hj)] at hq
      exact he j hj ▸ h.heeds j q hq
  fresh j hj := by
    rw [hcallers, List.length_set] at hj
    rw [he j (by omega)]
    exact h.fresh j hj

/-- A step of no caller. -/
theorem Heedful.aside (h : Heedful past S) (hcallers : S'.callers = S.callers)
    (he : ∀ i, docket i (past ++ [e]) = docket i past) : Heedful (past ++ [e]) S' where
  heeds i p hp := he i ▸ h.heeds i p (hcallers ▸ hp)
  fresh i hi := he i ▸ h.fresh i (hcallers ▸ hi)

theorem Heedful.step (h : Heedful past S) (hstep : Step r S e S') : Heedful (past ++ [e]) S' := by
  cases hstep with
  | come order =>
    have he : ∀ i, docket i (past ++ [Event.came order]) = docket i past := fun i => docket_append ..
    refine ⟨fun i p hp => ?_, fun i hi => ?_⟩
    · rw [he]
      rcases Nat.lt_trichotomy i S.callers.length with hi | rfl | hi
      · rw [List.getElem?_append_left hi] at hp
        exact h.heeds i p hp
      · rw [List.getElem?_concat_length, Option.some.injEq] at hp
        rw [h.fresh _ (Nat.le_refl _)]
        exact hp ▸ order.heeds _
      · rw [List.getElem?_eq_none (by simp; omega)] at hp
        cases hp
    · rw [he]
      rw [List.length_append] at hi
      exact h.fresh i (by omega)
  | @ask i a next reply p woken hi ha =>
    refine h.set rfl (List.getElem?_eq_some_iff.1 hi).1 ?_ fun j hj => ?_
    · rw [docket_asked]
      exact (h.heeds i _ hi).2 reply
    · rw [docket_append, Event.docket, if_neg hj.symm]
  | @giveUp i a next reply p woken hi hw ha =>
    refine h.set rfl (List.getElem?_eq_some_iff.1 hi).1 ?_ fun j hj => ?_
    · have hnext := (h.heeds i _ hi).2 reply
      rw [docket_append]
      cases a with
      | await t => rw [Event.docket, if_pos rfl]; exact hnext
      | gone within => exact hnext
      | _ => cases hw
    · rw [docket_append]
      refine Event.docket_of_ne (fun a reply heq => ?_) fun a heq => ?_
      · cases heq
      · cases heq
        exact hj rfl
  | _ => exact h.aside rfl fun i => docket_append ..

theorem Run.heedful (run : Run r c o remote past S) : Heedful past S := by
  induction run with
  | start => exact ⟨fun i p hp => by simp [Scene.start] at hp, fun _ _ => rfl⟩
  | step _ h ih => exact ih.step h

/-! ### Releases that a caller pursues -/

theorem Run.last (run : Run r c o remote (past ++ [e]) S) : ∃ S₁, Run r c o remote past S₁ ∧ Step r S₁ e S := by
  generalize hall : past ++ [e] = all at run
  cases run with
  | start => simp at hall
  | step run h =>
    obtain ⟨rfl, hx⟩ := List.append_inj' hall rfl
    cases hx
    exact ⟨_, run, h⟩

/-- How far a caller is with the release of a session that it took out, and what happened since then. -/
inductive Pursued (past between : List (Event κ)) (S : Scene ρ κ) (i n : Nat) : Prop where
  | unsent (h : n ∈ (docket i past).unsent)
  | sent {u : Nat} (hsent : .asked i (.submit n .release) (.ok u) ∈ between)
      (h : u ∈ (docket i past).unheard)
  | through {u : Nat} {result : Except PoolError Yield}
      (hsent : .asked i (.submit n .release) (.ok u) ∈ between) (h : .work n u (.yielded result) ∈ past)
  | gaveUp {u : Nat} (hsent : .asked i (.submit n .release) (.ok u) ∈ between)
      (h : .gaveUp i (.await u) ∈ between)
  /-- The worker has ended, and nothing is released any more. -/
  | stopped (h : S.pool.worker.ended = true)

theorem Step.ended (h : Step r S e S') (hend : S.pool.worker.ended = true) : S'.pool.worker.ended = true := by
  rw [← Bool.not_eq_false]
  exact fun hend' => by rw [h.running hend'] at hend; cases hend

theorem Pursued.step (h : Pursued past between S i n) (run : Run r c o remote past S)
    (hbetween : ∀ e ∈ between, e ∈ past) (hstep : Step r S e S') :
    Pursued (past ++ [e]) (between ++ [e]) S' i n := by
  have hlater : ∀ {x : Event κ} {l : List (Event κ)}, x ∈ l → x ∈ l ++ [e] := List.mem_append_left _
  cases h with
  | unsent h =>
    rcases Event.unsent_of_docket i e h with h | ⟨u, rfl⟩ | ⟨error, rfl⟩
    · exact .unsent (docket_append i past e ▸ h)
    · refine .sent (List.mem_append_right _ (List.mem_singleton_self _)) ?_
      have hdocket := docket_asked i past (.submit n .release) (.ok u)
      exact hdocket ▸ List.mem_append_right _ (List.mem_singleton_self u)
    · cases hstep with
      | ask _ ha =>
        cases Pool.answered ha with
        | refused hend => exact .stopped hend
  | @sent u hsent h =>
    rcases Event.unheard_of_docket i e h with h | ⟨result, rfl⟩ | rfl
    · exact .sent (hlater hsent) (docket_append i past e ▸ h)
    · cases hend : S.pool.worker.ended with
      | true => exact .stopped (hstep.ended hend)
      | false =>
        cases hstep with
        | ask _ ha =>
          cases Pool.answered ha with
          | awaited hresult =>
            obtain ⟨result, hy⟩ := run.yielded_of_result (hbetween _ hsent) hresult hend
            exact .through (hlater hsent) (hlater hy)
    · exact .gaveUp (hlater hsent) (List.mem_append_right _ (List.mem_singleton_self _))
  | through hsent h => exact .through (hlater hsent) (hlater h)
  | gaveUp hsent h => exact .gaveUp (hlater hsent) (hlater h)
  | stopped h => exact .stopped (hstep.ended h)

/-- Of all sessions that a caller took out it pursues the release. -/
theorem Run.pursued {sessions : Table Nat} (run : Run r c o remote (before ++ .asked i .drain sessions :: between) S)
    (hn : n ∈ sessions.map (·.2)) : Pursued (before ++ .asked i .drain sessions :: between) between S i n := by
  induction between using List.reverseRecOn generalizing S with
  | nil =>
    have hdocket := docket_asked i before .drain sessions
    exact .unsent (hdocket ▸ List.mem_append_left _ hn)
  | append_singleton between e ih =>
    rw [← List.cons_append, ← List.append_assoc] at run ⊢
    obtain ⟨S₁, run₁, hstep⟩ := run.last
    exact (ih run₁).step run₁ (fun e he => List.mem_append_right _ (List.mem_cons_of_mem _ he)) hstep

/-- Who clears the log has nothing left to see to. -/
theorem Run.done_of_clear (run : Run r c o remote (before ++ .asked i .clearLog () :: after) S) :
    (docket i before).Done := by
  obtain ⟨S₁, S₂, run₁, hstep, -⟩ := run.split_step
  cases hstep with
  | ask hi _ => exact (run₁.heedful.heeds i _ hi).1 rfl

/-! ### Records after the log was cleared -/

/-- When the worker has ended no job goes on. -/
theorem Run.idle_of_ended (run : Run r c o remote past S) (hend : S.pool.worker.ended = true) :
    ∀ p : Errand κ (Except PoolError Yield), .pending p ∉ S.jobs := by
  induction run with
  | start => nofun
  | @step past e S S' run h ih =>
    have hbusy : ∀ {u q}, S.HasJob u q → S.pool.worker.ended = true → False := fun hu hend =>
      ih hend _ (List.mem_of_getElem? hu.1)
    cases h with
    | ask _ ha =>
      cases Pool.answered ha with
      | sent hrunning => rw [show S.pool.worker.ended = true from hend] at hrunning; cases hrunning
      | @stopped worker hjobs hended =>
        show ∀ p, _ ∉ worker.jobs
        exact hjobs ▸ ih (hended ▸ hend)
      | _ => exact ih hend
    | giveUp _ hw ha =>
      obtain rfl := Pool.eq_of_giveUp hw ha
      exact ih hend
    | @read m rest hm =>
      cases m with
      | run u =>
        cases hended : S.pool.worker.ended with
        | true =>
          simp only [jobs, Worker.take, hended, if_true]
          exact ih hended
        | false =>
          simp only [Worker.take, hended, Bool.false_eq_true, if_false] at hend
      | stop =>
        intro p hp
        obtain ⟨job, -, hjob⟩ := List.mem_map.1 hp
        cases job <;> cases hjob
    | move ht _ _ | hear ht _ _ _ _ | die ht _ _ _ _ | yield ht _ => exact (hbusy ht hend).elim
    | _ => exact ih hend

/-- A record is made by a job that has found its session open, on a worker that runs. -/
theorem Run.of_record {operation : String} {args : Fields} {text : String}
    (run : Run r c o remote (before ++ .work n t (.moved (.record operation args text)) :: after) S) :
    ∃ S₁ l, Run r c o remote before S₁ ∧ S₁.HasLane c n (notes n before) l ∧
      S₁.pool.worker.ended = false ∧ l.session.closed = false := by
  obtain ⟨S₁, S₂, run₁, hstep, -⟩ := run.split_step
  generalize he : Event.work n t (.moved (.record operation args text)) = e at hstep
  cases hstep with
  | @move u d next reply w woken ht hd hw =>
    obtain ⟨n', w, l, st, -, hl, hu, ⟨hsession, hst, -⟩, -⟩ := run₁.kept.job ht
    obtain ⟨rfl, -, hmove⟩ := Event.work.inj he
    rw [← Doing.moved.inj hmove] at hst
    have hopen : l.session.closed = false := by
      have hknows := (Lane.Run.sound hl.run).knows _ _ _ hu
      cases st with
      | logging p text' => exact hknows.1
      | _ => cases hst
    refine ⟨S₁, l, run₁, hsession ▸ hl, ?_, hopen⟩
    rw [← Bool.not_eq_true]
    exact fun hend => run₁.idle_of_ended hend _ (List.mem_of_getElem? ht.1)
  | _ => cases he

/-- Whether work on a session was sent before and is recorded after. -/
def RecordedLate (before after : List (Event κ)) (n : Nat) : Prop :=
  ∃ j t w operation args text, .asked j (.submit n w) (.ok t) ∈ before ∧
    .work n t (.moved (.record operation args text)) ∈ after

/-- What holds after a caller has taken all sessions out and then cleared the log. -/
structure TornDown (S : Scene ρ κ) (i : Nat) (before : List (Event κ)) (sessions : Table Nat)
    (between after : List (Event κ)) : Prop where
  /-- The log holds what was written since it was cleared. -/
  log : S.pool.shared.log = after.foldl (Event.write S.names) []
  /-- Work that was sent before the sessions were taken out is recorded there only of a session that was
      retiring when the log was cleared: it had been taken out by others before, or the caller has given
      up waiting for its release. -/
  late : ∀ n, RecordedLate before after n → Retiring (before ++ .asked i .drain sessions :: between) n ∧
    (n ∈ removals before ∨ ∃ u, .asked i (.submit n .release) (.ok u) ∈ between ∧ .gaveUp i (.await u) ∈ between)

/-- A session of which work was sent has been taken out when all are. -/
theorem Run.removed_of_sent {j : Nat} {w : Work} {sessions : Table Nat}
    (run : Run r c o remote (before ++ .asked i .drain sessions :: after) S)
    (hsent : .asked j (.submit n w) (.ok t) ∈ before) : n ∈ removals before ∨ n ∈ sessions.map (·.2) := by
  obtain ⟨S₁, S₂, run₁, hstep, -⟩ := run.split_step
  have run₂ := run₁.step hstep
  have harrived := mem_notes_arrived.2 ⟨j, List.mem_append_left [.asked i .drain sessions] hsent⟩
  have hlt := run₂.kept.lt_of_note harrived
  have hregistered := run₂.accounted.registered n
  have hempty : S₂.pool.registry = [] := by
    cases hstep with
    | ask _ ha =>
      cases Pool.answered ha
      rfl
  rw [hempty, if_pos hlt, List.map_nil, List.count_nil, Nat.zero_add, removals_append] at hregistered
  exact List.mem_append.1 (List.count_pos_iff.1 (Nat.lt_of_sub_eq_succ hregistered))

/-- Records of work that was sent before the sessions were taken out. -/
theorem Run.retiring_of_recorded {sessions : Table Nat}
    (run : Run r c o remote (before ++ .asked i .drain sessions :: between ++ .asked i .clearLog () :: after) S)
    (hlate : RecordedLate before after n) : Retiring (before ++ .asked i .drain sessions :: between) n ∧
      (n ∈ removals before ∨
        ∃ u, .asked i (.submit n .release) (.ok u) ∈ between ∧ .gaveUp i (.await u) ∈ between) := by
  obtain ⟨j, t, w, operation, args, text, hsent, hrecord⟩ := hlate
  have htaken : n ∈ removals before ∨ n ∈ sessions.map (·.2) := by
    rw [List.append_assoc, List.cons_append] at run
    exact run.removed_of_sent hsent
  have hdone := run.done_of_clear
  obtain ⟨soon, later, rfl⟩ := List.append_of_mem hrecord
  rw [← List.cons_append, ← List.append_assoc] at run
  obtain ⟨S₁, l, run₁, hl, hend, hopen⟩ := run.of_record
  obtain ⟨S₂, S₃, run₂, hclear, hended⟩ := run₁.split_step
  -- The session is still open when the record is made, so no release of it is through.
  have hunfinished : ∀ i' u result, .asked i' (.submit n .release) (.ok u) ∈
      before ++ .asked i .drain sessions :: between → .work n u (.yielded result) ∉
        before ++ .asked i .drain sessions :: between := by
    intro i' u result hu hy
    have harrived := mem_notes_arrived.2 ⟨i', List.mem_append_left (.asked i .clearLog () :: soon) hu⟩
    have hyielded := mem_notes_did.2 (List.mem_append_left (.asked i .clearLog () :: soon) hy)
    have hclosed := (hl.run.closed_of_yielded harrived hyielded).2
    rw [hopen] at hclosed
    cases hclosed
  refine ⟨⟨?_, hunfinished⟩, ?_⟩
  · rw [removals, List.flatMap_append, List.flatMap_cons, List.mem_append, List.mem_append]
    exact htaken.imp id .inl
  · refine htaken.imp id fun hn => ?_
    cases run₂.pursued hn with
    | unsent h => rw [hdone.unsent] at h; cases h
    | sent _ h => rw [hdone.unheard] at h; cases h
    | @through u result hu hy =>
      exact absurd hy (hunfinished i u result (List.mem_append_right _ (List.mem_cons_of_mem _ hu)))
    | @gaveUp u hu h => exact ⟨u, hu, h⟩
    | stopped h => rw [hended (hclear.ended h)] at hend; cases hend

/-- Who has closed all sessions took them out and cleared the log then, and whenever a caller did so the log
    holds only what was written since, of earlier work only records of sessions that were still retiring. -/
theorem Run.tornDown (run : Run r c o remote past S) :
    (∀ i x, S.callers[i]? = some (.done x) → x.isSweep = true → ∃ before sessions between after,
      past = before ++ .asked i .drain sessions :: between ++ .asked i .clearLog () :: after) ∧
    ∀ i before sessions between after,
      past = before ++ .asked i .drain sessions :: between ++ .asked i .clearLog () :: after →
      S.TornDown i before sessions between after := by
  refine ⟨fun i x hi hx => ?_, ?_⟩
  · obtain ⟨cleared, after, hcleared⟩ := cleared_of_docket (run.heedful.heeds i _ hi hx)
    have hdone := Run.done_of_clear (hcleared ▸ run)
    obtain ⟨before, sessions, between, rfl⟩ := drained_of_docket hdone.drained
    exact ⟨before, sessions, between, after, hcleared⟩
  · rintro i before sessions between after rfl
    refine ⟨?_, fun n => run.retiring_of_recorded⟩
    rw [run.log, List.foldl_append]
    rfl

/-- All sessions are closed while a call is under way, and nobody waits for the release to its end. -/
def stragglers : List (Choice Unit) :=
  List.flatten [[.come (.invoke "game" "act" (.structured [])), .come .closeAll, .ask 0, .ask 0, .read],
    List.replicate 5 (.go 0), [.giveUp 0, .ask 1, .ask 1, .giveUp 1, .ask 1, .go 0, .go 0]]

theorem recorded_stragglers : ∃ past S report, play obliging stragglers ([], quiet) = some (past, S) ∧
    past[3]? = some (.asked 0 (.submit 0 (.call "act" [])) (.ok 0)) ∧
    past[11]? = some (.asked 1 .drain [("game", 0)]) ∧ past[14]? = some (.asked 1 .clearLog ()) ∧
    past[16]? = some (.work 0 0 (.moved (.record "act" [] "true"))) ∧
    S.callers[1]? = some (.done (.report report)) ∧
    S.pool.shared.log = [("game", [.tool "act" (.obj []) "true"])] := by
  have hplay : (play obliging stragglers ([], quiet)).map (fun x =>
      (x.1[3]?, x.1[11]?, x.1[14]?, x.1[16]?, x.2.callers[1]?, x.2.pool.shared.log)) =
      some (some (.asked 0 (.submit 0 (.call "act" [])) (.ok 0)), some (.asked 1 .drain [("game", 0)]),
        some (.asked 1 .clearLog ()), some (.work 0 0 (.moved (.record "act" [] "true"))),
        some (.done (.report ⟨[], [(PoolError.timeout (120 * Text.second)).toClose "game"]⟩)),
        [("game", [.tool "act" (.obj []) "true"])]) := rfl
  obtain ⟨⟨past, S⟩, hplay, heq⟩ := Option.map_eq_some_iff.1 hplay
  simp only [Prod.mk.injEq] at heq
  exact ⟨past, S, _, hplay, heq⟩

/-- A call, then all sessions are closed, and then a call on a new session. -/
def encore : List (Choice Unit) :=
  List.flatten [[.come (.invoke "game" "act" (.structured [])), .come .closeAll,
    .come (.invoke "game" "bow" (.structured [])), .ask 0, .ask 0, .read], List.replicate 9 (.go 0),
    [.ask 0, .ask 1, .ask 1, .read], List.replicate 7 (.go 1), [.ask 1, .ask 1, .ask 2, .ask 2, .read],
    List.replicate 9 (.go 2)]

theorem tornDown_encore : ∃ past S before sessions between after,
    play obliging encore ([], quiet) = some (past, S) ∧
    past = before ++ .asked 1 .drain sessions :: between ++ .asked 1 .clearLog () :: after ∧
    S.pool.shared.log = [("game", [.tool "bow" (.obj []) "true"])] ∧
    S.TornDown 1 before sessions between after := by
  have hplay : (play obliging encore ([], quiet)).map (fun x => (x.2.callers[1]?, x.2.pool.shared.log)) =
      some (some (.done (.report ⟨["game"], []⟩)), [("game", [.tool "bow" (.obj []) "true"])]) := rfl
  obtain ⟨⟨past, S⟩, hplay, heq⟩ := Option.map_eq_some_iff.1 hplay
  rw [Prod.mk.injEq] at heq
  obtain ⟨hreturns, hlasts⟩ := Run.tornDown (run_of_play hplay .start)
  obtain ⟨before, sessions, between, after, hpast⟩ := hreturns 1 _ heq.1 rfl
  exact ⟨past, S, before, sessions, between, after, hplay, hpast, heq.2, hlasts 1 _ _ _ _ hpast⟩

end Scene
end SessionPool
