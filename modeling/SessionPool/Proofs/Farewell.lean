import SessionPool.Proofs.Course
import SessionPool.Proofs.Logbook
import SessionPool.Rehearsal.Drill

/-! Farewells: what is told of the end of a worker. Whoever tells it to stop first waits for its end, and is
    told of the end only when it has come. From then on the worker is not told to be running, and whoever
    tells it to stop again is told that it has ended, though neither says that it has: a job that keeps the
    thread busy holds the end up. -/

namespace SessionPool
variable {ρ κ α β : Type}

theorem Worker.joined_of_step {A σ : Type} {R : A → Type} {host : Nat → Host σ A R} {w : Worker A R α} {s : σ}
    {x : Worker A R α × σ} (h : step host w s = some x) : x.1.joined = w.joined := by
  obtain ⟨-, hdoes⟩ := does_of_step h
  generalize w.upcoming = turn at hdoes
  cases hdoes with
  | resumed | turned => exact poll_joined ..
  | rested => rfl
  | received => exact receive_joined w

/-! ### Callers that stop no worker -/

namespace Caller

theorem releaseEach_avoids_stop (t : Table Nat) : Avoids .stop (releaseEach t) := by
  induction t with
  | nil => trivial
  | cons e t ih =>
    have hsubmit : Avoids .stop (act (.submit e.2 .release)) := avoids_act nofun
    exact hsubmit.bind fun _ => ih.bind fun _ => trivial

theorem awaitEach_avoids_stop (t : Table (Except PoolError Nat)) : Avoids .stop (awaitEach t) := by
  induction t with
  | nil => trivial
  | cons e t ih =>
    obtain ⟨id, ticket⟩ := e
    have hsent : Avoids .stop (awaitSent ticket) := by
      cases ticket with
      | error e => trivial
      | ok ticket => exact avoids_act nofun
    refine hsent.bind fun result => ih.bind fun report => ?_
    cases result <;> trivial

theorem closeAll_avoids_stop : Avoids .stop closeAll := by
  have hdrain : Avoids .stop (act .drain) := avoids_act nofun
  have hclear : Avoids .stop (act .clearLog) := avoids_act nofun
  refine hdrain.bind fun t => (releaseEach_avoids_stop t).bind fun tickets => ?_
  exact (awaitEach_avoids_stop tickets).bind fun report => hclear.bind fun _ => trivial

end Caller

namespace Pool
variable {r : Remote ρ κ} {made p p' : Pool ρ κ} {a : Ask} {reply : a.Reply} {woken : List Nat}
  {past : List Incident} {e : Incident}

theorem joined_of_answer (ha : a ≠ .stop) (h : p.answer a = .went reply p' woken) :
    p'.worker.joined = p.worker.joined := by
  cases answered h with
  | stopped => exact absurd rfl ha
  | _ => rfl

/-- An action that has to wait changes nothing. -/
theorem eq_of_waits (h : p.answer a = .waits p') : p' = p := by
  cases a with
  | await t =>
    rw [answer] at h
    split at h <;> cases h
    rfl
  | gone within =>
    rw [answer] at h
    split at h <;> cases h
    rfl
  | submit n v =>
    rw [answer] at h
    split at h <;> cases h
  | _ => cases h

theorem joined_of_host (ha : a ≠ .stop) (h : host r false a p = .went reply p' woken) :
    p'.worker.joined = p.worker.joined := by
  have hsettle : (p.settle r).worker.joined = p.worker.joined := Worker.settle_joined ..
  rw [host] at h
  split at h
  · rename_i hw
    rw [← hsettle]
    simp only [Bool.false_eq_true, if_false] at h
    split at h
    · rename_i hwaits
      rw [eq_of_giveUp hw h, eq_of_waits hwaits]
    · exact joined_of_answer ha h
  · exact joined_of_answer ha h

theorem joined_of_run {c : Caller α} {y : α} (hc : Caller.Avoids .stop c) (h : p.run r c = (.finished y, p')) :
    p'.worker.joined = p.worker.joined := by
  induction c generalizing p with
  | done z =>
    cases h
    rfl
  | act a next ih =>
    rw [run, Program.advance] at h
    cases hgo : host r false a p with
    | went reply q woken =>
      rw [hgo] at h
      exact (ih reply (hc.2 reply) h).trans (joined_of_host hc.1 hgo)
    | waits q | occupies q | died q woken =>
      rw [hgo] at h
      cases h

theorem run_bind_finished {c : Caller α} {f : α → Caller β} {z : β} (h : p.run r (c >>= f) = (.finished z, p')) :
    ∃ y q, p.run r c = (.finished y, q) ∧ q.run r (f y) = (.finished z, p') := by
  induction c generalizing p with
  | done y => exact ⟨y, p, rfl, h⟩
  | act a next ih =>
    rw [Program.act_bind, run, Program.advance] at h
    cases hgo : host r false a p with
    | went reply q woken =>
      rw [hgo] at h
      obtain ⟨y, q', hfirst, hrest⟩ := ih reply h
      refine ⟨y, q', ?_, hrest⟩
      rw [← hfirst, run, Program.advance, hgo]
      rfl
    | waits q | occupies q | died q woken =>
      rw [hgo] at h
      cases h

/-- Who waits for the end of the worker is told at the deadline whether it has come. -/
theorem run_gone (r : Remote ρ κ) (p : Pool ρ κ) (within : Nat) :
    p.run r (Caller.act (.gone within)) = (.finished (p.settle r).worker.ended, p.settle r) := by
  have hhost : host r false (.gone within) p = .went (p.settle r).worker.ended (p.settle r) [] := by
    cases hended : (p.settle r).worker.ended <;> simp [host, waits, answer, giveUp, hended]
  exact run_went hhost

/-- A shutdown tells that the worker has ended if it has, or if someone stopped it before. -/
theorem run_shutdown {within : Nat} {report : ShutdownReport}
    (h : p.run r (Caller.shutdown within) = (.finished report, p')) :
    report.terminated = true ↔ p.worker.joined = true ∨ p'.worker.ended = true := by
  obtain ⟨closed, q, hclose, hstop⟩ := run_bind_finished h
  rw [← joined_of_run Caller.closeAll_avoids_stop hclose]
  have hanswer : q.answer .stop = .went q.worker.joined { q with worker := q.worker.leave.2 } [] := rfl
  replace hstop := (run_answer rfl hanswer).symm.trans hstop
  cases hjoined : q.worker.joined with
  | true =>
    rw [hjoined] at hstop
    cases hstop
    simp
  | false =>
    rw [hjoined] at hstop
    replace hstop := (run_bind (run_gone r _ within)).symm.trans hstop
    cases hstop
    exact (or_iff_right Bool.false_ne_true).symm

/-! ### What is told along a course -/

theorem Next.joined (h : p.Next r e p') : p'.worker.joined = true ↔
    p.worker.joined = true ∨ ∃ joined, e = .asked .stop joined := by
  cases h with
  | @ask a reply _ _ hanswer =>
    by_cases ha : a = .stop
    · subst ha
      cases hanswer
      exact iff_of_true rfl (.inr ⟨_, rfl⟩)
    · rw [joined_of_answer ha hanswer]
      refine (or_iff_left ?_).symm
      rintro ⟨joined, heq⟩
      cases heq
      exact ha rfl
  | giveUp hw hgiveUp =>
    rw [eq_of_giveUp hw hgiveUp]
    simp
  | work hstep =>
    rw [Worker.joined_of_step hstep]
    simp
  | chat | rouse | world => exact (or_iff_left (by simp)).symm

/-- Someone waits for the end, or did, if the worker was told to stop. -/
theorem Course.joined (hmade : made.Made r) (course : Course r made past p) :
    p.worker.joined = true ↔ ∃ joined, .asked .stop joined ∈ past := by
  induction course with
  | start => simp [hmade.fresh.1]
  | next _ hnext ih =>
    rw [hnext.joined, ih]
    simp only [List.mem_append, List.mem_singleton, exists_or, eq_comm]

/-- What is told of the end of the worker. -/
structure Farewell (r : Remote ρ κ) (past : List Incident) (p : Pool ρ κ) : Prop where
  /-- The worker ends only if it is told to stop. -/
  ended : p.worker.ended = true → ∃ joined, .asked .stop joined ∈ past
  /-- It is told to be running until then, and no longer. -/
  running : p.worker.isRunning = false ↔ ∃ joined, .asked .stop joined ∈ past
  /-- Whoever tells it to stop is told whether someone has done so before. -/
  stop : ∀ joined p', p.Next r (.asked .stop joined) p' →
    (joined = true ↔ ∃ joined, .asked .stop joined ∈ past)
  /-- Whoever waits for its end is told of it only when it has come. -/
  gone : ∀ within reply p', p.Next r (.asked (.gone within) reply) p' → reply = true ∧ p.worker.ended = true
  gaveUp : ∀ within reply p', p.Next r (.gaveUp (.gone within) reply) p' → reply = false
  shutdown : ∀ within report p', p.run r (Caller.shutdown within) = (.finished report, p') →
    (report.terminated = true ↔ (∃ joined, .asked .stop joined ∈ past) ∨ p'.worker.ended = true)

/-- At every moment of a course the first who stops the worker is told the truth of its end, and all others
    are told that it has come. -/
theorem Course.farewell (hmade : made.Made r) (course : Course r made past p) : Farewell r past p where
  ended := course.stopped hmade
  running := by
    rw [← course.joined hmade, Worker.isRunning]
    constructor
    · intro h
      cases hjoined : p.worker.joined with
      | true => rfl
      | false =>
        have hended : p.worker.ended = true := by simpa [hjoined] using h
        exact hjoined.symm.trans ((course.joined hmade).2 (course.stopped hmade hended))
    · intro h
      simp [h]
  stop joined p' hnext := by
    rw [← course.joined hmade]
    cases hnext with
    | ask hanswer =>
      cases hanswer
      exact Iff.rfl
  gone within reply p' hnext := by
    cases hnext with
    | ask hanswer =>
      cases answered hanswer with
      | gone hended => exact ⟨rfl, hended⟩
  gaveUp within reply p' hnext := by
    cases hnext with
    | giveUp hw hgiveUp =>
      cases hgiveUp
      rfl
  shutdown within report p' hrun := by
    rw [← course.joined hmade]
    exact run_shutdown hrun

/-- A worker that was stopped and has not ended yet is stopped again. -/
theorem farewell_salon : ∃ past p, Course tally salon past p ∧
    past = [.asked .stop false, .gaveUp (.gone 20) false, .asked .stop true] ∧
    p.worker.ended = false ∧ Farewell tally past p := by
  have hfirst : Course tally salon _ _ :=
    .next (.next .start (.ask (a := .stop) rfl)) (.giveUp (a := .gone 20) rfl rfl)
  have hagain : Course tally salon _ _ := .next hfirst (.ask (a := .stop) rfl)
  exact ⟨_, _, hagain, rfl, rfl, hagain.farewell (.ofCatalog ..)⟩

end Pool

namespace Rehearsal.Drill

/-- A worker whose thread is kept busy. -/
def busy : Drill := (block {} "b").2

/-- A worker that is stopped while its thread is kept busy is not told to be running, and its end is told to
    the second who stops it, though it has not ended. -/
theorem shutdown_busy : busy.shutdown.1 = false ∧ busy.shutdown.2.worker.isRunning = false ∧
    busy.shutdown.2.shutdown.1 = true ∧ busy.shutdown.2.shutdown.2.worker.ended = false := by
  decide

end Rehearsal.Drill
end SessionPool
