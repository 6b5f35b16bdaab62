import SessionPool.Proofs.Lockstep

/-! Settling: a worker whose jobs all come to an end when they get a turn. It reads its inbox, as far as
    it reads at a time, gives each job a turn in the order of arrival, and comes to rest within the steps
    that it is given; so it does the same as a plain walk through the tickets. -/

namespace SessionPool

/-- What a job is that got so far. -/
def Job.of {A : Type} {R : A → Type} {α : Type} : Program.Progress A R (Except PoolError α) → Job A R α
  | .finished x => .finished x
  | .waits rest => .pending rest
  | .occupies rest => .pending rest
  | .died => .dropped

namespace Worker
variable {A : Type} {R : A → Type} {α σ : Type}

/-- Lets jobs go on, one after the other. -/
def drain (host : Nat → Host σ A R) : List Nat → List (Job A R α) × σ → List (Job A R α) × σ
  | [], x => x
  | t :: rest, (jobs, s) =>
    match jobs[t]? with
    | some (.pending p) =>
      let a := p.advance (host t) s
      drain host rest (jobs.set t (.of a.progress), a.state)
    | _ => drain host rest (jobs, s)

/-- Whatever holds, a job that gets a turn comes to an end, wakes nobody, and it holds again. -/
def Smooth (host : Nat → Host σ A R) (inv : List (Job A R α) → σ → Prop) : Prop :=
  ∀ jobs s t p, inv jobs s → jobs[t]? = some (.pending p) →
    (p.advance (host t) s).woken = [] ∧
      ((∃ x, (p.advance (host t) s).progress = .finished x) ∨ (p.advance (host t) s).progress = .died) ∧
      inv (jobs.set t (.of (p.advance (host t) s).progress)) (p.advance (host t) s).state

/-- How many steps a worker takes at most until it rests, with so many messages, jobs in line, and turns
    left of the round. -/
def cost (mail turns left : Nat) : Nat :=
  3 * (mail + turns) + if left = 0 then 1 else if turns = 0 then 2 else 0

variable {host : Nat → Host σ A R} {w : Worker A R α} {s : σ} {t : Nat}

/-- Nobody sends word to stop, and nobody is roused from outside. -/
structure Calm (w : Worker A R α) (mail : List Nat) : Prop where
  ended : w.ended = false
  holder : w.holder = none
  roused : w.roused = []
  inbox : w.inbox = mail.map .run

/-- The worker has nothing to do, and its round is over. -/
structure Resting (w : Worker A R α) : Prop extends Calm w [] where
  turns : w.turns = []
  left : w.left = 0

theorem foldl_take (mail : List Nat) (h : w.ended = false) :
    (mail.map Message.run).foldl take w = { w with turns := w.turns ++ mail } := by
  induction mail generalizing w with
  | nil => rw [List.map_nil, List.foldl_nil, List.append_nil]
  | cons t mail ih =>
    have htake : w.take (.run t) = { w with turns := w.turns ++ [t] } :=
      if_neg (by rw [h]; exact Bool.false_ne_true)
    have hrest := ih (w := { w with turns := w.turns ++ [t] }) h
    rw [List.map_cons, List.foldl_cons, htake, hrest]
    simp only [List.append_assoc, List.singleton_append]

theorem Calm.receive {mail : List Nat} (h : w.Calm mail) :
    w.receive = { w with turns := w.turns ++ mail.take mailLimit
                         inbox := (mail.drop mailLimit).map .run } := by
  rw [Worker.receive, h.inbox, ← List.map_take, ← List.map_drop, foldl_take]
  exact h.ended

/-- A job that comes to an end and wakes nobody leaves the lists of the others alone. -/
theorem note_ended {a : Program.Advance σ A R (Except PoolError α)} (hwoken : a.woken = [])
    (hend : (∃ x, a.progress = .finished x) ∨ a.progress = .died) :
    w.note t a = { w with jobs := w.jobs.set t (.of a.progress) } := by
  have hstalled : (w.stalled.filter fun t => !List.contains [] t) = w.stalled :=
    List.filter_eq_self.2 fun _ _ => rfl
  rw [note, hwoken]
  rcases hend with ⟨x, hx⟩ | hx <;> simp only [hx, Job.of, List.append_nil, hstalled]

/-- A turn is given to the job that came first, which does what it does in the walk. -/
theorem turn_cons {inv : List (Job A R α) → σ → Prop} (hsmooth : Smooth host inv) (hinv : inv w.jobs s)
    (hroused : w.roused = []) {rest : List Nat} (hturns : w.turns = t :: rest) (left : Nat) :
    ∃ jobs s', turn host w left s =
        ({ w with jobs := jobs, turns := rest, left := left, looks := w.looks + 1 }, s') ∧
      inv jobs s' ∧ ∀ later, drain host (t :: later) (w.jobs, s) = drain host later (jobs, s') := by
  have hpick : turn host w left s =
      poll host { w with turns := rest, left := left, looks := w.looks + 1 } t s := by
    rw [turn, hturns, hroused]
    simp only [pick]
  rw [hpick, poll]
  cases hjob : w.jobs[t]? with
  | none => exact ⟨w.jobs, s, rfl, hinv, fun later => by rw [drain, hjob]⟩
  | some job =>
    cases job with
    | pending p =>
      obtain ⟨hwoken, hend, hinv'⟩ := hsmooth _ _ _ _ hinv hjob
      exact ⟨_, _, Prod.ext (note_ended hwoken hend) rfl, hinv', fun later => by rw [drain, hjob]⟩
    | finished x => exact ⟨w.jobs, s, rfl, hinv, fun later => by rw [drain, hjob]⟩
    | dropped => exact ⟨w.jobs, s, rfl, hinv, fun later => by rw [drain, hjob]⟩

/-- Without anybody in line a round is over. -/
theorem turn_nil (hroused : w.roused = []) (hturns : w.turns = []) (left : Nat) :
    turn host w left s = ({ w with left := 0, looks := w.looks + 1 }, s) := by
  rw [turn, hturns, hroused]
  simp only [pick]

variable {mail : List Nat}

theorem Calm.isIdle_iff (h : w.Calm mail) : w.isIdle = true ↔ mail = [] ∧ w.turns = [] := by
  rw [isIdle, h.inbox, h.roused]
  cases mail <;> simp

theorem Calm.step_turn (h : w.Calm mail) {left : Nat} (hleft : w.left = left + 1) :
    step host w s = some (turn host w left s) := by
  simp only [step, h.ended, h.holder, hleft, Bool.false_eq_true, if_false]

theorem Calm.step_idle (h : w.Calm mail) (hleft : w.left = 0) (hidle : w.isIdle = true) :
    step host w s = none := by
  simp only [step, h.ended, h.holder, hleft, hidle, Bool.false_eq_true, if_false, if_true]

theorem Calm.step_receive (h : w.Calm mail) (hleft : w.left = 0) (hidle : ¬w.isIdle = true) :
    step host w s = some ({ w with turns := w.turns ++ mail.take mailLimit
                                   inbox := (mail.drop mailLimit).map .run
                                   left := roundLength }, s) := by
  simp only [step, h.ended, h.holder, hleft, hidle, Bool.false_eq_true, if_false, h.receive]

theorem cost_pos (mail turns left : Nat) : 0 < cost mail turns left := by
  unfold cost
  split
  · omega
  · split <;> omega

/-- Reading messages costs a step, but only if there is one or a job in line. -/
theorem cost_receive {mail turns taken : Nat} (htaken : taken ≤ mail) (hsome : 0 < turns + taken) :
    cost (mail - taken) (turns + taken) roundLength < cost mail turns 0 := by
  rw [cost, cost, if_neg (by decide), if_neg (Nat.ne_of_gt hsome), if_pos rfl]
  omega

theorem cost_turn (mail turns left : Nat) : cost mail turns left < cost mail (turns + 1) (left + 1) := by
  unfold cost
  rw [if_neg (Nat.succ_ne_zero left), if_neg (Nat.succ_ne_zero turns)]
  split
  · omega
  · split <;> omega

theorem cost_over (mail left : Nat) : cost mail 0 0 < cost mail 0 (left + 1) := by
  rw [cost, cost, if_pos rfl, if_neg (Nat.succ_ne_zero left), if_pos rfl]
  omega

/-- Given steps enough, the worker does what the walk does, and rests. -/
theorem work_drains {inv : List (Job A R α) → σ → Prop} (hsmooth : Smooth host inv) :
    ∀ (fuel : Nat) {w : Worker A R α} {mail : List Nat} {s : σ}, w.Calm mail → inv w.jobs s →
      cost mail.length w.turns.length w.left ≤ fuel →
      ∃ w', work host fuel w s = (w', (drain host (w.turns ++ mail) (w.jobs, s)).2) ∧
        w'.jobs = (drain host (w.turns ++ mail) (w.jobs, s)).1 ∧ w'.Resting := by
  intro fuel
  induction fuel with
  | zero =>
    intro w mail s _ _ hcost
    exact absurd (cost_pos ..) (Nat.not_lt.2 hcost)
  | succ fuel ih =>
    intro w mail s hcalm hinv hcost
    rw [work]
    cases hleft : w.left with
    | zero =>
      rw [hleft] at hcost
      by_cases hidle : w.isIdle = true
      · rw [hcalm.step_idle hleft hidle]
        obtain ⟨rfl, hturns⟩ := hcalm.isIdle_iff.1 hidle
        rw [hturns]
        exact ⟨w, rfl, rfl, hcalm, hturns, hleft⟩
      · -- A round begins.
        rw [hcalm.step_receive hleft hidle]
        have hsome : 0 < w.turns.length + min mailLimit mail.length := by
          have hnot := mt hcalm.isIdle_iff.2 hidle
          rw [← List.length_eq_zero_iff, ← List.length_eq_zero_iff] at hnot
          rw [mailLimit]
          omega
        have hless := cost_receive (Nat.min_le_right mailLimit mail.length) hsome
        have hcalm' : Calm { w with turns := w.turns ++ mail.take mailLimit
                                    inbox := (mail.drop mailLimit).map .run
                                    left := roundLength } (mail.drop mailLimit) :=
          ⟨hcalm.ended, hcalm.holder, hcalm.roused, rfl⟩
        obtain ⟨w', h, hjobs, hrest⟩ := ih hcalm' hinv (by
            rw [List.length_append, List.length_take, List.length_drop]
            have hmin : mail.length - mailLimit = mail.length - min mailLimit mail.length := by omega
            rw [hmin]
            exact Nat.le_of_lt_succ (Nat.lt_of_lt_of_le hless hcost))
        rw [List.append_assoc, List.take_append_drop] at h hjobs
        exact ⟨w', h, hjobs, hrest⟩
    | succ left =>
      rw [hcalm.step_turn hleft]
      rw [hleft] at hcost
      cases hturns : w.turns with
      | nil =>
        rw [turn_nil hcalm.roused hturns, ← hturns]
        rw [hturns] at hcost
        have hless := cost_over mail.length left
        exact ih (w := { w with left := 0, looks := w.looks + 1 })
          ⟨hcalm.ended, hcalm.holder, hcalm.roused, hcalm.inbox⟩ hinv (by
            rw [hturns]
            exact Nat.le_of_lt_succ (Nat.lt_of_lt_of_le hless hcost))
      | cons t rest =>
        obtain ⟨jobs, s', hturn, hinv', hdrain⟩ := turn_cons hsmooth hinv hcalm.roused hturns left
        rw [hturn, List.cons_append, hdrain]
        rw [hturns] at hcost
        exact ih (w := { w with jobs := jobs, turns := rest, left := left, looks := w.looks + 1 })
          ⟨hcalm.ended, hcalm.holder, hcalm.roused, hcalm.inbox⟩ hinv'
          (Nat.le_of_lt_succ (Nat.lt_of_lt_of_le (cost_turn ..) hcost))

/-- The steps that settling takes at most are enough. -/
theorem cost_le_toil (h : w.Calm mail) : cost mail.length w.turns.length w.left ≤ w.toil := by
  rw [cost, toil, h.inbox, List.length_map]
  split
  · omega
  · split <;> omega

/-- A worker whose jobs come to an end settles as they do, one after the other. -/
theorem settle_drains {inv : List (Job A R α) → σ → Prop} (hsmooth : Smooth host inv) (h : w.Calm mail)
    (hinv : inv w.jobs s) :
    ∃ w', settle host w s = (w', (drain host (w.turns ++ mail) (w.jobs, s)).2) ∧
      w'.jobs = (drain host (w.turns ++ mail) (w.jobs, s)).1 ∧ w'.Resting :=
  work_drains hsmooth w.toil h hinv (cost_le_toil h)

/-- A worker that rests does nothing. -/
theorem Resting.settle (h : w.Resting) (host : Nat → Host σ A R) (s : σ) :
    Worker.settle host w s = (w, s) := by
  have hidle : w.isIdle = true := h.toCalm.isIdle_iff.2 ⟨rfl, h.turns⟩
  obtain ⟨fuel, hfuel⟩ : ∃ fuel, w.toil = fuel + 1 := ⟨w.toil - 1, by rw [toil]; omega⟩
  rw [Worker.settle, hfuel, work, h.toCalm.step_idle h.left hidle]

end Worker
end SessionPool
