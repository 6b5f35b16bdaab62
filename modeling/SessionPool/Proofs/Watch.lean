import SessionPool.Caller
import SessionPool.Proofs.Effect

/-! Watching: what is heard from the servers while a pool runs. A host that also keeps a list of the words
    that it hears does what it does without the list, and so do the worker and the callers. -/

namespace SessionPool

section
variable {σ τ ρ : Type}

/-- What comes of an action, with the state seen from elsewhere. -/
def Turn.on (f : σ → τ) : Turn σ ρ → Turn τ ρ
  | .went reply s woken => .went reply (f s) woken
  | .waits s => .waits (f s)
  | .occupies s => .occupies (f s)
  | .died s woken => .died (f s) woken

/-- What comes of an action, and what is kept beside the state; it changes only if the action goes. -/
def Turn.beside (before after : τ) : Turn σ ρ → Turn (σ × τ) ρ
  | .went reply s woken => .went reply (s, after) woken
  | .waits s => .waits (s, before)
  | .occupies s => .occupies (s, before)
  | .died s woken => .died (s, after) woken

theorem Turn.beside_on (before after : τ) (turn : Turn σ ρ) : (turn.beside before after).on Prod.fst = turn := by
  cases turn <;> rfl

end

/-- How far a program got, with the state seen from elsewhere. -/
def Program.Advance.on {σ τ A : Type} {R : A → Type} {α : Type} (f : σ → τ) (a : Program.Advance σ A R α) :
    Program.Advance τ A R α :=
  ⟨a.progress, f a.state, a.woken⟩

section
variable {σ τ A : Type} {R : A → Type} {α : Type} {f : σ → τ}

/-- Hosts that do the same to what is seen from elsewhere advance programs the same. -/
theorem Program.advance_on {inner : Host σ A R} {outer : Host τ A R}
    (h : ∀ a s, (inner a s).on f = outer a (f s)) :
    ∀ (p : Program A R α) (s : σ), (p.advance inner s).on f = p.advance outer (f s) := by
  intro p
  induction p with
  | done result => intro s; rfl
  | act a next ih =>
    intro s
    rw [advance, advance, ← h]
    cases inner a s with
    | went reply s' woken =>
      simp only [Turn.on]
      rw [← ih]
      rfl
    | waits s' => rfl
    | occupies s' => rfl
    | died s' woken => rfl

namespace Worker
variable {inner : Nat → Host σ A R} {outer : Nat → Host τ A R}

theorem poll_on (h : ∀ t a s, (inner t a s).on f = outer t a (f s)) (w : Worker A R α) (t : Nat) (s : σ) :
    poll outer w t (f s) = ((poll inner w t s).1, f (poll inner w t s).2) := by
  unfold poll
  split
  · rw [← Program.advance_on (h t)]
    rfl
  · rfl

theorem turn_on (h : ∀ t a s, (inner t a s).on f = outer t a (f s)) (w : Worker A R α) (left : Nat) (s : σ) :
    turn outer w left (f s) = ((turn inner w left s).1, f (turn inner w left s).2) := by
  unfold turn
  simp only
  split
  · rfl
  · rw [poll_on h]

theorem step_on (h : ∀ t a s, (inner t a s).on f = outer t a (f s)) (w : Worker A R α) (s : σ) :
    step outer w (f s) = (step inner w s).map fun x => (x.1, f x.2) := by
  unfold step
  split
  · rfl
  split
  · rw [poll_on h]
    simp only
    split <;> rfl
  · rw [turn_on h]
    rfl
  · split <;> rfl

theorem work_on (h : ∀ t a s, (inner t a s).on f = outer t a (f s)) :
    ∀ (fuel : Nat) (w : Worker A R α) (s : σ),
      work outer fuel w (f s) = ((work inner fuel w s).1, f (work inner fuel w s).2) := by
  intro fuel
  induction fuel with
  | zero => intro w s; rfl
  | succ fuel ih =>
    intro w s
    rw [work, work, step_on h]
    cases step inner w s with
    | none => rfl
    | some x => exact ih x.1 x.2

theorem settle_on (h : ∀ t a s, (inner t a s).on f = outer t a (f s)) (w : Worker A R α) (s : σ) :
    settle outer w (f s) = ((settle inner w s).1, f (settle inner w s).2) :=
  work_on h w.toil w s

end Worker
end

/-- A word that a server says to a move on a session. -/
structure Heard (κ : Type) where
  place : Nat
  session : String
  move : Move κ
  word : Word κ

namespace Shared
variable {ρ κ : Type}

/-- The word that is heard if a deed goes. -/
def listen (r : Remote ρ κ) (d : Deed κ) (w : Shared ρ κ) : List (Heard κ) :=
  match w.sessions[d.session]? with
  | none => []
  | some s =>
    match r.word s w.remote d.move with
    | none => []
    | some (word, _) => [⟨d.session, s.id, d.move, word⟩]

/-- Tries a deed and keeps a list of what is heard. -/
def watch (r : Remote ρ κ) (ticket : Nat) : Host (Shared ρ κ × List (Heard κ)) (Deed κ) Deed.Reply :=
  fun d w => (host r ticket d w.1).beside w.2 (w.2 ++ listen r d w.1)

theorem watch_on (r : Remote ρ κ) (t : Nat) (d : Deed κ) (w : Shared ρ κ × List (Heard κ)) :
    (watch r t d w).on Prod.fst = host r t d w.1 :=
  Turn.beside_on ..

end Shared

namespace Pool
variable {ρ κ α β : Type}

/-- What is heard while the worker goes on until it rests. -/
def overheard (r : Remote ρ κ) (p : Pool ρ κ) : List (Heard κ) :=
  (p.worker.settle (Shared.watch r) (p.shared, [])).2.2

/-- What is heard while a caller runs that gives up at its deadlines. -/
def heard (r : Remote ρ κ) : Caller α → Pool ρ κ → List (Heard κ)
  | Program.done _, _ => []
  | Program.act a next, p =>
    (if waits a then p.overheard r else []) ++
      match host r false a p with
      | .went reply p' _ => heard r (next reply) p'
      | _ => []

/-- The worker goes on the same whether or not it is watched. -/
theorem settle_watch (r : Remote ρ κ) (p : Pool ρ κ) :
    p.settle r = { p with worker := (p.worker.settle (Shared.watch r) (p.shared, [])).1
                          shared := (p.worker.settle (Shared.watch r) (p.shared, [])).2.1 } := by
  rw [settle, show p.shared = Prod.fst (p.shared, ([] : List (Heard κ))) from rfl,
    Worker.settle_on (Shared.watch_on r)]

/-- A caller is heard to its end, and then what follows it. -/
theorem heard_bind {r : Remote ρ κ} {f : α → Caller β} {c : Caller α} {y : α} {p p' : Pool ρ κ}
    (h : p.run r c = (.finished y, p')) : p.heard r (c >>= f) = p.heard r c ++ p'.heard r (f y) := by
  induction c generalizing p with
  | done z =>
    cases h
    rfl
  | act a next ih =>
    rw [Program.act_bind]
    rw [run, Program.advance] at h
    cases hgo : host r false a p with
    | went reply q woken =>
      rw [hgo] at h
      simp only [heard, hgo, List.append_assoc]
      exact congrArg _ (ih reply h)
    | waits q | occupies q | died q woken =>
      rw [hgo] at h
      cases h

end Pool
end SessionPool
