/-! Programs: trees of actions, each with a continuation for every reply it may get. One tree is
    executed in two ways. A total handler runs it from end to end (`run`). A host, which may also put an
    action off, advances it as far as it goes (`advance`) and leaves the rest of the tree, so programs
    of several parties interleave at their actions. -/

namespace SessionPool

/-- A program with actions in `A`, of which `a` is answered in `R a`, that ends with an `α`. -/
inductive Program (A : Type) (R : A → Type) (α : Type) where
  | done (result : α)
  | act (a : A) (next : R a → Program A R α)

/-- What comes of an action that is tried in a state: it went, and wakes other programs; it waits until
    something changes; it keeps its host busy; or the program dies of it. -/
inductive Turn (σ ρ : Type) where
  | went (reply : ρ) (s : σ) (woken : List Nat)
  | waits (s : σ)
  | occupies (s : σ)
  | died (s : σ) (woken : List Nat)

/-- What tries actions. -/
abbrev Host (σ A : Type) (R : A → Type) := (a : A) → σ → Turn σ (R a)

namespace Program
variable {A : Type} {R : A → Type} {α β σ : Type}

/-- Goes on with `f` where the program ends. -/
def bind : Program A R α → (α → Program A R β) → Program A R β
  | done r, f => f r
  | act a next, f => act a fun reply => (next reply).bind f

instance : Monad (Program A R) where
  pure := done
  bind := bind

/-- The program of one action. -/
def ask (a : A) : Program A R (R a) := act a done

/-- Runs a program to its end with a handler that answers every action. -/
def run (handle : (a : A) → σ → R a × σ) : Program A R α → σ → α × σ
  | done r, s => (r, s)
  | act a next, s =>
    let (reply, s) := handle a s
    run handle (next reply) s

/-- How far a program got. -/
inductive Progress (A : Type) (R : A → Type) (α : Type) where
  | finished (result : α)
  | waits (rest : Program A R α)
  | occupies (rest : Program A R α)
  | died

/-- How far a program got, the state then, and the programs it woke. -/
structure Advance (σ A : Type) (R : A → Type) (α : Type) where
  progress : Progress A R α
  state : σ
  woken : List Nat

/-- Advances a program until it ends or an action does not go. -/
def advance (host : Host σ A R) : Program A R α → σ → Advance σ A R α
  | done r, s => ⟨.finished r, s, []⟩
  | act a next, s =>
    match host a s with
    | .went reply s woken =>
      let later := advance host (next reply) s
      { later with woken := woken ++ later.woken }
    | .waits s => ⟨.waits (act a next), s, []⟩
    | .occupies s => ⟨.occupies (act a next), s, []⟩
    | .died s woken => ⟨.died, s, woken⟩

@[simp] theorem pure_eq (r : α) : (pure r : Program A R α) = done r := rfl

@[simp] theorem done_bind (r : α) (f : α → Program A R β) : (done r : Program A R α) >>= f = f r := rfl

@[simp] theorem act_bind (a : A) (next : R a → Program A R α) (f : α → Program A R β) :
    act a next >>= f = act a fun reply => next reply >>= f := rfl

@[simp] theorem ask_bind (a : A) (f : R a → Program A R β) :
    (ask a : Program A R (R a)) >>= f = act a f := rfl

theorem bind_done (p : Program A R α) : p >>= done = p := by
  induction p with
  | done r => rfl
  | act a next ih => rw [act_bind]; exact congrArg (act a) (funext ih)

theorem bind_assoc {γ : Type} (f : α → Program A R β) (g : β → Program A R γ) (p : Program A R α) :
    p >>= f >>= g = p >>= fun r => f r >>= g := by
  induction p with
  | done r => rfl
  | act a next ih => rw [act_bind, act_bind, act_bind]; exact congrArg (act a) (funext ih)

theorem run_bind (handle : (a : A) → σ → R a × σ) (f : α → Program A R β) :
    ∀ (p : Program A R α) (s : σ),
      run handle (p >>= f) s = run handle (f (run handle p s).1) (run handle p s).2
  | done _, _ => rfl
  | act a next, s => run_bind handle f (next (handle a s).1) (handle a s).2

end Program
end SessionPool
