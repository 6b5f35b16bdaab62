import SessionPool.Session

/-! Stations: where a job stands in its work on a session. The tree of moves that a job has left is
    followed by an automaton with few states, whatever the replies: each station names the one move that
    comes next, and the reply to it decides the next station. What holds of all jobs is then shown by
    cases on stations, and no tree is opened again.

        waiting ─lock─▶ checking ─look─▶ looking ─look─▶ connecting ─▶ calling ─▶ logging
           │               │                ▲  └──────────────┴──────────┴─────┐     │
           │               └─ready─┐        └────────── echo ──────────────────┼─────┤
           └─▶ retiring ─▶ sealing │                                           ▼     ▼
                              │    └──────────────────────────────────────▶ leaving ◀─ marking
                              └─▶ parting ─unlock─▶ closing ─▶ ended ◀─unlock─┘ -/

namespace SessionPool

/-- What a call on a client is made for. -/
inductive Purpose where
  | use (operation : String) (args : Fields)
  | load (state : Json) (extra : Fields) (check : Bool)
  /-- Asks for the state after a load that was answered with `message`. -/
  | echo (state : Json) (message : String)

namespace Purpose

def operation : Purpose → String
  | use operation _ => operation
  | load _ _ _ => loadScenario
  | echo _ _ => saveScenario

def args : Purpose → Fields
  | use _ args => args
  | load state extra _ => Table.insert Arguments.scenarioKey state extra
  | echo _ _ => []

/-- What work gives when its call fails. -/
def failure : Purpose → RemoteError → Except PoolError Yield
  | use _ _, e => .error e.toPool
  | load _ _ _, e => .error e.toLoad
  | echo state _, _ => .ok (.outcome (.mismatch state .null))

end Purpose

/-- Where a job stands in its work on a session. -/
inductive Station (κ : Type) where
  | waiting (w : Work)
  | checking (state : Json) (extra : Fields) (check : Bool)
  | looking (p : Purpose)
  | connecting (p : Purpose)
  | calling (p : Purpose)
  | logging (p : Purpose) (text : String)
  | marking (o : LoadOutcome)
  | leaving (result : Except PoolError Yield)
  | retiring
  | sealing (id : String)
  | parting (id : String) (client : Option κ)
  | closing (id : String) (client : κ)
  | ended (result : Except PoolError Yield)
  | dead

/-- Whether a move asks the server for something. -/
def Move.isRemote {κ : Type} : Move κ → Bool
  | .connect => true
  | .call _ _ => true
  | .close _ => true
  | _ => false

/-- Whether a move calls an operation. -/
def Move.isCall {κ : Type} : Move κ → Bool
  | .call _ _ => true
  | _ => false

namespace Station
variable {κ : Type}

/-- Where work stands that has just become first in line. -/
def entered : Work → Station κ
  | .call operation args => looking (.use operation args)
  | .load state extra check => checking state extra check
  | .release => retiring

/-- Where work stands after a successful call was logged. -/
def served : Purpose → String → Station κ
  | .use _ _, text => leaving (.ok (.text text))
  | .load state _ check, message =>
    if check then looking (.echo state message) else marking (.loaded message false)
  | .echo state message, echo =>
    let o := LoadOutcome.ofEcho state message echo
    if o.isReady then marking o else leaving (.ok (.outcome o))

/-- The move that comes next. -/
def move : Station κ → Option (Move κ)
  | waiting _ => some .lock
  | checking _ _ _ => some .look
  | looking _ => some .look
  | connecting _ => some .connect
  | calling p => some (.call p.operation p.args)
  | logging p text => some (.record p.operation p.args text)
  | marking _ => some .markReady
  | leaving _ => some .unlock
  | retiring => some .look
  | sealing _ => some .seal
  | parting _ _ => some .unlock
  | closing _ client => some (.close client)
  | ended _ => none
  | dead => none

/-- The station after a move was answered. -/
def after : Station κ → (m : Move κ) → m.Reply → Station κ
  | waiting w, .lock, _ => entered w
  | checking state extra check, .look, here =>
    if here.ready then leaving (.ok (.outcome .alreadyInitialized)) else looking (.load state extra check)
  | looking p, .look, here =>
    if here.closed then leaving (p.failure (.closed here.id))
    else if here.client.isSome then calling p
    else connecting p
  | connecting p, .connect, .error e => leaving (p.failure e)
  | connecting p, .connect, .ok _ => calling p
  | calling p, .call _ _, .error e => leaving (p.failure e)
  | calling p, .call _ _, .ok text => logging p text
  | logging p text, .record _ _ _, _ => served p text
  | marking o, .markReady, _ => leaving (.ok (.outcome o))
  | leaving result, .unlock, _ => ended result
  | retiring, .look, here => sealing here.id
  | sealing id, .seal, client => parting id client
  | parting _ none, .unlock, _ => ended (.ok .released)
  | parting id (some client), .unlock, _ => closing id client
  | closing id _, .close _, reply =>
    ended ((reply.mapError fun e => .closeFailed id e.message).map fun _ => .released)
  | st, _, _ => st

/-- Whether a job at the station has the session to itself. -/
def isInside : Station κ → Bool
  | waiting _ => false
  | closing _ _ => false
  | ended _ => false
  | dead => false
  | _ => true

end Station

/-- What work may give. -/
def Work.Gives : Work → Except PoolError Yield → Prop
  | .call _ _, .ok (.text _) => True
  | .load _ _ _, .ok (.outcome _) => True
  | .release, .ok .released => True
  | _, .error _ => True
  | _, _ => False

/-- What work may call a client for. -/
def Purpose.In : Work → Purpose → Prop
  | .call operation args, p => p = .use operation args
  | .load state extra check, p =>
    p = .load state extra check ∨ check = true ∧ ∃ message, p = .echo state message
  | .release, _ => False

/-- An echo shows that the state was loaded, or that another was. -/
theorem LoadOutcome.ofEcho_cases (state : Json) (message echo : String) :
    ofEcho state message echo = .loaded message true ∨ ∃ saved, ofEcho state message echo = .mismatch state saved := by
  rw [ofEcho]
  split
  · split
    · exact .inl rfl
    · exact .inr ⟨_, rfl⟩
  · exact .inr ⟨_, rfl⟩

/-- Where work may stand. -/
def Station.In {κ : Type} (w : Work) : Station κ → Prop
  | waiting w' => w' = w
  | checking state extra check => w = .load state extra check
  | looking p => p.In w
  | connecting p => p.In w
  | calling p => p.In w
  | logging p _ => p.In w
  | marking o => w.Gives (.ok (.outcome o)) ∧ ∃ message verified, o = .loaded message verified
  | leaving result => w.Gives result ∧ w ≠ .release
  | retiring => w = .release
  | sealing _ => w = .release
  | parting _ _ => w = .release
  | closing _ _ => w = .release
  | ended result => w.Gives result
  | dead => True

namespace Station
variable {κ : Type} {w : Work}

theorem in_failure {p : Purpose} (hp : p.In w) (e : RemoteError) :
    (leaving (p.failure e) : Station κ).In w := by
  cases w with
  | call operation args => cases hp; exact ⟨trivial, nofun⟩
  | load state extra check => rcases hp with rfl | ⟨-, message, rfl⟩ <;> exact ⟨trivial, nofun⟩
  | release => exact hp.elim

theorem in_served {p : Purpose} (hp : p.In w) (text : String) : (served p text : Station κ).In w := by
  cases w with
  | call operation args => cases hp; exact ⟨trivial, nofun⟩
  | load state extra check =>
    rcases hp with rfl | ⟨hc, message, rfl⟩
    · cases check with
      | true => exact .inr ⟨rfl, text, rfl⟩
      | false => exact ⟨trivial, text, false, rfl⟩
    · simp only [served]
      rcases LoadOutcome.ofEcho_cases state message text with ho | ⟨saved, ho⟩
      · rw [ho]
        exact ⟨trivial, message, true, rfl⟩
      · rw [ho]
        exact ⟨trivial, nofun⟩
  | release => exact hp.elim

theorem in_after {st : Station κ} {m : Move κ} (hst : st.In w) (hm : st.move = some m) (reply : m.Reply) :
    (st.after m reply).In w := by
  cases st with
  | waiting w' =>
    cases hm; cases hst
    cases w with
    | call _ _ => exact rfl
    | load _ _ _ => exact rfl
    | release => exact rfl
  | checking state extra check =>
    cases hm
    simp only [after]
    split
    · exact hst ▸ ⟨trivial, nofun⟩
    · exact hst ▸ .inl rfl
  | looking p =>
    cases hm
    simp only [after]
    split
    · exact in_failure hst _
    · split <;> exact hst
  | connecting p =>
    cases hm
    cases reply with
    | error e => exact in_failure hst _
    | ok _ => exact hst
  | calling p =>
    cases hm
    cases reply with
    | error e => exact in_failure hst _
    | ok _ => exact hst
  | logging p text => cases hm; exact in_served hst _
  | marking o => cases hm; exact ⟨hst.1, fun h => by subst h; exact hst.1⟩
  | leaving result => cases hm; exact hst.1
  | retiring => cases hm; exact hst
  | sealing id => cases hm; exact hst
  | parting id client =>
    cases hm
    cases client with
    | none => exact hst ▸ trivial
    | some c => exact hst
  | closing id c =>
    cases hm
    cases reply with
    | error e => exact hst ▸ trivial
    | ok _ => exact hst ▸ trivial
  | ended result => cases hm
  | dead => cases hm

/-- Only who waits takes the lock. -/
theorem waiting_of_lock {st : Station κ} (hm : st.move = some .lock) : ∃ w, st = waiting w := by
  cases st <;> cases hm
  exact ⟨_, rfl⟩

/-- Nobody comes back to the end of the line. -/
theorem after_ne_waiting {st : Station κ} {m : Move κ} (hm : st.move = some m) (reply : m.Reply)
    (w : Work) : st.after m reply ≠ waiting w := by
  cases st with
  | waiting w' => cases hm; cases w' <;> nofun
  | checking state extra check =>
    cases hm
    simp only [after]
    split <;> nofun
  | looking p =>
    cases hm
    simp only [after]
    split
    · nofun
    · split <;> nofun
  | connecting p | calling p => cases hm; cases reply <;> nofun
  | logging p text =>
    cases hm
    cases p with
    | use operation args => nofun
    | load state extra check => cases check <;> nofun
    | echo state message =>
      simp only [after, served]
      split <;> nofun
  | parting id client => cases hm; cases client <;> nofun
  | marking _ | leaving _ | retiring | sealing _ | closing _ _ => cases hm; nofun
  | ended _ | dead => cases hm

end Station

namespace Errand
variable {κ : Type} {n : Nat}

/-- Whatever the replies, a program makes the moves of a station and of those after it, all on one
    session. -/
def Follows (n : Nat) : Errand κ (Except PoolError Yield) → Station κ → Prop
  | .done result, st => st = .ended result
  | .act d next, st =>
    d.session = n ∧ st.move = some d.move ∧ ∀ reply, Follows n (next reply) (st.after d.move reply)

theorem follows_act {m : Move κ} {next : m.Reply → Errand κ (Except PoolError Yield)} {st : Station κ}
    (hm : st.move = some m) (h : ∀ reply, Follows n (next reply) (st.after m reply)) :
    Follows n (.act ⟨n, m⟩ next) st :=
  ⟨rfl, hm, h⟩

/-- The end of a locked body. -/
theorem follows_leaving (result : Except PoolError Yield) :
    Follows n (.act ⟨n, .unlock⟩ fun _ => .done result) (.leaving result : Station κ) :=
  follows_act rfl fun _ => rfl

/-- A call on a client that is there, which is logged if it succeeds. -/
theorem follows_calling (p : Purpose)
    {next : Except RemoteError String → Errand κ (Except PoolError Yield)}
    {k : String → Errand κ (Except PoolError Yield)}
    (hnext : ∀ text, next (.ok text) = .act ⟨n, .record p.operation p.args text⟩ fun _ => k text)
    (hfail : ∀ e, Follows n (next (.error e)) (.leaving (p.failure e)))
    (hok : ∀ text, Follows n (k text) (.served p text)) :
    Follows n (.act ⟨n, .call p.operation p.args⟩ next) (.calling p) := by
  refine follows_act rfl fun reply => ?_
  cases reply with
  | error e => exact hfail e
  | ok text =>
    show Follows n (next (.ok text)) (.logging p text)
    rw [hnext]
    exact follows_act rfl fun _ => hok text

/-- A logged call, and what is done with its reply. -/
theorem follows_logged (p : Purpose)
    {k : Except RemoteError String → Errand κ (Except PoolError Yield)}
    (hfail : ∀ e, Follows n (k (.error e)) (.leaving (p.failure e)))
    (hok : ∀ text, Follows n (k (.ok text)) (.served p text)) :
    Follows n (logged n p.operation p.args >>= k) (.looking p) := by
  refine follows_act rfl fun here => ?_
  obtain ⟨id, l, ready, closed, client, line⟩ := here
  cases closed with
  | true => exact hfail _
  | false =>
    cases client with
    | some c => exact follows_calling p (fun _ => rfl) hfail hok
    | none =>
      refine follows_act rfl fun reply => ?_
      cases reply with
      | error e => exact hfail e
      | ok _ => exact follows_calling p (fun _ => rfl) hfail hok

/-- The end of a load, from where its outcome is known. -/
theorem follows_settleLoad (o : LoadOutcome)
    {k : LoadOutcome → Errand κ (Except PoolError Yield)}
    (hk : Follows n (k o) (.leaving (.ok (.outcome o)))) :
    Follows n (settleLoad n o >>= k) (if o.isReady then .marking o else .leaving (.ok (.outcome o))) := by
  unfold settleLoad
  split
  · exact follows_act rfl fun _ => hk
  · exact hk

/-- A program that is done while the session is its own, from behind the entrance. -/
theorem follows_locked {α : Type} {w : Work} (body : Errand κ α) (f : α → Except PoolError Yield)
    (hbody : Follows n (body >>= fun result => .act ⟨n, .unlock⟩ fun _ => .done (f result)) (.entered w)) :
    Follows n (locked n body >>= fun result => pure (f result)) (.waiting w) := by
  refine follows_act rfl fun _ => ?_
  show Follows n ((body >>= fun result => on n .unlock >>= fun _ => pure result) >>=
    fun result => pure (f result)) (.entered w)
  rw [Program.bind_assoc]
  exact hbody

theorem ofWork_follows (n : Nat) (w : Work) : Follows n (ofWork n w : Errand κ _) (.waiting w) := by
  cases w with
  | call operation args =>
    refine follows_locked _ _ (follows_logged (.use operation args) ?_ ?_)
    · exact fun _ => follows_leaving _
    · exact fun _ => follows_leaving _
  | load state extra check =>
    refine follows_locked _ _ (follows_act rfl fun here => ?_)
    obtain ⟨id, l, ready, closed, client, line⟩ := here
    cases ready with
    | true => exact follows_leaving _
    | false =>
      show Follows n ((logged n loadScenario _ >>= _) >>= _) (.looking (.load state extra check))
      rw [Program.bind_assoc]
      refine follows_logged (.load state extra check) (fun _ => follows_leaving _) fun message => ?_
      cases check with
      | false =>
        show Follows n ((settleLoad n (.loaded message false) >>= _) >>= _) _
        rw [Program.bind_assoc]
        refine follows_settleLoad (.loaded message false) ?_
        exact follows_leaving _
      | true =>
        show Follows n (((logged n saveScenario [] >>= _) >>= _) >>= _) (.looking (.echo state message))
        rw [Program.bind_assoc, Program.bind_assoc]
        refine follows_logged (.echo state message) (fun _ => follows_leaving _) fun echo => ?_
        refine follows_settleLoad (.ofEcho state message echo) ?_
        exact follows_leaving _
  | release =>
    refine follows_act rfl fun _ => follows_act rfl fun here => follows_act rfl fun client => ?_
    cases client with
    | none => exact follows_act rfl fun _ => rfl
    | some c => exact follows_act rfl fun _ => follows_act rfl fun _ => rfl

end Errand
end SessionPool
