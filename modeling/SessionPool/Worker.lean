import SessionPool.Program
import SessionPool.Error

/-! The worker: one thread that runs programs by turns. Programs arrive in an inbox; those that can go on
    have turns, oldest first, and a program that waits leaves the thread to the others. What it waits
    for may be given by another program, which puts it in line for a turn, or from outside, which
    rouses it. The worker goes in rounds: it reads the inbox, as far as it reads at a time, and then
    gives turns, up to the end of the round or until nobody can go on. A message to stop ends the
    worker: whatever is not finished then is dropped, what stands behind it in the inbox included. A
    program that keeps the thread busy holds everything up, the end too.

        inbox ──receive──▶ turns ──poll──▶ finished
                             ▲       │
                             ├─woken─┴──▶ stalled ──rouse──▶ roused
                             └────────── poll ◀──────────────┘ -/

namespace SessionPool

/-- A program the worker has accepted. -/
inductive Job (A : Type) (R : A → Type) (α : Type) where
  | pending (rest : Program A R (Except PoolError α))
  | finished (result : Except PoolError α)
  | dropped

/-- What is sent to the worker: the ticket of a job to run, or word to stop. -/
inductive Message where
  | run (ticket : Nat)
  | stop
  deriving DecidableEq

/-- The worker and all its jobs; a job's place in the list is its ticket. -/
structure Worker (A : Type) (R : A → Type) (α : Type) where
  jobs : List (Job A R α) := []
  inbox : List Message := []
  turns : List Nat := []
  /-- Jobs that may go on because of something outside, first come first. -/
  roused : List Nat := []
  /-- Jobs that wait, longest first. -/
  stalled : List Nat := []
  /-- The job that keeps the thread busy. -/
  holder : Option Nat := none
  /-- How many turns are left of the round. -/
  left : Nat := 0
  /-- How often the worker has looked for a job to give a turn to. -/
  looks : Nat := 0
  ended : Bool := false
  /-- Whether someone has already waited for the end. -/
  joined : Bool := false

/-- The job is not pending any more; without a result it counts as dropped. -/
def Job.drop {A : Type} {R : A → Type} {α : Type} : Job A R α → Job A R α
  | .finished r => .finished r
  | _ => .dropped

namespace Worker
variable {A : Type} {R : A → Type} {α σ : Type}

/-- A worker that had one job, gave it a turn and then looked for another in vain. -/
def afterOne : Worker A R α := { looks := 2 }

/-- Sends a program: its ticket, unless the worker has ended. -/
def submit (w : Worker A R α) (p : Program A R (Except PoolError α)) : Option Nat × Worker A R α :=
  if w.ended then (none, w)
  else
    let ticket := w.jobs.length
    (some ticket, { w with jobs := w.jobs ++ [.pending p], inbox := w.inbox ++ [.run ticket] })

/-- Sends word to stop. -/
def sendStop (w : Worker A R α) : Worker A R α :=
  if w.ended then w else { w with inbox := w.inbox ++ [.stop] }

/-- What a waiting caller gets for its ticket; `none` as long as the job is pending. -/
def result? (w : Worker A R α) (ticket : Nat) : Option (Except PoolError α) :=
  match w.jobs[ticket]? with
  | some (.pending _) => none
  | some (.finished r) => some r
  | some .dropped => some (.error .workerClosed)
  | none => some (.error .workerClosed)

/-- Ends the worker and drops all that is not finished. -/
def finish (w : Worker A R α) : Worker A R α :=
  { w with
    jobs := w.jobs.map Job.drop
    inbox := []
    turns := []
    roused := []
    stalled := []
    holder := none
    left := 0
    ended := true }

/-- Acts on one message. -/
def take (w : Worker A R α) : Message → Worker A R α
  | .run ticket => if w.ended then w else { w with turns := w.turns ++ [ticket] }
  | .stop => w.finish

/-- So many messages are read at a time. -/
def mailLimit : Nat := 128

/-- A round has so many turns. -/
def roundLength : Nat := 61

/-- When the worker looks for the next job, roused jobs come before the others once in so many times, and
    behind them otherwise. -/
def rousedEvery : Nat := 31

/-- Reads the inbox, as far as it is read at a time. -/
def receive (w : Worker A R α) : Worker A R α :=
  (w.inbox.take mailLimit).foldl take { w with inbox := w.inbox.drop mailLimit }

/-- Notes how far a job got. -/
def note (w : Worker A R α) (ticket : Nat) (a : Program.Advance σ A R (Except PoolError α)) :
    Worker A R α :=
  let w := { w with
    turns := w.turns ++ a.woken
    stalled := w.stalled.filter fun t => !a.woken.contains t }
  match a.progress with
  | .finished r => { w with jobs := w.jobs.set ticket (.finished r) }
  | .died => { w with jobs := w.jobs.set ticket .dropped }
  | .waits rest =>
    { w with jobs := w.jobs.set ticket (.pending rest), stalled := w.stalled ++ [ticket] }
  | .occupies rest =>
    { w with jobs := w.jobs.set ticket (.pending rest), holder := some ticket }

/-- Lets a job go on as far as it can; the host of a job knows its ticket. -/
def poll (host : Nat → Host σ A R) (w : Worker A R α) (ticket : Nat) (s : σ) : Worker A R α × σ :=
  match w.jobs[ticket]? with
  | some (.pending p) =>
    let a := p.advance (host ticket) s
    (w.note ticket a, a.state)
  | _ => (w, s)

/-- The job that gets a turn, of those in line and of the roused ones, and who remains of both. -/
def pick (rousedFirst : Bool) : List Nat → List Nat → Option (Nat × List Nat × List Nat)
  | t :: turns, r :: roused =>
    if rousedFirst then some (r, t :: turns, roused) else some (t, turns, r :: roused)
  | t :: turns, [] => some (t, turns, [])
  | [], r :: roused => some (r, [], roused)
  | [], [] => none

/-- Whether the worker has nothing to do. -/
def isIdle (w : Worker A R α) : Bool := w.inbox.isEmpty && w.turns.isEmpty && w.roused.isEmpty

/-- Gives a turn, of which `left` others are left in the round; without a job for it the round is over. -/
def turn (host : Nat → Host σ A R) (w : Worker A R α) (left : Nat) (s : σ) : Worker A R α × σ :=
  let w := { w with looks := w.looks + 1 }
  match pick (w.looks % rousedEvery = 0) w.turns w.roused with
  | none => ({ w with left := 0 }, s)
  | some (ticket, turns, roused) =>
    poll host { w with left := left, turns := turns, roused := roused } ticket s

/-- The next thing the worker does by itself; `none` if it rests. -/
def step (host : Nat → Host σ A R) (w : Worker A R α) (s : σ) : Option (Worker A R α × σ) :=
  if w.ended then none
  else
    match w.holder, w.left with
    | some ticket, _ =>
      let (w, s) := poll host { w with holder := none } ticket s
      if w.holder.isSome then none else some (w, s)
    | none, left + 1 => some (turn host w left s)
    | none, 0 => if w.isIdle then none else some ({ w.receive with left := roundLength }, s)

/-- Takes steps until the worker rests, at most `fuel` of them. -/
def work (host : Nat → Host σ A R) : Nat → Worker A R α → σ → Worker A R α × σ
  | 0, w, s => (w, s)
  | fuel + 1, w, s =>
    match step host w s with
    | none => (w, s)
    | some (w, s) => work host fuel w s

/-- Enough steps for the worker to come to rest when each job wakes at most one other: a turn for each job
    that is in line or comes into it, and a round begun and ended for each turn. -/
def toil (w : Worker A R α) : Nat :=
  3 * (w.turns.length + w.roused.length + w.inbox.length + w.jobs.length + 2)

/-- Lets the worker go on until it rests. -/
def settle (host : Nat → Host σ A R) (w : Worker A R α) (s : σ) : Worker A R α × σ :=
  work host w.toil w s

/-- Rouses the jobs that wait for something outside that is there now, longest waiting first. -/
def rouse (given : Job A R α → Bool) (w : Worker A R α) : Worker A R α :=
  let (ready, others) := w.stalled.partition fun ticket => (w.jobs[ticket]?.map given).getD false
  { w with roused := w.roused ++ ready, stalled := others }

/-- Whether the worker can be told to be running: nobody waited for its end, and it has not ended. -/
def isRunning (w : Worker A R α) : Bool := !w.joined && !w.ended

/-- Whoever shuts the worker down first waits for its end; the reply says that someone did already. -/
def leave (w : Worker A R α) : Bool × Worker A R α := (w.joined, { w.sendStop with joined := true })

/-- What submitting from the worker's own thread and waiting for the result is refused with. -/
def selfWait : PoolError := .unexpected "blocking submit from the bridge worker would deadlock"

end Worker
end SessionPool
