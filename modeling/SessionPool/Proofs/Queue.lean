import SessionPool.Proofs.Effect

/-! The queue: in which order a worker begins its jobs. Messages are read in the order in which they were
    sent, and a job gets its first turn behind all jobs that were sent before it, whoever is woken or roused
    in between. Word to stop ends the worker: jobs behind it are not begun, and are dropped. -/

namespace SessionPool
variable {A : Type} {R : A → Type} {α σ : Type}

namespace Message

def ticket? : Message → Option Nat
  | run t => some t
  | stop => none

/-- The tickets among messages, in order. -/
def tickets (sent : List Message) : List Nat := sent.filterMap ticket?

/-- The tickets that were sent before any word to stop. -/
def early (sent : List Message) : List Nat := tickets (sent.takeWhile (· ≠ stop))

theorem tickets_map_run (l : List Nat) : tickets (l.map run) = l := by
  simp [tickets, List.filterMap_map, Function.comp_def, ticket?]

theorem tickets_append (l m : List Message) : tickets (l ++ m) = tickets l ++ tickets m :=
  List.filterMap_append

theorem mem_tickets_iff {t : Nat} {sent : List Message} : t ∈ tickets sent ↔ .run t ∈ sent := by
  rw [tickets, List.mem_filterMap]
  constructor
  · rintro ⟨m, hm, hticket⟩
    cases m <;> cases hticket
    exact hm
  · intro hm
    exact ⟨_, hm, rfl⟩

theorem early_run_append (l : List Nat) (m : List Message) : early (l.map run ++ m) = l ++ early m := by
  have hrun : ∀ a ∈ l.map run, decide (a ≠ stop) = true := by
    intro a ha
    obtain ⟨t, -, rfl⟩ := List.mem_map.1 ha
    rfl
  rw [early, List.takeWhile_append_of_pos hrun, tickets_append, tickets_map_run, early]

/-- Nothing behind a word to stop is early. -/
theorem early_append_of_stop {l : List Message} (h : stop ∈ l) (m : List Message) : early (l ++ m) = early l := by
  obtain ⟨first, rest, rfl⟩ := List.append_of_mem h
  simp [early, List.takeWhile_append]

theorem mem_tickets_of_early {t : Nat} {sent : List Message} (h : t ∈ early sent) : t ∈ tickets sent :=
  mem_tickets_iff.2 (List.takeWhile_subset _ (mem_tickets_iff.1 h))

end Message

/-- Jobs that are known wake only jobs that are known, and what `inv` says of the known goes on to hold. -/
structure Host.Discreet (host : Nat → Host σ A R) (inv : List Nat → σ → Prop) : Prop where
  keeps : ∀ {known t s} a, t ∈ known → inv known s → inv known (host t a s).state
  wakes : ∀ {known t s} a, t ∈ known → inv known s → ∀ u ∈ (host t a s).woken, u ∈ known
  more : ∀ {known known' s}, (∀ t ∈ known, t ∈ known') → inv known s → inv known' s

theorem Host.Discreet.advance {host : Nat → Host σ A R} {inv : List Nat → σ → Prop} (hd : Discreet host inv)
    {known : List Nat} {t : Nat} (ht : t ∈ known) (p : Program A R α) : ∀ {s : σ}, inv known s →
    inv known (p.advance (host t) s).state ∧ ∀ u ∈ (p.advance (host t) s).woken, u ∈ known := by
  induction p with
  | done x =>
    intro s hs
    exact ⟨hs, by simp [Program.advance]⟩
  | act a next ih =>
    intro s hs
    have hstate := hd.keeps a ht hs
    have hwoken := hd.wakes a ht hs
    rw [Program.advance]
    cases hgo : host t a s with
    | went reply s' woken =>
      rw [hgo] at hstate hwoken
      obtain ⟨hlater, hothers⟩ := ih reply hstate
      exact ⟨hlater, fun u hu => (List.mem_append.1 hu).elim (hwoken u) (hothers u)⟩
    | waits s' | occupies s' =>
      rw [hgo] at hstate
      exact ⟨hstate, by simp⟩
    | died s' woken =>
      rw [hgo] at hstate hwoken
      exact ⟨hstate, hwoken⟩

namespace Worker
variable {host : Nat → Host σ A R} {inv : List Nat → σ → Prop} {w w' : Worker A R α} {s s' : σ} {t u : Nat}
  {begun : List Nat} {sent mail mail' : List Message}

/-! ### What a worker does in a step -/

/-- The job that gets the next turn, if the next step of the worker gives one. -/
def upcoming (w : Worker A R α) : Option Nat :=
  match w.holder, w.left with
  | some t, _ => some t
  | none, _ + 1 => (pick ((w.looks + 1) % rousedEvery = 0) w.turns w.roused).map (·.1)
  | none, 0 => none

/-- What a worker does in a step, case by case, and who gets a turn in it. -/
inductive Does (host : Nat → Host σ A R) (w : Worker A R α) (s : σ) : Option Nat → Worker A R α × σ → Prop
  | resumed {t : Nat} (ht : w.holder = some t) : Does host w s (some t) (poll host { w with holder := none } t s)
  | turned {rousedFirst : Bool} {t : Nat} {turns roused : List Nat} (left : Nat)
      (ht : pick rousedFirst w.turns w.roused = some (t, turns, roused)) :
      Does host w s (some t)
        (poll host { w with left := left, turns := turns, roused := roused, looks := w.looks + 1 } t s)
  | rested : Does host w s none ({ w with left := 0, looks := w.looks + 1 }, s)
  | received : Does host w s none ({ w.receive with left := roundLength }, s)

theorem does_of_step {x : Worker A R α × σ} (h : step host w s = some x) :
    w.ended = false ∧ Does host w s w.upcoming x := by
  rw [step] at h
  split at h
  · cases h
  · rename_i hended
    refine ⟨Bool.eq_false_iff.2 hended, ?_⟩
    rw [upcoming]
    cases hholder : w.holder with
    | some t =>
      rw [hholder] at h
      simp only at h ⊢
      split at h
      · cases h
      · cases h
        exact .resumed hholder
    | none =>
      cases hleft : w.left with
      | succ left =>
        rw [hholder, hleft] at h
        cases h
        simp only [turn]
        cases hpick : pick ((w.looks + 1) % rousedEvery = 0) w.turns w.roused with
        | none => exact .rested
        | some picked => exact .turned left hpick
      | zero =>
        rw [hholder, hleft] at h
        simp only at h
        split at h
        · cases h
        · cases h
          exact .received

theorem pick_cases {rousedFirst : Bool} {turns roused turns' roused' : List Nat}
    (h : pick rousedFirst turns roused = some (t, turns', roused')) :
    (turns = t :: turns' ∧ roused = roused') ∨ (roused = t :: roused' ∧ turns = turns') := by
  unfold pick at h
  split at h
  · split at h <;> cases h
    · exact .inr ⟨rfl, rfl⟩
    · exact .inl ⟨rfl, rfl⟩
  · cases h
    exact .inl ⟨rfl, rfl⟩
  · cases h
    exact .inr ⟨rfl, rfl⟩
  · cases h

/-- A worker that goes on reading reads the inbox, and leaves the jobs alone. -/
theorem foldl_take_open : ∀ (read : List Message) {w : Worker A R α}, (read.foldl take w).ended = false →
    w.ended = false ∧ (read.foldl take w).inbox = w.inbox ∧ (read.foldl take w).jobs = w.jobs
  | [], w, h => ⟨h, rfl, rfl⟩
  | .stop :: read, w, h => nomatch (foldl_take_open read h).1
  | .run t :: read, w, h => by
    obtain ⟨hopen, hinbox, hjobs⟩ := foldl_take_open read h
    cases hended : w.ended with
    | true =>
      have htake : w.take (.run t) = w := if_pos hended
      rw [htake, hended] at hopen
      cases hopen
    | false =>
      have htake : w.take (.run t) = { w with turns := w.turns ++ [t] } := if_neg (by simp [hended])
      rw [htake] at hinbox hjobs
      rw [List.foldl_cons, htake]
      exact ⟨rfl, hinbox, hjobs⟩

theorem note_kept (w : Worker A R α) (t : Nat) (a : Program.Advance σ A R (Except PoolError α)) :
    (w.note t a).inbox = w.inbox ∧ ∀ u, u ≠ t → (w.note t a).jobs[u]? = w.jobs[u]? := by
  have hset : ∀ (job : Job A R α) u, u ≠ t → (w.jobs.set t job)[u]? = w.jobs[u]? :=
    fun _ _ hu => List.getElem?_set_ne hu.symm
  rw [note]
  cases a.progress <;> exact ⟨rfl, hset _⟩

theorem poll_others (hu : u ≠ t) : (poll host w t s).1.jobs[u]? = w.jobs[u]? := by
  rw [poll]
  split
  · exact (note_kept w t _).2 u hu
  · rfl

theorem drop_drop (job : Job A R α) : job.drop.drop = job.drop := by
  cases job <;> rfl

/-- Reading leaves the jobs as they are, or drops them. -/
theorem foldl_take_jobs : ∀ (read : List Message) (w : Worker A R α),
    (read.foldl take w).jobs = w.jobs ∨ (read.foldl take w).jobs = w.jobs.map Job.drop
  | [], w => .inl rfl
  | m :: read, w => by
    have hlater := foldl_take_jobs read (w.take m)
    rw [List.foldl_cons]
    cases m with
    | run t =>
      have hjobs : (w.take (.run t)).jobs = w.jobs := by
        rw [take]
        split <;> rfl
      rwa [hjobs] at hlater
    | stop =>
      have hjobs : (w.take .stop).jobs = w.jobs.map Job.drop := rfl
      rw [hjobs, List.map_map, show Job.drop ∘ Job.drop = (Job.drop : Job A R α → Job A R α) from
        funext drop_drop, or_self] at hlater
      exact .inr hlater

/-- A step leaves a job that gets no turn in it as it is, or drops it. -/
theorem Does.others {turn : Option Nat} {x : Worker A R α × σ} (h : Does host w s turn x) (hu : turn ≠ some u) :
    x.1.jobs[u]? = w.jobs[u]? ∨ x.1.jobs[u]? = w.jobs[u]?.map Job.drop := by
  cases h with
  | resumed | turned => exact .inl (poll_others fun heq => hu (heq ▸ rfl))
  | rested => exact .inl rfl
  | received =>
    refine (foldl_take_jobs (w.inbox.take mailLimit) { w with inbox := w.inbox.drop mailLimit }).imp
      (fun hjobs => congrArg (·[u]?) hjobs) fun hjobs => ?_
    rw [← List.getElem?_map]
    exact congrArg (·[u]?) hjobs

/-! ### The order of first turns -/

/-- The jobs that have begun when a job gets a turn, in the order of their first turns. -/
def begunWith (begun : List Nat) : Option Nat → List Nat
  | none => begun
  | some t => if t ∈ begun then begun else begun ++ [t]

theorem begunWith_of_mem (ht : t ∈ begun) : begunWith begun (some t) = begun := if_pos ht

theorem mem_begunWith_self (begun : List Nat) (t : Nat) : t ∈ begunWith begun (some t) := by
  by_cases h : t ∈ begun <;> simp [begunWith, h]

theorem mem_begunWith_of_mem (turn : Option Nat) (h : u ∈ begun) : u ∈ begunWith begun turn := by
  cases turn with
  | none => exact h
  | some t => by_cases ht : t ∈ begun <;> simp [begunWith, ht, h]

/-- The jobs in line for their first turn. -/
def ahead (w : Worker A R α) (begun : List Nat) : List Nat := w.turns.filter (· ∉ begun)

/-- Whoever gets the turn, those that have begun and those in line behind them are the same list. -/
theorem begunWith_pick {rousedFirst : Bool} {turns roused turns' roused' : List Nat}
    (hroused : ∀ u ∈ roused, u ∈ begun) (hline : (turns.filter (· ∉ begun)).Nodup)
    (ht : pick rousedFirst turns roused = some (t, turns', roused')) :
    begunWith begun (some t) ++ turns'.filter (· ∉ begunWith begun (some t)) =
      begun ++ turns.filter (· ∉ begun) := by
  rcases pick_cases ht with ⟨rfl, -⟩ | ⟨rfl, rfl⟩
  · by_cases hbegun : t ∈ begun
    · simp [begunWith_of_mem hbegun, hbegun]
    · rw [List.filter_cons_of_pos (by simpa using hbegun)] at hline ⊢
      have hnot : t ∉ turns' := by
        intro hmem
        exact (List.nodup_cons.1 hline).1 (List.mem_filter.2 ⟨hmem, by simpa using hbegun⟩)
      have hrest : turns'.filter (· ∉ begun ++ [t]) = turns'.filter (· ∉ begun) := by
        refine List.filter_congr fun u hu => ?_
        have hne : u ≠ t := fun heq => hnot (heq ▸ hu)
        simp [hne]
      rw [begunWith, if_neg hbegun, hrest]
      simp
  · rw [begunWith_of_mem (hroused t List.mem_cons_self)]

/-- Of all messages that were sent, those about jobs that have begun come first, in the order in which they
    have begun; then come those about jobs in line for their first turn, then the mail that is not read
    yet. If the worker has ended, there was word to stop behind them instead. -/
structure Orderly (begun : List Nat) (sent mail : List Message) (w : Worker A R α) : Prop where
  tickets : Message.tickets sent = List.range w.jobs.length
  going : w.ended = false → sent = (begun ++ w.ahead begun).map .run ++ mail
  stopped : w.ended = true → ∃ waiting behind, sent = (begun ++ waiting).map .run ++ .stop :: behind
  settled : w.ended = true → ∀ (t : Nat) e, w.jobs[t]? ≠ some (.pending e)
  roused : ∀ t ∈ w.roused, t ∈ begun
  stalled : ∀ t ∈ w.stalled, t ∈ begun
  holder : ∀ t, w.holder = some t → t ∈ begun

namespace Orderly

/-- Jobs that have begun come first among the early ones, and in the same order. -/
theorem isPrefix (h : Orderly begun sent mail w) : begun <+: Message.early sent := by
  cases hended : w.ended with
  | false =>
    rw [h.going hended, Message.early_run_append]
    exact ⟨_, (List.append_assoc ..).symm⟩
  | true =>
    obtain ⟨waiting, behind, hsent⟩ := h.stopped hended
    rw [hsent, Message.early_run_append]
    exact ⟨_, (List.append_assoc ..).symm⟩

/-- No message is sent twice. -/
theorem nodup (h : Orderly begun sent mail w) (hended : w.ended = false) :
    (begun ++ w.ahead begun ++ Message.tickets mail).Nodup := by
  have hsent := congrArg Message.tickets (h.going hended)
  rw [Message.tickets_append, Message.tickets_map_run, h.tickets] at hsent
  rw [← hsent]
  exact List.nodup_range

theorem of_ended (h : Orderly begun sent mail w) (hended : w.ended = true) : Orderly begun sent mail' w :=
  { h with going := fun hopen => nomatch hended.symm.trans hopen }

theorem submit (h : Orderly begun sent w.inbox w) {p : Program A R (Except PoolError α)}
    (hsubmit : w.submit p = (some t, w')) :
    t = w.jobs.length ∧ w'.jobs = w.jobs ++ [.pending p] ∧ Orderly begun (sent ++ [.run t]) w'.inbox w' := by
  rw [Worker.submit] at hsubmit
  split at hsubmit
  · cases hsubmit
  · rename_i hended
    cases hsubmit
    refine ⟨rfl, rfl, ?_, fun hopen => ?_, fun hyes => absurd hyes hended, fun hyes => absurd hyes hended,
      h.roused, h.stalled, h.holder⟩
    · rw [Message.tickets_append, h.tickets, List.length_append]
      exact List.range_succ.symm
    · rw [h.going hopen, List.append_assoc]
      rfl

theorem stop (h : Orderly begun sent w.inbox w) :
    Orderly begun (sent ++ [.stop]) w.leave.2.inbox w.leave.2 := by
  have htickets : Message.tickets (sent ++ [.stop]) = List.range w.jobs.length := by
    rw [Message.tickets_append, h.tickets]
    exact List.append_nil _
  cases hended : w.ended with
  | true =>
    have hleave : w.leave.2 = { w with joined := true } := by rw [leave, sendStop, if_pos hended]
    obtain ⟨waiting, behind, hsent⟩ := h.stopped hended
    rw [hleave]
    refine ⟨htickets, fun hopen => (nomatch hended.symm.trans hopen), fun _ => ?_, h.settled, h.roused, h.stalled,
      h.holder⟩
    exact ⟨waiting, behind ++ [.stop], by rw [hsent, List.append_assoc]; rfl⟩
  | false =>
    have hleave : w.leave.2 = { w with inbox := w.inbox ++ [.stop], joined := true } := by
      rw [leave, sendStop, if_neg (by simp [hended])]
    rw [hleave]
    refine ⟨htickets, fun _ => ?_, fun hyes => (nomatch hended.symm.trans hyes),
      fun hyes => (nomatch hended.symm.trans hyes), h.roused, h.stalled, h.holder⟩
    rw [h.going hended, List.append_assoc]
    rfl

/-- The worker ends, and what is left of the mail is not read. -/
theorem finish (h : Orderly begun sent (.stop :: mail) w) : Orderly begun sent mail' w.finish where
  tickets := by
    rw [h.tickets]
    exact congrArg _ (List.length_map _).symm
  going := nofun
  stopped _ := by
    cases hended : w.ended with
    | true => exact h.stopped hended
    | false => exact ⟨_, mail, h.going hended⟩
  settled _ t e hjob := by
    obtain ⟨job, -, hdrop⟩ := Option.map_eq_some_iff.1 ((List.getElem?_map ..).symm.trans hjob)
    cases job <;> cases hdrop
  roused := nofun
  stalled := nofun
  holder := nofun

theorem take {m : Message} (h : Orderly begun sent (m :: mail) w) : Orderly begun sent mail (w.take m) := by
  cases m with
  | stop => exact h.finish
  | run t =>
    cases hended : w.ended with
    | true =>
      rw [Worker.take, if_pos hended]
      exact h.of_ended hended
    | false =>
      have hfresh : t ∉ begun := by
        intro ht
        refine (List.nodup_append.1 (h.nodup hended)).2.2 t (List.mem_append_left _ ht) t ?_ rfl
        exact List.mem_cons_self
      have htake : w.take (.run t) = { w with turns := w.turns ++ [t] } := by
        rw [Worker.take, if_neg (by simp [hended])]
      have hahead : ({ w with turns := w.turns ++ [t] } : Worker A R α).ahead begun = w.ahead begun ++ [t] := by
        simp [ahead, hfresh]
      rw [htake]
      refine { h with going := fun _ => ?_ }
      rw [hahead, h.going hended]
      simp

theorem foldl_take : ∀ (read : List Message) {w : Worker A R α}, Orderly begun sent (read ++ mail) w →
    Orderly begun sent mail (read.foldl Worker.take w)
  | [], _, h => h
  | _ :: read, _, h => foldl_take read h.take

theorem receive (h : Orderly begun sent w.inbox w) : Orderly begun sent w.receive.inbox w.receive := by
  have hread : Orderly begun sent (w.inbox.drop mailLimit) w.receive := by
    refine foldl_take (w.inbox.take mailLimit) ?_
    rw [List.take_append_drop]
    exact { h with }
  cases hended : w.receive.ended with
  | true => exact hread.of_ended hended
  | false =>
    rw [show w.receive.inbox = w.inbox.drop mailLimit from (foldl_take_open _ hended).2.1]
    exact hread

/-- Whoever gets the turn was begun before, or is the first that was not. -/
theorem pick {rousedFirst : Bool} {turns roused : List Nat} (h : Orderly begun sent mail w)
    (hended : w.ended = false) (ht : Worker.pick rousedFirst w.turns w.roused = some (t, turns, roused))
    (left looks : Nat) : Orderly (begunWith begun (some t)) sent mail
      { w with left := left, turns := turns, roused := roused, looks := looks } := by
  have hmem : ∀ {u}, u ∈ begun → u ∈ begunWith begun (some t) := mem_begunWith_of_mem _
  refine ⟨h.tickets, fun _ => ?_, fun hyes => (nomatch hended.symm.trans hyes),
    fun hyes => (nomatch hended.symm.trans hyes), fun u hu => hmem (h.roused u ?_),
    fun u hu => hmem (h.stalled u hu), fun u hu => hmem (h.holder u hu)⟩
  · have hline : (w.turns.filter (· ∉ begun)).Nodup :=
      (List.nodup_append.1 (List.nodup_append.1 (h.nodup hended)).1).2.1
    rw [h.going hended, ahead, ahead, begunWith_pick h.roused hline ht]
  · rcases pick_cases ht with ⟨-, rfl⟩ | ⟨hroused, -⟩
    · exact hu
    · rw [hroused]
      exact List.mem_cons_of_mem _ hu

/-- A job that has begun notes how far it got. -/
theorem note {a : Program.Advance σ A R (Except PoolError α)} (h : Orderly begun sent mail w)
    (hended : w.ended = false) (ht : t ∈ begun) (hwoken : ∀ u ∈ a.woken, u ∈ begun) :
    Orderly begun sent mail (w.note t a) := by
  have hahead : (w.turns ++ a.woken).filter (· ∉ begun) = w.turns.filter (· ∉ begun) := by
    have hnone : a.woken.filter (· ∉ begun) = [] := List.filter_eq_nil_iff.2 (by simpa using hwoken)
    rw [List.filter_append, hnone, List.append_nil]
  have hopen : ¬w.ended = true := by simp [hended]
  have hstalled : ∀ u ∈ w.stalled.filter fun t => !a.woken.contains t, u ∈ begun :=
    fun u hu => h.stalled u (List.mem_filter.1 hu).1
  have hnoted : ∀ job : Job A R α, Orderly begun sent mail { w with
      turns := w.turns ++ a.woken, stalled := w.stalled.filter fun t => !a.woken.contains t
      jobs := w.jobs.set t job } := by
    intro job
    refine ⟨by rw [h.tickets]; exact congrArg _ List.length_set.symm, fun _ => ?_, fun hyes => absurd hyes hopen,
      fun hyes => absurd hyes hopen, h.roused, hstalled, h.holder⟩
    rw [ahead, hahead]
    exact h.going hended
  rw [Worker.note]
  cases a.progress with
  | finished x => exact hnoted _
  | died => exact hnoted _
  | waits rest =>
    refine { hnoted (.pending rest) with stalled := fun u hu => ?_ }
    rcases List.mem_append.1 hu with hu | hu
    · exact hstalled u hu
    · exact List.mem_singleton.1 hu ▸ ht
  | occupies rest => exact { hnoted (.pending rest) with holder := fun u hu => Option.some.inj hu ▸ ht }

theorem poll (hd : Host.Discreet host inv) (h : Orderly begun sent w.inbox w) (hended : w.ended = false)
    (ht : t ∈ begun) (hs : inv begun s) :
    Orderly begun sent (poll host w t s).1.inbox (poll host w t s).1 ∧ inv begun (poll host w t s).2 := by
  rw [Worker.poll]
  split
  · rename_i p hjob
    obtain ⟨hstate, hwoken⟩ := hd.advance ht p hs
    rw [(note_kept w t _).1]
    exact ⟨h.note hended ht hwoken, hstate⟩
  · exact ⟨h, hs⟩

/-- A step of the worker keeps the order, and whoever gets a turn in it has begun. -/
theorem step (hd : Host.Discreet host inv) (h : Orderly begun sent w.inbox w) (hs : inv begun s)
    {x : Worker A R α × σ} (hstep : step host w s = some x) :
    Orderly (begunWith begun w.upcoming) sent x.1.inbox x.1 ∧ inv (begunWith begun w.upcoming) x.2 := by
  obtain ⟨hended, hdoes⟩ := does_of_step hstep
  generalize w.upcoming = turn at hdoes ⊢
  cases hdoes with
  | @resumed t ht =>
    have hfree : Orderly begun sent w.inbox { w with holder := none } := { h with holder := nofun }
    rw [begunWith_of_mem (h.holder t ht)]
    exact hfree.poll hd hended (h.holder t ht) hs
  | turned left ht =>
    exact (h.pick hended ht left _).poll hd hended (mem_begunWith_self ..)
      (hd.more (fun _ => mem_begunWith_of_mem _) hs)
  | rested => exact ⟨{ h with }, hs⟩
  | received => exact ⟨{ h.receive with }, hs⟩

/-- Jobs that are roused have begun. -/
theorem rouse (h : Orderly begun sent mail w) (given : Job A R α → Bool) :
    Orderly begun sent mail (w.rouse given) := by
  rw [Worker.rouse]
  simp only [List.partition_eq_filter_filter]
  refine { h with roused := fun u hu => ?_, stalled := fun u hu => h.stalled u (List.mem_filter.1 hu).1 }
  rcases List.mem_append.1 hu with hu | hu
  · exact h.roused u hu
  · exact h.stalled u (List.mem_filter.1 hu).1

end Orderly
end Worker
end SessionPool
