import SessionPool.Proofs.Course
import SessionPool.Proofs.Logbook

/-! The curfew: what comes behind the word to stop. Work that reaches the worker behind it never begins, and
    who waits for it is told that the worker is closed, or gives up. Once the worker has ended, callers still
    find, make and remove sessions, but nobody waits any more and no server is asked for anything: all work
    is refused, and an order comes to what can be told without it. -/

namespace SessionPool
variable {ρ κ α : Type}

/-- Whether an entry is about a call. -/
def LogEntry.isTool : LogEntry → Bool
  | chat _ _ => false
  | tool _ _ _ => true

/-- The entries of an actor that are about calls. -/
def CallLog.tools (log : CallLog) (id : String) : List LogEntry := (log.entries id).filter LogEntry.isTool

theorem CallLog.tools_chat (log : CallLog) (session user assistant id : String) :
    (log.record session (.chat user assistant)).tools id = log.tools id := by
  rw [tools, entries_record, List.filter_append, tools]
  split <;> simp [LogEntry.isTool]

/-- What a load comes to if nothing can be loaded. -/
inductive Barred (group : String) : Except PoolError LoadOutcome → Prop
  | unknown : Barred group (.error (.unknownGroup group))
  | already : Barred group (.ok .alreadyInitialized)
  | empty : Barred group (.ok .emptyScenario)
  | closed : Barred group (.error .workerClosed)

/-- What a session that cannot be released is told to have come to. -/
def unreleased (id : String) : PoolError := PoolError.workerClosed.toClose id

namespace Pool
variable {r : Remote ρ κ} {p p₁ p' : Pool ρ κ} {a : Ask} {reply : a.Reply} {id : String}

/-! ### Callers when the worker has ended -/

/-- The worker has ended, and no job is pending. -/
structure Over (p : Pool ρ κ) : Prop where
  ended : p.worker.ended = true
  settled : ∀ (t : Nat) (e : Errand κ (Except PoolError Yield)), p.worker.jobs[t]? ≠ some (.pending e)
  sorted : Table.Sorted p.registry

/-- The worker stays away, and what only it does is not done. -/
structure Idles (p p' : Pool ρ κ) : Prop where
  remains : p'.Over
  catalog : p'.catalog = p.catalog
  remote : p'.shared.remote = p.shared.remote
  tools : ∀ id, p'.shared.log.tools id = p.shared.log.tools id ∨ p'.shared.log.tools id = []

theorem Over.idles_self (h : p.Over) : p.Idles p := ⟨h, rfl, rfl, fun _ => .inl rfl⟩

theorem Idles.trans (h : p.Idles p₁) (h' : p₁.Idles p') : p.Idles p' := by
  refine ⟨h'.remains, h'.catalog.trans h.catalog, h'.remote.trans h.remote, fun id => ?_⟩
  rcases h'.tools id with hsame | hnone
  · rw [hsame]
    exact h.tools id
  · exact .inr hnone

theorem Over.idles (h : p.Over) (ha : p.Answered a reply p') : p.Idles p' := by
  cases ha with
  | made => exact ⟨⟨h.ended, h.settled, h.sorted.insert _ _⟩, rfl, rfl, fun _ => .inl rfl⟩
  | removed => exact ⟨⟨h.ended, h.settled, h.sorted.erase _⟩, rfl, rfl, fun _ => .inl rfl⟩
  | drained => exact ⟨⟨h.ended, h.settled, .nil⟩, rfl, rfl, fun _ => .inl rfl⟩
  | marked => exact ⟨⟨h.ended, h.settled, h.sorted⟩, rfl, rfl, fun _ => .inl rfl⟩
  | cleared => exact ⟨⟨h.ended, h.settled, h.sorted⟩, rfl, rfl, fun _ => .inr rfl⟩
  | @stopped worker hjobs hended =>
    have hsettled : ∀ (t : Nat) (e : Errand κ (Except PoolError Yield)), worker.jobs[t]? ≠ some (.pending e) := by
      rw [hjobs]
      exact h.settled
    exact ⟨⟨hended.trans h.ended, hsettled, h.sorted⟩, rfl, rfl, fun _ => .inl rfl⟩
  | sent hopen =>
    rw [h.ended] at hopen
    cases hopen
  | _ => exact h.idles_self

theorem Over.submit (h : p.Over) (n : Nat) (v : Work) :
    p.answer (.submit n v) = .went (.error .workerClosed) p [] := by
  simp only [answer, Worker.submit, h.ended, if_true]

/-- Every action goes. -/
theorem Over.went (h : p.Over) (a : Ask) : ∃ reply p', p.answer a = .went reply p' [] ∧ p.Idles p' := by
  have hgoes : ∃ reply p', p.answer a = .went reply p' [] := by
    cases a with
    | submit n v => exact ⟨_, _, h.submit n v⟩
    | await t =>
      obtain ⟨result, hresult⟩ := Worker.exists_result (h.settled t)
      exact ⟨result, p, by simp only [answer, hresult]⟩
    | gone within => exact ⟨true, p, by simp only [answer, h.ended, if_true]⟩
    | _ => exact ⟨_, _, rfl⟩
  obtain ⟨reply, p', hanswer⟩ := hgoes
  exact ⟨reply, p', hanswer, h.idles (answered hanswer)⟩

theorem Over.settle (h : p.Over) (r : Remote ρ κ) : p.settle r = p ∧ p.overheard r = [] := by
  rw [Pool.settle_watch, overheard, Worker.settle_ended h.ended]
  exact ⟨rfl, rfl⟩

/-- Nobody waits, and nothing is heard from the servers. -/
theorem Over.host (h : p.Over) (r : Remote ρ κ) (a : Ask) : ∃ reply p',
    host r false a p = .went reply p' [] ∧ p.Idles p' := by
  obtain ⟨reply, p', hanswer, hidles⟩ := h.went a
  refine ⟨reply, p', ?_, hidles⟩
  simp only [Pool.host, (h.settle r).1, hanswer, ite_self]

/-- Every caller comes to an end. -/
theorem Over.run (c : Caller α) : ∀ {p : Pool ρ κ}, p.Over →
    ∃ y p', p.run r c = (.finished y, p') ∧ p.heard r c = [] ∧ p.Idles p' := by
  induction c with
  | done y => exact fun h => ⟨y, _, rfl, rfl, h.idles_self⟩
  | act a next ih =>
    intro p h
    obtain ⟨reply, p₁, hhost, hidles⟩ := h.host r a
    obtain ⟨y, p', hrun, hheard, hlater⟩ := ih reply hidles.remains
    refine ⟨y, p', (run_went hhost).trans hrun, ?_, hidles.trans hlater⟩
    simp only [Pool.heard, (h.settle r).2, hhost, ite_self, List.nil_append]
    exact hheard

theorem Over.run_send (h : p.Over) (n : Nat) (v : Work) :
    p.run r (Caller.send n v) = (.finished (.error .workerClosed), p) :=
  run_answer rfl (h.submit n v)

theorem obtain_cases (p : Pool ρ κ) (id : String) :
    (∃ n ready p₁, p.answer (.obtain id) = .went (.ok (n, ready)) p₁ []) ∨
      Table.get? id p.registry = none ∧ p.catalog.locator? (SessionKey.parse id).group = none ∧
        p.answer (.obtain id) = .went (.error (.unknownGroup (SessionKey.parse id).group)) p [] := by
  simp only [answer, obtain]
  cases hn : Table.get? id p.registry with
  | some n => exact .inl ⟨_, _, _, rfl⟩
  | none =>
    cases hl : p.catalog.locator? (SessionKey.parse id).group with
    | some l => exact .inl ⟨_, _, _, rfl⟩
    | none => exact .inr ⟨rfl, rfl, rfl⟩

theorem Over.run_loadWith (h : p.Over) (id : String) (state : Json) (extra : Fields) (check : Bool) :
    ∃ y p', p.run r (Caller.loadWith id state extra check) = (.finished y, p') ∧
      Barred (SessionKey.parse id).group y := by
  rcases obtain_cases p id with ⟨n, ready, p₁, hobtain⟩ | ⟨-, -, hobtain⟩
  · have h₁ := (h.idles (answered hobtain)).remains
    cases ready with
    | true => exact ⟨_, p₁, run_answer rfl hobtain, .already⟩
    | false =>
      cases hempty : isEmptyScenario state with
      | true =>
        refine ⟨_, p₁, (run_answer rfl hobtain).trans ?_, .empty⟩
        simp only [hempty]
        rfl
      | false =>
        refine ⟨_, p₁, (run_answer rfl hobtain).trans ?_, .closed⟩
        simp only [hempty]
        exact run_bind (h₁.run_send n _)
  · exact ⟨_, p, run_answer rfl hobtain, .unknown⟩

/-- A call is refused if it gets as far as to a session. -/
theorem Over.run_call (h : p.Over) (c : Catalog) (operation : String) (args : Fields)
    (hknown : (Table.get? id p.registry).isSome = true ∨
      (p.catalog.locator? (SessionKey.parse id).group).isSome = true) :
    ∃ p', p.run r (Caller.call c id operation args) = (.finished (.error .workerClosed), p') := by
  rcases obtain_cases p id with ⟨n, ready, p₁, hobtain⟩ | ⟨hnone, hunknown, -⟩
  · have h₁ := (h.idles (answered hobtain)).remains
    have hrun : p.run r (Caller.act (.obtain id)) = (.finished (.ok (n, ready)), p₁) := run_answer rfl hobtain
    cases hmark : !ready && c.isStateless (SessionKey.parse id).group with
    | false =>
      refine ⟨p₁, (run_bind hrun).trans ?_⟩
      simp only [hmark]
      exact run_bind (h₁.run_send n _)
    | true =>
      have hanswer : p₁.answer (.markReady id) = .went () (p₁.markReady id) [] := rfl
      have h₂ := (h₁.idles (answered hanswer)).remains
      refine ⟨p₁.markReady id, (run_bind hrun).trans ?_⟩
      simp only [hmark]
      exact (run_answer rfl hanswer).trans (run_bind (h₂.run_send n _))
  · simp [hnone, hunknown] at hknown

/-- A session is taken out of the registry though it cannot be released. -/
theorem Over.run_close {n : Nat} (h : p.Over) (hn : Table.get? id p.registry = some n) :
    p.run r (Caller.close id) =
      (.finished (.error (unreleased id)), { p with registry := p.registry.erase id }) := by
  have hanswer : p.answer (.remove id) = .went (some n) { p with registry := p.registry.erase id } [] := by
    rw [← hn]
    rfl
  have h₁ := (h.idles (answered hanswer)).remains
  exact (run_answer rfl hanswer).trans (run_bind (h₁.run_send n .release))

theorem Over.run_releaseEach (h : p.Over) (t : Table Nat) : p.run r (Caller.releaseEach t) =
    (.finished (t.map fun e => (e.1, .error .workerClosed)), p) := by
  induction t with
  | nil => rfl
  | cons e t ih => exact (run_answer rfl (h.submit e.2 .release)).trans (run_bind ih)

theorem run_awaitEach_refused (p : Pool ρ κ) (t : Table Nat) :
    p.run r (Caller.awaitEach (t.map fun e => (e.1, .error .workerClosed))) =
      (.finished { failures := t.map fun e => unreleased e.1 }, p) := by
  induction t with
  | nil => rfl
  | cons e t ih => exact run_bind ih

/-- All sessions are taken out of the registry though none can be released. -/
theorem Over.run_closeAll (h : p.Over) : p.run r Caller.closeAll =
    (.finished { failures := p.registry.map fun e => unreleased e.1 },
      { p with registry := [], shared := { p.shared with log := [] } }) := by
  have hanswer : p.answer .drain = .went p.registry { p with registry := [] } [] := rfl
  have h₁ := (h.idles (answered hanswer)).remains
  refine (run_answer rfl hanswer).trans ((run_bind (h₁.run_releaseEach p.registry)).trans ?_)
  exact (run_bind (run_awaitEach_refused _ p.registry)).trans (run_answer (a := .clearLog) rfl rfl)

end Pool

/-! ### Instructions when the worker has ended -/

namespace Desk
variable {r : Remote ρ κ} {d : Desk ρ κ} {i : Instruction}

/-- What comes of an instruction when the worker has ended. -/
structure Declines (r : Remote ρ κ) (d : Desk ρ κ) (i : Instruction) : Prop where
  returns : (d.obey r i).1 ≠ .stuck
  /-- No server is connected to, called or closed. -/
  heard : d.heard r i = []
  remote : (d.obey r i).2.pool.shared.remote = d.pool.shared.remote
  /-- No call is logged; the log may be cleared. -/
  tools : ∀ id, (d.obey r i).2.pool.shared.log.tools id = d.pool.shared.log.tools id ∨
    (d.obey r i).2.pool.shared.log.tools id = []
  /-- A call on a session that is live, or that can be made, is refused. -/
  calls : ∀ id name args fields, i = .order (.invoke id name args) → args.fields = .ok fields →
    isLoad (operationName name) = false → ((Table.get? id d.pool.registry).isSome = true ∨
      (d.pool.catalog.locator? (SessionKey.parse id).group).isSome = true) →
    (d.obey r i).1 = .gave (.result (.error .workerClosed))
  loads : ∀ l, i.load? = some l →
    ∃ y, (d.obey r i).1 = i.report y ∧ Barred (SessionKey.parse l.session).group y
  /-- A live session is gone when it is closed, and is told not to have closed. -/
  closes : ∀ id n, i = .order (.close id) → Table.get? id d.pool.registry = some n →
    (d.obey r i).1 = .gave (.closed (.error (.closeFailed id PoolError.workerClosed.message))) ∧
      (d.obey r i).2.pool.registry = d.pool.registry.erase id ∧
        Table.get? id (d.obey r i).2.pool.registry = none
  sweeps : i = .order .closeAll → (d.obey r i).1 = .gave (.report
      ⟨[], d.pool.registry.map fun e => .closeFailed e.1 PoolError.workerClosed.message⟩) ∧
    (d.obey r i).2.pool.registry = []

theorem obey_order {o : Order} {x : Response} {p' : Pool ρ κ}
    (h : d.pool.run r (o.program d.pool.catalog) = (.finished x, p')) :
    d.obey r (.order o) = (.gave x, { d with pool := p' }) := by
  simp only [obey, h]

/-- Whatever is told, the worker stays away. -/
theorem obey_idles (h : d.pool.Over) (r : Remote ρ κ) (i : Instruction) :
    (d.obey r i).1 ≠ .stuck ∧ d.heard r i = [] ∧ d.pool.Idles (d.obey r i).2.pool := by
  cases i with
  | order o =>
    obtain ⟨y, p', hrun, hheard, hidles⟩ := Pool.Over.run (r := r) (o.program d.pool.catalog) h
    rw [obey_order hrun]
    exact ⟨nofun, hheard, hidles⟩
  | mark session =>
    have hanswer : d.pool.answer (.markReady session) = .went () (d.pool.markReady session) [] := rfl
    exact ⟨nofun, rfl, h.idles (Pool.answered hanswer)⟩
  | chat session user assistant =>
    refine ⟨nofun, rfl, ⟨h.ended, h.settled, h.sorted⟩, rfl, rfl, fun id => .inl ?_⟩
    exact CallLog.tools_chat ..
  | dump path => exact ⟨nofun, rfl, h.idles_self⟩

theorem after_over (run : List Instruction) : ∀ {d : Desk ρ κ}, d.pool.Over → (d.after r run).pool.Over := by
  induction run with
  | nil => exact fun h => h
  | cons i run ih =>
    intro d h
    exact ih (obey_idles h r i).2.2.remains

theorem obey_load (h : d.pool.Over) {l : Loading} (hi : i.load? = some l) :
    ∃ y, (d.obey r i).1 = i.report y ∧ Barred (SessionKey.parse l.session).group y := by
  unfold Instruction.load? at hi
  split at hi
  · rename_i session state extra check
    cases hi
    obtain ⟨y, p', hrun, hbarred⟩ := h.run_loadWith (r := r) session state extra check
    have hrun' : d.pool.run r ((Order.load session state extra check).program d.pool.catalog) =
        (.finished (.outcome y), p') := Pool.run_bind hrun
    exact ⟨y, by rw [obey_order hrun']; rfl, hbarred⟩
  · rename_i session name args
    split at hi
    · cases hi
    · rename_i fields hargs
      split at hi
      · rename_i hload
        cases hi
        obtain ⟨y, p', hrun, hbarred⟩ := h.run_loadWith (r := r) session
          (Arguments.splitScenario fields).1 (Arguments.splitScenario fields).2 false
        have hinvoke : d.pool.run r (Caller.invoke d.pool.catalog session name args) =
            (.finished (y.map Normalized.ofOutcome), p') := by
          simp only [Caller.invoke, hargs, hload, if_true]
          exact Pool.run_bind hrun
        have hrun' : d.pool.run r ((Order.invoke session name args).program d.pool.catalog) =
            (.finished (.result (y.map Normalized.ofOutcome)), p') := Pool.run_bind hinvoke
        exact ⟨y, by rw [obey_order hrun']; rfl, hbarred⟩
      · cases hi
  · cases hi

/-- An instruction comes to what can be told without the worker. -/
theorem declines (h : d.pool.Over) (r : Remote ρ κ) (i : Instruction) : d.Declines r i := by
  obtain ⟨hreturns, hheard, hidles⟩ := obey_idles h r i
  refine ⟨hreturns, hheard, hidles.remote, hidles.tools, ?_, fun l hi => obey_load h hi, ?_, ?_⟩
  · rintro id name args fields rfl hargs hload hknown
    obtain ⟨p', hrun⟩ := h.run_call (r := r) d.pool.catalog (operationName name) fields hknown
    have hinvoke : d.pool.run r (Caller.invoke d.pool.catalog id name args) =
        (.finished (.error .workerClosed), p') := by
      simp only [Caller.invoke, hargs, hload, Bool.false_eq_true, if_false]
      exact hrun
    have hrun' : d.pool.run r ((Order.invoke id name args).program d.pool.catalog) =
        (.finished (.result (.error .workerClosed)), p') := Pool.run_bind hinvoke
    rw [obey_order hrun']
  · rintro id n rfl hn
    have hrun : d.pool.run r ((Order.close id).program d.pool.catalog) = _ :=
      Pool.run_bind (h.run_close hn)
    rw [obey_order hrun]
    exact ⟨rfl, rfl, Table.get?_erase_self h.sorted⟩
  · rintro rfl
    have hrun : d.pool.run r (Order.closeAll.program d.pool.catalog) = _ := Pool.run_bind h.run_closeAll
    rw [obey_order hrun]
    exact ⟨rfl, rfl⟩

end Desk

/-! ### Work behind the word to stop -/

namespace Pool
variable {r : Remote ρ κ} {made p : Pool ρ κ} {past : List Incident} {n t : Nat} {v : Work}

/-- Work that was sent has not begun, and whoever waits for it gets no result. -/
structure Unbegun (past : List Incident) (p : Pool ρ κ) (n : Nat) (v : Work) (t : Nat) : Prop where
  turn : .worked (some t) ∉ past
  job : p.worker.jobs[t]? = some (.pending (Errand.ofWork n v)) ∨ p.worker.jobs[t]? = some .dropped
  awaited : ∀ reply, .asked (.await t) reply ∈ past → reply = .error .workerClosed
  gaveUp : ∀ reply, .gaveUp (.await t) reply ∈ past →
    ∃ nanos, p.options.callTimeout = some nanos ∧ reply = .error (.timeout nanos)
  ended : p.worker.ended = true → p.worker.result? t = some (.error .workerClosed)

theorem Course.unbegun (hmade : made.Made r) (course : Course r made past p)
    (hsent : .asked (.submit n v) (.ok t) ∈ past) (hbegun : t ∉ begun past) : Unbegun past p n v t := by
  have haccords := course.accords hmade
  have hjob := haccords.untouched n v t hsent hbegun
  refine ⟨fun hturn => hbegun (mem_begun_iff.2 hturn), hjob, ?_, ?_, ?_⟩
  · intro reply hpast
    obtain ⟨before, q, q', hcourse, hnext, hmore⟩ := course.exists_moment hpast
    cases hnext with
    | ask hanswer =>
      cases answered hanswer with
      | awaited hresult => exact (hcourse.accords hmade).closed (fun hbefore => hbegun (hmore t hbefore)) hresult
  · intro reply hpast
    obtain ⟨before, q, q', hcourse, hnext, -⟩ := course.exists_moment hpast
    rw [course.options, ← hcourse.options]
    cases hnext with
    | giveUp hw hgiveUp =>
      simp only [giveUp] at hgiveUp
      split at hgiveUp
      · rename_i nanos hdeadline
        cases hgiveUp
        exact ⟨nanos, hdeadline, rfl⟩
      · cases hgiveUp
  · intro hended
    rcases hjob with hjob | hjob
    · exact absurd hjob (haccords.orderly.settled hended t _)
    · rw [Worker.result?, hjob]

/-- Nothing runs behind a word to stop. -/
structure Curfew (r : Remote ρ κ) (past : List Incident) (p : Pool ρ κ) : Prop where
  /-- Jobs begin in the order in which they were sent, and only those that were sent before any word to
      stop. -/
  order : begun past <+: Message.early (sent past)
  /-- Work that is sent behind it is refused at once, or never begins. -/
  behind : ∀ before after n v reply, past = before ++ .asked (.submit n v) reply :: after →
    (∃ joined, .asked .stop joined ∈ before) → reply = .error .workerClosed ∨
      ∃ t, reply = .ok t ∧ t ∉ Message.early (sent past) ∧ Unbegun past p n v t
  /-- Once it has been obeyed every action of a caller goes, and asks no server. -/
  idles : p.worker.ended = true → ∀ a, ∃ reply p', p.answer a = .went reply p' [] ∧ p.Idles p'
  declines : p.worker.ended = true → ∀ files run i, ((Desk.mk p files).after r run).Declines r i

theorem Course.isOver (hmade : made.Made r) (course : Course r made past p) (hended : p.worker.ended = true) :
    p.Over :=
  ⟨hended, (course.accords hmade).orderly.settled hended, course.sorted hmade⟩

/-- Nothing runs behind a word to stop, whoever sends what in which order, and nothing runs for the
    instructions that come when it has been obeyed. -/
theorem Course.curfew (hmade : made.Made r) (course : Course r made past p) : Curfew r past p where
  order := (course.accords hmade).orderly.isPrefix
  behind := by
    rintro before after n v reply hpast hstop
    obtain ⟨q, q', hcourse, hnext⟩ := course.moment hpast
    cases hnext with
    | ask hanswer =>
      cases answered hanswer with
      | refused => exact .inl rfl
      | sent =>
        have hsent : sent past = sent before ++ sent (.asked (.submit n v) (.ok q.worker.jobs.length) :: after) := by
          rw [hpast]
          exact List.filterMap_append
        have hlate : q.worker.jobs.length ∉ Message.early (sent past) := by
          intro hearly
          rw [hsent, Message.early_append_of_stop (mem_sent_stop_iff.2 hstop)] at hearly
          have hticket := Message.mem_tickets_of_early hearly
          rw [(hcourse.accords hmade).orderly.tickets, List.mem_range] at hticket
          exact Nat.lt_irrefl _ hticket
        refine .inr ⟨_, rfl, hlate, course.unbegun hmade ?_ fun hbegun => hlate ?_⟩
        · rw [hpast]
          exact List.mem_append_right _ List.mem_cons_self
        · exact (course.accords hmade).orderly.isPrefix.subset hbegun
  idles hended a := (course.isOver hmade hended).went a
  declines hended _ run i := Desk.declines (Desk.after_over run (course.isOver hmade hended)) r i

/-- Two callers come, one of them behind the word to stop. -/
theorem curfew_salon : ∃ past p, Course tally salon past p ∧ begun past = [0] ∧
    sent past = [.run 0, .stop, .run 1] ∧ p.worker.ended = true ∧ Curfew tally past p := by
  have hsent : Course tally salon _ _ :=
    .next (.next .start (.ask (a := .obtain "cards-ada") rfl)) (.ask (a := .submit 0 (.call "deal" [])) rfl)
  have hbegun : Course tally salon _ _ := .next (.next hsent (.work rfl)) (.work rfl)
  have hlate : Course tally salon _ _ :=
    .next (.next hbegun (.ask (a := .stop) rfl)) (.ask (a := .submit 0 (.call "deal" [])) rfl)
  have hended : Course tally salon _ _ := .next (.next hlate (.work rfl)) (.work rfl)
  exact ⟨_, _, hended, rfl, rfl, rfl, hended.curfew (.ofCatalog ..)⟩

end Pool
end SessionPool
