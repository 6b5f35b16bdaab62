import SessionPool.Proofs.Desk
import SessionPool.Proofs.Queue
import SessionPool.Proofs.Registry
import SessionPool.Proofs.Turns

/-! Courses: a pool with any number of callers, who ask it for what they like in any order, and with its
    worker, which takes its steps at any time and in its own way, turn by turn. What the servers share
    may change, and jobs may be roused, whenever it be. A course keeps what has happened: it tells in which
    order messages reached the worker and in which order jobs have begun. -/

namespace SessionPool
variable {ρ κ : Type}

/-- What happens to a pool. -/
inductive Incident where
  | asked (a : Ask) (reply : a.Reply)
  /-- A caller stops waiting at its deadline. -/
  | gaveUp (a : Ask) (reply : a.Reply)
  /-- The worker takes a step, in which a job may get a turn. -/
  | worked (turn : Option Nat)
  | other

namespace Incident

/-- The message that is sent to the worker. -/
def message? : Incident → Option Message
  | asked (.submit _ _) (.ok t) => some (.run t)
  | asked .stop _ => some .stop
  | _ => none

/-- The job that gets a turn. -/
def turn? : Incident → Option Nat
  | worked turn => turn
  | _ => none

end Incident

namespace Pool

/-- The messages that were sent to the worker, in order. -/
def sent (past : List Incident) : List Message := past.filterMap Incident.message?

/-- The jobs that have had a turn, in the order of their first turns. -/
def begun (past : List Incident) : List Nat := (past.filterMap Incident.turn?).eraseDups

/-- What may happen next. -/
inductive Next (r : Remote ρ κ) (p : Pool ρ κ) : Incident → Pool ρ κ → Prop
  | ask {a : Ask} {reply : a.Reply} {p' : Pool ρ κ} {woken : List Nat} (h : p.answer a = .went reply p' woken) :
      Next r p (.asked a reply) p'
  | giveUp {a : Ask} {reply : a.Reply} {p' : Pool ρ κ} {woken : List Nat} (hw : waits a = true)
      (h : p.giveUp a = .went reply p' woken) : Next r p (.gaveUp a reply) p'
  | chat (session user assistant : String) : Next r p .other (p.chat session user assistant)
  | work {x : Worker (Deed κ) Deed.Reply Yield × Shared ρ κ}
      (h : p.worker.step (Shared.host r) p.shared = some x) :
      Next r p (.worked p.worker.upcoming) { p with worker := x.1, shared := x.2 }
  | rouse (given : Job (Deed κ) Deed.Reply Yield → Bool) :
      Next r p .other { p with worker := p.worker.rouse given }
  | world (remote : ρ) : Next r p .other { p with shared := { p.shared with remote := remote } }

/-- What happens to a pool from when it is made. -/
inductive Course (r : Remote ρ κ) (made : Pool ρ κ) : List Incident → Pool ρ κ → Prop
  | start : Course r made [] made
  | next {past : List Incident} {e : Incident} {p p' : Pool ρ κ} (course : Course r made past p)
      (h : p.Next r e p') : Course r made (past ++ [e]) p'

variable {r : Remote ρ κ} {p p' : Pool ρ κ} {e : Incident} {past : List Incident} {t : Nat}

theorem sent_append (past : List Incident) (e : Incident) : sent (past ++ [e]) = sent past ++ e.message?.toList := by
  rw [sent, List.filterMap_append]
  cases he : e.message? <;> simp [sent, he]

theorem begun_append (past : List Incident) (e : Incident) :
    begun (past ++ [e]) = Worker.begunWith (begun past) e.turn? := by
  rw [begun, List.filterMap_append]
  cases he : e.turn? with
  | none => simp [begun, he, Worker.begunWith]
  | some t =>
    rw [List.filterMap_cons_some he, List.filterMap_nil, List.eraseDups_append, Worker.begunWith, begun]
    generalize past.filterMap Incident.turn? = turns
    by_cases ht : t ∈ turns <;> simp [ht, List.removeAll, List.eraseDups_cons]

/-- A ticket that was sent is that of some work. -/
theorem mem_sent_iff : .run t ∈ sent past ↔ ∃ n v, .asked (.submit n v) (.ok t) ∈ past := by
  rw [sent, List.mem_filterMap]
  constructor
  · rintro ⟨e, he, hmessage⟩
    unfold Incident.message? at hmessage
    split at hmessage <;> cases hmessage
    exact ⟨_, _, he⟩
  · rintro ⟨n, v, he⟩
    exact ⟨_, he, rfl⟩

theorem mem_sent_stop_iff : .stop ∈ sent past ↔ ∃ joined, .asked .stop joined ∈ past := by
  rw [sent, List.mem_filterMap]
  constructor
  · rintro ⟨e, he, hmessage⟩
    unfold Incident.message? at hmessage
    split at hmessage <;> cases hmessage
    exact ⟨_, he⟩
  · rintro ⟨joined, he⟩
    exact ⟨_, he, rfl⟩

/-- A job has begun when it has had a turn. -/
theorem mem_begun_iff : t ∈ begun past ↔ .worked (some t) ∈ past := by
  rw [begun, List.mem_eraseDups, List.mem_filterMap]
  constructor
  · rintro ⟨e, he, hturn⟩
    unfold Incident.turn? at hturn
    split at hturn
    · exact hturn ▸ he
    · cases hturn
  · intro he
    exact ⟨_, he, rfl⟩

end Pool

namespace Shared
variable {w : Shared ρ κ} {s : Session κ} {n : Nat} {known : List Nat}

/-- Jobs in line for a client are known. -/
def Lined (known : List Nat) (w : Shared ρ κ) : Prop := ∀ s ∈ w.sessions, ∀ t ∈ s.line, t ∈ known

theorem Lined.set {t : Nat} {s' : Session κ} (h : w.Lined known) (ht : t ∈ known) (hs : w.sessions[n]? = some s)
    (hline : ∀ u ∈ s'.line, u = t ∨ u ∈ s.line) : ∀ s₁ ∈ w.sessions.set n s', ∀ u ∈ s₁.line, u ∈ known := by
  intro s₁ hs₁ u hu
  rcases List.mem_or_eq_of_mem_set hs₁ with hs₁ | rfl
  · exact h s₁ hs₁ u hu
  · rcases hline u hu with rfl | hu
    · exact ht
    · exact h s (List.mem_of_getElem? hs) u hu

theorem mem_line_of_woken {t u : Nat} {m : Move κ} (r : Remote ρ κ) (hs : w.sessions[n]? = some s)
    (hu : u ∈ (host r t ⟨n, m⟩ w).woken) : u ∈ s.line := by
  have hdepart : ∀ u ∈ (depart s.line t).2, u ∈ s.line := by
    intro u hu
    rw [depart] at hu
    split at hu
    · exact List.mem_of_mem_erase (List.mem_of_mem_head? (Option.mem_toList.1 hu))
    · cases hu
  simp only [host, hs] at hu
  cases m with
  | unlock => exact hdepart u hu
  | call operation args =>
    simp only [move] at hu
    split at hu
    · cases hu
    · split at hu
      · cases hu
      · split at hu
        · cases hu
        · exact hdepart u hu
  | lock =>
    simp only [move] at hu
    split at hu <;> (split at hu <;> cases hu)
  | connect =>
    simp only [move] at hu
    split at hu <;> cases hu
  | look | markReady | record _ _ _ | «seal» | close _ => cases hu

/-- Jobs wake only those that stand in line. -/
theorem discreet (r : Remote ρ κ) : Host.Discreet (host r) (Lined (ρ := ρ) (κ := κ)) where
  keeps {known t w} d ht h := by
    obtain ⟨n, m⟩ := d
    cases hs : w.sessions[n]? with
    | none =>
      have hwaits : host r t ⟨n, m⟩ w = .waits w := by simp only [host, hs]
      rw [hwaits]
      exact h
    | some s =>
      cases hr : m.isRemote with
      | false =>
        obtain ⟨reply, ho⟩ := Move.own_of_not_remote s hr
        rcases host_own (r := r) (t := t) hs ho with ⟨woken, hgo, -⟩ | ⟨hwait, -⟩
        · rw [hgo]
          exact h.set ht hs fun u hu => Session.mem_of_mem_after hu
        · rw [hwait]
          exact h.set ht hs fun u hu => Session.mem_of_mem_after (m := .lock) hu
      | true =>
        obtain ⟨word, remote, hword⟩ := word_of_remote (r := r) (w := w) s hr
        rcases (host_remote (t := t) hs hword).2 with hwait | ⟨woken, hgo⟩
        · rw [hwait]
          exact h
        · rw [hgo]
          have hset : ∀ s₁ ∈ w.sessions.set n (s.hear t word), ∀ u ∈ s₁.line, u ∈ known :=
            h.set ht hs fun u hu => .inr (Session.mem_of_mem_hear hu)
          cases word.reply m <;> exact hset
  wakes {known t w} d ht h u hu := by
    obtain ⟨n, m⟩ := d
    cases hs : w.sessions[n]? with
    | none =>
      simp only [host, hs] at hu
      cases hu
    | some s => exact h s (List.mem_of_getElem? hs) u (mem_line_of_woken r hs hu)
  more hknown h s hs t ht := hknown t (h s hs t ht)

end Shared

namespace Pool
variable {r : Remote ρ κ} {p p' : Pool ρ κ} {e : Incident} {past : List Incident} {t : Nat}

/-! ### What callers do to the worker -/

/-- An action of a caller sends a message to the worker, or leaves it alone. -/
inductive Posted (p p' : Pool ρ κ) : Incident → Prop
  | none {e : Incident} (he : e.message? = none) (hworker : p'.worker = p.worker) : Posted p p' e
  | run {n : Nat} {v : Work} {t : Nat} (h : p.worker.submit (Errand.ofWork n v) = (some t, p'.worker)) :
      Posted p p' (.asked (.submit n v) (.ok t))
  | stop (h : p'.worker = p.worker.leave.2) : Posted p p' (.asked .stop p.worker.joined)

theorem posted_of_answer {a : Ask} {reply : a.Reply} {woken : List Nat} (h : p.answer a = .went reply p' woken) :
    Posted p p' (.asked a reply) := by
  cases a with
  | submit n v =>
    rw [answer] at h
    cases hsubmit : p.worker.submit (Errand.ofWork n v) with
    | mk ticket worker =>
      rw [hsubmit] at h
      cases ticket with
      | some t =>
        cases h
        exact .run hsubmit
      | none =>
        cases h
        refine .none rfl ?_
        rw [Worker.submit] at hsubmit
        split at hsubmit <;> cases hsubmit
        rfl
  | stop =>
    cases h
    exact .stop rfl
  | _ => exact .none rfl (by cases answered h <;> rfl)

theorem Answered.lined {a : Ask} {reply : a.Reply} {known : List Nat} (h : p.Answered a reply p')
    (hp : p.shared.Lined known) : p'.shared.Lined known := by
  cases h with
  | made =>
    intro s hs
    rcases List.mem_append.1 hs with hs | hs
    · exact hp s hs
    · cases List.mem_singleton.1 hs
      nofun
  | @marked id n s _ hs =>
    intro s' hs'
    rcases List.mem_or_eq_of_mem_set hs' with hs' | rfl
    · exact hp s' hs'
    · exact hp s (List.mem_of_getElem? hs)
  | _ => exact hp

/-! ### What holds along a course -/

/-- A pool is as it should be after what has happened: messages are read and jobs begin in order, and jobs
    that have not begun are untouched, or dropped. -/
structure Accords (past : List Incident) (p : Pool ρ κ) : Prop where
  orderly : p.worker.Orderly (begun past) (sent past) p.worker.inbox
  lined : p.shared.Lined (begun past)
  untouched : ∀ n v t, .asked (.submit n v) (.ok t) ∈ past → t ∉ begun past →
    p.worker.jobs[t]? = some (.pending (Errand.ofWork n v)) ∨ p.worker.jobs[t]? = some .dropped

/-- Of what neither sends a message nor gives a turn nothing is seen in the order. -/
theorem Accords.aside (h : Accords past p) (hmessage : e.message? = none) (hturn : e.turn? = none)
    (horderly : p'.worker.Orderly (begun past) (sent past) p'.worker.inbox)
    (hlined : p'.shared.Lined (begun past)) (hjobs : p'.worker.jobs = p.worker.jobs) : Accords (past ++ [e]) p' := by
  have hsent : sent (past ++ [e]) = sent past := by rw [sent_append, hmessage]; exact List.append_nil _
  have hbegun : begun (past ++ [e]) = begun past := by rw [begun_append, hturn]; rfl
  refine ⟨by rw [hsent, hbegun]; exact horderly, by rw [hbegun]; exact hlined, fun n v t ht hnot => ?_⟩
  rw [hbegun] at hnot
  rw [hjobs]
  rcases List.mem_append.1 ht with ht | ht
  · exact h.untouched n v t ht hnot
  · rw [← List.mem_singleton.1 ht] at hmessage
    cases hmessage

/-- What is sent comes last, and has not begun. -/
theorem Accords.posted (h : Accords past p) (hposted : Posted p p' e) (hturn : e.turn? = none)
    (hlined : p'.shared.Lined (begun past)) : Accords (past ++ [e]) p' := by
  have hbegun : begun (past ++ [e]) = begun past := by rw [begun_append, hturn]; rfl
  cases hposted with
  | none he hworker =>
    refine h.aside he hturn ?_ hlined (by rw [hworker])
    rw [hworker]
    exact h.orderly
  | @run n v t hsubmit =>
    obtain ⟨rfl, hjobs, horderly⟩ := h.orderly.submit hsubmit
    refine ⟨by rw [hbegun, sent_append]; exact horderly, by rw [hbegun]; exact hlined, fun n' v' t ht hnot => ?_⟩
    rw [hjobs]
    rw [hbegun] at hnot
    rcases List.mem_append.1 ht with hpast | hlast
    · have hold := h.untouched n' v' t hpast hnot
      have hlt : t < p.worker.jobs.length := by
        rcases hold with hold | hold <;> exact (List.getElem?_eq_some_iff.1 hold).1
      rwa [List.getElem?_append_left hlt]
    · cases List.mem_singleton.1 hlast
      exact .inl List.getElem?_concat_length
  | stop hworker =>
    have hjobs : p.worker.leave.2.jobs = p.worker.jobs := by
      rw [Worker.leave, Worker.sendStop]
      split <;> rfl
    refine ⟨by rw [hbegun, sent_append, hworker]; exact h.orderly.stop, by rw [hbegun]; exact hlined,
      fun n v t ht hnot => ?_⟩
    rw [hworker, hjobs]
    rw [hbegun] at hnot
    rcases List.mem_append.1 ht with hpast | hlast
    · exact h.untouched n v t hpast hnot
    · cases List.mem_singleton.1 hlast

/-- In a step of the worker at most one job begins, the first of those that have not. -/
theorem Accords.worked {x : Worker (Deed κ) Deed.Reply Yield × Shared ρ κ} (h : Accords past p)
    (hstep : p.worker.step (Shared.host r) p.shared = some x) :
    Accords (past ++ [.worked p.worker.upcoming]) { p with worker := x.1, shared := x.2 } := by
  have hbegun : begun (past ++ [.worked p.worker.upcoming]) =
      Worker.begunWith (begun past) p.worker.upcoming := begun_append ..
  have hsent : sent (past ++ [.worked p.worker.upcoming]) = sent past :=
    (sent_append ..).trans (List.append_nil _)
  obtain ⟨horderly, hlined⟩ := h.orderly.step (Shared.discreet r) h.lined hstep
  refine ⟨by rw [hbegun, hsent]; exact horderly, by rw [hbegun]; exact hlined, fun n v t ht hnot => ?_⟩
  have hpast := (List.mem_append.1 ht).resolve_right (by simp)
  rw [hbegun] at hnot
  have hother : p.worker.upcoming ≠ some t := by
    intro heq
    rw [heq] at hnot
    exact hnot (Worker.mem_begunWith_self ..)
  have hold := h.untouched n v t hpast fun hmem => hnot (Worker.mem_begunWith_of_mem _ hmem)
  rcases (Worker.does_of_step hstep).2.others hother with hsame | hdrop
  · rwa [hsame]
  · right
    rw [hdrop]
    rcases hold with hold | hold <;> (rw [hold]; rfl)

theorem Accords.next (h : Accords past p) (hnext : p.Next r e p') : Accords (past ++ [e]) p' := by
  cases hnext with
  | ask hanswer => exact h.posted (posted_of_answer hanswer) rfl ((answered hanswer).lined h.lined)
  | giveUp hw hgiveUp =>
    obtain rfl := eq_of_giveUp hw hgiveUp
    exact h.aside rfl rfl h.orderly h.lined rfl
  | chat session user assistant => exact h.aside rfl rfl h.orderly h.lined rfl
  | work hstep => exact h.worked hstep
  | rouse given => exact h.aside rfl rfl (h.orderly.rouse given) h.lined rfl
  | world remote => exact h.aside rfl rfl h.orderly h.lined rfl

theorem Made.accords (h : p.Made r) : Accords [] p := by
  obtain ⟨c, o, remote, worker, rfl, rfl | rfl⟩ := h.blank
  · exact ⟨⟨rfl, fun _ => rfl, nofun, nofun, nofun, nofun, nofun⟩, nofun, nofun⟩
  · exact ⟨⟨rfl, fun _ => rfl, nofun, nofun, nofun, nofun, nofun⟩, nofun, nofun⟩

/-- Along any course messages are read and jobs begin in order. -/
theorem Course.accords {made : Pool ρ κ} (hmade : made.Made r) (course : Course r made past p) :
    Accords past p := by
  induction course with
  | start => exact hmade.accords
  | next _ hnext ih => exact ih.next hnext

/-- Of a job that has not begun there is no result, but for word that the worker has ended. -/
theorem Accords.closed (h : Accords past p) (ht : t ∉ begun past) {result : Except PoolError Yield}
    (hresult : p.worker.result? t = some result) : result = .error .workerClosed := by
  rw [Worker.result?] at hresult
  rcases Nat.lt_or_ge t p.worker.jobs.length with hlt | hge
  · have hsent : t ∈ Message.tickets (sent past) := by
      rw [h.orderly.tickets]
      exact List.mem_range.2 hlt
    obtain ⟨n, v, hpast⟩ := mem_sent_iff.1 (Message.mem_tickets_iff.1 hsent)
    rcases h.untouched n v t hpast ht with hjob | hjob
    · rw [hjob] at hresult
      cases hresult
    · rw [hjob] at hresult
      exact (Option.some.inj hresult).symm
  · rw [List.getElem?_eq_none hge] at hresult
    exact (Option.some.inj hresult).symm

/-! ### The moments of a course -/

variable {made : Pool ρ κ}

/-- Whatever has happened did so at some moment. -/
theorem Course.moment (course : Course r made past p) : ∀ {before after : List Incident} {e : Incident},
    past = before ++ e :: after → ∃ q q', Course r made before q ∧ q.Next r e q' := by
  induction course with
  | start =>
    intro before after e h
    exact absurd h.symm (by simp)
  | @next past last p p' course hnext ih =>
    intro before after e h
    rcases List.eq_nil_or_concat after with rfl | ⟨after, last', rfl⟩
    · obtain ⟨rfl, hlast⟩ := List.append_inj' h rfl
      cases hlast
      exact ⟨p, p', course, hnext⟩
    · rw [List.concat_eq_append, ← List.cons_append, ← List.append_assoc] at h
      exact ih (List.append_inj' h rfl).1

/-- What had begun at that moment has begun. -/
theorem Course.exists_moment (course : Course r made past p) (he : e ∈ past) :
    ∃ before q q', Course r made before q ∧ q.Next r e q' ∧ ∀ t ∈ begun before, t ∈ begun past := by
  obtain ⟨before, after, rfl⟩ := List.append_of_mem he
  obtain ⟨q, q', hcourse, hnext⟩ := course.moment rfl
  refine ⟨before, q, q', hcourse, hnext, fun t ht => ?_⟩
  rw [mem_begun_iff] at ht ⊢
  exact List.mem_append_left _ ht

theorem Next.options (h : p.Next r e p') : p'.options = p.options := by
  cases h with
  | ask hanswer => cases answered hanswer <;> rfl
  | giveUp hw hgiveUp => rw [eq_of_giveUp hw hgiveUp]
  | _ => rfl

theorem Course.options (course : Course r made past p) : p.options = made.options := by
  induction course with
  | start => rfl
  | next _ hnext ih => exact hnext.options.trans ih

theorem Course.sorted (hmade : made.Made r) (course : Course r made past p) : Table.Sorted p.registry := by
  induction course with
  | start =>
    rw [hmade.rest.2]
    exact .nil
  | next _ hnext ih =>
    cases hnext with
    | ask hanswer => exact (answered hanswer).sorted ih
    | giveUp hw hgiveUp => exact eq_of_giveUp hw hgiveUp ▸ ih
    | _ => exact ih

/-- The worker has ended only if it got word to stop. -/
theorem Course.stopped (hmade : made.Made r) (course : Course r made past p) (hended : p.worker.ended = true) :
    ∃ joined, .asked .stop joined ∈ past := by
  obtain ⟨waiting, behind, hsent⟩ := (course.accords hmade).orderly.stopped hended
  rw [← mem_sent_stop_iff, hsent]
  exact List.mem_append_right _ List.mem_cons_self

end Pool
end SessionPool
