import SessionPool.Proofs.Interleaving

/-! Dockets: what a caller that closes all sessions has still to see to. A session that it takes out of the
    registry is on its docket until it asks for the release, and then the release is, until it has waited
    for it or has given up waiting. Whatever the replies, a caller clears the log only when it has taken
    all sessions out and has nothing left on its docket, and who has a report of closing all sessions
    has cleared the log. -/

namespace SessionPool

/-- What a caller has still to see to, and what it has done. -/
structure Docket where
  /-- Whether it has taken all sessions out of the registry. -/
  drained : Bool := false
  /-- The sessions that it took out and has not asked the release of. -/
  unsent : List Nat := []
  /-- The releases that it has asked for and not waited for, by their tickets. -/
  unheard : List Nat := []
  /-- Whether it has cleared the log. -/
  cleared : Bool := false

namespace Docket

/-- A release is not waited for any more. -/
def heard (d : Docket) (t : Nat) : Docket := { d with unheard := d.unheard.erase t }

/-- The docket after a reply. -/
def after (d : Docket) : (a : Ask) → a.Reply → Docket
  | .drain, sessions => { d with drained := true, unsent := sessions.map (·.2) ++ d.unsent }
  | .submit n .release, .ok t => { d with unsent := d.unsent.erase n, unheard := d.unheard ++ [t] }
  | .submit n .release, .error _ => { d with unsent := d.unsent.erase n }
  | .await t, _ => d.heard t
  | .clearLog, _ => { d with cleared := true }
  | _, _ => d

/-- All sessions were taken out, and nothing is left to see to. -/
structure Done (d : Docket) : Prop where
  drained : d.drained = true
  unsent : d.unsent = []
  unheard : d.unheard = []

end Docket

/-! ### Callers -/

/-- The tickets of releases that were sent. -/
def sentTickets (tickets : Table (Except PoolError Nat)) : List Nat := tickets.filterMap fun e => e.2.toOption

namespace Caller
variable {α β : Type} {post : α → Docket → Prop} {d : Docket}

/-- Whatever the replies, a caller clears the log only when its docket is done, and ends as `post` says. -/
def Heeds (post : α → Docket → Prop) : Program Ask Ask.Reply α → Docket → Prop
  | Program.done x, d => post x d
  | Program.act a next, d => (a = .clearLog → d.Done) ∧ ∀ reply, Heeds post (next reply) (d.after a reply)

theorem heeds_bind {post : β → Docket → Prop} {f : α → Caller β} : ∀ {p : Caller α} {d : Docket},
    Heeds post (p >>= f) d ↔ Heeds (fun x d => Heeds post (f x) d) p d
  | Program.done _, _ => Iff.rfl
  | Program.act _ _, _ => and_congr Iff.rfl (forall_congr' fun _ => heeds_bind)

/-- Who leaves the log alone heeds any docket. -/
theorem Avoids.heeds (hpost : ∀ x d, post x d) : ∀ {p : Caller α}, Avoids .clearLog p → ∀ d, Heeds post p d
  | Program.done x, _, d => hpost x d
  | Program.act _ _, h, _ => ⟨fun heq => absurd heq h.1, fun reply => Avoids.heeds hpost (h.2 reply) _⟩

theorem send_avoids_clearLog (n : Nat) (w : Work) : Avoids .clearLog (send n w) := by
  refine ⟨nofun, fun reply => ?_⟩
  cases reply with
  | error e => exact trivial
  | ok t => exact ⟨nofun, fun _ => trivial⟩

theorem loadWith_avoids_clearLog (session : String) (state : Json) (extra : Fields) (verify : Bool) :
    Avoids .clearLog (loadWith session state extra verify) := by
  refine ⟨nofun, fun reply => ?_⟩
  cases reply with
  | error e => exact trivial
  | ok found =>
    obtain ⟨n, ready⟩ := found
    cases ready with
    | true => exact trivial
    | false =>
      show Avoids .clearLog (if isEmptyScenario state then _ else _)
      split
      · exact trivial
      · refine (send_avoids_clearLog n _).bind fun _ => ?_
        exact trivial

theorem call_avoids_clearLog (c : Catalog) (session operation : String) (args : Fields) :
    Avoids .clearLog (call c session operation args) := by
  refine ⟨nofun, fun reply => ?_⟩
  cases reply with
  | error e => exact trivial
  | ok found =>
    obtain ⟨n, ready⟩ := found
    have hsend : Avoids .clearLog (send n (.call operation args) >>= fun result =>
        pure (result.map Yield.normalized)) := by
      refine (send_avoids_clearLog n _).bind fun _ => ?_
      exact trivial
    show Avoids .clearLog (if (!ready && c.isStateless (SessionKey.parse session).group) = true then _ else _)
    split
    · exact ⟨nofun, fun _ => hsend⟩
    · exact hsend

theorem invoke_avoids_clearLog (c : Catalog) (session name : String) (args : Arguments) :
    Avoids .clearLog (invoke c session name args) := by
  unfold invoke
  cases args.fields with
  | error e => exact trivial
  | ok fields =>
    dsimp only
    split
    · refine (loadWith_avoids_clearLog ..).bind fun _ => ?_
      exact trivial
    · exact call_avoids_clearLog ..

theorem close_avoids_clearLog (session : String) : Avoids .clearLog (close session) := by
  refine ⟨nofun, fun reply => ?_⟩
  cases reply with
  | none => exact trivial
  | some n => exact (send_avoids_clearLog n .release).bind fun r => by cases r <;> exact trivial

theorem saveEach_avoids_clearLog (c : Catalog) (ids : List String) : Avoids .clearLog (saveEach c ids) := by
  induction ids with
  | nil => exact trivial
  | cons id rest ih =>
    apply (invoke_avoids_clearLog c id saveScenario (.structured [])).bind
    intro result
    apply ih.bind
    intro saved
    cases result <;> exact trivial

theorem heeds_releaseEach {post : Table (Except PoolError Nat) → Docket → Prop} (sessions : Table Nat)
    {d : Docket} (hd : d.unsent = sessions.map (·.2))
    (hpost : ∀ tickets, post tickets { d with unsent := [], unheard := d.unheard ++ sentTickets tickets }) :
    Heeds post (releaseEach sessions) d := by
  induction sessions generalizing d post with
  | nil =>
    have hdone := hpost []
    rw [show sentTickets [] = [] from rfl, List.append_nil] at hdone
    obtain ⟨drained, unsent, unheard, cleared⟩ := d
    cases hd
    exact hdone
  | cons entry rest ih =>
    obtain ⟨id, n⟩ := entry
    refine ⟨nofun, fun (ticket : Except PoolError Nat) => ?_⟩
    show Heeds post (releaseEach rest >>= fun tickets => pure ((id, ticket) :: tickets)) _
    rw [heeds_bind]
    have herase : d.unsent.erase n = rest.map (·.2) := by
      rw [hd]
      exact List.erase_cons_head ..
    cases ticket with
    | error e => exact ih herase fun tickets => hpost ((id, .error e) :: tickets)
    | ok t =>
      refine ih herase fun tickets => ?_
      have hdone := hpost ((id, .ok t) :: tickets)
      rw [show sentTickets ((id, .ok t) :: tickets) = [t] ++ sentTickets tickets from rfl,
        ← List.append_assoc] at hdone
      exact hdone

theorem heeds_awaitEach {post : CloseReport → Docket → Prop} (tickets : Table (Except PoolError Nat))
    {d : Docket} (hd : d.unheard = sentTickets tickets) (hpost : ∀ report, post report { d with unheard := [] }) :
    Heeds post (awaitEach tickets) d := by
  induction tickets generalizing d post with
  | nil =>
    obtain ⟨drained, unsent, unheard, cleared⟩ := d
    cases hd
    exact hpost {}
  | cons entry rest ih =>
    obtain ⟨id, ticket⟩ := entry
    show Heeds post (awaitSent ticket >>= _) d
    cases ticket with
    | error e =>
      show Heeds post (awaitEach rest >>= _) d
      rw [heeds_bind]
      exact ih hd fun report => hpost _
    | ok t =>
      refine ⟨nofun, fun (result : Except PoolError Yield) => ?_⟩
      show Heeds post (awaitEach rest >>= _) (d.heard t)
      rw [heeds_bind]
      have herase : (d.heard t).unheard = sentTickets rest := by
        rw [Docket.heard, hd]
        exact List.erase_cons_head ..
      refine ih herase fun report => ?_
      cases result <;> exact hpost _

/-- Who closes all sessions clears the log at the end. -/
theorem heeds_closeAll {post : CloseReport → Docket → Prop}
    (hpost : ∀ report d, d.cleared = true → post report d) : Heeds post closeAll {} := by
  refine ⟨nofun, fun sessions => ?_⟩
  show Heeds post (releaseEach sessions >>= _) _
  rw [heeds_bind]
  have hunsent : sessions.map (·.2) ++ [] = sessions.map (·.2) := List.append_nil _
  refine heeds_releaseEach sessions hunsent fun tickets => ?_
  show Heeds post (awaitEach tickets >>= _) _
  rw [heeds_bind]
  refine heeds_awaitEach tickets rfl fun report => ?_
  exact ⟨fun _ => ⟨rfl, rfl, rfl⟩, fun _ => hpost report _ rfl⟩

end Caller

/-- Whether a caller has closed all sessions. -/
def Response.isSweep : Response → Bool
  | report _ => true
  | ended _ => true
  | _ => false

/-- Every order clears the log only when its docket is done, and is through with it if it closes all sessions. -/
theorem Order.heeds (c : Catalog) (order : Order) :
    Caller.Heeds (fun x d => x.isSweep = true → d.cleared = true) (order.program c) {} := by
  cases order with
  | obtain session =>
    exact ⟨nofun, fun reply => by cases reply <;> exact nofun⟩
  | invoke session name args =>
    exact Caller.heeds_bind.2 ((Caller.invoke_avoids_clearLog ..).heeds (fun _ _ => nofun) _)
  | load session state extra verify =>
    exact Caller.heeds_bind.2 ((Caller.loadWith_avoids_clearLog ..).heeds (fun _ _ => nofun) _)
  | close session => exact Caller.heeds_bind.2 ((Caller.close_avoids_clearLog ..).heeds (fun _ _ => nofun) _)
  | closeAll => exact Caller.heeds_bind.2 (Caller.heeds_closeAll fun _ _ hcleared _ => hcleared)
  | saveAll =>
    exact ⟨nofun, fun ids => Caller.heeds_bind.2
      ((Caller.saveEach_avoids_clearLog c ids).heeds (fun _ _ => nofun) _)⟩
  | shutdown within =>
    refine Caller.heeds_bind.2 (Caller.heeds_bind.2 (Caller.heeds_closeAll fun report d hcleared => ?_))
    refine ⟨nofun, fun joined => ?_⟩
    cases joined with
    | true => exact fun _ => hcleared
    | false => exact ⟨nofun, fun _ _ => hcleared⟩

end SessionPool
