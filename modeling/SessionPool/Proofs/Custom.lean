import SessionPool.Proofs.Lane

/-! Customs of callers: what each program of a caller may ask of the pool. It sends work only on sessions
    it has been given, it marks sessions ready only where the group has no state, it loads states only by
    the loader, and for every session it takes out of the registry it sends one release, before
    it asks for anything else on sessions. Every order of a caller abides by these customs. -/

namespace SessionPool

/-- What a caller may ask for that knows some sessions and owes some of them a release. -/
def Ask.Allowed (c : Catalog) (known owed : List Nat) : Ask → Prop
  | .submit n .release => owed.head? = some n
  | .submit n w => n ∈ known ∧ w.IsPlain
  | .markReady id => c.isStateless (SessionKey.parse id).group = true
  | _ => True

/-- The sessions that a caller knows after a reply. -/
def Ask.known (known : List Nat) : (a : Ask) → a.Reply → List Nat
  | .obtain _, .ok (n, _) => n :: known
  | _, _ => known

/-- The sessions that a caller owes a release after a reply. -/
def Ask.owed (owed : List Nat) : (a : Ask) → a.Reply → List Nat
  | .remove _, some n => n :: owed
  | .drain, t => t.map (·.2) ++ owed
  | .submit _ .release, _ => owed.tail
  | _, _ => owed

namespace Caller
variable {α : Type}

/-- Whatever the replies, a caller asks for what it may and owes nothing at its end. -/
def Abides (c : Catalog) : Program Ask Ask.Reply α → List Nat → List Nat → Prop
  | Program.done _, _, owed => owed = []
  | Program.act a next, known, owed =>
    a.Allowed c known owed ∧ ∀ reply, Abides c (next reply) (a.known known reply) (a.owed owed reply)

variable {c : Catalog} {known owed : List Nat}

theorem abides_send {n : Nat} {w : Work} {f : Except PoolError Yield → Caller α} (hn : n ∈ known)
    (hw : w.IsPlain) (hr : w ≠ .release) (hf : ∀ r, Abides c (f r) known owed) :
    Abides c (send n w >>= f) known owed := by
  have hallowed : (Ask.submit n w).Allowed c known owed := by
    cases w with
    | release => exact absurd rfl hr
    | _ => exact ⟨hn, hw⟩
  have howed : ∀ reply, (Ask.submit n w).owed owed reply = owed := by
    cases w with
    | release => exact absurd rfl hr
    | _ => exact fun _ => rfl
  refine ⟨hallowed, fun reply => ?_⟩
  rw [howed]
  cases reply with
  | error e => exact hf _
  | ok t => exact ⟨trivial, fun r => hf r⟩

theorem abides_sendRelease {n : Nat} {f : Except PoolError Yield → Caller α}
    (hf : ∀ r, Abides c (f r) known owed) : Abides c (send n .release >>= f) known (n :: owed) := by
  refine ⟨rfl, fun reply => ?_⟩
  cases reply with
  | error e => exact hf _
  | ok t => exact ⟨trivial, fun r => hf r⟩

theorem abides_loadWith {session : String} {state : Json} {extra : Fields} {verify : Bool}
    {f : Except PoolError LoadOutcome → Caller α} (hf : ∀ r known, Abides c (f r) known owed) :
    Abides c (loadWith session state extra verify >>= f) known owed := by
  refine ⟨trivial, fun reply => ?_⟩
  cases reply with
  | error e => exact hf _ _
  | ok found =>
    obtain ⟨n, ready⟩ := found
    cases ready with
    | true => exact hf _ _
    | false =>
      show Abides c ((if isEmptyScenario state then _ else _) >>= f) _ _
      split
      · exact hf _ _
      · show Abides c ((send n (.load state extra verify) >>= _) >>= f) _ _
        rw [Program.bind_assoc]
        exact abides_send (List.mem_cons_self ..) trivial nofun fun _ => hf _ _

theorem abides_call {session operation : String} {args : Fields}
    {f : Except PoolError Normalized → Caller α} (hop : isLoad operation = false)
    (hf : ∀ r known, Abides c (f r) known owed) :
    Abides c (call c session operation args >>= f) known owed := by
  refine ⟨trivial, fun reply => ?_⟩
  cases reply with
  | error e => exact hf _ _
  | ok found =>
    obtain ⟨n, ready⟩ := found
    have hsend : Abides c ((send n (.call operation args) >>= fun result =>
        pure (result.map Yield.normalized)) >>= f) (n :: known) owed := by
      rw [Program.bind_assoc]
      exact abides_send (List.mem_cons_self ..) hop nofun fun _ => hf _ _
    show Abides c ((if (!ready && c.isStateless (SessionKey.parse session).group) = true
      then _ else _) >>= f) _ _
    split
    · rename_i h
      exact ⟨(Bool.and_eq_true_iff.1 h).2, fun _ => hsend⟩
    · exact hsend

theorem abides_invoke {session name : String} {args : Arguments}
    {f : Except PoolError Normalized → Caller α} (hf : ∀ r known, Abides c (f r) known owed) :
    Abides c (invoke c session name args >>= f) known owed := by
  unfold invoke
  cases args.fields with
  | error e => exact hf _ _
  | ok fields =>
    dsimp only
    split
    · rw [Program.bind_assoc]
      exact abides_loadWith fun _ _ => hf _ _
    · rename_i h
      exact abides_call (Bool.eq_false_iff.2 h) hf

theorem abides_close {session : String} {f : Except PoolError Bool → Caller α}
    (hf : ∀ r known, Abides c (f r) known owed) : Abides c (close session >>= f) known owed := by
  refine ⟨trivial, fun reply => ?_⟩
  cases reply with
  | none => exact hf _ _
  | some n =>
    show Abides c ((send n .release >>= _) >>= f) known (n :: owed)
    rw [Program.bind_assoc]
    refine abides_sendRelease fun r => ?_
    cases r <;> exact hf _ _

theorem abides_releaseEach {f : Table (Except PoolError Nat) → Caller α}
    (hf : ∀ r, Abides c (f r) known owed) (sessions : Table Nat) :
    Abides c (releaseEach sessions >>= f) known (sessions.map (·.2) ++ owed) := by
  induction sessions generalizing f with
  | nil => exact hf _
  | cons entry rest ih =>
    obtain ⟨id, n⟩ := entry
    refine ⟨rfl, fun (ticket : Except PoolError Nat) => ?_⟩
    show Abides c ((releaseEach rest >>= fun tickets => pure ((id, ticket) :: tickets)) >>= f) known
      (rest.map (·.2) ++ owed)
    rw [Program.bind_assoc]
    exact ih fun _ => hf _

theorem abides_awaitSent {ticket : Except PoolError Nat} {f : Except PoolError Yield → Caller α}
    (hf : ∀ r, Abides c (f r) known owed) : Abides c (awaitSent ticket >>= f) known owed := by
  cases ticket with
  | error e => exact hf _
  | ok t => exact ⟨trivial, hf⟩

theorem abides_awaitEach {f : CloseReport → Caller α} (hf : ∀ r, Abides c (f r) known owed)
    (tickets : Table (Except PoolError Nat)) : Abides c (awaitEach tickets >>= f) known owed := by
  induction tickets generalizing f with
  | nil => exact hf _
  | cons entry rest ih =>
    show Abides c ((awaitSent entry.2 >>= _) >>= f) known owed
    rw [Program.bind_assoc]
    refine abides_awaitSent fun result => ?_
    rw [Program.bind_assoc]
    refine ih fun report => ?_
    cases result <;> exact hf _

theorem abides_closeAll {f : CloseReport → Caller α} (hf : ∀ r, Abides c (f r) known owed) :
    Abides c (closeAll >>= f) known owed := by
  refine ⟨trivial, fun sessions => ?_⟩
  show Abides c ((releaseEach sessions >>= _) >>= f) known (sessions.map (·.2) ++ owed)
  rw [Program.bind_assoc]
  refine abides_releaseEach (fun tickets => ?_) sessions
  rw [Program.bind_assoc]
  refine abides_awaitEach (fun report => ?_) tickets
  exact ⟨trivial, fun _ => hf report⟩

theorem abides_saveEach {f : Table Json → Caller α} (hf : ∀ r known, Abides c (f r) known owed)
    (ids : List String) : Abides c (saveEach c ids >>= f) known owed := by
  induction ids generalizing f known with
  | nil => exact hf _ _
  | cons id rest ih =>
    show Abides c ((invoke c id saveScenario (.structured []) >>= _) >>= f) known owed
    rw [Program.bind_assoc]
    refine abides_invoke fun result known => ?_
    rw [Program.bind_assoc]
    refine ih fun saved known => ?_
    cases result <;> exact hf _ _

theorem abides_saveAll {f : Table Json → Caller α} (hf : ∀ r known, Abides c (f r) known owed) :
    Abides c (saveAll c >>= f) known owed :=
  ⟨trivial, fun ids => abides_saveEach hf ids⟩

theorem abides_shutdown {within : Nat} {f : ShutdownReport → Caller α}
    (hf : ∀ r, Abides c (f r) known owed) : Abides c (shutdown within >>= f) known owed := by
  show Abides c ((closeAll >>= _) >>= f) known owed
  rw [Program.bind_assoc]
  refine abides_closeAll fun report => ⟨trivial, fun joined => ?_⟩
  cases joined with
  | true => exact hf _
  | false => exact ⟨trivial, fun _ => hf _⟩

end Caller

/-- Every order abides by the customs, from a caller that knows nothing yet. -/
theorem Order.abides (c : Catalog) (order : Order) : Caller.Abides c (order.program c) [] [] := by
  cases order with
  | obtain session => exact ⟨trivial, fun reply => by cases reply <;> rfl⟩
  | invoke session name args => exact Caller.abides_invoke fun _ _ => rfl
  | load session state extra verify => exact Caller.abides_loadWith fun _ _ => rfl
  | close session => exact Caller.abides_close fun _ _ => rfl
  | closeAll => exact Caller.abides_closeAll fun _ => rfl
  | saveAll => exact Caller.abides_saveAll fun _ _ => rfl
  | shutdown within => exact Caller.abides_shutdown fun _ => rfl

end SessionPool
