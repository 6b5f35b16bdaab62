import SessionPool.Proofs.Recall

/-! Loading: what a load comes to. Its job tells the session to load once at most, and then there is nothing
    to load any more: either the load has failed, or the session is ready, unless there was no state to begin
    with. So a second load finds nothing to do and is not sent. -/

namespace SessionPool
variable {ρ κ : Type}

/-- Whether a move calls the operation with a name. -/
def Move.calls (operation : String) : Move κ → Bool
  | .call name _ => name = operation
  | _ => false

namespace Station
variable {r : Remote ρ κ} {t : Nat} {st : Station κ} {s : Session κ} {x : ρ} {e : Play ρ κ} {m : Move κ}
  {state : Json} {extra : Fields} {check : Bool}

/-- Whether a job may still call the operation that loads. -/
def mayLoad : Station κ → Bool
  | waiting _ => true
  | checking _ _ _ => true
  | looking p => p.operation = loadScenario
  | connecting p => p.operation = loadScenario
  | calling p => p.operation = loadScenario
  | _ => false

theorem mayLoad_of_calls (hm : st.move = some m) (h : m.calls loadScenario = true) : st.mayLoad = true := by
  cases st with
  | calling p => cases hm; exact h
  | ended _ | dead => cases hm
  | _ => cases hm; cases h

/-- What a job may load after a move it might have loaded before, and the move itself is no load. -/
theorem mayLoad_after {reply : m.Reply} (hm : st.move = some m) (h : (st.after m reply).mayLoad = true) :
    st.mayLoad = true ∧ m.calls loadScenario = false := by
  cases st with
  | waiting w | checking state extra check => cases hm; exact ⟨rfl, rfl⟩
  | looking p =>
    cases hm
    refine ⟨?_, rfl⟩
    simp only [after] at h
    split at h
    · cases h
    · split at h <;> exact h
  | connecting p =>
    cases hm
    cases reply with
    | error e => cases h
    | ok _ => exact ⟨h, rfl⟩
  | calling p => cases hm; cases reply <;> cases h
  | logging p text =>
    cases hm
    cases p with
    | use operation args => cases h
    | load state extra check =>
      cases check with
      | true =>
        have hname : saveScenario ≠ loadScenario := by decide
        exact absurd (of_decide_eq_true (p := saveScenario = loadScenario) h) hname
      | false => cases h
    | echo state message =>
      simp only [after, served] at h
      split at h <;> cases h
  | parting id client => cases hm; cases client <;> cases h
  | marking _ | leaving _ | retiring | sealing _ | closing _ _ => cases hm; cases h
  | ended _ | dead => cases hm

/-- A job loads at most once, and not after it has spent that. -/
theorem Plays.loads_le_one (h : st.Plays r t s x e) :
    e.heard.countP (fun w => w.1.calls loadScenario) ≤ 1 ∧
      (st.mayLoad = false → e.heard.countP (fun w => w.1.calls loadScenario) = 0) := by
  induction h with
  | ended => exact ⟨Nat.zero_le _, fun _ => rfl⟩
  | own hm _ _ ih =>
    refine ⟨ih.1, fun hspent => ih.2 (Bool.eq_false_iff.2 fun hafter => ?_)⟩
    cases hspent.symm.trans (mayLoad_after hm hafter).1
  | @hear st s x x' m word reply e hm hw hreply _ ih =>
    have hnext : m.calls loadScenario = true ∨ st.mayLoad = false → (st.after m reply).mayLoad = false := by
      refine fun h => Bool.eq_false_iff.2 fun hafter => ?_
      obtain ⟨hmay, hother⟩ := mayLoad_after hm hafter
      rcases h with hcall | hspent
      · cases hcall.symm.trans hother
      · cases hspent.symm.trans hmay
    rw [List.countP_cons]
    split
    · rename_i hcall
      rw [ih.2 (hnext (.inl hcall))]
      exact ⟨Nat.le_refl _, fun hspent => absurd (mayLoad_of_calls hm hcall) (Bool.eq_false_iff.1 hspent)⟩
    · exact ⟨ih.1, fun hspent => ih.2 (hnext (.inr hspent))⟩
  | @dies st s x x' m word hm hw hreply =>
    rw [List.countP_singleton]
    split
    · rename_i hcall
      exact ⟨Nat.le_refl _, fun hspent => absurd (mayLoad_of_calls hm hcall) (Bool.eq_false_iff.1 hspent)⟩
    · exact ⟨Nat.zero_le _, fun _ => rfl⟩

/-- Work that is done does not tell that there was nothing to load. -/
def Earned : Station κ → Prop
  | leaving result => result ≠ .ok (.outcome .emptyScenario)
  | ended result => result ≠ .ok (.outcome .emptyScenario)
  | _ => True

theorem earned_failure (p : Purpose) (error : RemoteError) : (leaving (p.failure error) : Station κ).Earned := by
  cases p <;> nofun

theorem earned_served (p : Purpose) (text : String) : (served p text : Station κ).Earned := by
  cases p with
  | use operation args => nofun
  | load state extra check => cases check <;> exact trivial
  | echo state message =>
    simp only [served]
    rcases LoadOutcome.ofEcho_cases state message text with ho | ⟨saved, ho⟩
    · rw [ho]
      exact trivial
    · rw [ho]
      rintro ⟨⟩

theorem earned_after {reply : m.Reply} (hst : st.In (.load state extra check)) (h : st.Earned)
    (hm : st.move = some m) : (st.after m reply).Earned := by
  cases st with
  | waiting w => cases hm; cases hst; exact trivial
  | checking state extra check =>
    cases hm
    simp only [after]
    split
    · rintro ⟨⟩
    · exact trivial
  | looking p =>
    cases hm
    simp only [after]
    split
    · exact earned_failure p _
    · split <;> exact trivial
  | connecting p | calling p =>
    cases hm
    cases reply with
    | error error => exact earned_failure p error
    | ok _ => exact trivial
  | logging p text => cases hm; exact earned_served p text
  | marking o =>
    cases hm
    obtain ⟨-, message, verified, rfl⟩ := hst
    rintro ⟨⟩
  | leaving result => cases hm; exact h
  | retiring | sealing _ | parting _ _ | closing _ _ => cases hst
  | ended _ | dead => cases hm

/-- A load that gives anything but a mismatch leaves the session ready. -/
theorem Plays.loaded {y : Yield} (h : (waiting (.load state extra check)).Plays r t s x e)
    (hresult : e.result = some (.ok y)) (hmatch : ∀ expected saved, y.toOutcome ≠ .mismatch expected saved) :
    e.session.ready = true := by
  have hlast := h.ends (P := fun st _ _ => st.In (.load state extra check) ∧ st.Earned)
    (fun ⟨hst, hs⟩ hm _ => ⟨in_after hst hm _, earned_after hst hs hm⟩)
    (fun {st s x m word x'} ⟨hst, hs⟩ hm _ => ⟨in_heard hst hm _, by
      rw [heard]
      cases word.reply m with
      | none => exact trivial
      | some reply => exact earned_after hst hs hm⟩)
    ⟨rfl, trivial⟩
  have htells := h.tells
  rw [Play.last, hresult] at hlast
  rw [hresult] at htells
  obtain ⟨hgives, hearned⟩ := hlast
  rw [htells]
  cases y with
  | outcome o =>
    cases o with
    | loaded _ _ | alreadyInitialized => rfl
    | emptyScenario => exact absurd rfl hearned
    | mismatch expected saved => exact absurd rfl (hmatch expected saved)
  | text _ | released => exact hgives.elim

end Station

/-- What work comes to on a session is what it plays there. -/
theorem Session.outcome_plays {r : Remote ρ κ} (hr : r.Prompt) (x : ρ) (v : Work) {s : Session κ}
    (hl : s.line = []) :
    ∃ e, (Station.waiting v).Plays r 0 s x e ∧ s.outcome r x v = (e.result, e.session) := by
  obtain ⟨e, hplays, -, hadvance⟩ := Shared.work_plays (n := 0) (t := 0) (v := v)
    (w := { sessions := [s], remote := x }) hr rfl hl []
  refine ⟨e, hplays, ?_⟩
  have hhost : (Errand.ofWork 0 v).advance (Shared.host r 0) { sessions := [s], remote := x } = _ :=
    (Program.advance_on (f := Prod.fst) (Shared.watch_on r 0) (Errand.ofWork 0 v)
      ({ sessions := [s], remote := x }, [])).symm
  rw [outcome, hhost, hadvance]
  simp only [Program.Advance.on, Play.progress]
  cases e.result <;> rfl

/-! ### What is heard -/

/-- How often a session is told to load. -/
def loads (id : String) (heard : List (Heard κ)) : Nat :=
  heard.countP fun h => h.session = id && h.move.calls loadScenario

theorem loads_append (id : String) (heard later : List (Heard κ)) :
    loads id (heard ++ later) = loads id heard + loads id later := List.countP_append

/-- A session is told to load once at most, and no other is. -/
def LoadsOnce (id : String) (heard : List (Heard κ)) : Prop :=
  loads id heard ≤ 1 ∧ ∀ j, j ≠ id → loads j heard = 0

theorem LoadsOnce.le_one {id : String} {heard : List (Heard κ)} (h : LoadsOnce id heard) (j : String) :
    loads j heard ≤ 1 := by
  by_cases hj : j = id
  · exact hj ▸ h.1
  · exact h.2 j hj ▸ Nat.zero_le _

theorem LoadsOnce.nil (id : String) : LoadsOnce id ([] : List (Heard κ)) := ⟨Nat.zero_le _, fun _ _ => rfl⟩

theorem Station.Plays.loads_once {r : Remote ρ κ} {t : Nat} {st : Station κ} {s : Session κ} {x : ρ} {e : Play ρ κ}
    (h : st.Plays r t s x e) (n : Nat) (id : String) : LoadsOnce id (e.words n id) := by
  have hcount := fun j => countP_placed (Move.calls loadScenario) e.heard n id j
  refine ⟨?_, fun j hj => (hcount j).trans (if_neg hj.symm)⟩
  rw [loads, Play.words, hcount, if_pos rfl]
  exact h.loads_le_one.1

namespace Loads
variable {r : Remote ρ κ} {f f' : Front ρ κ} {id : String} {state : Json} {extra : Fields} {check : Bool}
  {y : Except PoolError LoadOutcome} {ds : List (Deal κ)} {n : Nat}

/-- A load is sent to its session, once at most. -/
theorem loads_once (h : Loads f id state extra check y ds) (hdeals : Front.Deals r f ds f') (ht : f.Tidy) :
    LoadsOnce id (ds.flatMap Deal.heard) := by
  cases h with
  | unknown | already | empty => exact .nil id
  | @sent n y ds _ _ hsent =>
    rcases hsent.inversion with ⟨-, rfl, rfl⟩ | ⟨result, heard, -, rfl, rfl⟩
    · exact .nil id
    obtain _ | ⟨first, _ | ⟨job, -⟩⟩ := hdeals
    obtain ⟨s', hs', hid⟩ := (first.tidy ht).named id n first.names_obtained
    cases job with
    | worked hs _ plays _ =>
      cases hs.symm.trans hs'
      simpa [Deal.heard, hid] using plays.loads_once n id

/-- To a session that is ready nothing is sent, and without a state neither. -/
theorem silent (h : Loads f id state extra check y ds) (hdeals : Front.Deals r f ds f')
    (hn : Table.get? id f.registry = some n) (hspared : f.isReady n = true ∨ isEmptyScenario state = true) :
    ds.flatMap Deal.heard = [] := by
  cases h with
  | unknown | already | empty => rfl
  | @sent m y ds hready hstate hsent =>
    obtain _ | ⟨first, -⟩ := hdeals
    have hm : m = n := by
      cases first with
      | found hm => exact Option.some.inj (hm.symm.trans hn)
      | made hnone => cases hn.symm.trans hnone
    subst hm
    rcases hspared with hyes | hyes
    · cases hyes.symm.trans hready
    · cases hyes.symm.trans hstate

end Loads

/-! ### Sessions that are loaded -/

/-- Every load that is told of but for a mismatch leaves the session ready. -/
theorem Session.ready_of_verdict {r : Remote ρ κ} (hr : r.Prompt) (x : ρ) {s : Session κ} (hl : s.line = [])
    {state : Json} {extra : Fields} {check : Bool} {y : Yield}
    (hy : (s.verdict r x (.load state extra check)).1 = .ok y)
    (hmatch : ∀ expected saved, y.toOutcome ≠ .mismatch expected saved) :
    (s.verdict r x (.load state extra check)).2.ready = true := by
  obtain ⟨e, hplays, houtcome⟩ := outcome_plays hr x (.load state extra check) hl
  rw [verdict, houtcome] at hy ⊢
  refine hplays.loaded ?_ hmatch
  cases hresult : e.result with
  | none =>
    rw [hresult] at hy
    cases hy
  | some result =>
    rw [hresult] at hy
    exact congrArg some hy

namespace Visit
variable {r : Remote ρ κ} {x : ρ} {c : Catalog} {id : String} {α : Type} {y : α}
  {visit : Session κ → Except PoolError α × Session κ} {v : Option (Session κ)}

/-- A visit that succeeds finds a session or makes one. -/
theorem of_entered (h : (entered c id visit v).1 = .ok y) :
    ∃ s, c.enter id v = .ok s ∧ (visit s).1 = .ok y ∧ (entered c id visit v).2 = some (visit s).2 := by
  rw [entered] at h ⊢
  cases hs : c.enter id v with
  | error e =>
    rw [hs] at h
    cases h
  | ok s =>
    rw [hs] at h
    exact ⟨s, rfl, h, rfl⟩

/-- After a load into a new session there is nothing to load any more, unless it failed. -/
theorem loadWith_settles (hr : r.Prompt) {state : Json} {extra : Fields} {check : Bool} {o : LoadOutcome}
    (h : (loadWith r x c id state extra check none).1 = .ok o)
    (hmatch : ∀ expected saved, o ≠ .mismatch expected saved) :
    ∃ s, (loadWith r x c id state extra check none).2 = some s ∧ (s.ready = true ∨ isEmptyScenario state = true) := by
  obtain ⟨s, hs, hgives, hleaves⟩ := of_entered h
  refine ⟨_, hleaves, ?_⟩
  have hline : s.line = [] := by
    rw [Catalog.enter] at hs
    split at hs
    · cases hs
    · cases hs
      rfl
  split at hgives
  · rename_i hready
    rw [if_pos hready]
    exact .inl hready
  rename_i hready
  rw [if_neg hready]
  split at hgives
  · rename_i hempty
    exact .inr hempty
  rename_i hempty
  rw [if_neg hempty]
  rw [did] at hgives ⊢
  cases hy : (s.verdict r x (.load state extra check)).1 with
  | error e =>
    rw [hy] at hgives
    cases hgives
  | ok y =>
    rw [hy] at hgives
    cases hgives
    exact .inl (Session.ready_of_verdict hr x hline hy hmatch)

end Visit

end SessionPool
