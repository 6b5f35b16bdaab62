import SessionPool.Proofs.History
import SessionPool.Proofs.Projection
import SessionPool.Proofs.Schedule

/-! Loads: a session is loaded at most once. Between the look that finds the session not ready and the
    mark that makes it ready, the load has the session to itself, so that no two loads get past the
    look; and whatever comes in later finds the session ready. The main statement is
    `Scene.Run.loadsOnce`, about any interleaving of loads, calls and releases. -/

namespace SessionPool

/-! ### The loader and the loaded -/

/-- Whether a call is part of a load. -/
def Purpose.loads : Purpose → Bool
  | use _ _ => false
  | load _ _ _ => true
  | echo _ _ => true

/-- Whether a result says that a state was loaded. -/
def saysLoaded : Except PoolError Yield → Bool
  | .ok (.outcome (.loaded _ _)) => true
  | _ => false

namespace Station
variable {κ : Type}

/-- Whether the work is under way to load a state: it found the session not ready, and has not made it
    ready yet. -/
def isLoading : Station κ → Bool
  | looking p => p.loads
  | connecting p => p.loads
  | calling p => p.loads
  | logging p _ => p.loads
  | marking _ => true
  | _ => false

/-- Whether the work has loaded a state and made the session ready. -/
def hasLoaded : Station κ → Bool
  | leaving result => saysLoaded result
  | ended result => saysLoaded result
  | _ => false

variable {s : Session κ} {st : Station κ} {m : Move κ}

theorem inside_of_loading (h : st.isLoading = true) : st.isInside = true := by
  cases st with
  | waiting _ | closing _ _ | ended _ | dead => cases h
  | _ => rfl

theorem not_loading_of_loaded (h : st.hasLoaded = true) : st.isLoading = false := by
  cases st with
  | leaving _ | ended _ => rfl
  | _ => cases h

theorem failure_not_loaded (p : Purpose) (e : RemoteError) : saysLoaded (p.failure e) = false := by
  cases p <;> rfl

theorem not_loaded_of_not_ready {o : LoadOutcome} (h : o.isReady = false) :
    saysLoaded (.ok (.outcome o)) = false := by
  cases o <;> first | rfl | cases h

/-- A load gets under way only when it finds the session not ready. -/
theorem loading_after {reply : m.Reply} (hm : st.move = some m) (ho : m.own? s = some reply)
    (h : (st.after m reply).isLoading = true) :
    st.isLoading = true ∨ (∃ state extra check, st = checking state extra check) ∧ s.ready = false := by
  cases st with
  | waiting w => cases hm; cases w <;> cases h
  | checking state extra check =>
    cases hm; cases ho
    simp only [after] at h
    split at h
    · cases h
    · rename_i hready
      exact .inr ⟨⟨_, _, _, rfl⟩, Bool.eq_false_iff.2 hready⟩
  | looking p =>
    cases hm
    simp only [after] at h
    split at h
    · cases h
    · split at h <;> exact .inl h
  | logging p text =>
    cases hm
    cases p with
    | use operation args => cases h
    | load _ _ _ | echo _ _ => exact .inl rfl
  | marking o => exact .inl rfl
  | parting i client => cases hm; cases client <;> cases h
  | leaving _ | retiring | sealing _ => cases hm; cases h
  | connecting _ | calling _ | closing _ _ => cases hm; cases ho
  | ended _ | dead => cases hm

theorem loading_heard {word : Word κ} (hm : st.move = some m) (hr : m.isRemote = true)
    (h : (st.heard m word).isLoading = true) : st.isLoading = true := by
  unfold heard at h
  split at h
  · rename_i reply hreply
    cases st with
    | connecting p | calling p => cases hm; cases reply <;> first | exact h | cases h
    | closing i c => cases hm; cases reply <;> cases h
    | ended _ | dead => cases hm
    | _ => cases hm; cases hr
  · cases h

/-- A state is loaded by the mark that makes the session ready. -/
theorem loaded_after {reply : m.Reply} (hm : st.move = some m) (ho : m.own? s = some reply)
    (h : (st.after m reply).hasLoaded = true) :
    st.hasLoaded = true ∨ st.isLoading = true ∧ m = .markReady := by
  cases st with
  | waiting w => cases hm; cases w <;> cases h
  | checking state extra check =>
    cases hm
    simp only [after] at h
    split at h <;> cases h
  | looking p =>
    cases hm
    simp only [after] at h
    split at h
    · exact absurd h (by simp [hasLoaded, failure_not_loaded])
    · split at h <;> cases h
  | logging p text =>
    cases hm
    cases p with
    | use operation args => cases h
    | load state extra check => cases check <;> cases h
    | echo state message =>
      simp only [after, served] at h
      split at h
      · cases h
      · rename_i hready
        exact absurd h (by simp [hasLoaded, not_loaded_of_not_ready (Bool.eq_false_iff.2 hready)])
  | marking o => cases hm; exact .inr ⟨rfl, rfl⟩
  | leaving result => cases hm; exact .inl h
  | parting i client => cases hm; cases client <;> cases h
  | retiring | sealing _ => cases hm; cases h
  | connecting _ | calling _ | closing _ _ => cases hm; cases ho
  | ended _ | dead => cases hm

theorem loaded_heard {word : Word κ} (hm : st.move = some m) (hr : m.isRemote = true) :
    (st.heard m word).hasLoaded = false := by
  unfold heard
  split
  · rename_i reply hreply
    cases st with
    | connecting p | calling p =>
      cases hm
      cases reply with
      | error e => exact failure_not_loaded p e
      | ok _ => rfl
    | closing i c => cases hm; cases reply <;> rfl
    | ended _ | dead => cases hm
    | _ => cases hm; cases hr
  · rfl

end Station

namespace Lane

/-- A session that was loaded is ready, it was loaded once, and no load is under way. -/
structure Once {κ : Type} (l : Lane κ) : Prop where
  ready : ∀ t w st, l.units t = some (w, st) → st.hasLoaded = true → l.session.ready = true
  alone : ∀ t w st u v st', l.units t = some (w, st) → l.units u = some (v, st') → st.hasLoaded = true →
    st'.hasLoaded = true → t = u
  past : ∀ t w st u v st', l.units t = some (w, st) → l.units u = some (v, st') → st.hasLoaded = true →
    st'.isLoading = false

variable {κ : Type} {marks : Prop} {id : String} {locator : Locator} {past later : List (Note κ)}
  {l l' : Lane κ} {e : Note κ} {t u : Nat} {w v : Work} {st st' : Station κ} {d : Doing κ}

/-- The invariant holds after a step of one job that brings it to another station, if being under way
    and having loaded came about as they should. -/
theorem Once.put {l₁ : Lane κ} (h : l.Once) (hl : l.Sound) (hunits : l₁.units = l.units)
    (hready : l.session.ready = true → l₁.session.ready = true) (hu : l.units t = some (w, st))
    (hloading : st'.isLoading = true → st.isLoading = true ∨ st.isInside = true ∧
      st.hasLoaded = false ∧ l.session.ready = false)
    (hloaded : st'.hasLoaded = true → st.hasLoaded = true ∨ st.isLoading = true ∧
      l₁.session.ready = true) : (l₁.put t w st').Once := by
  have hold : ∀ {u v st₁}, (l₁.put t w st').units u = some (v, st₁) →
      (u = t ∧ st₁ = st') ∨ (u ≠ t ∧ l.units u = some (v, st₁)) := by
    intro u v st₁ h
    rcases put_cases h with ⟨rfl, -, rfl⟩ | ⟨hne, h⟩
    · exact .inl ⟨rfl, rfl⟩
    · exact .inr ⟨hne, hunits ▸ h⟩
  -- While this job was under way nobody had loaded.
  have hnone : st.isLoading = true → ∀ {u v st₁}, l.units u = some (v, st₁) → st₁.hasLoaded = false := by
    intro hload u v st₁ hv
    rw [Bool.eq_false_iff]
    intro hhas
    exact absurd hload (by simp [h.past u v st₁ t w st hv hu hhas])
  refine ⟨fun u v st₁ hv hhas => ?_, fun u v st₁ u' v' st₂ hv hv' hhas hhas' => ?_,
    fun u v st₁ u' v' st₂ hv hv' hhas => ?_⟩
  · rcases hold hv with ⟨rfl, rfl⟩ | ⟨-, hv⟩
    · rcases hloaded hhas with hhas | ⟨-, hr⟩
      · exact hready (h.ready _ _ _ hu hhas)
      · exact hr
    · exact hready (h.ready _ _ _ hv hhas)
  · rcases hold hv with ⟨hut, hst⟩ | ⟨hne, hx⟩ <;> rcases hold hv' with ⟨hut', hst'⟩ | ⟨hne', hx'⟩
    · exact hut.trans hut'.symm
    · rcases hloaded (hst ▸ hhas) with hhas | ⟨hload, -⟩
      · exact hut.trans (h.alone _ _ _ _ _ _ hu hx' hhas hhas')
      · exact absurd hhas' (by simp [hnone hload hx'])
    · rcases hloaded (hst' ▸ hhas') with hhas' | ⟨hload, -⟩
      · exact (h.alone _ _ _ _ _ _ hx hu hhas hhas').trans hut'.symm
      · exact absurd hhas (by simp [hnone hload hx])
    · exact h.alone _ _ _ _ _ _ hx hx' hhas hhas'
  · rw [Bool.eq_false_iff]
    intro hload
    rcases hold hv with ⟨hut, hst⟩ | ⟨hne, hx⟩ <;> rcases hold hv' with ⟨hut', hst'⟩ | ⟨hne', hx'⟩
    · rw [hst', Station.not_loading_of_loaded (hst ▸ hhas)] at hload
      cases hload
    · rcases hloaded (hst ▸ hhas) with hhas | ⟨hload', -⟩
      · exact absurd hload (by simp [h.past _ _ _ _ _ _ hu hx' hhas])
      · exact hne' (hl.queued.eq_of_inside hx' (Station.inside_of_loading hload) hu
          (Station.inside_of_loading hload'))
    · rcases hloading (hst' ▸ hload) with hload | ⟨hin, -, hr⟩
      · exact absurd hhas (by simp [hnone hload hx])
      · exact absurd (h.ready _ _ _ hx hhas) (by simp [hr])
    · exact absurd hload (by simp [h.past _ _ _ _ _ _ hx hx' hhas])

theorem Once.step (h : l.Once) (hl : l.Sound) (hstep : Step l e l') : l'.Once := by
  cases hstep with
  | @arrive t w hw ht =>
    have hold : ∀ {u v st}, (l.put t w (.waiting w)).units u = some (v, st) →
        st = .waiting w ∨ l.units u = some (v, st) := by
      intro u v st hu
      rcases put_cases hu with ⟨-, -, rfl⟩ | ⟨-, hu⟩
      · exact .inl rfl
      · exact .inr hu
    refine ⟨fun u v st hu hhas => ?_, fun u v st u' v' st' hu hu' hhas hhas' => ?_,
      fun u v st u' v' st' hu hu' hhas => ?_⟩
    · rcases hold hu with rfl | hu
      · cases hhas
      · exact h.ready _ _ _ hu hhas
    · rcases hold hu with rfl | hu
      · cases hhas
      rcases hold hu' with rfl | hu'
      · cases hhas'
      exact h.alone _ _ _ _ _ _ hu hu' hhas hhas'
    · rcases hold hu with rfl | hu
      · cases hhas
      rcases hold hu' with rfl | hu'
      · rfl
      exact h.past _ _ _ _ _ _ hu hu' hhas
  | queue _ _ => exact ⟨h.ready, h.alone, h.past⟩
  | @move t w st m reply hu hm ho hline =>
    refine h.put hl rfl (Session.after_ready m t) hu (fun hload => ?_) fun hhas => ?_
    · rcases Station.loading_after hm ho hload with hload | ⟨⟨state, extra, check, rfl⟩, hr⟩
      · exact .inl hload
      · exact .inr ⟨rfl, rfl, hr⟩
    · rcases Station.loaded_after hm ho hhas with hhas | ⟨hload, rfl⟩
      · exact .inl hhas
      · exact .inr ⟨hload, rfl⟩
  | send _ _ _ _ => exact ⟨h.ready, h.alone, h.past⟩
  | @hear t w st m word hu hm hf hw =>
    refine h.put hl rfl (fun hr => (Session.hear_ready ..).trans hr) hu (fun hload => ?_) fun hhas => ?_
    · exact .inl (Station.loading_heard hm hw.isRemote hload)
    · rw [Station.loaded_heard hm hw.isRemote] at hhas
      cases hhas
  | yield _ _ => exact ⟨h.ready, h.alone, h.past⟩

theorem Steps.once (run : Steps marks l past l') (hl : l.Sound) (h : l.Once) : l'.Once := by
  induction run with
  | refl => exact h
  | step run hstep ih => exact ih.step (run.sound hl) hstep
  | mark _ _ ih => exact ⟨fun _ _ _ _ _ => rfl, ih.alone, ih.past⟩

theorem Run.once (run : Run marks id locator past l) : l.Once :=
  Steps.once run (Run.sound (.refl : Run marks id locator [] _)) ⟨fun _ _ _ h => (nomatch h),
    fun _ _ _ _ _ _ h => (nomatch h), fun _ _ _ _ _ _ h => (nomatch h)⟩

end Lane

/-! ### The first load and those after it -/

/-- Whether work yields that it loaded a state. -/
def Note.saysLoaded {κ : Type} : Note κ → Bool
  | .did _ (.yielded result) => SessionPool.saysLoaded result
  | _ => false

namespace Lane
variable {κ : Type} {marks : Prop} {id : String} {locator : Locator} {past later : List (Note κ)}
  {l l' : Lane κ} {t u : Nat} {w v : Work} {st : Station κ}

theorem Run.loaded_le_one (run : Run marks id locator past l) : past.countP Note.saysLoaded ≤ 1 := by
  induction run with
  | refl => exact Nat.zero_le _
  | @step past e l₁ l₂ run h ih =>
    rw [List.countP_append, List.countP_singleton]
    split
    · rename_i he
      have hnone : past.countP Note.saysLoaded = 0 := by
        rw [List.countP_eq_zero]
        intro e' he' hsays
        cases h with
        | @yield t w result hu htold =>
          cases e' with
          | arrived _ _ => cases hsays
          | did u d =>
            cases d with
            | yielded result' =>
              obtain ⟨⟨v, hv⟩, hvtold⟩ := Run.of_yielded run he'
              obtain rfl := (Run.once run).alone _ _ _ _ _ _ hv hu hsays he
              rw [hvtold] at htold
              cases htold
            | _ => cases hsays
        | _ => cases he
      omega
    · exact ih
  | mark _ _ ih => exact ih

/-- Who asks for a load is under way to load. -/
theorem loading_of_request {p : Fields} (hl : l.Sound) (hu : l.units u = some (v, st))
    (hm : st.move = some (.call loadScenario p)) : st.isLoading = true := by
  cases st with
  | calling p =>
    obtain ⟨hplain, hin⟩ := hl.works _ _ _ hu
    cases p with
    | use operation args =>
      cases v with
      | call operation' args' =>
        cases hin
        simp only [Station.move, Purpose.operation, Option.some.injEq, Move.call.injEq] at hm
        have hload : isLoad loadScenario = true := by decide
        rw [hm.1, Work.IsPlain, hload] at hplain
        cases hplain
      | load _ _ _ => rcases hin with h | ⟨-, _, h⟩ <;> cases h
      | release => exact hin.elim
    | load _ _ _ | echo _ _ => rfl
  | _ => cases hm

/-- Once a load has yielded that it loaded, nobody asks for a load. -/
theorem Run.no_load_after {result : Except PoolError Yield} {args : Fields}
    (run : Run marks id locator (past ++ .did t (.yielded result) :: later) l)
    (hr : saysLoaded result = true) : .did u (.sent (.call loadScenario args)) ∉ later := by
  intro hmem
  obtain ⟨between, after, rfl⟩ := List.append_of_mem hmem
  have hcons : past ++ Note.did t (.yielded result) ::
      (between ++ .did u (.sent (.call loadScenario args)) :: after) =
        (past ++ .did t (.yielded result) :: between) ++
          .did u (.sent (.call loadScenario args)) :: after := by
    simp
  rw [hcons] at run
  obtain ⟨l₁, v, st, run₁, hu, hm, -⟩ := Run.of_request run
  have hyielded : .did t (.yielded result) ∈ past ++ .did t (.yielded result) :: between :=
    List.mem_append_right _ (List.mem_cons_self ..)
  obtain ⟨⟨w, ht⟩, -⟩ := run₁.of_yielded hyielded
  have hload := loading_of_request run₁.sound hu hm
  rw [run₁.once.past _ _ _ _ _ _ ht hu hr] at hload
  cases hload

end Lane

/-- Whether a result says that the session was ready. -/
def saysReady : Except PoolError Yield → Bool
  | .ok (.outcome .alreadyInitialized) => true
  | _ => false

theorem eq_of_saysReady {result : Except PoolError Yield} (h : saysReady result = true) :
    result = .ok (.outcome .alreadyInitialized) := by
  unfold saysReady at h
  split at h
  · rfl
  · cases h

/-- Where a load stands that has found, or is to find, the session ready. -/
def Station.passes {κ : Type} : Station κ → Bool
  | checking _ _ _ => true
  | leaving result => saysReady result
  | ended result => saysReady result
  | _ => false

namespace Station
variable {κ : Type} {s : Session κ} {st : Station κ} {m : Move κ}

theorem passes_after {reply : m.Reply} (hp : st.passes = true) (hm : st.move = some m)
    (ho : m.own? s = some reply) (hr : s.ready = true) : (st.after m reply).passes = true := by
  cases st with
  | checking state extra check =>
    cases hm
    cases ho
    simp only [after, hr, if_true]
    rfl
  | leaving result => cases hm; exact hp
  | ended _ => cases hm
  | _ => cases hp

theorem own_of_passes (hp : st.passes = true) (hm : st.move = some m) : m.isRemote = false := by
  cases st with
  | checking _ _ _ | leaving _ => cases hm; rfl
  | ended _ => cases hm
  | _ => cases hp

theorem passes_closed : Lane.Closed (fun s : Session κ => s.ready = true) (fun st => st.passes = true) where
  after _ t m h := Session.after_ready m t h
  hear _ _ _ h := (Session.hear_ready ..).trans h
  mark _ _ := rfl
  own _ _ hp hm := own_of_passes hp hm
  moves _ _ _ _ hr hp hm ho := passes_after hp hm ho hr

end Station

namespace Lane
variable {κ : Type} {marks : Prop} {id : String} {locator : Locator} {past later : List (Note κ)}
  {l : Lane κ} {t u : Nat}

/-- A load that finds the session ready asks nobody. -/
abbrev Passing (l : Lane κ) (u : Nat) (v : Work) (past : List (Note κ)) : Prop :=
  Confined (fun s => s.ready = true) (fun st => st.passes = true) l u v past

/-- Once a load has yielded that it loaded, whichever load takes the lock passes. -/
theorem Run.passing {result : Except PoolError Yield} {state : Json} {extra : Fields} {check : Bool}
    (run : Run marks id locator (past ++ .did t (.yielded result) :: later) l)
    (hr : saysLoaded result = true)
    (hu : .arrived u (.load state extra check) ∈ past ++ .did t (.yielded result) :: later)
    (hlock : .did u (.moved .lock) ∈ later) :
    l.Passing u (.load state extra check) (past ++ .did t (.yielded result) :: later) := by
  refine Run.confined Station.passes_closed run (fun between l₁ _ _ run₁ _ _ => ?_) hu hlock rfl
  have hyielded : .did t (.yielded result) ∈ past ++ .did t (.yielded result) :: between :=
    List.mem_append_right _ (List.mem_cons_self ..)
  obtain ⟨⟨w, ht⟩, -⟩ := Run.of_yielded run₁ hyielded
  exact (Run.once run₁).ready _ _ _ ht hr

end Lane

/-- Whether work has found the session ready. -/
def Station.foundReady {κ : Type} : Station κ → Bool
  | leaving result => saysReady result
  | ended result => saysReady result
  | _ => false

namespace Station
variable {κ : Type} {s : Session κ} {st : Station κ} {m : Move κ} {w : Work}

theorem failure_not_ready (p : Purpose) (e : RemoteError) : saysReady (p.failure e) = false := by
  cases p <;> rfl

theorem found_after {reply : m.Reply} (hin : st.In w) (hm : st.move = some m) (ho : m.own? s = some reply)
    (h : (st.after m reply).foundReady = true) : st.foundReady = true ∨ s.ready = true := by
  cases st with
  | waiting w' => cases hm; cases w' <;> cases h
  | checking state extra check =>
    cases hm
    cases ho
    simp only [after] at h
    split at h
    · exact .inr ‹_›
    · cases h
  | looking p =>
    cases hm
    simp only [after] at h
    split at h
    · exact absurd h (by simp [foundReady, failure_not_ready])
    · split at h <;> cases h
  | logging p text =>
    cases hm
    cases p with
    | use operation args => cases h
    | load state extra check => cases check <;> cases h
    | echo state message =>
      simp only [after, served] at h
      split at h
      · cases h
      · rename_i hready
        cases ho : LoadOutcome.ofEcho state message text with
        | alreadyInitialized => exact absurd (by rw [ho]; rfl) hready
        | _ => simp [foundReady, ho, saysReady] at h
  | marking o =>
    cases hm
    obtain ⟨-, message, verified, rfl⟩ := hin
    cases h
  | leaving result => cases hm; exact .inl h
  | parting i client => cases hm; cases client <;> cases h
  | retiring | sealing _ => cases hm; cases h
  | connecting _ | calling _ | closing _ _ => cases hm; cases ho
  | ended _ | dead => cases hm

theorem found_heard {word : Word κ} (hm : st.move = some m) (hr : m.isRemote = true) :
    (st.heard m word).foundReady = false := by
  unfold heard
  split
  · rename_i reply hreply
    cases st with
    | connecting p | calling p =>
      cases hm
      cases reply with
      | error e => exact failure_not_ready p e
      | ok _ => rfl
    | closing i c => cases hm; cases reply <;> rfl
    | ended _ | dead => cases hm
    | _ => cases hm; cases hr
  · rfl

end Station

namespace Lane
variable {κ : Type} {marks : Prop} {id : String} {locator : Locator} {past : List (Note κ)}
  {l : Lane κ} {u : Nat} {v : Work} {st : Station κ}

/-- What some work has found ready is ready for good. -/
theorem Run.ready_of_found (run : Run marks id locator past l) (hu : l.units u = some (v, st))
    (h : st.foundReady = true) : l.session.ready = true := by
  induction run generalizing v st with
  | refl => cases hu
  | @step past e l₁ l₂ run hstep ih =>
    cases hstep with
    | arrive _ _ =>
      rcases put_cases hu with ⟨-, -, rfl⟩ | ⟨-, hu⟩
      · cases h
      · exact ih hu h
    | @move t w st' m reply ht hm ho _ =>
      refine Session.after_ready m t ?_
      rcases put_cases hu with ⟨rfl, rfl, rfl⟩ | ⟨-, hu⟩
      · rcases Station.found_after ((Run.sound run).works _ _ _ ht).2 hm ho h with h | h
        · exact ih ht h
        · exact h
      · exact ih hu h
    | hear ht hm _ hw =>
      refine (Session.hear_ready ..).trans ?_
      rcases put_cases hu with ⟨rfl, rfl, rfl⟩ | ⟨-, hu⟩
      · rw [Station.found_heard hm hw.isRemote] at h
        cases h
      · exact ih hu h
    | queue _ _ | send _ _ _ _ | yield _ _ => exact ih hu h
  | mark _ _ _ => rfl

end Lane

/-! ### The check of a load -/

/-- Whether the last request on the session is the load that the work asked for. -/
def Station.hasAsked {κ : Type} (flying : Bool) : Station κ → Bool
  | calling (.load _ _ _) => flying
  | logging (.load _ _ _) _ => true
  | looking (.echo _ _) => true
  | calling (.echo _ _) => !flying
  | _ => false

namespace Station
variable {κ : Type} {s : Session κ} {st : Station κ} {m : Move κ} {flying : Bool}

theorem inside_of_asked (h : st.hasAsked flying = true) : st.isInside = true := by
  cases st with
  | waiting _ | closing _ _ | ended _ | dead => cases h
  | _ => rfl

theorem open_of_asked (h : st.hasAsked flying = true) (hk : st.Knows s) : s.closed = false := by
  cases st with
  | calling p | logging p text => exact hk.1
  | looking p =>
    cases p with
    | echo _ _ => exact hk.1
    | _ => cases h
  | _ => cases h

theorem asked_after {reply : m.Reply} (hm : st.move = some m) (ho : m.own? s = some reply)
    (h : (st.after m reply).hasAsked false = true) : st.hasAsked false = true := by
  cases st with
  | waiting w => cases hm; cases w <;> cases h
  | checking state extra check =>
    cases hm
    simp only [after] at h
    split at h <;> cases h
  | looking p =>
    cases hm
    simp only [after] at h
    split at h
    · cases h
    · split at h
      · cases p <;> exact h
      · cases h
  | logging p text =>
    cases hm
    cases p with
    | use operation args => cases h
    | load state extra check => rfl
    | echo state message =>
      simp only [after, served] at h
      split at h <;> cases h
  | parting i client => cases hm; cases client <;> cases h
  | marking _ | leaving _ | retiring | sealing _ => cases hm; cases h
  | connecting _ | calling _ | closing _ _ => cases hm; cases ho
  | ended _ | dead => cases hm

theorem asked_heard {word : Word κ} (hk : st.Knows s) (hm : st.move = some m) (hr : m.isRemote = true)
    (h : (st.heard m word).hasAsked false = true) : st.hasAsked true = true := by
  unfold heard at h
  split at h
  · rename_i reply hreply
    cases st with
    | connecting p =>
      cases hm
      cases reply with
      | error e => cases h
      | ok _ =>
        cases p with
        | echo _ _ => exact hk.elim
        | use _ _ | load _ _ _ => cases h
    | calling p =>
      cases hm
      cases reply with
      | error e => cases h
      | ok _ => cases p <;> first | rfl | cases h
    | closing i c => cases hm; cases reply <;> cases h
    | ended _ | dead => cases hm
    | _ => cases hm; cases hr
  · cases h

end Station

namespace Lane
variable {κ : Type} {marks : Prop} {id : String} {locator : Locator} {past later : List (Note κ)}
  {l l' : Lane κ} {e : Note κ} {t u : Nat} {w v : Work} {st : Station κ}

/-- The last request is the load of some work. -/
def AskedLoad (past : List (Note κ)) (w : Work) (t : Nat) : Prop :=
  ∃ state extra check, w = .load state extra check ∧ (requests past).getLast? =
    some (t, .call loadScenario (Table.insert Arguments.scenarioKey state extra))

/-- A note that is no request does not change which was the last. -/
theorem AskedLoad.append (h : AskedLoad past w t) (he : e.request? = none) :
    AskedLoad (past ++ [e]) w t := by
  obtain ⟨state, extra, check, hw, hlast⟩ := h
  refine ⟨state, extra, check, hw, ?_⟩
  rw [requests_append, he]
  exact (congrArg List.getLast? (List.append_nil _)).trans hlast

/-- Between its load and the question for the state nobody but the loader has asked for anything. -/
theorem Run.asked (run : Run marks id locator past l) (hu : l.units u = some (v, st))
    (h : st.hasAsked (l.flying u) = true) : AskedLoad past v u := by
  induction run generalizing v st with
  | refl => cases hu
  | @step past e l₁ l₂ run hstep ih =>
    have hsound : l₁.Sound := Run.sound run
    cases hstep with
    | arrive hw ht =>
      rcases put_cases hu with ⟨-, -, rfl⟩ | ⟨-, hu⟩
      · cases h
      · exact (ih hu h).append rfl
    | queue _ _ => exact (ih hu h).append rfl
    | @move t w st' m reply ht hm ho _ =>
      have hf := hsound.not_flying ht hm (Move.isRemote_of_own ho)
      rcases put_cases hu with ⟨rfl, rfl, rfl⟩ | ⟨-, hu⟩
      · have h : (st'.after m reply).hasAsked (l₁.flying u) = true := h
        rw [hf] at h
        exact (ih ht (hf.symm ▸ Station.asked_after hm ho h)).append rfl
      · exact (ih hu h).append rfl
    | @send t w st' m ht hm hr hf =>
      by_cases hut : u = t
      · -- The work itself asks: for the load, or for the state after it.
        subst hut
        rw [show l₁.units u = _ from hu, Option.some.injEq, Prod.mk.injEq] at ht
        obtain ⟨rfl, rfl⟩ := ht
        have h : st.hasAsked (Function.update l₁.flying u true u) = true := h
        rw [Function.update_self] at h
        cases st with
        | calling p =>
          cases p with
          | load state extra check =>
            cases hm
            have hin := (hsound.works _ _ _ hu).2
            cases v with
            | load state' extra' check' =>
              rcases hin with hin | ⟨-, _, hin⟩ <;> cases hin
              refine ⟨state, extra, check, rfl, ?_⟩
              rw [requests_append]
              exact List.getLast?_concat
            | call _ _ => cases hin
            | release => exact hin.elim
          | _ => cases h
        | connecting _ | closing _ _ => cases h
        | ended _ | dead => cases hm
        | _ => cases hm; cases hr
      · -- Nobody else can: who is outside has nothing to ask of an open session.
        have h : st.hasAsked (Function.update l₁.flying t true u) = true := h
        rw [Function.update_of_ne hut] at h
        have hopen := Station.open_of_asked h (hsound.knows _ _ _ hu)
        have hout := hsound.outside_of_ne hu (Station.inside_of_asked h) ht (Ne.symm hut)
        have hknows := hsound.knows _ _ _ ht
        cases st' with
        | closing i c => exact absurd hknows.2 (by simp [hopen])
        | waiting _ => cases hm; cases hr
        | ended _ | dead => cases hm
        | _ => cases hout
    | @hear t w st' m word ht hm hf hw =>
      rcases put_cases hu with ⟨rfl, rfl, rfl⟩ | ⟨hne, hu⟩
      · have h : (st'.heard m word).hasAsked (Function.update l₁.flying u false u) = true := h
        rw [Function.update_self] at h
        exact (ih ht (hf.symm ▸ Station.asked_heard (hsound.knows _ _ _ ht) hm hw.isRemote h)).append rfl
      · have h : st.hasAsked (Function.update l₁.flying t false u) = true := h
        rw [Function.update_of_ne hne] at h
        exact (ih hu h).append rfl
    | yield _ _ => exact (ih hu h).append rfl
  | mark _ _ ih => exact ih hu h

/-- A load asks for the state only if it is to check it, and then right after its load. -/
theorem Run.check_follows_load {state : Json} {extra args : Fields} {check : Bool}
    (run : Run marks id locator (past ++ .did u (.sent (.call saveScenario args)) :: later) l)
    (hu : .arrived u (.load state extra check) ∈ past ++ .did u (.sent (.call saveScenario args)) :: later) :
    check = true ∧ (requests past).getLast? =
      some (u, .call loadScenario (Table.insert Arguments.scenarioKey state extra)) := by
  obtain ⟨st, hu⟩ := run.arrived_iff.1 hu
  obtain ⟨l₁, l₂, run₁, hstep, run₂⟩ := Steps.split_step run
  cases hstep with
  | @send t w st' m ht hm hr hf =>
    obtain ⟨st₂, h₂⟩ := run₂.units_of_some ht
    rw [hu, Option.some.injEq, Prod.mk.injEq] at h₂
    obtain ⟨rfl, -⟩ := h₂
    cases st' with
    | calling p =>
      rcases (Run.sound run₁).works _ _ _ ht |>.2 with rfl | ⟨rfl, message, rfl⟩
      · simp only [Station.move, Option.some.injEq, Move.call.injEq] at hm
        have hne : loadScenario ≠ saveScenario := by decide
        exact absurd hm.1 hne
      · obtain ⟨_, _, _, hw, hlast⟩ := Run.asked run₁ ht (by simp [Station.hasAsked, hf])
        cases hw
        exact ⟨rfl, hlast⟩
    | _ => cases hm

/-- Only loads ask for loads, and each just for its own. -/
theorem Run.load_of_request {operation : String} {args : Fields} (run : Run marks id locator past l)
    (h : .did u (.sent (.call operation args)) ∈ past) (hop : isLoad operation = true) :
    operation = loadScenario ∧ ∃ state extra check, .arrived u (.load state extra check) ∈ past ∧
      args = Table.insert Arguments.scenarioKey state extra := by
  obtain ⟨before, after, rfl⟩ := List.append_of_mem h
  obtain ⟨l₁, w, st, run₁, hu, hm, -⟩ := Run.of_request run
  obtain ⟨hplain, hin⟩ := (Run.sound run₁).works _ _ _ hu
  have harrived : .arrived u w ∈ before := (Run.arrived_iff run₁).2 ⟨st, hu⟩
  cases st with
  | calling p =>
    simp only [Station.move, Option.some.injEq, Move.call.injEq] at hm
    obtain ⟨rfl, rfl⟩ := hm
    cases w with
    | call operation args =>
      cases hin
      rw [Work.IsPlain] at hplain
      rw [Purpose.operation, hplain] at hop
      cases hop
    | load state extra check =>
      rcases hin with rfl | ⟨-, message, rfl⟩
      · exact ⟨rfl, state, extra, check, List.mem_append_left _ harrived, rfl⟩
      · have hsave : isLoad saveScenario = false := by decide
        rw [Purpose.operation, hsave] at hop
        cases hop
    | release => exact hin.elim
  | _ => cases hm

end Lane
/-! ### Loads in an interleaving -/

namespace Scene
variable {ρ κ : Type}

/-- What holds of the loads on a session, from what happened on it. -/
structure LoadsOnce (S : Scene ρ κ) (past : List (Note κ)) : Prop where
  /-- At most one load loads. -/
  once : past.countP Note.saysLoaded ≤ 1
  /-- Once one has loaded, no load is asked for. -/
  final : ∀ before t result after, past = before ++ .did t (.yielded result) :: after →
    saysLoaded result = true → ∀ u args, .did u (.sent (.call loadScenario args)) ∉ after
  /-- Once one has loaded, whichever load takes the lock finds the session ready, and asks for nothing. -/
  later : ∀ before t result after, past = before ++ .did t (.yielded result) :: after →
    saysLoaded result = true → ∀ u state extra check, .arrived u (.load state extra check) ∈ past →
    .did u (.moved .lock) ∈ after →
    (∀ m, .did u (.sent m) ∉ past) ∧ S.Gives u (.ok (.outcome .alreadyInitialized)) ∧
      ∀ result, .did u (.yielded result) ∈ past → result = .ok (.outcome .alreadyInitialized)
  /-- A load asks for the state only to check it, and nothing is asked for between the two. -/
  checked : ∀ before u args after, past = before ++ .did u (.sent (.call saveScenario args)) :: after →
    ∀ state extra check, .arrived u (.load state extra check) ∈ past →
    check = true ∧ (requests before).getLast? =
      some (u, .call loadScenario (Table.insert Arguments.scenarioKey state extra))
  /-- Whatever is asked for by a name that loads is the load of a loader. -/
  loaders : ∀ u operation args, .did u (.sent (.call operation args)) ∈ past → isLoad operation = true →
    operation = loadScenario ∧ ∃ state extra check, .arrived u (.load state extra check) ∈ past ∧
      args = Table.insert Arguments.scenarioKey state extra

variable {r : Remote ρ κ} {c : Catalog} {o : Options} {remote : ρ} {past : List (Event κ)}
  {S : Scene ρ κ} {n t u : Nat} {l : Lane κ}

theorem HasLane.gives_of_passing {notes : List (Note κ)} (h : S.HasLane c n notes l) {v : Work}
    (hp : l.Passing u v notes) : S.Gives u (.ok (.outcome .alreadyInitialized)) := by
  obtain ⟨st, hu, hpass⟩ := hp.stands
  refine h.gives hu (by rintro rfl; cases hpass) (fun result hst => ?_) fun r p hfollows => ?_
  · subst hst
    exact eq_of_saysReady hpass
  · cases st with
    | checking state extra check =>
      obtain ⟨rest, hrest, hprogress, hstate⟩ :=
        Shared.advance_own (r := r) (t := u) h.session hfollows rfl rfl nofun
      rw [hprogress, hstate]
      have hready : l.session.ready = true := hp.lasts
      simp only [Station.after, hready, if_true] at hrest
      exact Shared.advance_leaving (Shared.own_session h.session u .look) hrest
    | leaving result =>
      obtain rfl := eq_of_saysReady hpass
      exact Shared.advance_leaving h.session hfollows
    | ended result =>
      obtain rfl := eq_of_saysReady hpass
      exact Shared.advance_ended hfollows
    | _ => cases hpass

/-- In any interleaving of callers and jobs, with any servers, each session is loaded at most once. -/
theorem Run.loadsOnce (run : Run r c o remote past S) (n : Nat) : S.LoadsOnce (notes n past) := by
  have k := run.kept
  rcases Nat.lt_or_ge n S.sessions.length with hn | hn
  · obtain ⟨l, hl⟩ := k.lanes n hn
    have hrun := hl.run
    refine ⟨hrun.loaded_le_one, fun before t result after hpast hr u args => ?_,
      fun before t result after hpast hr u state extra check hu hlock => ?_,
      fun before u args after hpast state extra check hu => ?_,
      fun u operation args hmem hop => hrun.load_of_request hmem hop⟩
    · exact Lane.Run.no_load_after (hpast ▸ hrun) hr
    · have hpass : l.Passing u (.load state extra check) (notes n past) := by
        rw [hpast]
        exact Lane.Run.passing (hpast ▸ hrun) hr (hpast ▸ hu) hlock
      exact ⟨hpass.silent, hl.gives_of_passing hpass,
        fun result hmem => eq_of_saysReady (hpass.yields result hmem)⟩
    · exact Lane.Run.check_follows_load (hpast ▸ hrun) (hpast ▸ hu)
  · rw [k.silent n hn]
    refine ⟨Nat.zero_le _, fun before t result after h => ?_, fun before t result after h => ?_,
      fun before u args after h => ?_, fun u operation args h => (nomatch h)⟩ <;>
      simp at h

/-- Two callers load a session at once, and both load it with a check; the second stands in line
    meanwhile. -/
def rivals : List (Choice Unit) :=
  [.come (.load "game" (.bool true) [] true), .come (.load "game" (.bool true) [] true),
    .ask 0, .ask 1, .ask 0, .ask 1, .read, .read, .go 0, .go 1] ++
    List.replicate 14 (.go 0) ++ List.replicate 4 (.go 1)

theorem loadsOnce_rivals : ∃ past S, play obliging rivals ([], quiet) = some (past, S) ∧
    (notes 0 past).countP Note.saysLoaded = 1 ∧ S.LoadsOnce (notes 0 past) := by
  have hplay : (play obliging rivals ([], quiet)).map
      (fun x => (notes 0 x.1).countP Note.saysLoaded) = some 1 := by decide
  obtain ⟨⟨past, S⟩, hplay, hcount⟩ := Option.map_eq_some_iff.1 hplay
  exact ⟨past, S, hplay, hcount, Run.loadsOnce (run_of_play hplay .start) 0⟩

end Scene
end SessionPool
