import SessionPool.Proofs.Lane

/-! Histories: what the notes of a lane tell of its state. Work is there once it has arrived, it has its
    result once it has yielded it, which happens once, and until it has the session it has done nothing
    but stand in line. -/

namespace SessionPool

/-- A move that asks the server, and who makes it. -/
def Note.request? {κ : Type} : Note κ → Option (Nat × Move κ)
  | .did t (.sent m) => some (t, m)
  | _ => none

/-- The moves that asked the server, in order. -/
def requests {κ : Type} (past : List (Note κ)) : List (Nat × Move κ) := past.filterMap Note.request?

theorem requests_append {κ : Type} (past : List (Note κ)) (e : Note κ) :
    requests (past ++ [e]) = requests past ++ e.request?.toList := by
  rw [requests, List.filterMap_append]
  cases h : e.request? <;> simp [h, requests]

theorem mem_requests {κ : Type} {past : List (Note κ)} {t : Nat} {m : Move κ} :
    (t, m) ∈ requests past ↔ .did t (.sent m) ∈ past := by
  rw [requests, List.mem_filterMap]
  constructor
  · rintro ⟨e, he, hreq⟩
    cases e with
    | arrived _ _ => cases hreq
    | did u d =>
      cases d with
      | sent m' => cases hreq; exact he
      | _ => cases hreq
  · exact fun h => ⟨_, h, rfl⟩

namespace Lane
variable {κ : Type} {marks : Prop} {id : String} {locator : Locator} {past later : List (Note κ)}
  {l l' : Lane κ} {e : Note κ} {t u : Nat} {w v : Work} {st st' : Station κ} {d : Doing κ}

/-- What a step adds to the work: work that arrives, or a station of work that was there. -/
theorem Step.units_cases (h : Step l e l') (hu : l'.units u = some (v, st')) :
    e = .arrived u v ∧ st' = .waiting v ∧ l.units u = none ∨ ∃ st, l.units u = some (v, st) := by
  cases h with
  | @arrive t w hw ht =>
    rcases put_cases hu with ⟨rfl, rfl, rfl⟩ | ⟨-, hu⟩
    · exact .inl ⟨rfl, rfl, units_of_arrive ht⟩
    · exact .inr ⟨st', hu⟩
  | move hu' _ _ _ | hear hu' _ _ _ =>
    rcases put_cases hu with ⟨rfl, rfl, -⟩ | ⟨-, hu⟩
    · exact .inr ⟨_, hu'⟩
    · exact .inr ⟨st', hu⟩
  | queue _ _ | send _ _ _ _ | yield _ _ => exact .inr ⟨st', hu⟩

/-- Work is there once it has arrived. -/
theorem Run.arrived_iff (run : Run marks id locator past l) :
    .arrived u v ∈ past ↔ ∃ st, l.units u = some (v, st) := by
  induction run with
  | refl => exact ⟨fun h => (nomatch h), fun ⟨_, h⟩ => (nomatch h)⟩
  | @step past e l₁ l₂ run h ih =>
    rw [List.mem_append, List.mem_singleton]
    constructor
    · rintro (hmem | rfl)
      · obtain ⟨st, hu⟩ := ih.1 hmem
        exact h.units_of_some hu
      · cases h
        exact ⟨_, put_self ..⟩
    · rintro ⟨st, hu⟩
      rcases h.units_cases hu with ⟨rfl, -, -⟩ | hold
      · exact .inr rfl
      · exact .inl (ih.2 hold)
  | mark _ _ ih => exact ih

/-- Work that has ended stays so. -/
theorem Step.ended {result : Except PoolError Yield} (h : Step l e l')
    (hu : l.units u = some (v, .ended result)) : l'.units u = some (v, .ended result) := by
  have hne : ∀ {t w st m}, l.units t = some (w, st) → st.move = some m → u ≠ t := by
    rintro t w st m ht hm rfl
    rw [hu] at ht
    cases ht
    cases hm
  cases h with
  | arrive _ ht =>
    have hlt := ht u _ hu
    exact (put_of_ne l (Nat.ne_of_lt hlt)).trans hu
  | move ht hm _ _ => exact (put_of_ne _ (hne ht hm)).trans hu
  | hear ht hm _ _ => exact (put_of_ne _ (hne ht hm)).trans hu
  | queue _ _ | send _ _ _ _ | yield _ _ => exact hu

/-- Given results stay given. -/
theorem Step.told (h : Step l e l') (hu : l.told u = true) : l'.told u = true := by
  cases h with
  | @yield t w result _ _ =>
    by_cases hut : u = t
    · exact hut ▸ Function.update_self ..
    · exact (Function.update_of_ne hut ..).trans hu
  | arrive _ _ | queue _ _ | move _ _ _ _ | send _ _ _ _ | hear _ _ _ _ => exact hu

/-- Work that has yielded a result has ended with it. -/
theorem Run.of_yielded {result : Except PoolError Yield} (run : Run marks id locator past l)
    (h : .did u (.yielded result) ∈ past) :
    (∃ v, l.units u = some (v, .ended result)) ∧ l.told u = true := by
  induction run with
  | refl => cases h
  | @step past e l₁ l₂ run hstep ih =>
    rcases List.mem_append.1 h with h | h
    · obtain ⟨⟨v, hu⟩, htold⟩ := ih h
      exact ⟨⟨v, hstep.ended hu⟩, hstep.told htold⟩
    · rw [List.mem_singleton] at h
      subst h
      cases hstep with
      | yield hu _ => exact ⟨⟨_, hu⟩, Function.update_self ..⟩
  | mark _ _ ih => exact ih h

/-- Who makes a request stands where it is made. -/
theorem Run.of_request {m : Move κ} (run : Run marks id locator (past ++ .did t (.sent m) :: later) l) :
    ∃ l₁ w st, Run marks id locator past l₁ ∧ l₁.units t = some (w, st) ∧ st.move = some m ∧
      m.isRemote = true ∧ l₁.flying t = false := by
  obtain ⟨l₁, l₂, run₁, h, -⟩ := Steps.split_step run
  cases h with
  | send hu hm hr hf => exact ⟨l₁, _, _, run₁, hu, hm, hr, hf⟩

/-- The lane after which work has done something. -/
theorem Step.units_of_did (h : Step l (.did t d) l') : ∃ w st, l.units t = some (w, st) := by
  cases h with
  | queue hu _ | move hu _ _ _ | send hu _ _ _ | hear hu _ _ _ | yield hu _ => exact ⟨_, _, hu⟩

/-- Work has arrived before it does anything. -/
theorem Run.arrived_before (run : Run marks id locator (past ++ .did t d :: later) l)
    (hu : .arrived t v ∈ past ++ .did t d :: later) : .arrived t v ∈ past := by
  obtain ⟨st, hu⟩ := run.arrived_iff.1 hu
  obtain ⟨l₁, l₂, run₁, hstep, run₂⟩ := Steps.split_step run
  obtain ⟨w, st₁, h₁⟩ := hstep.units_of_did
  obtain ⟨st₂, h₂⟩ := hstep.units_of_some h₁
  obtain ⟨st₃, h₃⟩ := run₂.units_of_some h₂
  rw [hu, Option.some.injEq, Prod.mk.injEq] at h₃
  exact (Run.arrived_iff run₁).2 ⟨st₁, h₃.1 ▸ h₁⟩

theorem Run.session_id (run : Run marks id locator past l) : l.session.id = id := by
  induction run with
  | refl => rfl
  | step _ h ih => exact h.session_names.1.trans ih
  | mark _ _ ih => exact ih

/-- Who has done something is there. -/
theorem Run.units_of_past (run : Run marks id locator past l) (hd : .did u d ∈ past) :
    ∃ w st, l.units u = some (w, st) := by
  obtain ⟨before, after, rfl⟩ := List.append_of_mem hd
  obtain ⟨l₁, l₂, -, hstep, hrest⟩ := Steps.split_step run
  obtain ⟨w, st, h₁⟩ := hstep.units_of_did
  obtain ⟨st', h₂⟩ := hstep.units_of_some h₁
  exact ⟨w, hrest.units_of_some h₂⟩

/-- Work that waits has done nothing but stand in line. -/
theorem Run.of_waiting {w' : Work} (run : Run marks id locator past l)
    (hu : l.units u = some (v, .waiting w')) (hd : .did u d ∈ past) : d = .queued := by
  induction run with
  | refl => cases hd
  | @step past e l₁ l₂ run h ih =>
    rcases List.mem_append.1 hd with hd | hd
    · have hthere := Run.units_of_past run hd
      refine ih ?_ hd
      cases h with
      | arrive _ ht =>
        rcases put_cases hu with ⟨rfl, -, -⟩ | ⟨-, hu⟩
        · obtain ⟨w, st, h₁⟩ := hthere
          rw [units_of_arrive ht] at h₁
          cases h₁
        · exact hu
      | move _ hm _ _ =>
        rcases put_cases hu with ⟨-, -, hst⟩ | ⟨-, hu⟩
        · exact absurd hst.symm (Station.after_ne_waiting hm _ w')
        · exact hu
      | hear _ hm _ _ =>
        rcases put_cases hu with ⟨-, -, hst⟩ | ⟨-, hu⟩
        · exact absurd hst.symm (Station.heard_ne_waiting hm _ w')
        · exact hu
      | queue _ _ | send _ _ _ _ | yield _ _ => exact hu
    · -- Whatever else it does leads away from the end of the line.
      rw [List.mem_singleton] at hd
      subst hd
      cases h with
      | queue _ _ => rfl
      | send ht hm hr _ =>
        rw [show l₁.units u = _ from hu, Option.some.injEq, Prod.mk.injEq] at ht
        rw [← ht.2] at hm
        cases hm
        cases hr
      | yield ht _ =>
        rw [show l₁.units u = _ from hu] at ht
        cases ht
      | move _ hm _ _ =>
        rw [put_self, Option.some.injEq, Prod.mk.injEq] at hu
        exact absurd hu.2 (Station.after_ne_waiting hm _ w')
      | hear _ hm _ _ =>
        rw [put_self, Option.some.injEq, Prod.mk.injEq] at hu
        exact absurd hu.2 (Station.heard_ne_waiting hm _ w')
  | mark _ _ ih => exact ih hu hd

/-- A property of sessions that lasts, and stations that lead only to one another, by moves that ask no
    server, while the property holds. -/
structure Closed (P : Session κ → Prop) (Q : Station κ → Prop) : Prop where
  after : ∀ s t m, P s → P (s.after t m)
  hear : ∀ s t word, P s → P (s.hear t word)
  mark : ∀ s, P s → P { s with ready := true }
  own : ∀ st m, Q st → st.move = some m → m.isRemote = false
  moves : ∀ s st m reply, P s → Q st → st.move = some m → m.own? s = some reply → Q (st.after m reply)

/-- Work that stands at one of some stations, has asked no server, and has ended at no other. -/
structure Confined (P : Session κ → Prop) (Q : Station κ → Prop) (l : Lane κ) (u : Nat) (v : Work)
    (past : List (Note κ)) : Prop where
  lasts : P l.session
  stands : ∃ st, l.units u = some (v, st) ∧ Q st
  silent : ∀ m, .did u (.sent m) ∉ past
  yields : ∀ result, .did u (.yielded result) ∈ past → Q (.ended result)

variable {P : Session κ → Prop} {Q : Station κ → Prop}

theorem Confined.step (hc : Closed P Q) (h : Confined P Q l u v past) (hstep : Step l e l') :
    Confined P Q l' u v (past ++ [e]) := by
  obtain ⟨st, hu, hq⟩ := h.stands
  have hsilent : (∀ m, e ≠ .did u (.sent m)) → ∀ m, .did u (.sent m) ∉ past ++ [e] := by
    intro he m hmem
    rcases List.mem_append.1 hmem with hmem | hmem
    · exact h.silent m hmem
    · exact he m (List.mem_singleton.1 hmem).symm
  have hyields : (∀ result, e = .did u (.yielded result) → Q (.ended result)) →
      ∀ result, .did u (.yielded result) ∈ past ++ [e] → Q (.ended result) := by
    intro he result hmem
    rcases List.mem_append.1 hmem with hmem | hmem
    · exact h.yields result hmem
    · exact he result (List.mem_singleton.1 hmem).symm
  cases hstep with
  | arrive _ ht =>
    have hne : u ≠ _ := Nat.ne_of_lt (ht u _ hu)
    exact ⟨h.lasts, ⟨st, (put_of_ne l hne).trans hu, hq⟩, hsilent nofun, hyields nofun⟩
  | queue _ _ => exact ⟨hc.after _ _ .lock h.lasts, ⟨st, hu, hq⟩, hsilent nofun, hyields nofun⟩
  | @move t w st' m reply ht hm ho _ =>
    refine ⟨hc.after _ t m h.lasts, ?_, hsilent nofun, hyields nofun⟩
    by_cases hut : u = t
    · subst hut
      rw [ht, Option.some.injEq, Prod.mk.injEq] at hu
      obtain ⟨rfl, rfl⟩ := hu
      exact ⟨_, put_self .., hc.moves _ _ _ _ h.lasts hq hm ho⟩
    · exact ⟨st, (put_of_ne _ hut).trans hu, hq⟩
  | @send t w st' m ht hm hr _ =>
    refine ⟨h.lasts, ⟨st, hu, hq⟩, hsilent fun m' he => ?_, hyields nofun⟩
    cases he
    rw [ht, Option.some.injEq, Prod.mk.injEq] at hu
    rw [hc.own _ _ (hu.2 ▸ hq) hm] at hr
    cases hr
  | @hear t w st' m word ht hm _ hw =>
    refine ⟨hc.hear _ t word h.lasts, ⟨st, ?_, hq⟩, hsilent nofun, hyields nofun⟩
    refine (put_of_ne _ ?_).trans hu
    rintro rfl
    rw [ht, Option.some.injEq, Prod.mk.injEq] at hu
    have hr := hw.isRemote
    rw [hc.own _ _ (hu.2 ▸ hq) hm] at hr
    cases hr
  | @yield t w result ht _ =>
    refine ⟨h.lasts, ⟨st, hu, hq⟩, hsilent nofun, hyields fun result' he => ?_⟩
    cases he
    rw [ht, Option.some.injEq, Prod.mk.injEq] at hu
    exact hu.2 ▸ hq

theorem Steps.confined (hc : Closed P Q) (run : Steps marks l later l') (h : Confined P Q l u v past) :
    Confined P Q l' u v (past ++ later) := by
  induction run with
  | refl => rwa [List.append_nil]
  | step _ hstep ih => exact List.append_assoc .. ▸ ih.step hc hstep
  | mark _ _ ih => exact ⟨hc.mark _ ih.lasts, ih.stands, ih.silent, ih.yields⟩

/-- Work that takes the lock is confined from then on to where its first station is in. -/
theorem Step.confined_of_lock (h : Step l (.did u (.moved .lock)) l') (run : Run marks id locator past l)
    (hl : P l.session) (hc : Closed P Q) (hu : l.units u = some (v, st)) (hq : Q (.entered v)) :
    Confined P Q l' u v (past ++ [.did u (.moved .lock)]) := by
  cases h with
  | @move t w st' m reply ht hm ho _ =>
    rw [hu, Option.some.injEq, Prod.mk.injEq] at ht
    obtain ⟨rfl, rfl⟩ := ht
    obtain ⟨w', rfl⟩ := Station.waiting_of_lock hm
    obtain rfl : w' = v := (run.sound.works _ _ _ hu).2
    refine ⟨hc.after _ u .lock hl, ⟨_, put_self .., hq⟩, fun m hmem => ?_, fun result hmem => ?_⟩
    · rcases List.mem_append.1 hmem with hmem | hmem
      · cases run.of_waiting hu hmem
      · cases List.mem_singleton.1 hmem
    · rcases List.mem_append.1 hmem with hmem | hmem
      · cases run.of_waiting hu hmem
      · cases List.mem_singleton.1 hmem

/-- Whatever work takes the lock after something is confined, if the session is then as it should be. -/
theorem Run.confined (hc : Closed P Q) (run : Run marks id locator (past ++ e :: later) l)
    (hP : ∀ between l₁ l₂ st, Run marks id locator (past ++ e :: between) l₁ →
      l₁.units u = some (v, st) → Step l₁ (.did u (.moved .lock)) l₂ → P l₁.session)
    (hu : .arrived u v ∈ past ++ e :: later) (hlock : .did u (.moved .lock) ∈ later)
    (hq : Q (.entered v)) : Confined P Q l u v (past ++ e :: later) := by
  obtain ⟨between, after, rfl⟩ := List.append_of_mem hlock
  obtain ⟨st, hu⟩ := run.arrived_iff.1 hu
  have hcons : past ++ e :: (between ++ .did u (.moved .lock) :: after) =
      (past ++ e :: between) ++ .did u (.moved .lock) :: after := by simp
  rw [hcons] at run ⊢
  obtain ⟨l₁, l₂, run₁, hstep, run₂⟩ := Steps.split_step run
  obtain ⟨v', st₁, h₁⟩ := hstep.units_of_did
  obtain ⟨st₂, h₂⟩ := hstep.units_of_some h₁
  obtain ⟨st₃, h₃⟩ := run₂.units_of_some h₂
  rw [hu, Option.some.injEq, Prod.mk.injEq] at h₃
  obtain rfl := h₃.1
  have hfirst := hstep.confined_of_lock run₁ (hP _ _ _ _ run₁ h₁ hstep) hc h₁ hq
  rw [List.append_cons]
  exact run₂.confined hc hfirst

end Lane
end SessionPool
