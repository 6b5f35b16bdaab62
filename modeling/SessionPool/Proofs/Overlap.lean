import SessionPool.Proofs.Registry
import SessionPool.Proofs.Turns

/-! Overlap: the clients of sessions with one id. A session that is taken out of the registry makes room
    for a new one with its id at once; it is released after that, when the work that was sent for it
    before is over, and its client is closed last. Until then it is retiring, both sessions may have a
    client, and both clients may have a call in progress. Retiring sessions apart, there is at most one
    client for each id, and at most one call in progress. -/

namespace SessionPool

/-! ### Releases that are through -/

/-- Whether a move asks for the close of a client. -/
def Move.isClose {κ : Type} : Move κ → Bool
  | .close _ => true
  | _ => false

namespace Note
variable {κ : Type}

/-- Whether a release arrives. -/
def isRelease : Note κ → Bool
  | arrived _ .release => true
  | _ => false

/-- Whether the close of a client is answered. -/
def closed : Note κ → Bool
  | did _ (.heard m _) => m.isClose
  | _ => false

end Note

namespace Station
variable {κ : Type} {st : Station κ} {m : Move κ}

theorem client_of_holds {flying : Bool} (h : st.holds flying = true) : st.hasClient = true := by
  cases st with
  | parting _ _ => exact h
  | closing _ _ => rfl
  | _ => cases h

theorem client_of_close (hm : st.move = some m) (h : m.isClose = true) : st.hasClient = true := by
  cases st with
  | closing _ _ => rfl
  | ended _ | dead => cases hm
  | _ => cases hm; cases h

end Station

namespace Lane
variable {κ : Type} {marks : Prop} {id : String} {locator : Locator} {past : List (Note κ)} {l : Lane κ}
  {t : Nat} {w : Work} {st : Station κ}

theorem countP_closes (past : List (Note κ)) :
    past.countP Note.closes = (requests past).countP (·.2.isClose) := by
  rw [requests, List.countP_filterMap]
  refine List.countP_congr fun e _ => ?_
  cases e with
  | arrived _ _ => simp [Note.closes, Note.request?]
  | did t d =>
    cases d with
    | sent m => cases m <;> simp [Note.closes, Note.request?, Move.isClose]
    | _ => simp [Note.closes, Note.request?]

theorem countP_closed (past : List (Note κ)) :
    past.countP Note.closed = (answers past).countP (·.2.1.isClose) := by
  rw [answers, List.countP_filterMap]
  refine List.countP_congr fun e _ => ?_
  cases e with
  | arrived _ _ => simp [Note.closed, Note.answer?]
  | did t d => cases d <;> simp [Note.closed, Note.answer?]

/-- A close is answered after it was asked for; only one that is under way is not answered. -/
theorem Run.closes_answered (run : Run marks id locator past l) : ∃ flight, l.Flight flight ∧
    past.countP Note.closes = past.countP Note.closed + flight.countP (·.2.isClose) := by
  obtain ⟨flight, hflight, heq⟩ := run.flight
  refine ⟨flight, hflight, ?_⟩
  rw [countP_closes, countP_closed, heq, List.countP_append, List.countP_map]
  rfl

/-- Work that holds a client, or asks for its close, is a release. -/
theorem Sound.release_of_closing (hl : l.Sound) (hu : l.units t = some (w, st)) (hst : st.hasClient = true) :
    w = .release := by
  have hin := (hl.works t w st hu).2
  cases st with
  | parting _ _ | closing _ _ => exact hin
  | _ => cases hst

/-- When a release of a session is through, the session is closed. -/
theorem Run.closed_of_yielded (run : Run marks id locator past l) (ht : .arrived t .release ∈ past)
    {result : Except PoolError Yield} (hy : .did t (.yielded result) ∈ past) :
    l.units t = some (.release, .ended result) ∧ l.session.closed = true := by
  obtain ⟨st, hu⟩ := run.arrived_iff.1 ht
  obtain ⟨⟨w, hended⟩, -⟩ := run.of_yielded hy
  rw [hu, Option.some.injEq, Prod.mk.injEq] at hended
  obtain ⟨-, rfl⟩ := hended
  exact ⟨hu, (run.sealed hu).2 rfl⟩

/-- When the only release of a session is through, its client is closed. -/
theorem Run.closed_of_released (run : Run marks id locator past l)
    (hone : ∀ u v, .arrived u .release ∈ past → .arrived v .release ∈ past → u = v)
    (ht : .arrived t .release ∈ past) {result : Except PoolError Yield} (hy : .did t (.yielded result) ∈ past) :
    past.countP Note.connects = past.countP Note.closed := by
  obtain ⟨hu, hclosed⟩ := run.closed_of_yielded ht hy
  -- Nobody else could have the client, and the release does not have it any more.
  have hnobody : ∀ u w st, l.units u = some (w, st) → ¬st.hasClient = true := by
    intro u w st hu' hclient
    obtain rfl := (Run.sound run).release_of_closing hu' hclient
    obtain rfl := hone u t (run.arrived_iff.2 ⟨st, hu'⟩) ht
    rw [hu, Option.some.injEq, Prod.mk.injEq] at hu'
    obtain ⟨-, rfl⟩ := hu'
    cases hclient
  have hbalance : past.countP Note.connects = past.countP Note.closes := by
    rcases (Run.balanced run).spent hclosed with ⟨heq, -⟩ | ⟨-, u, ⟨w, st, hu', hholds⟩, -⟩
    · exact heq
    · exact absurd (Station.client_of_holds hholds) (hnobody u w st hu')
  obtain ⟨flight, hflight, hanswered⟩ := run.closes_answered
  have hlanded : flight.countP (·.2.isClose) = 0 := by
    rw [List.countP_eq_zero]
    intro x hx hclose
    obtain ⟨-, w, st, hu', hm⟩ := hflight.flying x.1 x.2 hx
    exact absurd (Station.client_of_close hm hclose) (hnobody x.1 w st hu')
  omega

/-- Results that are given were yielded. -/
theorem Run.yielded_of_told (run : Run marks id locator past l) (ht : l.told t = true) :
    ∃ result, .did t (.yielded result) ∈ past := by
  induction run with
  | refl => cases ht
  | @step past e l₁ l₂ run h ih =>
    suffices l₁.told t = true ∨ ∃ result, e = .did t (.yielded result) by
      rcases this with ht | ⟨result, rfl⟩
      · obtain ⟨result, hmem⟩ := ih ht
        exact ⟨result, List.mem_append_left _ hmem⟩
      · exact ⟨result, List.mem_append_right _ (List.mem_singleton_self _)⟩
    cases h with
    | @yield u w result _ _ =>
      by_cases htu : t = u
      · exact .inr ⟨result, htu ▸ rfl⟩
      · exact .inl ((Function.update_of_ne htu ..).symm.trans ht)
    | arrive _ _ | queue _ _ | move _ _ _ _ | send _ _ _ _ | hear _ _ _ _ => exact .inl ht
  | mark _ _ ih => exact ih ht

end Lane

/-! ### Sessions that are retiring -/

section
variable {κ : Type} {past : List (Event κ)} {n t : Nat} {w : Work} {d : Doing κ}

theorem mem_notes_arrived : .arrived t w ∈ notes n past ↔ ∃ i, .asked i (.submit n w) (.ok t) ∈ past := by
  rw [notes, List.mem_filterMap]
  constructor
  · rintro ⟨e, he, hnote⟩
    unfold Event.note? at hnote
    split at hnote
    · split at hnote
      · subst_vars
        cases hnote
        exact ⟨_, he⟩
      · cases hnote
    · split at hnote <;> cases hnote
    · cases hnote
  · rintro ⟨i, he⟩
    exact ⟨_, he, if_pos rfl⟩

theorem mem_notes_did : .did t d ∈ notes n past ↔ .work n t d ∈ past := by
  rw [notes, List.mem_filterMap]
  constructor
  · rintro ⟨e, he, hnote⟩
    unfold Event.note? at hnote
    split at hnote
    · split at hnote <;> cases hnote
    · split at hnote
      · subst_vars
        cases hnote
        exact he
      · cases hnote
    · cases hnote
  · exact fun he => ⟨_, he, if_pos rfl⟩

theorem Event.count_released (e : Event κ) (n : Nat) :
    e.released.count n = (e.note? n).toList.countP Note.isRelease := by
  cases e with
  | asked i a reply =>
    cases a with
    | submit m w =>
      cases reply with
      | error e => cases w <;> rfl
      | ok t => by_cases h : m = n <;> cases w <;> simp [released, note?, Note.isRelease, h]
    | _ => rfl
  | work m t d => by_cases h : m = n <;> simp [released, note?, Note.isRelease, h]
  | _ => rfl

theorem count_releases (past : List (Event κ)) (n : Nat) :
    (releases past).count n = (notes n past).countP Note.isRelease := by
  induction past with
  | nil => rfl
  | cons e past ih =>
    rw [releases, List.flatMap_cons, List.count_append, e.count_released, notes, List.filterMap_cons]
    rw [releases, notes] at ih
    cases hnote : e.note? n with
    | none => simpa using ih
    | some note =>
      simp only [Option.toList, List.countP_cons, List.countP_nil, ih]
      omega

/-- Two that are counted among at most one are the same. -/
theorem eq_of_countP_le_one {α : Type} {p : α → Bool} {l : List α} (h : l.countP p ≤ 1) {a b : α} (ha : a ∈ l)
    (hb : b ∈ l) (hpa : p a = true) (hpb : p b = true) : a = b := by
  obtain ⟨before, after, rfl⟩ := List.append_of_mem ha
  rw [List.countP_append, List.countP_cons_of_pos hpa] at h
  rcases List.mem_append.1 hb with hb | hb
  · have := List.countP_pos_iff.2 ⟨b, hb, hpb⟩
    omega
  · rcases List.mem_cons.1 hb with rfl | hb
    · rfl
    · have := List.countP_pos_iff.2 ⟨b, hb, hpb⟩
      omega

end

/-- The sessions of which a client was closed. -/
def closings {κ : Type} (past : List (Event κ)) : List Nat := past.filterMap (Event.about? Note.closed)

/-- Whether a session has a client that was connected and was not closed. -/
def HasClient {κ : Type} (past : List (Event κ)) (n : Nat) : Prop :=
  (closings past).count n < (connections past).count n

/-- A session that was taken out of the registry, and of which no release is through. -/
structure Retiring {κ : Type} (past : List (Event κ)) (n : Nat) : Prop where
  removed : n ∈ removals past
  unfinished : ∀ i t result, .asked i (.submit n .release) (.ok t) ∈ past →
    .work n t (.yielded result) ∉ past

namespace Scene
variable {ρ κ : Type}

/-- The session on which a job waits for the answer to a call. -/
def calling? (S : Scene ρ κ) (t : Nat) : Option Nat :=
  if t ∈ S.flying then
    match S.jobs[t]? with
    | some (.pending (.act ⟨n, .call _ _⟩ _)) => some n
    | _ => none
  else none

/-- How clients and calls overlap. -/
structure Sole (S : Scene ρ κ) (past : List (Event κ)) : Prop where
  /-- No session gets a second client. -/
  once : ∀ n, (connections past).count n ≤ 1
  /-- Who waits for the answer to a call has a client that is not closed. -/
  connected : ∀ t n, S.calling? t = some n → HasClient past n
  /-- On one session one call is in progress at a time. -/
  caller : ∀ t u n, S.calling? t = some n → S.calling? u = some n → t = u
  /-- Of the sessions with one id, one at most has a client and is not retiring. -/
  client : ∀ (n m : Nat) (s s' : Session κ), S.sessions[n]? = some s → S.sessions[m]? = some s' →
    s.id = s'.id → HasClient past n → HasClient past m → ¬Retiring past n → ¬Retiring past m → n = m
  /-- And of the calls on them one at most is in progress. -/
  call : ∀ (t u n m : Nat) (s s' : Session κ), S.calling? t = some n → S.calling? u = some m →
    S.sessions[n]? = some s → S.sessions[m]? = some s' → s.id = s'.id → ¬Retiring past n → ¬Retiring past m →
    t = u
  /-- Who has waited for a release has not left the session retiring, unless the worker ended. -/
  through : ∀ before after i j n u result, past = before ++ .asked j (.await u) result :: after →
    .asked i (.submit n .release) (.ok u) ∈ before → S.pool.worker.ended = false → ¬Retiring past n
  /-- A session whose client is not closed is the one in the registry, or it is retiring. -/
  live : ∀ n, HasClient past n → S.pool.isLive n = true ∨ Retiring past n

variable {r : Remote ρ κ} {c : Catalog} {o : Options} {remote : ρ} {past : List (Event κ)}
  {before after : List (Event κ)} {e : Event κ} {S : Scene ρ κ} {i n m t u : Nat}

/-- Whatever happened was a step at its time, and a worker that had ended then has still ended. -/
theorem Run.split_step (run : Run r c o remote (before ++ e :: after) S) :
    ∃ S₁ S₂, Run r c o remote before S₁ ∧ Step r S₁ e S₂ ∧
      (S₂.pool.worker.ended = true → S.pool.worker.ended = true) := by
  generalize hall : before ++ e :: after = all at run
  induction run generalizing after with
  | start => simp at hall
  | @step past x S₁ S₂ run h ih =>
    rcases List.eq_nil_or_concat after with rfl | ⟨after, y, rfl⟩
    · obtain ⟨rfl, hx⟩ := List.append_inj' hall rfl
      cases hx
      exact ⟨S₁, S₂, run, h, id⟩
    · rw [List.concat_eq_append, ← List.cons_append, ← List.append_assoc] at hall
      obtain ⟨hbefore, -⟩ := List.append_inj' hall rfl
      obtain ⟨S₃, S₄, hrun, hstep, hended⟩ := ih hbefore
      refine ⟨S₃, S₄, hrun, hstep, fun hend => ?_⟩
      rw [← Bool.not_eq_false]
      exact fun hend' => by rw [h.running hend'] at hended; exact nomatch hended hend

/-- What happened on a session happened on one that is there. -/
theorem Kept.lt_of_note (k : Kept c past S) {e : Note κ} (h : e ∈ notes n past) : n < S.sessions.length := by
  refine Nat.lt_of_not_le fun hle => ?_
  rw [k.silent n hle] at h
  cases h

/-- A release that has a result is through, unless the worker ended. -/
theorem Run.yielded_of_result (run : Run r c o remote past S)
    (hsent : .asked i (.submit n .release) (.ok u) ∈ past) {result : Except PoolError Yield}
    (hresult : S.pool.worker.result? u = some result) (hend : S.pool.worker.ended = false) :
    ∃ result, .work n u (.yielded result) ∈ past := by
  have harrived := mem_notes_arrived.2 ⟨i, hsent⟩
  obtain ⟨l, hl⟩ := run.kept.lanes n (run.kept.lt_of_note harrived)
  obtain ⟨st, hu⟩ := hl.run.arrived_iff.1 harrived
  obtain ⟨job, hjob, hat⟩ := hl.jobs u _ st hu
  rw [Worker.result?, show S.pool.worker.jobs[u]? = some job from hjob] at hresult
  cases job with
  | pending p => cases hresult
  | finished result' =>
    obtain ⟨result, hy⟩ := hl.run.yielded_of_told hat.2
    exact ⟨result, mem_notes_did.1 hy⟩
  | dropped => exact absurd (hat hend) (hl.run.sealed hu).1

theorem Run.one_release (run : Run r c o remote past S) (ht : .arrived t .release ∈ notes n past)
    (hu : .arrived u .release ∈ notes n past) : t = u := by
  have hregistered := run.accounted.registered n
  have hcovered := run.accounted.covered n
  rw [count_releases] at hcovered
  have hle : (notes n past).countP Note.isRelease ≤ 1 := by
    split at hregistered <;> omega
  cases eq_of_countP_le_one hle ht hu rfl rfl
  rfl

/-- A session that has a client is in the registry, or retiring. -/
theorem Run.live_or_retiring (run : Run r c o remote past S) (hn : HasClient past n) :
    S.pool.isLive n = true ∨ Retiring past n := by
  have hconnects := count_about Note.connects (fun _ _ => rfl) past n
  have hcloses := count_about Note.closed (fun _ _ => rfl) past n
  rw [HasClient, closings, connections, hconnects, hcloses] at hn
  obtain ⟨e, he, -⟩ := List.countP_pos_iff.1 (Nat.zero_lt_of_lt hn)
  have hlt := run.kept.lt_of_note he
  obtain ⟨l, hl⟩ := run.kept.lanes n hlt
  have hregistered := run.accounted.registered n
  rw [if_pos hlt] at hregistered
  by_cases hlive : n ∈ S.pool.registry.map (·.2)
  · obtain ⟨⟨id, n⟩, hmem, rfl⟩ := List.mem_map.1 hlive
    obtain ⟨s, hs, rfl⟩ := run.kept.named _ _ hmem
    left
    rw [Pool.isLive, hs]
    exact decide_eq_true (run.sorted.get?_of_mem hmem)
  · rw [List.count_eq_zero.2 hlive, Nat.zero_add] at hregistered
    refine .inr ⟨List.count_pos_iff.1 (by omega), fun i t result ht hy => ?_⟩
    have harrived := mem_notes_arrived.2 ⟨i, ht⟩
    have hequal := hl.run.closed_of_released (fun u v hu hv => run.one_release hu hv) harrived
      (mem_notes_did.2 hy)
    omega

/-- A job that waits for the answer to a call stands where it makes the call. -/
theorem Kept.of_calling (k : Kept c past S) (ht : S.calling? t = some n) :
    n < S.sessions.length ∧ ∀ l, S.HasLane c n (notes n past) l → ∃ w p, l.units t = some (w, .calling p) := by
  unfold calling? at ht
  split at ht
  · rename_i hf
    split at ht
    · rename_i operation args next hjob
      cases ht
      obtain ⟨⟨m, w⟩, hwork⟩ : ∃ x, S.works[t]? = some x := ⟨_, List.getElem?_eq_getElem (k.aloft.2 t hf)⟩
      have hstands : ∀ l, S.HasLane c m (notes m past) l → n = m ∧ ∃ w p, l.units t = some (w, .calling p) := by
        intro l hl
        obtain ⟨st, hu⟩ := (hl.works t _).1 hwork
        obtain ⟨job, hjob', hat⟩ := hl.jobs _ _ _ hu
        rw [hjob, Option.some.injEq] at hjob'
        subst hjob'
        obtain ⟨⟨hsession, hmove, -⟩, -⟩ := hat
        cases st with
        | calling p => exact ⟨hsession, _, p, hu⟩
        | ended _ | dead => cases hmove
        | _ => cases hmove
      obtain ⟨l, hl⟩ := k.lanes _ (k.placed t _ _ hwork)
      obtain ⟨rfl, -⟩ := hstands l hl
      exact ⟨k.placed t _ _ hwork, fun l hl => (hstands l hl).2⟩
    · cases ht
  · cases ht

theorem Run.connected_of_calling (run : Run r c o remote past S) (ht : S.calling? t = some n) :
    HasClient past n := by
  obtain ⟨hlt, hcalling⟩ := run.kept.of_calling ht
  obtain ⟨l, hl⟩ := run.kept.lanes n hlt
  obtain ⟨w, p, hu⟩ := hcalling l hl
  obtain ⟨hopen, hclient⟩ := (Lane.Run.sound hl.run).knows t w _ hu
  obtain ⟨hcloses, hconnects⟩ := (Lane.Run.balanced hl.run).opened hopen
  rw [if_pos hclient] at hconnects
  obtain ⟨flight, -, hanswered⟩ := hl.run.closes_answered
  rw [HasClient, closings, connections, count_about _ (fun _ _ => rfl), count_about _ (fun _ _ => rfl),
    hconnects]
  omega

theorem Run.one_caller (run : Run r c o remote past S) (ht : S.calling? t = some n)
    (hu : S.calling? u = some n) : t = u := by
  obtain ⟨hlt, hcalling⟩ := run.kept.of_calling ht
  obtain ⟨l, hl⟩ := run.kept.lanes n hlt
  obtain ⟨w, p, hlt⟩ := hcalling l hl
  obtain ⟨v, q, hlu⟩ := (run.kept.of_calling hu).2 l hl
  exact hl.run.one_asker hlt hlu rfl rfl rfl rfl

/-- Of two sessions with one id one at most is live. -/
theorem eq_of_live {s s' : Session κ} (hs : S.sessions[n]? = some s) (hs' : S.sessions[m]? = some s')
    (hid : s.id = s'.id) (hn : S.pool.isLive n = true) (hm : S.pool.isLive m = true) : n = m := by
  rw [Pool.isLive, hs, decide_eq_true_eq] at hn
  rw [Pool.isLive, hs', decide_eq_true_eq, ← hid, hn] at hm
  exact Option.some.inj hm

theorem Run.one_client (run : Run r c o remote past S) {s s' : Session κ} (hs : S.sessions[n]? = some s)
    (hs' : S.sessions[m]? = some s') (hid : s.id = s'.id) (hn : HasClient past n) (hm : HasClient past m)
    (hkeptn : ¬Retiring past n) (hkeptm : ¬Retiring past m) : n = m :=
  eq_of_live hs hs' hid ((run.live_or_retiring hn).resolve_right hkeptn)
    ((run.live_or_retiring hm).resolve_right hkeptm)

theorem Run.sole (run : Run r c o remote past S) : S.Sole past where
  once n := by
    rw [connections, count_about _ (fun _ _ => rfl)]
    rcases Nat.lt_or_ge n S.sessions.length with hn | hn
    · obtain ⟨l, hl⟩ := run.kept.lanes n hn
      exact (Lane.Run.balanced hl.run).once
    · rw [run.kept.silent n hn]
      exact Nat.zero_le _
  connected t n := run.connected_of_calling
  caller t u n := run.one_caller
  client n m s s' := run.one_client
  call t u n m s s' ht hu hs hs' hid hkeptn hkeptm := by
    obtain rfl := run.one_client hs hs' hid (run.connected_of_calling ht) (run.connected_of_calling hu)
      hkeptn hkeptm
    exact run.one_caller ht hu
  through before after i j n u result hpast hsent hend hretiring := by
    subst hpast
    obtain ⟨S₁, S₂, hrun, hstep, hended⟩ := run.split_step
    cases hstep with
    | ask _ ha =>
      cases Pool.answered ha with
      | awaited hresult =>
        have hend₁ : S₁.pool.worker.ended = false := by
          rw [← Bool.not_eq_true]
          exact fun hend₁ => by rw [hended hend₁] at hend; cases hend
        obtain ⟨result, hy⟩ := hrun.yielded_of_result hsent hresult hend₁
        exact hretiring.unfinished i u result (List.mem_append_left _ hsent) (List.mem_append_left _ hy)
  live n := run.live_or_retiring

/-- A session is closed while a call on it is under way, and a call on its successor is made meanwhile. -/
def twins : List (Choice Unit) :=
  List.flatten [[.come (.invoke "game" "act" (.structured [])), .come (.close "game"),
    .come (.invoke "game" "act" (.structured [])), .ask 0, .ask 0, .read], List.replicate 5 (.go 0),
    [.ask 1, .ask 1, .ask 2, .ask 2, .read, .read], List.replicate 5 (.go 2)]

theorem overlap_twins : ∃ past S, play obliging twins ([], quiet) = some (past, S) ∧
    S.sessions.map Session.id = ["game", "game"] ∧ HasClient past 0 ∧ HasClient past 1 ∧
    S.calling? 0 = some 0 ∧ S.calling? 2 = some 1 := by
  have hplay : (play obliging twins ([], quiet)).map (fun x => (x.2.sessions.map Session.id,
      connections x.1, closings x.1, x.2.calling? 0, x.2.calling? 2)) =
      some (["game", "game"], [0, 1], [], some 0, some 1) := by
    decide
  obtain ⟨⟨past, S⟩, hplay, heq⟩ := Option.map_eq_some_iff.1 hplay
  simp only [Prod.mk.injEq] at heq
  obtain ⟨hids, hconnections, hclosings, hfirst, hsecond⟩ := heq
  refine ⟨past, S, hplay, hids, ?_, ?_, hfirst, hsecond⟩ <;>
    (rw [HasClient, hconnections, hclosings]; decide)

/-- A session is closed, and a call on its successor is made afterwards. -/
def heirs : List (Choice Unit) :=
  List.flatten [[.come (.invoke "game" "act" (.structured [])), .come (.close "game"),
    .come (.invoke "game" "act" (.structured [])), .ask 0, .ask 0, .read], List.replicate 9 (.go 0),
    [.ask 0, .ask 1, .ask 1, .read], List.replicate 7 (.go 1), [.ask 1, .ask 2, .ask 2, .read],
    List.replicate 5 (.go 2)]

theorem sole_heirs : ∃ past S, play obliging heirs ([], quiet) = some (past, S) ∧
    connections past = [0, 1] ∧ closings past = [0] ∧ S.calling? 2 = some 1 ∧ S.Sole past := by
  have hplay : (play obliging heirs ([], quiet)).map (fun x =>
      (connections x.1, closings x.1, x.2.calling? 2)) = some ([0, 1], [0], some 1) := by
    decide
  obtain ⟨⟨past, S⟩, hplay, heq⟩ := Option.map_eq_some_iff.1 hplay
  simp only [Prod.mk.injEq] at heq
  exact ⟨past, S, hplay, heq.1, heq.2.1, heq.2.2, Run.sole (run_of_play hplay .start)⟩

end Scene
end SessionPool
