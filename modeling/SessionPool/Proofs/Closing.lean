import Mathlib.Data.List.Nodup
import SessionPool.Proofs.Desk

/-! Closing: what comes of closing a session, and of closing all. Sessions are gone from the registry before
    their clients are asked to close, so they are gone whatever the clients say; and what one client says
    concerns the report on its own session and no other. -/

namespace SessionPool
variable {ρ κ : Type}

/-- What comes of the release of a session: the reason if it fails, what is heard, and the servers then. A
    worker that has ended refuses it; a session that was never connected has nothing to close. -/
inductive Releases (r : Remote ρ κ) (ended : Bool) (s : Session κ) (x : ρ) :
    Except String Unit → List (Move κ × Word κ) → ρ → Prop
  | refused (hended : ended = true) : Releases r ended s x (.error PoolError.workerClosed.message) [] x
  | vacant (hended : ended = false) (hnone : s.client = none) : Releases r ended s x (.ok ()) [] x
  | asked {client : κ} {reply : Except RemoteError Unit} {x' : ρ} (hended : ended = false)
      (hsome : s.client = some client) (hclose : r.close client x = (reply, x')) :
      Releases r ended s x (reply.mapError RemoteError.message) [(.close client, .closed reply)] x'

namespace Station.Plays
variable {r : Remote ρ κ} {t : Nat} {s : Session κ} {x : ρ} {e : Play ρ κ}

/-- A release gives what the client says, and closes the session whatever that is. -/
theorem releases (h : (waiting .release).Plays r t s x e) (hline : s.line = []) : ∃ result,
    Releases r false s x result e.heard e.remote ∧ e.noted = [] ∧
      e.session = { s with closed := true, client := none } ∧
      e.result = some ((result.mapError (.closeFailed s.id)).map fun _ => .released) := by
  obtain ⟨id, locator, ready, closed, client, line⟩ := s
  cases hline
  obtain ⟨e₁, hretiring, rfl⟩ := h.of_own rfl rfl
  obtain ⟨e₂, hsealing, rfl⟩ := of_own hretiring rfl rfl
  obtain ⟨e₃, hparting, rfl⟩ := of_own hsealing rfl rfl
  cases client with
  | none =>
    obtain ⟨e₄, hended, rfl⟩ := of_own hparting rfl rfl
    obtain rfl := of_ended hended
    refine ⟨.ok (), .vacant rfl rfl, rfl, ?_, rfl⟩
    simp [Session.after, Session.lined]
  | some client =>
    obtain ⟨e₄, hclosing, rfl⟩ := of_own hparting rfl rfl
    generalize hclose : r.close client x = said
    obtain ⟨reply, x'⟩ := said
    have hword : ∀ s : Session κ, r.word s x (.close client) = some (.closed reply, x') := fun s => by
      simp only [Remote.word, hclose]
    obtain ⟨e₅, hended, rfl⟩ := (of_word hclosing rfl (hword _)).1 reply rfl
    obtain rfl := of_ended hended
    refine ⟨_, .asked rfl rfl hclose, rfl, ?_, ?_⟩
    · simp [Session.after, Session.lined, Session.hear]
    · cases reply <;> rfl

end Station.Plays

/-- The release of a session, by its id and its place: what comes of it, and what is heard. -/
structure Release (κ : Type) where
  id : String
  place : Nat
  verdict : Except String Unit
  heard : List (Move κ × Word κ)

namespace Release

/-- What is heard, with where. -/
def words (d : Release κ) : List (Heard κ) := d.heard.map fun w => ⟨d.place, d.id, w.1, w.2⟩

/-- What the caller is told. -/
def result (d : Release κ) : Except PoolError Yield :=
  (d.verdict.mapError (.closeFailed d.id)).map fun _ => .released

/-- The id, if the session closed. -/
def closed? (d : Release κ) : Option String :=
  match d.verdict with
  | .ok _ => some d.id
  | .error _ => none

/-- The id and the reason, if the release failed. -/
def failed? (d : Release κ) : Option (String × String) :=
  match d.verdict with
  | .ok _ => none
  | .error reason => some (d.id, reason)

theorem closed?_eq_some {d : Release κ} {id : String} : d.closed? = some id ↔ d.verdict = .ok () ∧ d.id = id := by
  rw [closed?]
  cases d.verdict <;> simp

theorem failed?_eq_some {d : Release κ} {id reason : String} :
    d.failed? = some (id, reason) ↔ d.verdict = .error reason ∧ d.id = id := by
  rw [failed?]
  cases d.verdict <;> simp [and_comm]

end Release

/-- Releases one after the other, each of the session at its place. -/
abbrev ReleasesEach (r : Remote ρ κ) (ended : Bool) : List (Session κ) → ρ → List (Release κ) → ρ → Prop :=
  Rounds (fun s x d x' => s.id = d.id ∧ Releases r ended s x d.verdict d.heard x') Release.place

section
variable {r : Remote ρ κ} {f f' : Front ρ κ} {n : Nat} {s : Session κ} {t : Table Nat}

/-- A job that releases a session. -/
theorem Front.Does.releases {result : Option (Except PoolError Yield)} {heard : List (Heard κ)}
    (h : Front.Does r f (.worked ⟨n, .release, result, heard⟩) f') (hs : f.shared.sessions[n]? = some s)
    (hline : s.line = []) : ∃ (d : Release κ) (x : ρ), d.id = s.id ∧ d.place = n ∧
      Releases r false s f.shared.remote d.verdict d.heard x ∧ result = some d.result ∧ heard = d.words ∧
      f' = { f with shared := { f.shared with
        sessions := f.shared.sessions.set n { s with closed := true, client := none }, remote := x } } := by
  cases h with
  | worked hs' _ plays _ =>
    cases hs.symm.trans hs'
    obtain ⟨verdict, hreleases, hnoted, hsession, hresult⟩ := plays.releases hline
    refine ⟨⟨s.id, n, verdict, _⟩, _, rfl, rfl, hreleases, hresult, rfl, ?_⟩
    rw [Shared.played, hsession, hnoted]
    rfl

/-- Jobs that release sessions at different places. -/
theorem Front.releases_of_deals : ∀ {t : Table Nat} {ds : List (Stint κ)} {f : Front ρ κ},
    ds.map (fun d => (d.place, d.work)) = t.map (fun e => (e.2, .release)) →
    (∀ e ∈ t, ∃ s, f.shared.sessions[e.2]? = some s ∧ s.id = e.1 ∧ s.line = []) → (t.map Prod.snd).Nodup →
    Front.Deals r f (ds.map .worked) f' → ∃ rs : List (Release κ), rs.map (fun d => (d.id, d.place)) = t ∧
      ReleasesEach r false f.shared.sessions f.shared.remote rs f'.shared.remote ∧
      t.zipWith (fun e d => (e.1, d.result.getD (.error .workerClosed))) ds = rs.map (fun d => (d.id, d.result)) ∧
      ds.flatMap Stint.heard = rs.flatMap Release.words ∧ f'.registry = f.registry
  | [], [], f, _, _, _, hdeals => by
    cases hdeals
    exact ⟨[], rfl, .none, rfl, rfl, rfl⟩
  | (id, n) :: t, d :: ds, f, hds, ht, hnodup, hdeals => by
    obtain ⟨place, work, result, heard⟩ := d
    obtain ⟨hhead, htail⟩ := List.cons.inj hds
    obtain ⟨rfl, rfl⟩ := Prod.mk.inj hhead
    obtain ⟨hnew, hothers⟩ := List.nodup_cons.1 hnodup
    obtain ⟨s, hs, hid, hline⟩ := ht (id, place) List.mem_cons_self
    obtain _ | ⟨first, later⟩ := hdeals
    obtain ⟨d, x, hid', rfl, hreleases, rfl, rfl, rfl⟩ := first.releases hs hline
    have hsame : ∀ e ∈ t, (f.shared.sessions.set d.place { s with closed := true, client := none })[e.2]? =
        f.shared.sessions[e.2]? := fun e he =>
      List.getElem?_set_ne fun heq => hnew (List.mem_map.2 ⟨e, he, heq.symm⟩)
    obtain ⟨rs, hrs, heach, hresults, hwords, hregistry⟩ := Front.releases_of_deals htail
      (fun e he => by
        obtain ⟨s', hs', hrest⟩ := ht e (List.mem_cons_of_mem _ he)
        exact ⟨s', (hsame e he).trans hs', hrest⟩) hothers later
    refine ⟨d :: rs, ?_, .next hs ⟨hid'.symm, hreleases⟩ (heach.congr fun d' hd' => ?_), ?_, ?_, hregistry⟩
    · rw [List.map_cons, hrs, hid', hid]
    · have hmem : (d'.id, d'.place) ∈ t := hrs ▸ List.mem_map_of_mem hd'
      exact hsame _ hmem
    · rw [List.zipWith_cons_cons, hresults, List.map_cons, hid', hid]
      rfl
    · rw [List.flatMap_cons, List.flatMap_cons, hwords]

/-- What comes of the releases of sessions that were sent, one by one. -/
theorem Released.releases {b : Bool} {ys : Table (Except PoolError Yield)} {ds : List (Stint κ)}
    (h : Released t b ys ds) (ht : ∀ e ∈ t, ∃ s, f.shared.sessions[e.2]? = some s ∧ s.id = e.1 ∧ s.line = [])
    (hnodup : (t.map Prod.snd).Nodup) (hdeals : Front.Deals r f (ds.map .worked) f') :
    ∃ rs : List (Release κ), rs.map (fun d => (d.id, d.place)) = t ∧
      ReleasesEach r b f.shared.sessions f.shared.remote rs f'.shared.remote ∧
      CloseReport.of ys = .of (rs.map fun d => (d.id, d.result)) ∧
      ds.flatMap Stint.heard = rs.flatMap Release.words ∧ f'.registry = f.registry := by
  cases h with
  | worked hds =>
    obtain ⟨rs, hrs, heach, hresults, hwords, hregistry⟩ := Front.releases_of_deals hds ht hnodup hdeals
    exact ⟨rs, hrs, heach, congrArg CloseReport.of hresults, hwords, hregistry⟩
  | refused =>
    cases hdeals
    clear hnodup
    induction t with
    | nil => exact ⟨[], rfl, .none, rfl, rfl, rfl⟩
    | cons e t ih =>
      obtain ⟨s, hs, hid, -⟩ := ht e List.mem_cons_self
      obtain ⟨rs, hrs, heach, hreport, hwords, -⟩ := ih fun e he => ht e (List.mem_cons_of_mem _ he)
      refine ⟨⟨e.1, e.2, .error PoolError.workerClosed.message, []⟩ :: rs, ?_, .next hs ⟨hid, .refused rfl⟩ heach,
        ?_, ?_, rfl⟩
      · rw [List.map_cons, hrs]
      · rw [List.map_cons, List.map_cons, CloseReport.of, CloseReport.of, hreport]
        rfl
      · rw [List.flatMap_cons, ← hwords]
        rfl

/-- What comes of the release of a session that was sent alone. -/
theorem Sent.releases {y : Except PoolError Yield} {ds : List (Deal κ)} (h : Sent n .release f.ended y ds)
    (hs : f.shared.sessions[n]? = some s) (hline : s.line = []) (hdeals : Front.Deals r f ds f') :
    ∃ d : Release κ, d.id = s.id ∧ d.place = n ∧
      Releases r f.ended s f.shared.remote d.verdict d.heard f'.shared.remote ∧
      y.mapError (PoolError.toClose s.id) = d.result ∧ ds.flatMap Deal.heard = d.words ∧
      f'.registry = f.registry ∧ f'.shared.log = f.shared.log ∧
      ∀ m, m ≠ n → f'.shared.sessions[m]? = f.shared.sessions[m]? := by
  obtain ⟨hended, rfl, rfl⟩ | ⟨result, heard, hended, rfl, rfl⟩ := h.inversion
  · cases hdeals
    exact ⟨⟨s.id, n, .error PoolError.workerClosed.message, []⟩, rfl, rfl, .refused hended, rfl, rfl, rfl, rfl,
      fun _ _ => rfl⟩
  · obtain _ | ⟨job, ⟨⟩⟩ := hdeals
    obtain ⟨d, x, hid, hplace, hreleases, rfl, rfl, rfl⟩ := job.releases hs hline
    rw [hended]
    refine ⟨d, hid, hplace, hreleases, ?_, List.append_nil _, rfl, rfl, fun m hm => List.getElem?_set_ne hm.symm⟩
    rw [Release.result]
    cases d.verdict <;> rfl

end

namespace Release

/-- The report of releases: which sessions closed, and why the others did not. -/
theorem report (rs : List (Release κ)) : CloseReport.of (rs.map fun d => (d.id, d.result)) =
    ⟨rs.filterMap closed?, (rs.filterMap failed?).map fun e => .closeFailed e.1 e.2⟩ := by
  induction rs with
  | nil => rfl
  | cons d rs ih =>
    obtain ⟨id, place, verdict, heard⟩ := d
    rw [List.map_cons, CloseReport.of, ih]
    cases verdict <;> rfl

variable {rs : List (Release κ)}

theorem closed_sorted (h : (rs.map Release.id).Pairwise (· < ·)) : (rs.filterMap closed?).Pairwise (· < ·) := by
  refine List.pairwise_filterMap.2 ((List.pairwise_map.1 h).imp fun hlt id hid id' hid' => ?_)
  obtain ⟨-, rfl⟩ := closed?_eq_some.1 hid
  obtain ⟨-, rfl⟩ := closed?_eq_some.1 hid'
  exact hlt

theorem failed_sorted (h : (rs.map Release.id).Pairwise (· < ·)) : Table.Sorted (rs.filterMap failed?) := by
  refine List.pairwise_filterMap.2 ((List.pairwise_map.1 h).imp fun hlt e he e' he' => ?_)
  obtain ⟨-, heq⟩ := failed?_eq_some.1 he
  obtain ⟨-, heq'⟩ := failed?_eq_some.1 he'
  rwa [← heq, ← heq']

/-- No two releases are of one session. -/
theorem inj {d d' : Release κ} (h : (rs.map Release.id).Pairwise (· < ·)) (hd : d ∈ rs) (hd' : d' ∈ rs)
    (hid : d.id = d'.id) : d = d' := by
  have hnodup : (rs.map Release.id).Nodup := by
    refine h.imp ?_
    intro a b hlt heq
    exact String.lt_irrefl b (heq ▸ hlt)
  exact List.inj_on_of_nodup_map hnodup hd hd' hid

theorem mem_closed {d : Release κ} (h : (rs.map Release.id).Pairwise (· < ·)) (hd : d ∈ rs) :
    d.verdict = .ok () ↔ d.id ∈ rs.filterMap closed? := by
  constructor
  · exact fun hok => List.mem_filterMap.2 ⟨d, hd, closed?_eq_some.2 ⟨hok, rfl⟩⟩
  · intro hmem
    obtain ⟨d', hd', hclosed⟩ := List.mem_filterMap.1 hmem
    obtain ⟨hok, hid⟩ := closed?_eq_some.1 hclosed
    rwa [inj h hd hd' hid.symm]

theorem mem_failed {d : Release κ} (h : (rs.map Release.id).Pairwise (· < ·)) (hd : d ∈ rs) (reason : String) :
    d.verdict = .error reason ↔ (d.id, reason) ∈ rs.filterMap failed? := by
  constructor
  · exact fun herror => List.mem_filterMap.2 ⟨d, hd, failed?_eq_some.2 ⟨herror, rfl⟩⟩
  · intro hmem
    obtain ⟨d', hd', hfailed⟩ := List.mem_filterMap.1 hmem
    obtain ⟨herror, hid⟩ := failed?_eq_some.1 hfailed
    rwa [inj h hd hd' hid.symm]

/-- No session is reported twice. -/
theorem apart {id : String} (h : (rs.map Release.id).Pairwise (· < ·)) (hclosed : id ∈ rs.filterMap closed?) :
    id ∉ Table.keys (rs.filterMap failed?) := by
  intro hfailed
  obtain ⟨d, hd, hsome⟩ := List.mem_filterMap.1 hclosed
  obtain ⟨hok, rfl⟩ := closed?_eq_some.1 hsome
  obtain ⟨⟨id', reason⟩, hmem, rfl : id' = d.id⟩ := List.mem_map.1 hfailed
  cases hok.symm.trans ((mem_failed h hd reason).2 hmem)

/-- Every session is reported. -/
theorem mem_reported {id : String} :
    id ∈ rs.map Release.id ↔ id ∈ rs.filterMap closed? ∨ id ∈ Table.keys (rs.filterMap failed?) := by
  constructor
  · intro hmem
    obtain ⟨d, hd, rfl⟩ := List.mem_map.1 hmem
    cases hverdict : d.verdict with
    | ok _ => exact .inl (List.mem_filterMap.2 ⟨d, hd, closed?_eq_some.2 ⟨hverdict, rfl⟩⟩)
    | error reason =>
      have hfailed := List.mem_filterMap.2 ⟨d, hd, failed?_eq_some.2 ⟨hverdict, rfl⟩⟩
      exact .inr (List.mem_map_of_mem hfailed)
  · rintro (hmem | hmem)
    · obtain ⟨d, hd, hsome⟩ := List.mem_filterMap.1 hmem
      obtain ⟨-, rfl⟩ := closed?_eq_some.1 hsome
      exact List.mem_map_of_mem hd
    · obtain ⟨⟨id', reason⟩, hfailed, rfl⟩ := List.mem_map.1 hmem
      obtain ⟨d, hd, hsome⟩ := List.mem_filterMap.1 hfailed
      obtain ⟨-, rfl⟩ := failed?_eq_some.1 hsome
      exact List.mem_map_of_mem hd

end Release

namespace Pool

/-- A live session, at a place, was closed: it is gone whatever came of its release, and nothing else is. -/
structure Closed (r : Remote ρ κ) (p : Pool ρ κ) (id : String) (n : Nat) (s : Session κ)
    (verdict : Except String Unit) (words : List (Move κ × Word κ)) (p' : Pool ρ κ) : Prop where
  run : p.run r (Caller.close id) = (.finished ((verdict.mapError (.closeFailed id)).map fun _ => true), p')
  heard : p.heard r (Caller.close id) = words.map fun w => ⟨n, id, w.1, w.2⟩
  releases : Releases r p.worker.ended s p.shared.remote verdict words p'.shared.remote
  gone : Table.get? id p'.registry = none
  names : ∀ j, j ≠ id → Table.get? j p'.registry = Table.get? j p.registry
  others : ∀ m, m ≠ n → p'.shared.sessions[m]? = p.shared.sessions[m]?
  log : p'.shared.log = p.shared.log

/-- All sessions were closed: what came of each release, the ids of those that closed, and of the others
    with the reasons. -/
structure Emptied (r : Remote ρ κ) (p : Pool ρ κ) (rs : List (Release κ)) (closed : List String)
    (failed : Table String) (p' : Pool ρ κ) : Prop where
  run : p.run r Caller.closeAll = (.finished ⟨closed, failed.map fun e => .closeFailed e.1 e.2⟩, p')
  heard : p.heard r Caller.closeAll = rs.flatMap Release.words
  empty : p'.registry = []
  /-- Each session that was live is released once. -/
  all : rs.map (fun d => (d.id, d.place)) = p.registry
  releases : ReleasesEach r p.worker.ended p.shared.sessions p.shared.remote rs p'.shared.remote
  sorted : closed.Pairwise (· < ·) ∧ failed.Sorted
  apart : ∀ id ∈ closed, id ∉ Table.keys failed
  complete : ∀ id, (Table.get? id p.registry).isSome ↔ id ∈ closed ∨ id ∈ Table.keys failed
  /-- An id is reported by what came of its own release. -/
  verdicts : ∀ d ∈ rs, (d.verdict = .ok () ↔ d.id ∈ closed) ∧
    ∀ reason, d.verdict = .error reason ↔ (d.id, reason) ∈ failed

/-- What comes of closing the sessions of a pool. -/
structure Closing (r : Remote ρ κ) (p : Pool ρ κ) : Prop where
  absent : ∀ id, Table.get? id p.registry = none →
    p.run r (Caller.close id) = (.finished (.ok false), p) ∧ p.heard r (Caller.close id) = []
  live : ∀ id n, Table.get? id p.registry = some n → ∃ s verdict words p',
    p.shared.sessions[n]? = some s ∧ Closed r p id n s verdict words p'
  every : ∃ rs closed failed p', Emptied r p rs closed failed p'

variable {r : Remote ρ κ} {p p' : Pool ρ κ} {id : String} {n : Nat}

/-- Nothing happens to a session that is not there. -/
theorem runs_close_absent (r : Remote ρ κ) (hn : Table.get? id p.registry = none) :
    p.Runs r (Caller.close id) (.ok false) [] p := by
  have hanswer : p.answer (.remove id) = .went none p [] := by
    rw [answer, hn, Table.erase_of_get?_none hn]
  have hruns : p.Runs r (Caller.act (.remove id)) none [] p := .ask rfl hanswer .none rfl
  exact hruns.pure rfl

theorem Quiet.closed (h : p.Quiet) (hr : r.Prompt) (hn : Table.get? id p.registry = some n) :
    ∃ s verdict words p', p.shared.sessions[n]? = some s ∧ Closed r p id n s verdict words p' := by
  obtain ⟨s, hs, rfl⟩ := h.tidy.named id n hn
  have hline := h.tidy.free s (List.mem_of_getElem? hs)
  obtain ⟨y, ds, p', hruns, -, hmakes⟩ := h.runs_close hr s.id
  have hdeals := hruns.deals
  cases hmakes with
  | absent hnone => cases hn.symm.trans hnone
  | @closed _ m y ds _ hm hsent =>
    cases hn.symm.trans hm
    obtain ⟨f₁, hremoved, hreleased⟩ : ∃ f₁, Front.Does r p.front (.removed s.id) f₁ ∧ Front.Deals r f₁ ds p'.front := by
      cases hdeals with
      | next first later => exact ⟨_, first, later⟩
    cases hremoved
    obtain ⟨d, hid, rfl, hreleases, hresult, hwords, hregistry, hlog, hothers⟩ :=
      Sent.releases (f := { p.front with registry := p.front.registry.erase s.id }) hsent hs hline hreleased
    have hgone : p'.registry = p.registry.erase s.id := hregistry
    refine ⟨s, d.verdict, d.heard, p', hs, ?_, ?_, hreleases, ?_, fun j hj => ?_, hothers, hlog⟩
    · rw [hruns.run, hresult, Release.result, hid]
      cases d.verdict <;> rfl
    · rw [hruns.heard, List.flatMap_cons, hwords, Release.words, hid]
      rfl
    · rw [hgone]
      exact Table.get?_erase_self h.tidy.sorted
    · rw [hgone, Table.get?_erase_of_ne hj]

/-- Nobody but the id is closed twice: the registry names different places. -/
theorem Quiet.places_nodup (h : p.Quiet) : (p.registry.map Prod.snd).Nodup := by
  have hkeys : (Table.keys p.registry).Nodup := h.tidy.sorted.keys_nodup
  refine List.pairwise_map.2 ((List.pairwise_map.1 hkeys).imp_of_mem fun {e e'} he he' hne heq => hne ?_)
  have hn := Table.Sorted.get?_of_mem h.tidy.sorted he
  rw [heq] at hn
  exact h.tidy.inj hn (Table.Sorted.get?_of_mem h.tidy.sorted he')

theorem Quiet.emptied (h : p.Quiet) (hr : r.Prompt) : ∃ rs closed failed p', Emptied r p rs closed failed p' := by
  obtain ⟨ys, p', ds, hruns, -, hreleased⟩ := h.runs_closeAll hr
  have hdeals := hruns.deals
  generalize hfront : p'.front = f' at hdeals
  obtain ⟨f₂, hreleases, hcleared⟩ := hdeals.split
  obtain _ | ⟨⟨⟩, hjobs⟩ := hreleases
  obtain _ | ⟨⟨⟩, ⟨⟩⟩ := hcleared
  have hnamed : ∀ e ∈ p.registry, ∃ s, p.shared.sessions[e.2]? = some s ∧ s.id = e.1 ∧ s.line = [] := by
    intro e he
    obtain ⟨s, hs, hid⟩ := h.tidy.named e.1 e.2 (Table.Sorted.get?_of_mem h.tidy.sorted he)
    exact ⟨s, hs, hid, h.tidy.free s (List.mem_of_getElem? hs)⟩
  obtain ⟨rs, hrs, heach, hreport, hwords, hregistry⟩ := hreleased.releases hnamed h.places_nodup hjobs
  have hids : rs.map Release.id = Table.keys p.registry := by
    rw [← hrs, Table.keys, List.map_map]
    rfl
  have hsorted : (rs.map Release.id).Pairwise (· < ·) := by
    rw [hids]
    exact List.pairwise_map.2 h.tidy.sorted
  have hempty : p'.registry = f₂.registry := congrArg Front.registry hfront
  have hremote : p'.shared.remote = f₂.shared.remote := congrArg (fun f => f.shared.remote) hfront
  refine ⟨rs, rs.filterMap Release.closed?, rs.filterMap Release.failed?, p', ?_, ?_, hempty.trans hregistry, hrs,
    hremote ▸ heach, ⟨Release.closed_sorted hsorted, Release.failed_sorted hsorted⟩, ?_, fun id => ?_,
    fun d hd => ⟨Release.mem_closed hsorted hd, Release.mem_failed hsorted hd⟩⟩
  · rw [hruns.run, hreport, Release.report]
  · rw [hruns.heard, ← hwords, List.flatMap_append, List.flatMap_cons, List.flatMap_map]
    exact List.append_nil _
  · exact fun id hid => Release.apart hsorted hid
  · rw [← Release.mem_reported, hids]
    exact (Table.mem_keys_iff h.tidy.sorted).symm

end Pool

/-- Servers of which sessions can be closed, in every pool between two commands, shut down or not. -/
structure Remote.Closes (r : Remote ρ κ) : Prop where
  made : ∀ p : Pool ρ κ, p.Made r → p.Quiet
  kept : ∀ (d : Desk ρ κ) (i : Instruction), d.pool.Quiet → (d.obey r i).2.pool.Quiet
  closing : ∀ p : Pool ρ κ, p.Quiet → Pool.Closing r p

/-- Servers that hold no call up have every session closed, and none for the failure of another. -/
theorem Remote.Prompt.closes {r : Remote ρ κ} (hr : r.Prompt) : r.Closes where
  made _ hp := hp.quiet
  kept _ i h := Desk.obey_quiet hr h i
  closing _ h := {
    absent := fun _ hn => ⟨(Pool.runs_close_absent r hn).run, (Pool.runs_close_absent r hn).heard⟩
    live := fun _ _ hn => h.closed hr hn
    every := h.emptied hr }

/-- Two guests of whom one has played just once, and the other never; and one who comes when all is over. -/
theorem closes_parlour : tally.Closes ∧
    (((Desk.mk parlour []).after tally [.order (.invoke "game-a" "step" (.structured [])),
      .order (.obtain "game-b")]).pool.run tally Caller.closeAll).1 =
        .finished ⟨["game-b"], [.closeFailed "game-a" "just once"]⟩ ∧
    (((Desk.mk parlour []).after tally [.order (.shutdown 0), .order (.obtain "game-c")]).pool.run tally
      (Caller.close "game-c")).1 = .finished (.error (.closeFailed "game-c" "Bridge worker closed")) :=
  ⟨Remote.Prompt.closes (r := tally) fun _ _ _ => rfl, rfl, rfl⟩

end SessionPool
