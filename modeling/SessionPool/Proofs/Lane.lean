import Mathlib.Logic.Function.Basic
import SessionPool.Proofs.Interleaving

/-! Lanes: one session with the work that was sent for it, apart from all other sessions. The steps of a
    lane are those that the jobs of one session take in an interleaving; whatever a server says may be its
    word, and someone outside may mark the session ready. The main statement is that a lane is `Sound`:
    the first in line has the session to itself, and what a job has seen of the session stays true
    while it is first. -/

namespace SessionPool

/-- What happens in a lane. -/
inductive Note (κ : Type) where
  | arrived (ticket : Nat) (w : Work)
  | did (ticket : Nat) (d : Doing κ)

/-- A session, its work by tickets with the station of each, the jobs that wait for a word of the server,
    and those whose results are given. -/
structure Lane (κ : Type) where
  session : Session κ
  units : Nat → Option (Work × Station κ) := fun _ => none
  flying : Nat → Bool := fun _ => false
  told : Nat → Bool := fun _ => false

/-- Work that callers send: no call goes past the loader to load a state. -/
def Work.IsPlain : Work → Prop
  | .call operation _ => isLoad operation = false
  | _ => True

namespace Lane
variable {κ : Type}

/-- Puts work at a station. -/
def put (l : Lane κ) (t : Nat) (w : Work) (st : Station κ) : Lane κ :=
  { l with units := Function.update l.units t (some (w, st)) }

inductive Step (l : Lane κ) : Note κ → Lane κ → Prop where
  | arrive {t : Nat} {w : Work} (hw : w.IsPlain) (ht : ∀ u x, l.units u = some x → u < t) :
      Step l (.arrived t w) (l.put t w (.waiting w))
  | queue {t : Nat} {w w' : Work} (hu : l.units t = some (w, .waiting w'))
      (hl : (l.session.lined t).line.head? ≠ some t) :
      Step l (.did t .queued) { l with session := l.session.lined t }
  | move {t : Nat} {w : Work} {st : Station κ} {m : Move κ} {reply : m.Reply}
      (hu : l.units t = some (w, st)) (hm : st.move = some m) (ho : m.own? l.session = some reply)
      (hl : m = .lock → (l.session.lined t).line.head? = some t) :
      Step l (.did t (.moved m)) ({ l with session := l.session.after t m }.put t w (st.after m reply))
  | send {t : Nat} {w : Work} {st : Station κ} {m : Move κ} (hu : l.units t = some (w, st))
      (hm : st.move = some m) (hr : m.isRemote = true) (hf : l.flying t = false) :
      Step l (.did t (.sent m)) { l with flying := Function.update l.flying t true }
  | hear {t : Nat} {w : Work} {st : Station κ} {m : Move κ} {word : Word κ}
      (hu : l.units t = some (w, st)) (hm : st.move = some m) (hf : l.flying t = true)
      (hw : word.Fits l.session m) :
      Step l (.did t (.heard m word))
        ({ l with session := l.session.hear t word, flying := Function.update l.flying t false }.put t w
          (st.heard m word))
  | yield {t : Nat} {w : Work} {result : Except PoolError Yield}
      (hu : l.units t = some (w, .ended result)) (ht : l.told t = false) :
      Step l (.did t (.yielded result)) { l with told := Function.update l.told t true }

/-- Steps one after the other; `marks` says whether someone outside may mark the session ready. -/
inductive Steps (marks : Prop) (l : Lane κ) : List (Note κ) → Lane κ → Prop where
  | refl : Steps marks l [] l
  | step {past : List (Note κ)} {e : Note κ} {l₁ l₂ : Lane κ} (run : Steps marks l past l₁)
      (h : Step l₁ e l₂) : Steps marks l (past ++ [e]) l₂
  | mark {past : List (Note κ)} {l₁ : Lane κ} (hm : marks) (run : Steps marks l past l₁) :
      Steps marks l past { l₁ with session := { l₁.session with ready := true } }

/-- Steps from a new session. -/
def Run (marks : Prop) (id : String) (locator : Locator) : List (Note κ) → Lane κ → Prop :=
  Steps marks { session := { id := id, locator := locator } }

variable {marks : Prop} {id : String} {locator : Locator} {past later : List (Note κ)} {l l' : Lane κ}
  {e : Note κ}

/-- Steps are steps to each time between and steps from then on. -/
theorem Steps.split (run : Steps marks l (past ++ later) l') :
    ∃ l₁, Steps marks l past l₁ ∧ Steps marks l₁ later l' := by
  generalize hall : past ++ later = all at run
  induction run generalizing later with
  | refl =>
    obtain ⟨rfl, rfl⟩ := List.append_eq_nil_iff.1 hall
    exact ⟨_, .refl, .refl⟩
  | @step before x _ _ run h ih =>
    rcases List.eq_nil_or_concat later with rfl | ⟨later, y, rfl⟩
    · rw [List.append_nil] at hall
      subst hall
      exact ⟨_, .step run h, .refl⟩
    · rw [List.concat_eq_append, ← List.append_assoc] at hall
      obtain ⟨hbefore, hx⟩ := List.append_inj' hall rfl
      cases hx
      obtain ⟨l₁, run₁, run₂⟩ := ih hbefore
      exact ⟨l₁, run₁, List.concat_eq_append ▸ .step run₂ h⟩
  | mark hm run ih =>
    obtain ⟨l₁, run₁, run₂⟩ := ih hall
    exact ⟨l₁, run₁, .mark hm run₂⟩

theorem Steps.trans {l₁ : Lane κ} (run : Steps marks l past l₁) (run' : Steps marks l₁ later l') :
    Steps marks l (past ++ later) l' := by
  induction run' with
  | refl => rwa [List.append_nil]
  | step _ h ih => exact List.append_assoc .. ▸ ih.step h
  | mark hm _ ih => exact ih.mark hm

/-- Whatever happened was a step at its time. -/
theorem Steps.split_step (run : Steps marks l (past ++ e :: later) l') :
    ∃ l₁ l₂, Steps marks l past l₁ ∧ Step l₁ e l₂ ∧ Steps marks l₂ later l' := by
  rw [List.append_cons] at run
  obtain ⟨l₂, run, rest⟩ := run.split
  generalize hall : past ++ [e] = all at run
  induction run with
  | refl => simp at hall
  | @step before x _ _ run h ih =>
    obtain ⟨rfl, hx⟩ := List.append_inj' hall rfl
    cases hx
    exact ⟨_, _, run, h, rest⟩
  | mark hm run ih => exact ih (Steps.trans (.mark hm .refl) rest) hall

end Lane

/-! ### The line -/

/-- A line and the work whose jobs may stand in it: those inside are first, and the others in line wait
    for their turn. -/
structure Queued {κ : Type} (line : List Nat) (units : Nat → Option (Work × Station κ)) : Prop where
  nodup : line.Nodup
  known : ∀ t ∈ line, ∃ w st, units t = some (w, st) ∧ (st.isInside = true ∨ ∃ w', st = .waiting w')
  first : ∀ t w st, units t = some (w, st) → st.isInside = true → line.head? = some t

namespace Queued
variable {κ : Type} {line : List Nat} {units : Nat → Option (Work × Station κ)} {t : Nat} {w : Work}
  {st : Station κ}

theorem eq_of_inside (q : Queued line units) {u : Nat} {v : Work} {st' : Station κ}
    (ht : units t = some (w, st)) (hi : st.isInside = true) (hu : units u = some (v, st'))
    (hi' : st'.isInside = true) : t = u :=
  Option.some.inj ((q.first t w st ht hi).symm.trans (q.first u v st' hu hi'))

/-- Work arrives; it does not stand in line yet. -/
theorem arrive (q : Queued line units) (ht : units t = none) :
    Queued line (Function.update units t (some (w, .waiting w))) := by
  have hne : ∀ u ∈ line, u ≠ t := by
    rintro u hu rfl
    obtain ⟨_, _, h, _⟩ := q.known u hu
    rw [ht] at h
    cases h
  refine ⟨q.nodup, fun u hu => ?_, fun u v st' hu hi => ?_⟩
  · rw [Function.update_of_ne (hne u hu)]
    exact q.known u hu
  · by_cases h : u = t
    · subst h
      rw [Function.update_self] at hu
      cases hu
      cases hi
    · rw [Function.update_of_ne h] at hu
      exact q.first u v st' hu hi

/-- Work that waits stands in line. -/
theorem join (q : Queued line units) {w' : Work} (ht : units t = some (w, .waiting w')) :
    Queued (if line.contains t then line else line ++ [t]) units := by
  split
  · exact q
  rename_i hmem
  have hmem : t ∉ line := by simpa using hmem
  refine ⟨?_, fun u hu => ?_, fun u v st hu hi => ?_⟩
  · rw [List.nodup_append]
    exact ⟨q.nodup, by simp, by rintro a ha b hb rfl; simp at hb; exact hmem (hb ▸ ha)⟩
  · rcases List.mem_append.1 hu with hu | hu
    · exact q.known u hu
    · rw [List.mem_singleton] at hu
      exact ⟨w, .waiting w', hu ▸ ht, .inr ⟨w', rfl⟩⟩
  · rw [List.head?_append, q.first u v st hu hi]
    rfl

/-- The first in line is or stays inside. -/
theorem enter (q : Queued line units) (ht : line.head? = some t) (hst : st.isInside = true) :
    Queued line (Function.update units t (some (w, st))) := by
  refine ⟨q.nodup, fun u hu => ?_, fun u v st' hu hi => ?_⟩
  · by_cases h : u = t
    · exact ⟨w, st, by rw [h, Function.update_self], .inl hst⟩
    · rw [Function.update_of_ne h]
      exact q.known u hu
  · by_cases h : u = t
    · rw [h]; exact ht
    · rw [Function.update_of_ne h] at hu
      exact q.first u v st' hu hi

/-- The first in line leaves. -/
theorem leave (q : Queued line units) (ht : line.head? = some t) (hst : st.isInside = false) :
    Queued (line.erase t) (Function.update units t (some (w, st))) := by
  refine ⟨q.nodup.erase t, fun u hu => ?_, fun u v st' hu hi => ?_⟩
  · have h := (q.nodup.mem_erase_iff.1 hu)
    rw [Function.update_of_ne h.1]
    exact q.known u h.2
  · by_cases h : u = t
    · subst h
      rw [Function.update_self] at hu
      cases hu
      rw [hst] at hi
      cases hi
    · rw [Function.update_of_ne h] at hu
      exact absurd (Option.some.inj ((q.first u v st' hu hi).symm.trans ht)) h

/-- Someone outside of the line stays outside. -/
theorem pass (q : Queued line units) {st' : Station κ} (ht : units t = some (w, st))
    (hi : st.isInside = false) (hw : ∀ w', st ≠ .waiting w') (hst : st'.isInside = false) :
    Queued line (Function.update units t (some (w, st'))) := by
  have hne : ∀ u ∈ line, u ≠ t := by
    rintro u hu rfl
    obtain ⟨_, _, h, h'⟩ := q.known u hu
    rw [ht] at h
    cases h
    rcases h' with h' | ⟨w', h'⟩
    · rw [hi] at h'; cases h'
    · exact hw w' h'
  refine ⟨q.nodup, fun u hu => ?_, fun u v st'' hu hi => ?_⟩
  · rw [Function.update_of_ne (hne u hu)]
    exact q.known u hu
  · by_cases h : u = t
    · subst h
      rw [Function.update_self] at hu
      cases hu
      rw [hst] at hi
      cases hi
    · rw [Function.update_of_ne h] at hu
      exact q.first u v st'' hu hi

end Queued

/-! ### What a lane keeps -/

/-- The first in line has the session to itself, all work stands where it may, and what it has seen of
    the session is true; who waits for a word has asked for it, whose result is given has ended, and a
    closed session has no client. -/
structure Lane.Sound {κ : Type} (l : Lane κ) : Prop where
  queued : Queued l.session.line l.units
  works : ∀ t w st, l.units t = some (w, st) → w.IsPlain ∧ st.In w
  knows : ∀ t w st, l.units t = some (w, st) → st.Knows l.session
  flight : ∀ t, l.flying t = true → ∃ w st m, l.units t = some (w, st) ∧ st.move = some m ∧ m.isRemote = true
  told : ∀ t, l.told t = true → ∃ w result, l.units t = some (w, .ended result)
  vacant : l.session.closed = true → l.session.client = none

namespace Lane
variable {κ : Type} {marks : Prop} {id : String} {locator : Locator} {past : List (Note κ)}
  {l l' : Lane κ} {e : Note κ} {t u : Nat} {w v : Work} {st st' : Station κ}

theorem put_self (l : Lane κ) (t : Nat) (w : Work) (st : Station κ) :
    (l.put t w st).units t = some (w, st) := Function.update_self ..

theorem put_of_ne (l : Lane κ) (h : u ≠ t) : (l.put t w st).units u = l.units u :=
  Function.update_of_ne h ..

theorem put_cases (h : (l.put t w st).units u = some (v, st')) :
    (u = t ∧ v = w ∧ st' = st) ∨ (u ≠ t ∧ l.units u = some (v, st')) := by
  by_cases hu : u = t
  · rw [hu, put_self, Option.some.injEq, Prod.mk.injEq] at h
    exact .inl ⟨hu, h.1.symm, h.2.symm⟩
  · rw [put_of_ne l hu] at h
    exact .inr ⟨hu, h⟩

theorem Sound.outside_of_ne (hl : l.Sound) (ht : l.units t = some (w, st)) (hst : st.isInside = true)
    (hu : l.units u = some (v, st')) (hne : u ≠ t) : st'.isInside = false := by
  cases h : st'.isInside with
  | false => rfl
  | true => exact absurd (hl.queued.eq_of_inside hu h ht hst) hne

/-- What everyone else knows stays true when the one inside moves. -/
theorem Sound.knows_others (hl : l.Sound) (ht : l.units t = some (w, st)) (hst : st.isInside = true)
    (hu : l.units u = some (v, st')) (hne : u ≠ t) {s' : Session κ} (hi : s'.id = l.session.id)
    (hc : l.session.closed = true → s'.closed = true) : st'.Knows s' :=
  Station.knows_outside (hl.knows u v st' hu) (hl.outside_of_ne ht hst hu hne) hi hc

/-- Who makes a move within the pool waits for no word. -/
theorem Sound.not_flying (hl : l.Sound) {m : Move κ} (ht : l.units t = some (w, st))
    (hm : st.move = some m) (hr : m.isRemote = false) : l.flying t = false := by
  cases hf : l.flying t with
  | false => rfl
  | true =>
    obtain ⟨w', st', m', ht', hm', hr'⟩ := hl.flight t hf
    rw [ht] at ht'
    cases ht'
    rw [hm] at hm'
    cases hm'
    rw [hr] at hr'
    cases hr'

theorem units_of_arrive (ht : ∀ u x, l.units u = some x → u < t) : l.units t = none := by
  cases h : l.units t with
  | none => rfl
  | some x => exact absurd (ht t x h) (Nat.lt_irrefl t)

/-- Work whose result is given makes no move any more. -/
theorem Sound.told_of_ne (hl : l.Sound) {m : Move κ} (ht : l.units t = some (w, st))
    (hm : st.move = some m) (hu : l.told u = true) : u ≠ t := by
  rintro rfl
  obtain ⟨w', result, hu'⟩ := hl.told u hu
  rw [ht] at hu'
  cases hu'
  cases hm

theorem Sound.told_move (hl : l.Sound) {m : Move κ} (ht : l.units t = some (w, st))
    (hm : st.move = some m) (hu : l.told u = true) :
    ∃ v result, (l.put t w st').units u = some (v, .ended result) := by
  obtain ⟨v, result, hv⟩ := hl.told u hu
  exact ⟨v, result, (put_of_ne l (hl.told_of_ne ht hm hu)).trans hv⟩

theorem Sound.step (hl : l.Sound) (h : Step l e l') : l'.Sound := by
  cases h with
  | @arrive t w hw ht =>
    have hnone := units_of_arrive ht
    refine ⟨hl.queued.arrive hnone, fun u v st hu => ?_, fun u v st hu => ?_, fun u hu => ?_,
      fun u hu => ?_, hl.vacant⟩
    · rcases put_cases hu with ⟨rfl, rfl, rfl⟩ | ⟨-, hu⟩
      · exact ⟨hw, rfl⟩
      · exact hl.works u v st hu
    · rcases put_cases hu with ⟨rfl, rfl, rfl⟩ | ⟨-, hu⟩
      · exact trivial
      · exact hl.knows u v st hu
    · obtain ⟨v, st, m, hu', hst⟩ := hl.flight u hu
      have hne : u ≠ t := by rintro rfl; rw [hnone] at hu'; cases hu'
      exact ⟨v, st, m, (put_of_ne l hne).trans hu', hst⟩
    · obtain ⟨v, result, hv⟩ := hl.told u hu
      have hne : u ≠ t := by rintro rfl; rw [hnone] at hv; cases hv
      exact ⟨v, result, (put_of_ne l hne).trans hv⟩
  | @queue t w w' hu hline =>
    refine ⟨hl.queued.join hu, hl.works, fun u v st hu' => ?_, hl.flight, hl.told, hl.vacant⟩
    exact (Station.knows_congr rfl rfl rfl).mpr (hl.knows u v st hu')
  | @move t w st m reply hu hm ho hline =>
    have hf := hl.not_flying hu hm (Move.isRemote_of_own ho)
    refine ⟨?_, fun u v st' hu' => ?_, fun u v st' hu' => ?_, fun u hu' => ?_,
      fun u hu' => hl.told_move hu hm hu', Session.after_vacant m t hl.vacant⟩
    · rcases Station.own_cases hm ho with ⟨rfl, ⟨w', rfl⟩, hin⟩ | ⟨rfl, hin, hout⟩ | ⟨hin, hin', hsame⟩
      · exact (hl.queued.join hu).enter (hline rfl) hin
      · exact hl.queued.leave (hl.queued.first t w st hu hin) hout
      · show Queued (l.session.after t m).line _
        rw [hsame t]
        exact hl.queued.enter (hl.queued.first t w st hu hin) hin'
    · rcases put_cases hu' with ⟨rfl, rfl, rfl⟩ | ⟨-, hv⟩
      · exact ⟨(hl.works _ _ _ hu).1, Station.in_after (hl.works _ _ _ hu).2 hm reply⟩
      · exact hl.works u v st' hv
    · rcases put_cases hu' with ⟨rfl, rfl, rfl⟩ | ⟨hne, hv⟩
      · exact Station.knows_after (hl.knows _ _ _ hu) hm ho
      · have hi := Session.after_id l.session t m
        rcases Station.own_cases hm ho with ⟨rfl, -⟩ | ⟨-, hin, -⟩ | ⟨hin, -⟩
        · exact (Station.knows_congr rfl rfl rfl).mpr (hl.knows u v st' hv)
        · exact hl.knows_others hu hin hv hne hi (Session.after_closed m t)
        · exact hl.knows_others hu hin hv hne hi (Session.after_closed m t)
    · have hne : u ≠ t := by rintro rfl; exact absurd hu' (by simp [put, hf])
      obtain ⟨v, st', m', hv, hst'⟩ := hl.flight u hu'
      exact ⟨v, st', m', (put_of_ne l hne).trans hv, hst'⟩
  | @send t w st m hu hm hr hf =>
    refine ⟨hl.queued, hl.works, hl.knows, fun u hu' => ?_, hl.told, hl.vacant⟩
    by_cases h : u = t
    · exact ⟨w, st, m, h ▸ hu, hm, hr⟩
    · exact hl.flight u ((Function.update_of_ne h ..).symm.trans hu')
  | @hear t w st m word hu hm hf hw =>
    have hi := Session.hear_id l.session t word
    have hc := Session.hear_closed l.session t word
    have hcases := Station.heard_cases (t := t) hm hw
    refine ⟨?_, fun u v st' hu' => ?_, fun u v st' hu' => ?_, fun u hu' => ?_,
      fun u hu' => hl.told_move hu hm hu', fun hclosed => ?_⟩
    · rcases hcases with ⟨hin, hin', hsame⟩ | ⟨hin, hdead, hsame⟩ | ⟨i, c, reply, rfl, rfl⟩
      · show Queued (l.session.hear t word).line _
        rw [hsame]
        exact hl.queued.enter (hl.queued.first t w st hu hin) hin'
      · show Queued (l.session.hear t word).line _
        rw [hsame, hdead]
        exact hl.queued.leave (hl.queued.first t w st hu hin) rfl
      · refine hl.queued.pass hu rfl nofun ?_
        cases hm
        rfl
    · rcases put_cases hu' with ⟨rfl, rfl, rfl⟩ | ⟨-, hv⟩
      · exact ⟨(hl.works _ _ _ hu).1, Station.in_heard (hl.works _ _ _ hu).2 hm word⟩
      · exact hl.works u v st' hv
    · rcases put_cases hu' with ⟨rfl, rfl, rfl⟩ | ⟨hne, hv⟩
      · exact Station.knows_heard (hl.knows _ _ _ hu) hm hw
      · rcases hcases with ⟨hin, -⟩ | ⟨hin, -⟩ | ⟨i, c, reply, -, rfl⟩
        · exact hl.knows_others hu hin hv hne hi hc.trans
        · exact hl.knows_others hu hin hv hne hi hc.trans
        · exact hl.knows u v st' hv
    · have hne : u ≠ t := by rintro rfl; exact absurd hu' (by simp [put])
      have hfu : l.flying u = true := (Function.update_of_ne hne ..).symm.trans hu'
      obtain ⟨v, st', m', hv, hst'⟩ := hl.flight u hfu
      exact ⟨v, st', m', (put_of_ne l hne).trans hv, hst'⟩
    · replace hclosed : l.session.closed = true := hc.symm.trans hclosed
      rcases hcases with ⟨hin, -⟩ | ⟨hin, -⟩ | ⟨i, c, reply, -, rfl⟩
      · exact absurd (Station.open_of_remote (hl.knows t w st hu) hm hw.isRemote hin) (by simp [hclosed])
      · exact absurd (Station.open_of_remote (hl.knows t w st hu) hm hw.isRemote hin) (by simp [hclosed])
      · exact hl.vacant hclosed
  | @yield t w result hu ht =>
    refine ⟨hl.queued, hl.works, hl.knows, hl.flight, fun u hu' => ?_, hl.vacant⟩
    by_cases h : u = t
    · exact ⟨w, result, h ▸ hu⟩
    · exact hl.told u ((Function.update_of_ne h ..).symm.trans hu')

theorem Steps.sound (run : Steps marks l past l') (hl : l.Sound) : l'.Sound := by
  induction run with
  | refl => exact hl
  | step _ h ih => exact ih.step h
  | mark _ _ ih =>
    exact ⟨ih.queued, ih.works, fun u v st hu => (Station.knows_congr rfl rfl rfl).mpr (ih.knows u v st hu),
      ih.flight, ih.told, ih.vacant⟩

theorem Run.sound (run : Run marks id locator past l) : l.Sound :=
  Steps.sound run ⟨⟨.nil, fun _ h => (nomatch h), fun _ _ _ h => (nomatch h)⟩, fun _ _ _ h => (nomatch h),
    fun _ _ _ h => (nomatch h), fun _ h => (nomatch h), fun _ h => (nomatch h), fun _ => rfl⟩

/-- A session keeps its id and its locator. -/
theorem Step.session_names (h : Step l e l') :
    l'.session.id = l.session.id ∧ l'.session.locator = l.session.locator := by
  cases h with
  | move _ _ _ _ => exact ⟨Session.after_id .., Session.after_locator ..⟩
  | hear _ _ _ _ => exact ⟨Session.hear_id .., Session.hear_locator ..⟩
  | arrive _ _ | queue _ _ | send _ _ _ _ | yield _ _ => exact ⟨rfl, rfl⟩

/-- What a job does concerns no other job. -/
theorem Step.others {d : Doing κ} (h : Step l (.did t d) l') (hu : u ≠ t) :
    l'.units u = l.units u ∧ l'.flying u = l.flying u ∧ l'.told u = l.told u := by
  cases h with
  | queue _ _ => exact ⟨rfl, rfl, rfl⟩
  | move _ _ _ _ => exact ⟨put_of_ne _ hu, rfl, rfl⟩
  | send _ _ _ _ => exact ⟨rfl, Function.update_of_ne hu .., rfl⟩
  | hear _ _ _ _ => exact ⟨put_of_ne _ hu, Function.update_of_ne hu .., rfl⟩
  | yield _ _ => exact ⟨rfl, rfl, Function.update_of_ne hu ..⟩

/-- Work keeps its ticket. -/
theorem Step.units_of_some (h : Step l e l') (ht : l.units t = some (w, st)) :
    ∃ st', l'.units t = some (w, st') := by
  have hput : ∀ {l₁ : Lane κ} {u v st'}, l₁.units = l.units → l.units u = some (v, st') →
      ∀ st'', ∃ st', (l₁.put u v st'').units t = some (w, st') := by
    intro l₁ u v st' hl₁ hu st''
    by_cases h : t = u
    · subst h
      rw [ht] at hu
      cases hu
      exact ⟨st'', put_self ..⟩
    · exact ⟨st, by rw [put_of_ne l₁ h, hl₁, ht]⟩
  cases h with
  | @arrive u v hv hu =>
    have hne : t ≠ u := by rintro rfl; rw [units_of_arrive hu] at ht; cases ht
    exact ⟨st, (put_of_ne l hne).trans ht⟩
  | move hu _ _ _ => exact hput rfl hu _
  | hear hu _ _ _ => exact hput rfl hu _
  | queue _ _ | send _ _ _ _ | yield _ _ => exact ⟨st, ht⟩

theorem Steps.units_of_some (run : Steps marks l past l') (ht : l.units t = some (w, st)) :
    ∃ st', l'.units t = some (w, st') := by
  induction run with
  | refl => exact ⟨st, ht⟩
  | step _ h ih =>
    obtain ⟨st', h'⟩ := ih
    exact h.units_of_some h'
  | mark _ _ ih => exact ih

end Lane
end SessionPool
