import Mathlib.Data.List.Basic
import SessionPool.Proofs.Turns

/-! Serial runs: jobs of a session one after the other, in the order in which they were sent, where each
    makes all its moves before the next one makes its first. Nobody has to stand in line then. The main
    statement about lanes is that a run in which work starts in the order of its arrival comes to the same
    as its work in series: every job has made the same moves with the same replies. -/

namespace SessionPool

/-- A session without its line. -/
def Session.calm {κ : Type} (s : Session κ) : Session κ := { s with line := [] }

/-- Work with its ticket, when it arrives. -/
def Note.arrival? {κ : Type} : Note κ → Option (Nat × Work)
  | .arrived t w => some (t, w)
  | _ => none

/-- The work that arrived, in order. -/
def arrivals {κ : Type} (past : List (Note κ)) : List (Nat × Work) := past.filterMap Note.arrival?

/-- How a job goes on. -/
def Note.turn? {κ : Type} (t : Nat) : Note κ → Option (Doing κ)
  | .did u d => if u = t ∧ d.isTurn = true then some d else none
  | _ => none

/-- How a job went on, step by step. -/
def turns {κ : Type} (t : Nat) (past : List (Note κ)) : List (Doing κ) := past.filterMap (Note.turn? t)

/-- A turn of any job that is seen outside of the session. -/
def Note.seen? {κ : Type} : Note κ → Option (Doing κ)
  | .did _ d => if d.isTurn && d.isSeen then some d else none
  | _ => none

/-- The turns that are seen outside of the session, in order. -/
def seen {κ : Type} (past : List (Note κ)) : List (Doing κ) := past.filterMap Note.seen?

section
variable {κ : Type} {past : List (Note κ)} {e : Note κ} {t u : Nat} {w : Work} {d : Doing κ}

theorem arrivals_append (past : List (Note κ)) (e : Note κ) :
    arrivals (past ++ [e]) = arrivals past ++ e.arrival?.toList := by
  rw [arrivals, List.filterMap_append]
  cases h : e.arrival? <;> simp [h, arrivals]

theorem turns_append (t : Nat) (past : List (Note κ)) (e : Note κ) :
    turns t (past ++ [e]) = turns t past ++ (e.turn? t).toList := by
  rw [turns, List.filterMap_append]
  cases h : e.turn? t <;> simp [h, turns]

theorem seen_append (past : List (Note κ)) (e : Note κ) :
    seen (past ++ [e]) = seen past ++ e.seen?.toList := by
  rw [seen, List.filterMap_append]
  cases h : e.seen? <;> simp [h, seen]

theorem mem_arrivals : (t, w) ∈ arrivals past ↔ .arrived t w ∈ past := by
  rw [arrivals, List.mem_filterMap]
  constructor
  · rintro ⟨e, he, h⟩
    cases e with
    | arrived _ _ => cases h; exact he
    | did _ _ => cases h
  · exact fun h => ⟨_, h, rfl⟩

theorem mem_turns : d ∈ turns t past ↔ .did t d ∈ past ∧ d.isTurn = true := by
  rw [turns, List.mem_filterMap]
  constructor
  · rintro ⟨e, he, h⟩
    cases e with
    | arrived _ _ => cases h
    | did u d' =>
      simp only [Note.turn?] at h
      split at h
      · rename_i hu
        cases h
        exact ⟨hu.1 ▸ he, hu.2⟩
      · cases h
  · exact fun h => ⟨_, h.1, if_pos ⟨rfl, h.2⟩⟩

end

/-! ### One job alone -/

/-- What work does on a session that nobody else moves on meanwhile: the session and the station to which
    the turns that it takes lead. -/
inductive Alone {κ : Type} (t : Nat) (w : Work) (s : Session κ) :
    List (Doing κ) → Session κ → Station κ → Prop where
  | start : Alone t w s [] s (.waiting w)
  | move {ds : List (Doing κ)} {s' : Session κ} {st : Station κ} {m : Move κ} {reply : m.Reply}
      (alone : Alone t w s ds s' st) (hm : st.move = some m) (ho : m.own? s' = some reply)
      (hl : m = .lock → s'.line = []) :
      Alone t w s (ds ++ [.moved m]) (s'.after t m) (st.after m reply)
  | hear {ds : List (Doing κ)} {s' : Session κ} {st : Station κ} {m : Move κ} {word : Word κ}
      (alone : Alone t w s ds s' st) (hm : st.move = some m) (hw : word.Fits s' m)
      (hc : word ≠ .missing) :
      Alone t w s (ds ++ [.heard m word]) (s'.hear t word) (st.heard m word)

namespace Alone
variable {κ : Type} {s s' : Session κ} {t : Nat} {w : Work} {st : Station κ} {ds : List (Doing κ)}

/-- Who has done nothing has changed nothing. -/
theorem eq_of_idle (h : Alone t w s [] s' st) : s' = s ∧ st = .waiting w := by
  generalize hds : [] = ds at h
  cases h with
  | start => exact ⟨rfl, rfl⟩
  | move _ _ _ _ | hear _ _ _ _ => simp at hds

/-- Alone one stands in line by oneself, and only while one is inside. -/
theorem line (h : Alone t w s ds s' st) (hs : s.line = []) :
    s'.line = if st.isInside then [t] else [] := by
  induction h with
  | start => exact hs
  | move _ hm ho _ ih => exact Station.line_after hm ho ih
  | hear _ hm hw _ ih => exact Station.line_heard hm hw ih

end Alone

/-! ### One job after the other -/

/-- Work on a session, each alone after the one before, by the turns that it takes and to the station where
    it is. -/
def Chain {κ : Type} (ds : Nat → List (Doing κ)) (units : Nat → Option (Work × Station κ)) :
    Session κ → List (Nat × Work) → Session κ → Prop
  | s, [], s' => s' = s
  | s, (t, w) :: rest, s' =>
    ∃ s₁ st, units t = some (w, st) ∧ Alone t w s (ds t) s₁ st ∧ Chain ds units s₁ rest s'

namespace Chain
variable {κ : Type} {s s' : Session κ} {t : Nat} {w : Work} {st st' : Station κ}
  {ds ds' : Nat → List (Doing κ)} {units units' : Nat → Option (Work × Station κ)}
  {legs pre post : List (Nat × Work)}

theorem append : ∀ {s : Session κ} {pre : List (Nat × Work)},
    Chain ds units s (pre ++ post) s' ↔ ∃ s₁, Chain ds units s pre s₁ ∧ Chain ds units s₁ post s'
  | s, [] => ⟨fun h => ⟨s, rfl, h⟩, fun ⟨_, h, h'⟩ => h ▸ h'⟩
  | s, (t, w) :: pre => by
    constructor
    · rintro ⟨s₁, st, ht, alone, rest⟩
      obtain ⟨s₂, h, h'⟩ := append.1 rest
      exact ⟨s₂, ⟨s₁, st, ht, alone, h⟩, h'⟩
    · rintro ⟨s₂, ⟨s₁, st, ht, alone, h⟩, h'⟩
      exact ⟨s₁, st, ht, alone, append.2 ⟨s₂, h, h'⟩⟩

theorem congr : ∀ {s : Session κ} {legs : List (Nat × Work)},
    (∀ x ∈ legs, ds' x.1 = ds x.1 ∧ units' x.1 = units x.1) → Chain ds units s legs s' →
    Chain ds' units' s legs s'
  | _, [], _, h => h
  | _, (t, w) :: rest, hsame, ⟨s₁, st, ht, alone, h⟩ => by
    obtain ⟨hds, hunits⟩ := hsame (t, w) (List.mem_cons_self ..)
    refine ⟨s₁, st, hunits.trans ht, ?_, congr (fun x hx => hsame x (List.mem_cons_of_mem _ hx)) h⟩
    rw [show ds' t = ds t from hds]
    exact alone

/-- Who has done nothing has changed nothing. -/
theorem eq_of_idle : ∀ {s : Session κ} {legs : List (Nat × Work)},
    (∀ x ∈ legs, ds x.1 = []) → Chain ds units s legs s' → s' = s
  | _, [], _, h => h
  | _, (t, w) :: rest, hidle, ⟨s₁, st, _, alone, h⟩ => by
    rw [hidle (t, w) (List.mem_cons_self ..)] at alone
    exact (eq_of_idle (fun x hx => hidle x (List.mem_cons_of_mem _ hx)) h).trans alone.eq_of_idle.1

theorem of_idle : ∀ {s : Session κ} {legs : List (Nat × Work)},
    (∀ x ∈ legs, ds x.1 = []) → Chain ds units s legs s' → ∀ s₁, Chain ds units s₁ legs s₁
  | _, [], _, _, _ => rfl
  | _, (t, w) :: rest, hidle, ⟨s₁, st, ht, alone, h⟩, s₂ => by
    have hnone : ds t = [] := hidle (t, w) (List.mem_cons_self ..)
    rw [hnone] at alone
    obtain ⟨-, rfl⟩ := alone.eq_of_idle
    exact ⟨s₂, _, ht, hnone ▸ .start, of_idle (fun x hx => hidle x (List.mem_cons_of_mem _ hx)) h s₂⟩

/-- Nobody stays in line when all work is over. -/
theorem line : ∀ {s : Session κ} {legs : List (Nat × Work)},
    (∀ x ∈ legs, ∀ w st, units x.1 = some (w, st) → st.isOver = true) → s.line = [] →
    Chain ds units s legs s' → s'.line = []
  | _, [], _, hs, h => h ▸ hs
  | _, (t, w) :: rest, hover, hs, ⟨s₁, st, ht, alone, h⟩ => by
    refine line (fun x hx => hover x (List.mem_cons_of_mem _ hx)) ?_ h
    have hst := hover (t, w) (List.mem_cons_self ..) w st ht
    rw [alone.line hs]
    cases st with
    | closing _ _ | ended _ | dead => rfl
    | _ => cases hst

/-- A chain around one job, with which it can be closed again when that job has gone on. -/
theorem around (h : Chain ds units s (pre ++ (t, w) :: post) s') (ht : units t = some (w, st))
    (hpre : ∀ x ∈ pre, x.1 ≠ t) (hpost : ∀ x ∈ post, x.1 ≠ t) :
    ∃ s₁ s₂, Chain ds units s pre s₁ ∧ Alone t w s₁ (ds t) s₂ st ∧ Chain ds units s₂ post s' ∧
      ∀ ds' units' s₃ s₃', (∀ u, u ≠ t → ds' u = ds u ∧ units' u = units u) →
        units' t = some (w, st') → Alone t w s₁ (ds' t) s₃ st' → Chain ds units s₃ post s₃' →
        Chain ds' units' s (pre ++ (t, w) :: post) s₃' := by
  obtain ⟨s₁, hbefore, s₂, st₁, ht₁, alone, hafter⟩ := append.1 h
  rw [ht, Option.some.injEq, Prod.mk.injEq] at ht₁
  obtain ⟨-, rfl⟩ := ht₁
  refine ⟨s₁, s₂, hbefore, alone, hafter, fun ds' units' s₃ s₃' hsame ht' alone' hafter' => ?_⟩
  refine append.2 ⟨s₁, hbefore.congr fun x hx => hsame _ (hpre x hx), s₃, st', ht', alone', ?_⟩
  exact hafter'.congr fun x hx => hsame _ (hpost x hx)

end Chain

/-- What a move gives does not depend on the line. -/
theorem Move.own_calm {κ : Type} {s s' : Session κ} {m : Move κ} {reply : m.Reply}
    (hs : s'.calm = s.calm) (ho : m.own? s = some reply) :
    ∃ reply', m.own? s' = some reply' ∧ ∀ st : Station κ, st.after m reply' = st.after m reply := by
  obtain ⟨id, locator, ready, closed, client, line⟩ := s
  obtain ⟨id', locator', ready', closed', client', line'⟩ := s'
  cases hs
  cases m with
  | look =>
    cases ho
    refine ⟨_, rfl, fun st => ?_⟩
    cases st with
    | parting _ client => cases client <;> rfl
    | _ => rfl
  | connect | call _ _ | close _ => cases ho
  | _ => cases ho; exact ⟨_, rfl, fun _ => rfl⟩

namespace Session
variable {κ : Type} {s s' : Session κ}

theorem after_calm (t u : Nat) (m : Move κ) (hs : s'.calm = s.calm) :
    (s'.after u m).calm = (s.after t m).calm := by
  obtain ⟨id, locator, ready, closed, client, line⟩ := s
  obtain ⟨id', locator', ready', closed', client', line'⟩ := s'
  cases hs
  cases m <;> rfl

theorem hear_calm (t u : Nat) (word : Word κ) (hs : s'.calm = s.calm) :
    (s'.hear u word).calm = (s.hear t word).calm := by
  obtain ⟨id, locator, ready, closed, client, line⟩ := s
  obtain ⟨id', locator', ready', closed', client', line'⟩ := s'
  cases hs
  unfold hear
  split <;> rfl

theorem ready_calm (hs : s'.calm = s.calm) : s'.ready = s.ready := by
  show s'.calm.ready = s.calm.ready
  rw [hs]

theorem closed_calm (hs : s'.calm = s.calm) : s'.closed = s.closed := by
  show s'.calm.closed = s.calm.closed
  rw [hs]

theorem client_calm (hs : s'.calm = s.calm) : s'.client = s.client := by
  show s'.calm.client = s.calm.client
  rw [hs]

end Session

theorem Word.Fits.calm {κ : Type} {s s' : Session κ} {m : Move κ} {word : Word κ} (hs : s'.calm = s.calm)
    (h : word.Fits s m) : word.Fits s' m := by
  cases m with
  | call _ _ =>
    have hclient := Session.client_calm hs
    cases word with
    | answered _ _ =>
      show s'.client.isSome = true
      rw [hclient]
      exact h
    | missing => exact hclient.trans h
    | _ => exact h
  | connect | close _ => cases word <;> exact h
  | _ => exact h

namespace Lane
variable {κ : Type} {marks : Prop} {id : String} {locator : Locator} {past later : List (Note κ)}
  {l l' : Lane κ} {e : Note κ} {t u : Nat} {w v w' : Work} {st st' : Station κ} {d : Doing κ}
  {s : Session κ}

/-- Work arrives in the order of tickets. -/
theorem Run.arrivals_sorted (run : Run marks id locator past l) :
    (arrivals past).Pairwise fun a b => a.1 < b.1 := by
  induction run with
  | refl => exact .nil
  | @step past e l₁ l₂ run h ih =>
    rw [arrivals_append]
    refine List.pairwise_append.2 ⟨ih, ?_, fun a ha b hb => ?_⟩
    · cases e.arrival? <;> simp
    · cases h with
      | arrive _ ht =>
        rw [List.mem_singleton.1 hb]
        obtain ⟨st, hu⟩ := (Run.arrived_iff run).1 (mem_arrivals.1 ha)
        exact ht _ _ hu
      | queue _ _ | move _ _ _ _ | send _ _ _ _ | hear _ _ _ _ | yield _ _ => cases hb
  | mark _ _ ih => exact ih

/-- Who waits has not gone on yet. -/
theorem Run.turns_of_waiting (run : Run marks id locator past l)
    (hu : l.units u = some (v, .waiting w')) : turns u past = [] := by
  rw [List.eq_nil_iff_forall_not_mem]
  intro d hd
  obtain ⟨hpast, hturn⟩ := mem_turns.1 hd
  rw [run.of_waiting hu hpast] at hturn
  cases hturn

/-- The work of a lane in series comes to the same: to the session but for its line, and to what is seen
    outside. -/
structure InSeries (l : Lane κ) (s : Session κ) (past : List (Note κ)) : Prop where
  chain : ∃ s', Chain (turns · past) l.units s (arrivals past) s' ∧ s'.calm = l.session.calm
  seen : seen past = (arrivals past).flatMap fun x => (turns x.1 past).filter Doing.isSeen

/-- Nothing else changes the series. -/
theorem InSeries.quiet (h : InSeries l s past) (ha : e.arrival? = none) (ht : ∀ t, e.turn? t = none)
    (hs : e.seen? = none) (hunits : l'.units = l.units) (hcalm : l'.session.calm = l.session.calm) :
    InSeries l' s (past ++ [e]) := by
  have hturns : ∀ t, turns t (past ++ [e]) = turns t past := fun t => by
    rw [turns_append, ht]
    exact List.append_nil _
  have harrivals : arrivals (past ++ [e]) = arrivals past := by
    rw [arrivals_append, ha]
    exact List.append_nil _
  obtain ⟨s', hchain, hs'⟩ := h.chain
  refine ⟨⟨s', ?_, hs'.trans hcalm.symm⟩, ?_⟩
  · simp only [harrivals, hturns, hunits]
    exact hchain
  · rw [seen_append, hs, harrivals]
    simp only [hturns]
    exact (List.append_nil _).trans h.seen

/-- Work that arrives is last. -/
theorem InSeries.arrive (h : InSeries l s past) (hunits : ∀ u x, l.units u = some x → u < t)
    (hknown : ∀ x ∈ arrivals past, ∃ st, l.units x.1 = some (x.2, st)) (hnone : turns t past = []) :
    InSeries (l.put t w (.waiting w)) s (past ++ [.arrived t w]) := by
  have hturns : ∀ u, turns u (past ++ [.arrived t w]) = turns u past := fun u => by
    rw [turns_append]
    exact List.append_nil _
  have harrivals : arrivals (past ++ [.arrived t w]) = arrivals past ++ [(t, w)] := arrivals_append ..
  obtain ⟨s', hchain, hs'⟩ := h.chain
  refine ⟨⟨s', ?_, hs'⟩, ?_⟩
  · simp only [harrivals, hturns]
    refine Chain.append.2 ⟨s', hchain.congr fun x hx => ⟨rfl, ?_⟩, s', _, put_self .., ?_, rfl⟩
    · obtain ⟨st, hu⟩ := hknown x hx
      exact put_of_ne l (Nat.ne_of_lt (hunits _ _ hu))
    · rw [show (turns · past) t = [] from hnone]
      exact .start
  · rw [seen_append, harrivals, List.flatMap_append]
    simp only [hturns, hnone, List.flatMap_cons]
    exact congrArg (· ++ []) h.seen

/-- Work that goes on does so in its place. -/
theorem InSeries.turn (h : InSeries l s past) (hline : s.line = [])
    (hsorted : (arrivals past).Pairwise fun a b => a.1 < b.1) (hmem : (t, w) ∈ arrivals past)
    (ht : l.units t = some (w, st)) (ht' : l'.units t = some (w, st'))
    (hunits : ∀ u, u ≠ t → l'.units u = l.units u) (hd : d.isTurn = true)
    (hover : ∀ u v z, u < t → l.units u = some (v, z) → z.isOver = true)
    (hunseen : d.isSeen = true → ∀ u, t < u → (turns u past).filter Doing.isSeen = [])
    (hgo : ∀ s₁ s₂ s' post, s₁.line = [] → (∀ x ∈ post, t < x.1) → Alone t w s₁ (turns t past) s₂ st →
      Chain (turns · past) l.units s₂ post s' → s'.calm = l.session.calm →
      ∃ s₃ s₃', Alone t w s₁ (turns t past ++ [d]) s₃ st' ∧
        Chain (turns · past) l.units s₃ post s₃' ∧ s₃'.calm = l'.session.calm) :
    InSeries l' s (past ++ [.did t d]) := by
  have hself : turns t (past ++ [.did t d]) = turns t past ++ [d] := by
    rw [turns_append, show Note.turn? t (.did t d) = some d from if_pos ⟨rfl, hd⟩]
    rfl
  have hothers : ∀ u, u ≠ t → turns u (past ++ [.did t d]) = turns u past := fun u hu => by
    rw [turns_append, show Note.turn? u (.did t d) = none from if_neg fun h => hu h.1.symm]
    exact List.append_nil _
  have harrivals : arrivals (past ++ [.did t d]) = arrivals past := by
    rw [arrivals_append]
    exact List.append_nil _
  obtain ⟨pre, post, heq⟩ := List.append_of_mem hmem
  rw [heq] at hsorted
  obtain ⟨-, hafter, hbefore⟩ := List.pairwise_append.1 hsorted
  have hpre : ∀ x ∈ pre, x.1 < t := fun x hx => hbefore x hx _ (List.mem_cons_self ..)
  have hpost : ∀ x ∈ post, t < x.1 := (List.pairwise_cons.1 hafter).1
  obtain ⟨s', hchain, hs'⟩ := h.chain
  rw [heq] at hchain
  obtain ⟨s₁, s₂, hfirst, alone, hlast, hclose⟩ := hchain.around ht
    (fun x hx => Nat.ne_of_lt (hpre x hx)) (fun x hx => Nat.ne_of_gt (hpost x hx))
  have hs₁ : s₁.line = [] := hfirst.line (fun x hx v z => hover x.1 v z (hpre x hx)) hline
  obtain ⟨s₃, s₃', alone', hlast', hcalm⟩ := hgo s₁ s₂ s' post hs₁ hpost alone hlast hs'
  refine ⟨⟨s₃', ?_, hcalm⟩, ?_⟩
  · rw [harrivals, heq]
    exact hclose _ _ s₃ s₃' (fun u hu => ⟨hothers u hu, hunits u hu⟩) ht' (hself.symm ▸ alone') hlast'
  · have hbefore : pre.flatMap (fun x => (turns x.1 (past ++ [.did t d])).filter Doing.isSeen) =
        pre.flatMap fun x => (turns x.1 past).filter Doing.isSeen :=
      List.flatMap_congr fun x hx => by rw [hothers _ (Nat.ne_of_lt (hpre x hx))]
    have hafter : post.flatMap (fun x => (turns x.1 (past ++ [.did t d])).filter Doing.isSeen) =
        post.flatMap fun x => (turns x.1 past).filter Doing.isSeen :=
      List.flatMap_congr fun x hx => by rw [hothers _ (Nat.ne_of_gt (hpost x hx))]
    rw [harrivals, seen_append, h.seen, heq, List.flatMap_append, List.flatMap_append, List.flatMap_cons,
      List.flatMap_cons, hbefore, hafter, hself, List.filter_append, List.append_assoc]
    congr 1
    cases hseen : d.isSeen with
    | false => simp [Note.seen?, hseen]
    | true =>
      have hnil : (post.flatMap fun x => (turns x.1 past).filter Doing.isSeen) = [] :=
        List.flatMap_eq_nil_iff.2 fun x hx => hunseen hseen _ (hpost x hx)
      simp [hnil, Note.seen?, hseen, hd]

/-- Nobody goes on later than work that is not over. -/
theorem Run.idle_of_later (run : Run marks id locator past l) (ho : InOrder past)
    (ht : l.units t = some (w, st)) (hst : st.isOver = false) (hlt : t < u) : turns u past = [] := by
  cases hturns : turns u past with
  | nil => rfl
  | cons d ds =>
    have hd : d ∈ turns u past := hturns ▸ List.mem_cons_self ..
    obtain ⟨v, z, hu⟩ := run.units_of_past (mem_turns.1 hd).1
    obtain ⟨w', rfl⟩ := run.waiting_of_later ho ht hst hlt hu
    rw [run.turns_of_waiting hu] at hturns
    cases hturns

/-- A session in which work starts in order is as after its work in series. -/
theorem Run.inSeries (run : Run marks id locator past l) (hmarks : ¬ marks) (ho : InOrder past) :
    l.InSeries { id := id, locator := locator } past := by
  induction run with
  | refl => exact ⟨⟨_, rfl, rfl⟩, rfl⟩
  | mark hm _ _ => exact absurd hm hmarks
  | @step past e l₁ l₂ run h ih =>
    have hprev := ho.of_append
    have hsound : l₁.Sound := Run.sound run
    have hseries := ih hprev
    have hmem : ∀ {t w st}, l₁.units t = some (w, st) → (t, w) ∈ arrivals past := fun ht =>
      mem_arrivals.2 ((Run.arrived_iff run).2 ⟨_, ht⟩)
    cases h with
    | @arrive t w _ ht =>
      refine hseries.arrive ht (fun x hx => (Run.arrived_iff run).1 (mem_arrivals.1 hx)) ?_
      rw [List.eq_nil_iff_forall_not_mem]
      intro d hd
      obtain ⟨v, st, hu⟩ := Run.units_of_past run (mem_turns.1 hd).1
      rw [units_of_arrive ht] at hu
      cases hu
    | queue _ _ => exact hseries.quiet rfl (fun _ => if_neg nofun) rfl rfl rfl
    | send _ _ _ _ | yield _ _ => exact hseries.quiet rfl (fun _ => if_neg nofun) rfl rfl rfl
    | @move t w st m reply ht hm hown hline =>
      have hidle : ∀ u, t < u → turns u past = [] := fun u =>
        Run.idle_of_later run hprev ht (Station.not_over_of_own hm hown)
      refine hseries.turn rfl (Run.arrivals_sorted run) (hmem ht) ht (put_self ..)
        (fun u hu => put_of_ne _ hu) rfl
        (fun u v z hu hz => Run.over_of_turn run ho (.move ht hm hown hline) rfl hz hu)
        (fun _ u hu => by rw [hidle u hu]; rfl) fun s₁ s₂ s' post hs₁ hpost alone hlast hcalm => ?_
      -- All later work has changed nothing yet.
      have hrest := fun x hx => hidle _ (hpost x hx)
      obtain rfl := hlast.eq_of_idle hrest
      obtain ⟨reply', hown', hafter⟩ := Move.own_calm hcalm hown
      have hlock : m = .lock → s'.line = [] := by
        rintro rfl
        obtain ⟨w', rfl⟩ := Station.waiting_of_lock hm
        exact alone.line hs₁
      have hmoved := alone.move hm hown' hlock
      rw [hafter] at hmoved
      exact ⟨_, _, hmoved, hlast.of_idle hrest _, Session.after_calm t t m hcalm⟩
    | @hear t w st m word ht hm hf hw =>
      have hcalled : word ≠ .missing := by
        rintro rfl
        cases m with
        | call _ _ =>
          cases st with
          | calling p =>
            have hclient := (hsound.knows _ _ _ ht).2
            rw [show l₁.session.client = none from hw] at hclient
            cases hclient
          | _ => cases hm
        | _ => exact hw
      have hunseen : ∀ u, t < u → (turns u past).filter Doing.isSeen = [] := by
        intro u hu
        cases hst : st.isOver with
        | false => rw [Run.idle_of_later run hprev ht hst hu]; rfl
        | true =>
          cases st with
          | closing i c =>
            rw [List.filter_eq_nil_iff]
            intro d hd
            rw [Run.unseen_of_closing run hprev ht hu (mem_turns.1 hd).1]
            nofun
          | ended _ | dead => cases hm
          | _ => cases hst
      refine hseries.turn rfl (Run.arrivals_sorted run) (hmem ht) ht (put_self ..)
        (fun u hu => put_of_ne _ hu) rfl
        (fun u v z hu hz => Run.over_of_turn run ho (.hear ht hm hf hw) rfl hz hu)
        (fun _ => hunseen) fun s₁ s₂ s' post hs₁ hpost alone hlast hcalm => ?_
      cases hst : st.isOver with
      | false =>
        have hrest := fun x hx => Run.idle_of_later run hprev ht hst (hpost x hx)
        obtain rfl := hlast.eq_of_idle hrest
        exact ⟨_, _, alone.hear hm (hw.calm hcalm) hcalled, hlast.of_idle hrest _,
          Session.hear_calm t t word hcalm⟩
      | true =>
        -- The close of the client is behind the others, but it changes nothing.
        cases st with
        | closing i c =>
          cases hm
          cases word with
          | closed reply => exact ⟨s₂, s', alone.hear rfl trivial nofun, hlast, hcalm⟩
          | _ => exact hw.elim
        | ended _ | dead => cases hm
        | _ => cases hst

/-! ### At most once -/

/-- Whether a job becomes first in line. -/
def starts (t : Nat) : Note κ → Bool
  | .did u (.moved .lock) => u == t
  | _ => false

/-- Whether a job gives its result. -/
def yields (t : Nat) : Note κ → Bool
  | .did u (.yielded _) => u == t
  | _ => false

/-- Work starts at most once. -/
theorem Run.starts_le_one (run : Run marks id locator past l) (t : Nat) : past.countP (starts t) ≤ 1 := by
  induction run with
  | refl => exact Nat.zero_le _
  | @step past e l₁ l₂ run h ih =>
    rw [List.countP_append, List.countP_singleton]
    split
    · rename_i hstart
      -- Who starts has only waited before.
      suffices hnone : past.countP (starts t) = 0 by omega
      cases h with
      | @move u w st m reply hu hm _ _ =>
        cases m with
        | lock =>
          obtain rfl : u = t := by simpa [starts] using hstart
          obtain ⟨w', rfl⟩ := Station.waiting_of_lock hm
          rw [List.countP_eq_zero]
          intro e he hstarts
          cases e with
          | arrived _ _ => cases hstarts
          | did v d =>
            cases d with
            | moved m =>
              cases m with
              | lock =>
                obtain rfl : v = u := by simpa [starts] using hstarts
                cases Run.of_waiting run hu he
              | _ => cases hstarts
            | _ => cases hstarts
        | _ => cases hstart
      | arrive _ _ | queue _ _ | send _ _ _ _ | hear _ _ _ _ | yield _ _ => cases hstart
    · exact ih
  | mark _ _ ih => exact ih

/-- Work gives at most one result. -/
theorem Run.yields_le_one (run : Run marks id locator past l) (t : Nat) : past.countP (yields t) ≤ 1 := by
  induction run with
  | refl => exact Nat.zero_le _
  | @step past e l₁ l₂ run h ih =>
    rw [List.countP_append, List.countP_singleton]
    split
    · rename_i hyield
      suffices hnone : past.countP (yields t) = 0 by omega
      cases h with
      | @yield u w result hu htold =>
        obtain rfl : u = t := by simpa [yields] using hyield
        rw [List.countP_eq_zero]
        intro e he hyields
        cases e with
        | arrived _ _ => cases hyields
        | did v d =>
          cases d with
          | yielded result' =>
            obtain rfl : v = u := by simpa [yields] using hyields
            rw [(Run.of_yielded run he).2] at htold
            cases htold
          | _ => cases hyields
      | arrive _ _ | queue _ _ | send _ _ _ _ | hear _ _ _ _ | move _ _ _ _ => cases hyield
    · exact ih
  | mark _ _ ih => exact ih

end Lane
end SessionPool
