import Mathlib.Data.List.Nodup
import SessionPool.Proofs.Lifecycle
import SessionPool.Proofs.Schedule

/-! The registry: which sessions are live. It is a table by ids, and an id is what a caller writes, so two
    entries have different ids and are different sessions, and who refers to an id again gets its session
    again. What the ids name may be the same, in one case only: a group alone and the group with an empty
    instance, such as `game` and `game-`, are two sessions. -/

namespace SessionPool

namespace SessionKey

/-- A group alone, and the group with an empty instance. -/
def Alias (a b : String) : Prop := separator ∉ a.toList ∧ b = routedName a ""

theorem Alias.parse_eq {a b : String} (h : Alias a b) : parse a = parse b := by
  rw [h.2, parse_bare h.1, parse_routedName h.1]

/-- What an id names tells the id, but for an empty instance. -/
theorem parse_eq_parse_iff {a b : String} (hne : a ≠ b) :
    parse a = parse b ↔ Alias a b ∨ Alias b a := by
  constructor
  · intro h
    rcases bare_or_routed a with ha | ⟨g, i, hg, rfl⟩
    · rw [parse_bare ha] at h
      rcases bare_or_routed b with hb | ⟨g, i, hg, rfl⟩
      · rw [parse_bare hb, SessionKey.mk.injEq] at h
        exact absurd h.1 hne
      · rw [parse_routedName hg, SessionKey.mk.injEq] at h
        obtain ⟨rfl, rfl⟩ := h
        exact .inl ⟨ha, rfl⟩
    · rw [parse_routedName hg] at h
      rcases bare_or_routed b with hb | ⟨g', i', hg', rfl⟩
      · rw [parse_bare hb, SessionKey.mk.injEq] at h
        obtain ⟨rfl, rfl⟩ := h
        exact .inr ⟨hb, rfl⟩
      · rw [parse_routedName hg', SessionKey.mk.injEq] at h
        obtain ⟨rfl, rfl⟩ := h
        exact absurd rfl hne
  · rintro (h | h)
    · exact h.parse_eq
    · exact h.parse_eq.symm

end SessionKey

theorem Pool.Answered.sorted {ρ κ : Type} {p p' : Pool ρ κ} {a : Ask} {reply : a.Reply}
    (h : p.Answered a reply p') (hp : Table.Sorted p.registry) : Table.Sorted p'.registry := by
  cases h with
  | made _ _ => exact hp.insert _ _
  | removed _ => exact hp.erase _
  | drained => exact .nil
  | _ => exact hp

namespace Scene
variable {ρ κ : Type} {r : Remote ρ κ} {c : Catalog} {o : Options} {remote : ρ} {past : List (Event κ)}
  {S S' : Scene ρ κ} {e : Event κ}

theorem Step.sorted (h : Step r S e S') (hS : Table.Sorted S.pool.registry) :
    Table.Sorted S'.pool.registry := by
  cases h with
  | ask _ ha => exact (Pool.answered ha).sorted hS
  | giveUp _ hw ha => exact Pool.eq_of_giveUp hw ha ▸ hS
  | _ => exact hS

theorem Run.sorted (run : Run r c o remote past S) : Table.Sorted S.pool.registry := by
  induction run with
  | start => exact .nil
  | step _ h ih => exact h.sorted ih

/-- No session has two entries. -/
theorem Run.registered_once (run : Run r c o remote past S) : (S.pool.registry.map (·.2)).Nodup := by
  refine List.nodup_iff_count_le_one.2 fun n => ?_
  have := run.accounted.registered n
  split at this <;> omega

/-- Two entries of a registry. -/
structure Apart (a b : String × Nat) : Prop where
  ids : a.1 ≠ b.1
  sessions : a.2 ≠ b.2
  keys : SessionKey.parse a.1 = SessionKey.parse b.1 ↔ SessionKey.Alias a.1 b.1 ∨ SessionKey.Alias b.1 a.1

/-- A registry that names each session once. -/
structure Keyed (S : Scene ρ κ) : Prop where
  apart : S.pool.registry.Pairwise Apart
  /-- Who refers to an id again gets the session that has it, and no session is made. -/
  found : ∀ id n, (id, n) ∈ S.pool.registry →
    S.pool.obtain id = (.ok (n, S.pool.isReady n), S.pool) ∧ ∃ s, S.sessions[n]? = some s ∧ s.id = id

theorem Run.keyed (run : Run r c o remote past S) : S.Keyed where
  apart := by
    have hids : S.pool.registry.Pairwise fun a b => a.1 ≠ b.1 := List.pairwise_map.1 run.sorted.keys_nodup
    have hsessions : S.pool.registry.Pairwise fun a b => a.2 ≠ b.2 := List.pairwise_map.1 run.registered_once
    exact (hids.and hsessions).imp fun h => ⟨h.1, h.2, SessionKey.parse_eq_parse_iff h.1⟩
  found id n hmem := by
    refine ⟨?_, run.kept.named id n hmem⟩
    rw [Pool.obtain, run.sorted.get?_of_mem hmem]

/-- Two callers refer to a group, one by the group alone. -/
def namesakes : List (Choice Unit) :=
  [.come (.obtain "game"), .come (.obtain "game-"), .ask 0, .ask 1]

theorem keys_namesakes : ∃ past S, play obliging namesakes ([], quiet) = some (past, S) ∧
    S.pool.registry = [("game", 0), ("game-", 1)] ∧
    ¬S.pool.registry.Pairwise fun a b => SessionKey.parse a.1 ≠ SessionKey.parse b.1 := by
  have hplay : (play obliging namesakes ([], quiet)).map (fun x => x.2.pool.registry) =
      some [("game", 0), ("game-", 1)] := by decide
  obtain ⟨⟨past, S⟩, hplay, heq⟩ := Option.map_eq_some_iff.1 hplay
  refine ⟨past, S, hplay, heq, ?_⟩
  rw [show S.pool.registry = [("game", 0), ("game-", 1)] from heq]
  have hkeys : SessionKey.parse "game" = SessionKey.parse "game-" := by decide
  simp [hkeys]

/-- Callers refer to sessions of a group, and one session is closed and referred to again. -/
def regulars : List (Choice Unit) :=
  [.come (.obtain "game-2"), .come (.obtain "game"), .come (.close "game"), .come (.obtain "game-"),
    .come (.obtain "game"), .ask 0, .ask 1, .ask 2, .ask 3, .ask 4]

theorem keyed_regulars : ∃ past S, play obliging regulars ([], quiet) = some (past, S) ∧
    S.pool.registry = [("game", 3), ("game-", 2), ("game-2", 0)] ∧ S.Keyed := by
  have hplay : (play obliging regulars ([], quiet)).map (fun x => x.2.pool.registry) =
      some [("game", 3), ("game-", 2), ("game-2", 0)] := by decide
  obtain ⟨⟨past, S⟩, hplay, heq⟩ := Option.map_eq_some_iff.1 hplay
  exact ⟨past, S, hplay, heq, Run.keyed (run_of_play hplay .start)⟩

end Scene
end SessionPool
