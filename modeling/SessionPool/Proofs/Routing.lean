import Mathlib.Data.List.Nodup
import SessionPool.Catalog

/-! Routing: the names under which operations are called from outside. A catalog lists the schemas of all its
    operations, finds one by its routed name, and routes a bare name to the first group that has it. As long
    as no name of a group holds the separator the three agree, whatever the operations are called: a routed
    name is divided where it was put together. So every name is the name of one operation. -/

namespace SessionPool

/-- A text is divided where a group without a separator and a name were put together. -/
theorem divideText_eq_some_iff {s g n : String} :
    divideText s = some (g, n) ↔ s = routedName g n ∧ separator ∉ g.toList := by
  rw [divideText, Option.map_eq_some_iff, ← String.toList_inj, routedName_toList]
  constructor
  · rintro ⟨⟨a, b⟩, hdivide, heq⟩
    cases heq
    simpa using divide_eq_some_iff.1 hdivide
  · intro h
    exact ⟨(g.toList, n.toList), divide_eq_some_iff.2 h, by simp⟩

theorem operationName_routedName {g : String} (h : separator ∉ g.toList) (n : String) :
    operationName (routedName g n) = n := by
  rw [operationName, divideText_eq_some_iff.2 ⟨rfl, h⟩]

theorem operationName_bare {n : String} (h : separator ∉ n.toList) : operationName n = n := by
  rw [operationName, divideText, divide_eq_none_iff.2 h]
  rfl

/-- The names of an operation: its own, if that holds no separator, and the routed ones. -/
inductive Names : String → String → Prop
  | bare {n : String} (hn : separator ∉ n.toList) : Names n n
  | routed {g : String} (hg : separator ∉ g.toList) (n : String) : Names (routedName g n) n

/-- The operation that a name is read as is the one that it is a name of. -/
theorem names_iff {name operation : String} : Names name operation ↔ operationName name = operation := by
  constructor
  · intro h
    cases h with
    | bare hn => exact operationName_bare hn
    | routed hg => exact operationName_routedName hg operation
  · rintro rfl
    rcases SessionKey.bare_or_routed name with hn | ⟨g, n, hg, rfl⟩
    · rw [operationName_bare hn]
      exact .bare hn
    · rw [operationName_routedName hg]
      exact .routed hg n

/-- Every name is a name of one operation. -/
theorem existsUnique_names (name : String) : ∃! operation, Names name operation := by
  refine ⟨operationName name, names_iff.2 rfl, fun operation h => ?_⟩
  exact (names_iff.1 h).symm

instance (name operation : String) : Decidable (Names name operation) := decidable_of_iff _ names_iff.symm

example : Names "sum" "sum" ∧ Names "shop-get-item" "get-item" ∧ Names "get-item" "item" ∧
    ¬Names "get-item" "get-item" := by decide

/-- A routed name tells its group and its operation. -/
theorem routedName_inj {g g' n n' : String} (hg : separator ∉ g.toList) (hg' : separator ∉ g'.toList)
    (h : routedName g n = routedName g' n') : g = g' ∧ n = n' := by
  have hboth := (divideText_eq_some_iff.2 ⟨h, hg'⟩).symm.trans (divideText_eq_some_iff.2 ⟨rfl, hg⟩)
  cases hboth
  exact ⟨rfl, rfl⟩

/-- The name by which a function is called, as its schema has it. -/
def functionName? (schema : Json) : Option String :=
  ((schema.get? "function").bind (Json.get? "name")).bind Json.text?

theorem functionName?_schema (g : String) (o : Operation) :
    functionName? (o.schema g) = some (routedName g o.name) := rfl

/-- Of operations with different names each is found by its own. -/
theorem Operation.find?_name {o : Operation} : ∀ {ops : List Operation},
    (ops.map Operation.name).Nodup → o ∈ ops → ops.find? (fun o' => o'.name = o.name) = some o
  | o' :: ops, hdistinct, hmem => by
    obtain ⟨hnew, hrest⟩ := List.nodup_cons.1 hdistinct
    rcases List.mem_cons.1 hmem with rfl | hmem
    · simp
    · have hne : o'.name ≠ o.name := fun heq => hnew (heq ▸ List.mem_map_of_mem hmem)
      rw [List.find?_cons_of_neg (by simpa using hne)]
      exact find?_name hrest hmem

namespace Catalog

/-- Groups are in order and their names hold no separator, and no group has two operations of one name. -/
structure Routable (c : Catalog) : Prop where
  sorted : Table.Sorted c
  plain : ∀ e ∈ c, separator ∉ e.1.toList
  distinct : ∀ e ∈ c, (e.2.operations.map Operation.name).Nodup

/-- A group has an operation of a name. -/
def Exposes (c : Catalog) (group name : String) : Prop :=
  ∃ ops, c.operations? group = some ops ∧ name ∈ ops.map Operation.name

variable {c : Catalog} {g n r : String} {s : Json}

theorem mem_schemas_iff : s ∈ c.schemas ↔ ∃ e ∈ c, ∃ o ∈ e.2.operations, o.schema e.1 = s := by
  simp [schemas]

theorem operations?_of_mem {e : String × Group} (hc : Table.Sorted c) (he : e ∈ c) :
    c.operations? e.1 = some e.2.operations := by
  rw [operations?, hc.get?_of_mem he]
  rfl

theorem mem_of_operations? {ops : List Operation} : ∀ {c : Catalog}, c.operations? g = some ops →
    ∃ e ∈ c, e.1 = g ∧ e.2.operations = ops
  | (g', group) :: c, h => by
    rw [operations?, Table.get?] at h
    split at h
    · rename_i heq
      exact ⟨(g', group), List.mem_cons_self, heq.symm, Option.some.inj h⟩
    · obtain ⟨e, he, hfound⟩ := mem_of_operations? (c := c) h
      exact ⟨e, List.mem_cons_of_mem _ he, hfound⟩

theorem exposes_iff (hc : Table.Sorted c) :
    c.Exposes g n ↔ ∃ e ∈ c, e.1 = g ∧ n ∈ e.2.operations.map Operation.name := by
  constructor
  · rintro ⟨ops, hops, hn⟩
    obtain ⟨e, he, hg, rfl⟩ := mem_of_operations? hops
    exact ⟨e, he, hg, hn⟩
  · rintro ⟨e, he, rfl, hn⟩
    exact ⟨_, operations?_of_mem hc he, hn⟩

/-- What is found under a name is the operation that was given it. -/
theorem Routable.schema?_eq_some_iff (hc : c.Routable) :
    c.schema? r = some s ↔ ∃ e ∈ c, ∃ o ∈ e.2.operations, r = routedName e.1 o.name ∧ o.schema e.1 = s := by
  simp only [schema?, Option.bind_eq_bind, Option.bind_eq_some_iff, Option.pure_def, Option.some.injEq]
  constructor
  · rintro ⟨⟨g, n⟩, hdivide, ops, hops, o, ho, rfl⟩
    obtain ⟨rfl, -⟩ := divideText_eq_some_iff.1 hdivide
    obtain ⟨e, he, rfl, rfl⟩ := mem_of_operations? hops
    obtain rfl : o.name = n := by simpa using List.find?_some ho
    exact ⟨e, he, o, List.mem_of_find?_eq_some ho, rfl, rfl⟩
  · rintro ⟨e, he, o, ho, rfl, rfl⟩
    exact ⟨(e.1, o.name), divideText_eq_some_iff.2 ⟨rfl, hc.plain e he⟩, _, operations?_of_mem hc.sorted he, o,
      Operation.find?_name (hc.distinct e he) ho, rfl⟩

/-- No two operations have one routed name: not within a group, nor in two. -/
theorem Routable.names_nodup (hc : c.Routable) : (c.schemas.map functionName?).Nodup := by
  rw [schemas, List.map_flatMap, List.nodup_flatMap]
  refine ⟨fun e he => ?_, hc.sorted.imp_of_mem fun {e e'} he he' hlt => ?_⟩
  · have hrouted : (e.2.operations.map (·.schema e.1)).map functionName? =
        (e.2.operations.map Operation.name).map fun n => some (routedName e.1 n) := by
      simp only [List.map_map, Function.comp_def, functionName?_schema]
    rw [hrouted]
    refine (hc.distinct e he).map fun n n' heq => ?_
    exact (routedName_inj (hc.plain e he) (hc.plain e he) (Option.some.inj heq)).2
  · intro name hname hname'
    obtain ⟨s, hs, rfl⟩ := List.mem_map.1 hname
    obtain ⟨o, -, rfl⟩ := List.mem_map.1 hs
    obtain ⟨s', hs', heq⟩ := List.mem_map.1 hname'
    obtain ⟨o', -, rfl⟩ := List.mem_map.1 hs'
    obtain ⟨hgroup, -⟩ := routedName_inj (hc.plain e' he') (hc.plain e he) (Option.some.inj heq)
    rw [hgroup] at hlt
    exact String.lt_irrefl _ hlt

theorem qualify?_isSome_iff (hc : Table.Sorted c) : (c.qualify? n).isSome ↔ ∃ g, c.Exposes g n := by
  simp only [exposes_iff hc, qualify?, Option.isSome_map, List.find?_isSome]
  simp

/-- A bare name is routed to the first of the groups that have it. -/
theorem least_of_qualify? (hc : Table.Sorted c) (h : c.qualify? n = some r) :
    ∃ g, c.Exposes g n ∧ (∀ g', c.Exposes g' n → g ≤ g') ∧ r = routedName g n := by
  obtain ⟨e, hfind, rfl⟩ := Option.map_eq_some_iff.1 h
  obtain ⟨hn, before, after, rfl, hbefore⟩ := List.find?_eq_some_iff_append.1 hfind
  refine ⟨e.1, (exposes_iff hc).2 ⟨e, by simp, rfl, by simpa using hn⟩, fun g' hg' => ?_, rfl⟩
  obtain ⟨e', he', rfl, hn'⟩ := (exposes_iff hc).1 hg'
  rcases List.mem_append.1 he' with he' | he'
  · obtain ⟨o, ho, hname⟩ := List.mem_map.1 hn'
    have hnone := hbefore e' he'
    simp only [Bool.not_eq_true', List.any_eq_false, decide_eq_true_eq] at hnone
    exact absurd hname (hnone o ho)
  · obtain ⟨-, hrest, -⟩ := List.pairwise_append.1 hc
    rcases List.mem_cons.1 he' with rfl | he'
    · exact String.le_refl _
    · exact Std.le_of_lt ((List.pairwise_cons.1 hrest).1 e' he')

/-- The three ways to a routed name agree. -/
structure Coherent (c : Catalog) : Prop where
  /-- A lookup finds what is listed under the name. -/
  lookup : ∀ r s, c.schema? r = some s ↔ s ∈ c.schemas ∧ functionName? s = some r
  named : ∀ s ∈ c.schemas, (functionName? s).isSome
  distinct : (c.schemas.map functionName?).Nodup
  /-- A bare name is routed if a group has it. -/
  routes : ∀ n, (c.qualify? n).isSome ↔ ∃ g, c.Exposes g n
  /-- It is routed to the first group that has it, is found there, and is the bare name again without the group. -/
  routed : ∀ n r, c.qualify? n = some r →
    (∃ g, c.Exposes g n ∧ (∀ g', c.Exposes g' n → g ≤ g') ∧ r = routedName g n) ∧
      (c.schema? r).isSome ∧ operationName r = n

theorem Routable.coherent (hc : c.Routable) : c.Coherent where
  lookup r s := by
    rw [hc.schema?_eq_some_iff, mem_schemas_iff]
    constructor
    · rintro ⟨e, he, o, ho, rfl, rfl⟩
      exact ⟨⟨e, he, o, ho, rfl⟩, rfl⟩
    · rintro ⟨⟨e, he, o, ho, rfl⟩, hname⟩
      exact ⟨e, he, o, ho, (Option.some.inj hname).symm, rfl⟩
  named s hs := by
    obtain ⟨e, -, o, -, rfl⟩ := mem_schemas_iff.1 hs
    rfl
  distinct := hc.names_nodup
  routes n := qualify?_isSome_iff hc.sorted
  routed n r h := by
    obtain ⟨g, hg, hleast, rfl⟩ := least_of_qualify? hc.sorted h
    obtain ⟨e, he, rfl, hn⟩ := (exposes_iff hc.sorted).1 hg
    obtain ⟨o, ho, rfl⟩ := List.mem_map.1 hn
    have hfound : c.schema? (routedName e.1 o.name) = some (o.schema e.1) :=
      hc.schema?_eq_some_iff.2 ⟨e, he, o, ho, rfl, rfl⟩
    exact ⟨⟨e.1, hg, hleast, rfl⟩, by rw [hfound]; rfl, operationName_routedName (hc.plain e he) o.name⟩

/-- Names with separators and empty names, some of them in two groups. -/
def hyphens : Catalog := [
  ("a", ⟨⟨"a.py", none, []⟩, [⟨"b-c", "", .null⟩, ⟨"", "", .null⟩, ⟨"-", "", .null⟩]⟩),
  ("b", ⟨⟨"b.py", none, []⟩, [⟨"c", "", .null⟩, ⟨"b-c", "", .null⟩, ⟨"", "", .null⟩]⟩),
  ("c", ⟨⟨"c.py", none, []⟩, []⟩)]

theorem coherent_hyphens : hyphens.Routable ∧ hyphens.Coherent ∧
    hyphens.qualify? "b-c" = some "a-b-c" ∧ hyphens.qualify? "" = some "a-" ∧ hyphens.qualify? "b" = none ∧
    (hyphens.schema? "b-b-c").isSome ∧ hyphens.schema? "c-" = none := by
  have hroutable : hyphens.Routable := ⟨by rw [Table.Sorted]; decide, by decide, by decide⟩
  exact ⟨hroutable, hroutable.coherent, by decide, by decide, by decide, by decide, by decide⟩

end Catalog
end SessionPool
