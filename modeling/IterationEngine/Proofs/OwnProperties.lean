import IterationEngine.Proofs.Changes.Programs

/-!
# Tables of own properties

What can be relied on of the own properties of an object, at every moment of its life.

A table lists each of its keys once, in the order in which they were first defined, and it is never changed but by
calls that define properties (`PropertyTable.Develops`). So an object that exists keeps its keys in front and in order,
and its locked values, whatever guest code does (`Engine.ownProperties_of_reachable`).

1. `Object.Made.develops`, `Object.Altered.develops`: objects are made with a table that calls have built up from
   nothing, and altered by calls.
2. `Heap.Develops`: the same for all objects of a heap at once, over any number of elementary changes.
3. `Realm.DefinedAs`: what a sequence of calls on one object comes to.
-/

namespace IterationEngine

namespace PropertyTable

/-! ## Tables that develop -/

/-- The keys of `t` stand in front in `t'` and in the same order, and its values that are neither writable nor
configurable are in `t'` as they were. -/
structure Grows (t t' : PropertyTable) : Prop where
  keys : t.keys <+: t'.keys
  locked : ∀ key v a, t.find? key = some (.data v a) → a.writable = false → a.configurable = false →
    t'.find? key = some (.data v a)

/-- `t'` has come of `t` by calls that define properties. -/
def Develops (t t' : PropertyTable) : Prop := ∃ ds, t' = t.defineAll ds

variable {t t' t'' : PropertyTable}

theorem grows_defineAll (t : PropertyTable) (ds : List Definition) : t.Grows (t.defineAll ds) where
  keys := t.keys_prefix_defineAll ds
  locked _ _ _ hfind hwritable hconfigurable := find?_defineAll_of_locked hfind hwritable hconfigurable ds

theorem Develops.refl (t : PropertyTable) : t.Develops t := ⟨[], rfl⟩

theorem Develops.trans (h : t.Develops t') (h' : t'.Develops t'') : t.Develops t'' := by
  obtain ⟨ds, rfl⟩ := h
  obtain ⟨ds', rfl⟩ := h'
  exact ⟨ds ++ ds', (t.defineAll_append ds ds').symm⟩

theorem develops_define (t : PropertyTable) (d : Definition) : t.Develops (t.define d) := ⟨[d], rfl⟩

theorem Develops.withValue (h : t.Develops t') (key : String) (v : Value) (a : Attributes) :
    t.Develops (PropertyTable.withValue t' key v a) := by
  rw [withValue_eq_define]
  exact h.trans (develops_define t' _)

theorem Develops.grows (h : t.Develops t') : t.Grows t' := by
  obtain ⟨ds, rfl⟩ := h
  exact grows_defineAll t ds

/-- Calls that start from nothing keep the list and the map in step. -/
theorem Develops.listed (h : Develops .empty t) : t.Listed := by
  obtain ⟨ds, rfl⟩ := h
  exact listed_empty.defineAll ds

end PropertyTable

open PropertyTable (Develops)

/-! ## Objects and heaps -/

theorem Object.Made.develops {o : Object} (h : o.Made) : Develops .empty o.properties := by
  cases h with
  | bare => exact .refl _
  | ofCode =>
    simp only [Object.ofCode]
    exact .withValue (.withValue (.refl .empty) _ _ _) _ _ _
  | ofResult =>
    simp only [Object.ofResult]
    exact .withValue (.withValue (.refl .empty) _ _ _) _ _ _
  | ofError kind message =>
    have hnamed := Develops.withValue (.refl .empty) "name" (.string kind.name) .hidden
    show Develops .empty (if message.isEmpty then _ else _)
    split
    · exact hnamed
    · exact hnamed.withValue _ _ _

theorem Object.Altered.develops {o o' : Object} (h : o.Altered o') : o.properties.Develops o'.properties := by
  cases h with
  | kind | prototype | slots => exact .refl _
  | properties d => exact o.properties.develops_define d

/-- The objects of `h` are in `h'`, their tables have come of those they had, and the tables of other objects of nothing. -/
structure Heap.Develops (h h' : Heap) : Prop where
  kept : ∀ id o, h.get? id = some o → ∃ o', h'.get? id = some o' ∧ o.properties.Develops o'.properties
  made : ∀ id o', h.get? id = none → h'.get? id = some o' → PropertyTable.Develops .empty o'.properties

namespace Heap.Develops

variable {h h' h'' : Heap}

theorem refl (h : Heap) : h.Develops h where
  kept _ o ho := ⟨o, ho, .refl _⟩
  made _ _ hnone hsome := by
    rw [hnone] at hsome
    cases hsome

theorem trans (hh : h.Develops h') (hh' : h'.Develops h'') : h.Develops h'' where
  kept id o ho := by
    obtain ⟨o', ho', hdevelops⟩ := hh.kept id o ho
    obtain ⟨o'', ho'', hdevelops'⟩ := hh'.kept id o' ho'
    exact ⟨o'', ho'', hdevelops.trans hdevelops'⟩
  made id o'' hnone ho'' := by
    cases ho' : h'.get? id with
    | none => exact hh'.made id o'' ho' ho''
    | some o' =>
      obtain ⟨p, hp, hdevelops⟩ := hh'.kept id o' ho'
      obtain rfl := Option.some.inj (hp.symm.trans ho'')
      exact (hh.made id o' hnone ho').trans hdevelops

theorem alloc (h : Heap) {o : Object} (ho : o.Made) : h.Develops (h.alloc o).2 where
  kept _ p hp := ⟨p, get?_alloc_of_some hp o, .refl _⟩
  made id o' hnone ho' := by
    rcases get?_alloc_eq_some ho' with hold | ⟨-, rfl⟩
    · rw [hnone] at hold
      cases hold
    · exact ho.develops

theorem modify {id : ObjectId} {f : Object → Object} (hf : ∀ o, h.get? id = some o → o.Altered (f o)) :
    h.Develops (h.modify id f) where
  kept id' o ho := by
    rw [get?_modify]
    split
    · next hid =>
      subst hid
      exact ⟨f o, by rw [ho, Option.map_some], (hf o ho).develops⟩
    · exact ⟨o, ho, .refl _⟩
  made id' o' hnone ho' := by
    rw [get?_modify, hnone] at ho'
    split at ho' <;> cases ho'

end Heap.Develops

theorem Realm.Change.develops {r r' : Realm} (h : r.Change r') : r.heap.Develops r'.heap := by
  cases h with
  | context | symbol => exact .refl _
  | alloc ho => exact .alloc _ ho
  | modify hf => exact .modify hf

theorem Realm.Changes.develops {r r' : Realm} (h : r.Changes r') : r.heap.Develops r'.heap := by
  induction h with
  | refl => exact .refl _
  | tail _ hstep ih => exact ih.trans hstep.develops

/-! ## Sequences of calls -/

/-- The key of the call has the property that it gives, and all other keys have what they had. -/
def Definition.Replaces (d : Definition) (t t' : PropertyTable) : Prop :=
  ∀ key, t'.find? key = if d.key = key then some d.property else t.find? key

/-- What the next call on an object with that table does. -/
structure Definition.Performed (d : Definition) (r : Realm) (id : ObjectId) (t : PropertyTable) : Prop where
  answer : (d.perform id r).1 = d.answerOn t
  refused : (d.perform id r).1 = some false → (d.perform id r).2 = r
  granted : (d.perform id r).1 = some true →
    ∃ t', (d.perform id r).2 = r.withProperties id t' ∧ d.Replaces t t'
  /-- A method is defined without an answer, and a refusal passes unnoticed. -/
  unanswered : (d.perform id r).1 = none →
    (∃ key v, d = .method key v) ∧
      if d.permittedOn t then ∃ t', (d.perform id r).2 = r.withProperties id t' ∧ d.Replaces t t'
      else (d.perform id r).2 = r

/-- A sequence of calls on an object comes to another table for it, and to nothing else. -/
structure Realm.DefinedAs (r : Realm) (id : ObjectId) (o : Object) (ds : List Definition) (t : PropertyTable) : Prop where
  realm : r.definingAll id ds = r.withProperties id t
  listed : t.Listed
  keys : t.keys = o.properties.keys ++ ((ds.map Definition.key).filter (· ∉ o.properties.keys)).eraseDups
  grows : o.properties.Grows t
  call : ∀ d : Definition, d.Performed (r.definingAll id ds) id t

namespace Definition

variable {r : Realm} {id : ObjectId} {o : Object}

theorem performed (ho : r.heap.get? id = some o) (d : Definition) : d.Performed r id o.properties := by
  have hperform := perform_apply ho d
  have hanswer : (d.perform id r).1 = d.answerOn o.properties := congrArg Prod.fst hperform
  have hrefused : d.permittedOn o.properties = false → (d.perform id r).2 = r := by
    intro hd
    rw [hperform]
    exact withProperties_of_refused ho hd
  have hgranted : d.permittedOn o.properties = true →
      ∃ t', (d.perform id r).2 = r.withProperties id t' ∧ d.Replaces o.properties t' := by
    intro hd
    exact ⟨_, congrArg Prod.snd hperform, PropertyTable.find?_define_of_permitted hd⟩
  refine ⟨hanswer, fun h => ?_, fun h => ?_, fun h => ⟨exists_method_of_answerOn (hanswer.symm.trans h), ?_⟩⟩
  · exact hrefused (permittedOn_of_answerOn (hanswer.symm.trans h))
  · exact hgranted (permittedOn_of_answerOn (hanswer.symm.trans h))
  · split
    · next hpermitted => exact hgranted hpermitted
    · next hpermitted => exact hrefused (Bool.eq_false_iff.mpr hpermitted)

/-- After any sequence of calls the object is there with another table, and the next call finds it so. -/
theorem definedAs (ho : r.heap.get? id = some o) (hlisted : o.properties.Listed) (ds : List Definition) :
    r.DefinedAs id o ds (o.properties.defineAll ds) where
  realm := definingAll_eq ho ds
  listed := hlisted.defineAll ds
  keys := hlisted.keys_defineAll ds
  grows := PropertyTable.grows_defineAll _ ds
  call d := by
    have hobject : (r.definingAll id ds).heap.get? id = some { o with properties := o.properties.defineAll ds } := by
      rw [definingAll_eq ho]
      exact Realm.get?_withProperties ho _
    exact performed hobject d

end Definition

/-! ## Engines -/

namespace Engine

variable {S : Type} {e e' : Engine S} {context : Context} {id : ObjectId} {o : Object}

/-- Every table has come of nothing by calls that define properties. -/
theorem Reachable.develops (he : e.Reachable) (hcontext : e.context = some context) (ho : e.heap.get? id = some o) :
    PropertyTable.Develops .empty o.properties := by
  refine he.realm_induction (P := fun r => ∀ id o, r.heap.get? id = some o → PropertyTable.Develops .empty o.properties)
    ?_ ?_ hcontext id o ho
  · intro e hempty id o ho
    change e.heap.objects[id.index]? = some o at ho
    rw [hempty] at ho
    cases ho
  · intro r r' hr hchange id o' ho'
    cases ho : r.heap.get? id with
    | none => exact hchange.develops.made id o' ho ho'
    | some o =>
      obtain ⟨p, hp, hdevelops⟩ := hchange.develops.kept id o ho
      obtain rfl := Option.some.inj (hp.symm.trans ho')
      exact (hr id o ho).trans hdevelops

/-- The engine after any number of programs. -/
abbrev Later : Engine S → Engine S → Prop := Relation.ReflTransGen fun e e' => ∃ bounds p, e' = (e.run bounds p).2

theorem Later.develops (h : e.Later e') (hget : e.getContext = .ok context) :
    ∃ context', e'.getContext = .ok context' ∧ e.heap.Develops e'.heap := by
  induction h with
  | refl => exact ⟨context, hget, .refl _⟩
  | tail _ hrun ih =>
    obtain ⟨context₁, hget₁, hdevelops⟩ := ih
    obtain ⟨bounds, p, rfl⟩ := hrun
    obtain ⟨context₂, hget₂, hchanges⟩ := changes_run hget₁ bounds p
    exact ⟨context₂, hget₂, hdevelops.trans (Realm.Changes.develops hchanges)⟩

/-- The own properties of an object of an engine: how they stand, what a sequence of calls on it makes of them, and what
remains of them whatever programs are run. -/
theorem ownProperties_of_reachable (he : e.Reachable) (hcontext : e.context = some context)
    (ho : e.heap.get? id = some o) :
    o.properties.Listed ∧
    (∀ ds, ∃ t, (e.machine context).realm.DefinedAs id o ds t) ∧
    (∀ e', e.Later e' →
      ∃ o', e'.heap.get? id = some o' ∧ o'.properties.Listed ∧ o.properties.Grows o'.properties) := by
  have hdevelops := he.develops hcontext ho
  refine ⟨hdevelops.listed, fun ds => ⟨_, Definition.definedAs ho hdevelops.listed ds⟩, fun e' hlater => ?_⟩
  obtain ⟨context', -, hheap⟩ := Later.develops hlater (he.inStep.getContext_eq hcontext)
  obtain ⟨o', ho', htable⟩ := hheap.kept id o ho
  exact ⟨o', ho', (hdevelops.trans htable).listed, htable.grows⟩

/-- Gives an object a locked value and an accessor pair, makes a method of the pair, and tries to write the value. -/
def defineAndRedefine : Program Unit :=
  .perform (.createObject none .ordinary []) fun id =>
    .perform (.setProperty id "b" (.boolean true) ⟨2⟩) fun _ =>
      .perform (.defineAccessor id "a" none none .all) fun _ =>
        .perform (.setMethod id "a" .null) fun _ =>
          .perform (.setProperty id "b" .null .all) fun answer => .finish (.normal (.boolean answer))

/-- The keys are listed in the order of their first definition, and the value is still locked. -/
theorem ownProperties_of_defineAndRedefine :
    ∃ (e : Engine Unit) (context : Context) (id : ObjectId) (o : Object),
      e.Reachable ∧ e.context = some context ∧ e.heap.get? id = some o ∧
        o.properties.keys = ["b", "a"] ∧ o.properties.find? "b" = some (.data (.boolean true) ⟨2⟩) ∧
        o.properties.find? "a" = some (.data .null .hidden) ∧
        o.properties.Listed ∧
        (∀ ds, ∃ t, (e.machine context).realm.DefinedAs id o ds t) ∧
        (∀ e', e.Later e' →
          ∃ o', e'.heap.get? id = some o' ∧ o'.properties.Listed ∧ o.properties.Grows o'.properties) := by
  let e₀ : Engine Unit := fresh {} {} { state := () }
  let e : Engine Unit := (e₀.start.engine.run ⟨0, 0⟩ defineAndRedefine).2
  have he : e.Reachable := .run _ _ (.start (.fresh {} {} { state := () }))
  have hlive : e.isInitialized = true := by decide +kernel
  have htable : ((e.heap.get? ⟨17⟩).any fun o =>
      o.properties.keys = ["b", "a"] ∧ o.properties.find? "b" = some (.data (.boolean true) ⟨2⟩) ∧
        o.properties.find? "a" = some (.data .null .hidden)) = true := by
    decide +kernel
  obtain ⟨context, hcontext⟩ := he.inStep.isInitialized_iff.mp hlive
  obtain ⟨o, ho, htable⟩ := (Option.any_eq_true _ _).mp htable
  obtain ⟨hkeys, hb, ha⟩ := of_decide_eq_true htable
  exact ⟨e, context, ⟨17⟩, o, he, hcontext, ho, hkeys, hb, ha, ownProperties_of_reachable he hcontext ho⟩

end Engine

end IterationEngine
