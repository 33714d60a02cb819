import IterationEngine.Proofs.Run

/-!
# Definitions of own properties

The three calls that define an own property, and what sequences of them make of a table.

The calls differ in what they may replace and in nothing else: a value or a method whatever a value may be written over,
an accessor pair whatever is configurable. A permitted call gives its own key its own property, and a refused one does
nothing. What stands under a key goes its own way, whatever is defined under others
(`PropertyTable.find?_defineAll_of_some`), and a value that may be neither written nor configured stays
(`PropertyTable.find?_defineAll_of_locked`).

A call writes the map of a table, and it writes the list of keys if it has found nothing in the map. So the list has
each key of the map once (`PropertyTable.Listed`), because it is so in a table without properties and each call keeps it
so (`PropertyTable.Listed.define`). As long as it is so, the keys are listed in the order in which they were first
defined, whatever is defined again and in which form (`PropertyTable.Listed.keys_defineAll`).
-/

namespace IterationEngine

/-! ## Calls -/

/-- A call that defines an own property. -/
inductive Definition where
  | value (key : String) (v : Value) (a : Attributes)
  | accessor (key : String) (getter setter : Handle) (a : Attributes)
  | method (key : String) (v : Value)
  deriving DecidableEq, Repr

namespace Definition

def key : Definition → String
  | value key .. | accessor key .. | method key _ => key

/-- The property that the key is given. -/
def property : Definition → Property
  | value _ v a => .data v a
  | accessor _ getter setter a => .accessor getter setter a
  | method _ v => .data v .hidden

/-- Whether the call may put its property in the place of another one. -/
def mayReplace : Definition → Property → Bool
  | value .. | method .. => Property.acceptsValue
  | accessor .. => fun p => p.attributes.configurable

/-- Whether the call is permitted on that table. -/
def permittedOn (d : Definition) (t : PropertyTable) : Bool := (t.find? d.key).all d.mayReplace

/-- The answer to the call; a method is defined without one. -/
def answerOn (d : Definition) (t : PropertyTable) : Option Bool :=
  match d with
  | value .. | accessor .. => some (d.permittedOn t)
  | method .. => none

theorem permittedOn_of_answerOn {d : Definition} {t : PropertyTable} {b : Bool} (h : d.answerOn t = some b) :
    d.permittedOn t = b := by
  cases d with
  | value | accessor => exact Option.some.inj h
  | method => cases h

theorem exists_method_of_answerOn {d : Definition} {t : PropertyTable} (h : d.answerOn t = none) :
    ∃ key v, d = .method key v := by
  cases d with
  | value | accessor => cases h
  | method key v => exact ⟨key, v, rfl⟩

/-- The call as an action on an object. -/
def perform (id : ObjectId) : Definition → Action (Option Bool)
  | value key v a => do return some (← Realm.setProperty id key v a)
  | accessor key getter setter a => do return some (← Realm.defineAccessor id key getter setter a)
  | method key v => do
    Realm.setMethod id key v
    return none

end Definition

/-! ## Single properties -/

namespace Property

/-- What a call makes of the property under a key. -/
def replaced (key : String) (p : Property) (d : Definition) : Property :=
  if d.key = key ∧ d.mayReplace p = true then d.property else p

/-- What a sequence of calls makes of the property under a key. -/
def replacedAll (key : String) (p : Property) (ds : List Definition) : Property := ds.foldl (replaced key) p

variable {key : String} {p : Property} {d : Definition} {ds : List Definition}

theorem replaced_of_mayReplace (hkey : d.key = key) (hd : d.mayReplace p = true) : replaced key p d = d.property :=
  if_pos ⟨hkey, hd⟩

theorem replaced_of_not_mayReplace (hd : d.mayReplace p = false) : replaced key p d = p :=
  if_neg fun h => Bool.eq_false_iff.mp hd h.2

theorem replaced_of_ne (hkey : d.key ≠ key) : replaced key p d = p := if_neg fun h => hkey h.1

theorem replacedAll_append_singleton (key : String) (p : Property) (ds : List Definition) (d : Definition) :
    replacedAll key p (ds ++ [d]) = replaced key (replacedAll key p ds) d := by
  rw [replacedAll, List.foldl_append]
  rfl

theorem replacedAll_of_fixed (hds : ∀ d ∈ ds, replaced key p d = p) : replacedAll key p ds = p := by
  induction ds with
  | nil => rfl
  | cons d ds ih =>
    show replacedAll key (replaced key p d) ds = p
    rw [hds d List.mem_cons_self, ih fun d' hd' => hds d' (List.mem_cons_of_mem d hd')]

/-- Nothing may replace a value that is neither writable nor configurable. -/
theorem replaced_of_locked {v : Value} {a : Attributes} (hwritable : a.writable = false)
    (hconfigurable : a.configurable = false) (d : Definition) : replaced key (.data v a) d = .data v a := by
  refine replaced_of_not_mayReplace ?_
  cases d with
  | value | method => exact hwritable
  | accessor => exact hconfigurable

end Property

/-! ## Tables -/

namespace PropertyTable

/-- The table with that property under a key, which is listed at the end if there has been nothing under it. -/
def write (t : PropertyTable) (key : String) (p : Property) : PropertyTable :=
  if t.contains key then t.overwrite key p else t.append key p

theorem map_write (t : PropertyTable) (key : String) (p : Property) : (t.write key p).map = t.map.insert key p := by
  unfold write
  split <;> rfl

theorem find?_write (t : PropertyTable) (key key' : String) (p : Property) :
    (t.write key p).find? key' = if key = key' then some p else t.find? key' := by
  rw [find?, map_write, Table.find?_insert]
  rfl

theorem keys_write (t : PropertyTable) (key : String) (p : Property) :
    (t.write key p).keys = if t.contains key then t.keys else t.keys ++ [key] := by
  unfold write
  split <;> rfl

theorem size_write (t : PropertyTable) (key : String) (p : Property) :
    (t.write key p).size = if t.contains key then t.size else t.size + 1 := by
  rw [size, map_write, Table.size_insert]
  rfl

/-- The table after a call. -/
def define (t : PropertyTable) (d : Definition) : PropertyTable :=
  if d.permittedOn t then t.write d.key d.property else t

/-- The table after a sequence of calls. -/
def defineAll (t : PropertyTable) (ds : List Definition) : PropertyTable := ds.foldl define t

variable {t : PropertyTable} {d : Definition}

theorem define_of_permitted (h : d.permittedOn t = true) : t.define d = t.write d.key d.property := if_pos h

theorem define_of_refused (h : d.permittedOn t = false) : t.define d = t := by
  rw [define, h]
  rfl

theorem setValue?_eq (t : PropertyTable) (key : String) (v : Value) (a : Attributes) :
    setValue? t key v a =
      if (Definition.value key v a).permittedOn t then some (t.write key (.data v a)) else none := by
  unfold setValue? write
  show _ = if (t.find? key).all Property.acceptsValue = true then some (if (t.find? key).isSome then _ else _) else none
  cases t.find? key <;> rfl

theorem setAccessor?_eq (t : PropertyTable) (key : String) (getter setter : Handle) (a : Attributes) :
    setAccessor? t key getter setter a =
      if (Definition.accessor key getter setter a).permittedOn t then some (t.write key (.accessor getter setter a))
      else none := by
  unfold setAccessor? write
  show _ = if (t.find? key).all (fun p => p.attributes.configurable) = true then
    some (if (t.find? key).isSome then _ else _) else none
  cases t.find? key <;> rfl

theorem withValue_eq_define (t : PropertyTable) (key : String) (v : Value) (a : Attributes) :
    withValue t key v a = t.define (.value key v a) := by
  rw [withValue, setValue?_eq]
  exact apply_ite (Option.getD · t) _ _ _

theorem setMethod_eq_define (t : PropertyTable) (key : String) (v : Value) :
    setMethod t key v = t.define (.method key v) :=
  withValue_eq_define t key v .hidden

theorem defineAll_append (t : PropertyTable) (ds ds' : List Definition) :
    t.defineAll (ds ++ ds') = (t.defineAll ds).defineAll ds' :=
  List.foldl_append

/-! ### What a key holds -/

theorem find?_define_of_permitted (h : d.permittedOn t = true) (key : String) :
    (t.define d).find? key = if d.key = key then some d.property else t.find? key := by
  rw [define_of_permitted h, find?_write]

theorem find?_define_of_ne {key : String} (h : d.key ≠ key) : (t.define d).find? key = t.find? key := by
  cases hd : d.permittedOn t with
  | true => rw [find?_define_of_permitted hd, if_neg h]
  | false => rw [define_of_refused hd]

/-- A key for which a single call is made holds what this call gives it. -/
theorem find?_defineAll_of_only {ds : List Definition} (honly : ∀ d' ∈ ds, d'.key = d.key → d' = d)
    (h : t.find? d.key = some d.property ∨ t.find? d.key = none ∧ d ∈ ds) :
    (t.defineAll ds).find? d.key = some d.property := by
  induction ds generalizing t with
  | nil =>
    rcases h with h | ⟨-, hmem⟩
    · exact h
    · cases hmem
  | cons d' ds ih =>
    refine ih (t := t.define d') (fun d'' hd'' => honly d'' (List.mem_cons_of_mem d' hd'')) ?_
    by_cases hkey : d'.key = d.key
    · obtain rfl := honly d' List.mem_cons_self hkey
      cases hd : d'.permittedOn t with
      | true => exact .inl ((find?_define_of_permitted hd _).trans (if_pos rfl))
      | false =>
        rcases h with h | ⟨hnone, -⟩
        · exact .inl (by rw [define_of_refused hd, h])
        · rw [Definition.permittedOn, hnone] at hd
          cases hd
    · rw [find?_define_of_ne hkey]
      refine h.imp_right fun ⟨hnone, hmem⟩ => ⟨hnone, ?_⟩
      exact (List.mem_cons.mp hmem).resolve_left fun heq => hkey (heq ▸ rfl)

/-- A property under a key becomes what a call makes of it. -/
theorem find?_define_of_some {key : String} {p : Property} (hp : t.find? key = some p) (d : Definition) :
    (t.define d).find? key = some (p.replaced key d) := by
  by_cases hkey : d.key = key
  · subst hkey
    have hpermitted : d.permittedOn t = d.mayReplace p := by
      rw [Definition.permittedOn, hp]
      rfl
    cases hd : d.mayReplace p with
    | true => rw [find?_define_of_permitted (hpermitted.trans hd), if_pos rfl, Property.replaced_of_mayReplace rfl hd]
    | false => rw [define_of_refused (hpermitted.trans hd), hp, Property.replaced_of_not_mayReplace hd]
  · rw [find?_define_of_ne hkey, hp, Property.replaced_of_ne hkey]

/-- A property under a key goes its own way, whatever calls are made for other keys. -/
theorem find?_defineAll_of_some {key : String} {p : Property} (hp : t.find? key = some p) (ds : List Definition) :
    (t.defineAll ds).find? key = some (p.replacedAll key ds) := by
  induction ds generalizing t p with
  | nil => exact hp
  | cons d ds ih => exact ih (find?_define_of_some hp d)

theorem find?_defineAll_of_locked {key : String} {v : Value} {a : Attributes} (h : t.find? key = some (.data v a))
    (hwritable : a.writable = false) (hconfigurable : a.configurable = false) (ds : List Definition) :
    (t.defineAll ds).find? key = some (.data v a) := by
  rw [find?_defineAll_of_some h]
  exact congrArg some (Property.replacedAll_of_fixed fun d _ => Property.replaced_of_locked hwritable hconfigurable d)

/-! ### The list of keys -/

/-- A call of either outcome lists its key at the end, unless there is something under it already: what is refused is
refused for a property that the key holds. -/
theorem keys_define (t : PropertyTable) (d : Definition) :
    (t.define d).keys = if t.contains d.key then t.keys else t.keys ++ [d.key] := by
  cases hd : d.permittedOn t with
  | true => rw [define_of_permitted hd, keys_write]
  | false =>
    have hcontains : t.contains d.key = true := by
      show (t.find? d.key).isSome = true
      rw [Option.isSome_iff_ne_none]
      intro hnone
      rw [Definition.permittedOn, hnone] at hd
      cases hd
    rw [define_of_refused hd, if_pos hcontains]

/-- No call takes a key off the list, or puts it elsewhere. -/
theorem keys_prefix_defineAll (t : PropertyTable) (ds : List Definition) : t.keys <+: (t.defineAll ds).keys := by
  induction ds generalizing t with
  | nil => exact List.prefix_rfl
  | cons d ds ih =>
    refine List.IsPrefix.trans ?_ (ih (t.define d))
    rw [keys_define]
    split
    · exact List.prefix_rfl
    · exact List.prefix_append _ _

/-- Each key is listed once, and what is listed is what the map contains. -/
structure Listed (t : PropertyTable) : Prop where
  nodup : t.keys.Nodup
  contains : ∀ key, t.contains key = true ↔ key ∈ t.keys
  size : t.size = t.keys.length

theorem listed_empty : Listed .empty where
  nodup := List.nodup_nil
  contains _ := ⟨nofun, nofun⟩
  size := rfl

namespace Listed

/-- A write in the place of another property leaves the list alone, and one under a new key adds to both. -/
theorem write (h : t.Listed) (key : String) (p : Property) : (t.write key p).Listed := by
  have hcontains : ∀ key', (t.write key p).contains key' = true ↔ key = key' ∨ key' ∈ t.keys := by
    intro key'
    rw [← h.contains]
    show ((t.write key p).find? key').isSome = true ↔ _ ∨ (t.find? key').isSome = true
    rw [find?_write]
    split
    · next hkey => exact iff_of_true rfl (.inl hkey)
    · next hkey => exact ⟨.inr, fun hor => hor.resolve_left hkey⟩
  cases hnew : t.contains key with
  | true =>
    have hkeys : (t.write key p).keys = t.keys := by rw [keys_write, if_pos hnew]
    have hmem : key ∈ t.keys := (h.contains key).mp hnew
    refine ⟨hkeys ▸ h.nodup, fun key' => ?_, ?_⟩
    · rw [hcontains, hkeys]
      exact ⟨fun hor => hor.elim (fun heq => heq ▸ hmem) id, .inr⟩
    · rw [size_write, if_pos hnew, hkeys, h.size]
  | false =>
    have hkeys : (t.write key p).keys = t.keys ++ [key] := by rw [keys_write, hnew, if_neg Bool.false_ne_true]
    have hmem : key ∉ t.keys := fun hmem => Bool.eq_false_iff.mp hnew ((h.contains key).mpr hmem)
    refine ⟨?_, fun key' => ?_, ?_⟩
    · rw [hkeys, List.nodup_append]
      refine ⟨h.nodup, List.pairwise_singleton _ _, fun key' hkey' key'' hkey'' => ?_⟩
      obtain rfl := List.mem_singleton.mp hkey''
      rintro rfl
      exact hmem hkey'
    · rw [hcontains, hkeys, List.mem_append, List.mem_singleton, or_comm, eq_comm]
    · rw [size_write, hnew, if_neg Bool.false_ne_true, hkeys, List.length_append, h.size]
      rfl

/-- A call of either outcome keeps list and map in step. -/
theorem define (h : t.Listed) (d : Definition) : (t.define d).Listed := by
  cases hd : d.permittedOn t with
  | true =>
    rw [define_of_permitted hd]
    exact h.write d.key d.property
  | false =>
    rw [define_of_refused hd]
    exact h

theorem defineAll (h : t.Listed) (ds : List Definition) : (t.defineAll ds).Listed := by
  induction ds generalizing t with
  | nil => exact h
  | cons d ds ih => exact ih (h.define d)

/-- The keys there were stay in front, and the others follow in the order in which they were first defined. -/
theorem keys_defineAll (h : t.Listed) (ds : List Definition) :
    (t.defineAll ds).keys = t.keys ++ ((ds.map Definition.key).filter (· ∉ t.keys)).eraseDups := by
  induction ds generalizing t with
  | nil => exact (List.append_nil _).symm
  | cons d ds ih =>
    show ((t.define d).defineAll ds).keys = _
    rw [ih (h.define d), keys_define, List.map_cons]
    by_cases hmem : d.key ∈ t.keys
    · rw [if_pos ((h.contains d.key).mpr hmem), List.filter_cons_of_neg (by simpa using hmem)]
    · rw [if_neg (mt (h.contains d.key).mp hmem), List.filter_cons_of_pos (by simpa using hmem), List.eraseDups_cons,
        List.filter_filter, List.append_assoc, List.singleton_append]
      congr 3
      refine List.filter_congr fun key _ => ?_
      rw [Bool.eq_iff_iff]
      simp [and_comm]

end Listed

/-- A key that is defined again, in whatever form, stays where it is. -/
example : (defineAll .empty [.value "b" .null .all, .method "a" .null, .accessor "b" none none .all]).keys =
    ["b", "a"] := by
  decide

end PropertyTable

/-! ## Objects -/

namespace Heap

variable {h : Heap} {id : ObjectId} {o : Object}

/-- A change of an object depends on what it makes of that object alone. -/
theorem modify_congr {f k : Object → Object} (ho : h.get? id = some o) (hfk : f o = k o) :
    h.modify id f = h.modify id k := by
  have hobjects : h.objects.modify id.index f = h.objects.modify id.index k := by
    apply Array.ext_getElem?
    intro i
    rw [Array.getElem?_modify, Array.getElem?_modify]
    split
    · next hi =>
      have hget : h.objects[i]? = some o := hi ▸ ho
      rw [hget, Option.map_some, Option.map_some, hfk]
    · rfl
  rw [modify, modify, hobjects]

theorem modify_of_fixed {f : Object → Object} (ho : h.get? id = some o) (hf : f o = o) : h.modify id f = h := by
  rw [modify_congr ho (k := fun o => o) hf]
  have hobjects : h.objects.modify id.index (fun o => o) = h.objects := by
    apply Array.ext_getElem?
    intro i
    rw [Array.getElem?_modify]
    split
    · exact Option.map_id_fun' ▸ rfl
    · rfl
  rw [modify, hobjects]

theorem modify_of_missing (hnone : h.get? id = none) (f : Object → Object) : h.modify id f = h := by
  have hobjects : h.objects.modify id.index f = h.objects := by
    apply Array.ext_getElem?
    intro i
    rw [Array.getElem?_modify]
    split
    · next hi =>
      subst hi
      exact (congrArg (Option.map f) hnone).trans hnone.symm
    · rfl
  rw [modify, hobjects]

/-- Of two changes of an object that depend on nothing, the later one counts. -/
theorem modify_modify (h : Heap) (id : ObjectId) (f k : Object → Object) (hkf : ∀ o, k (f o) = k o) :
    (h.modify id f).modify id k = h.modify id k := by
  have hobjects : (h.objects.modify id.index f).modify id.index k = h.objects.modify id.index k := by
    apply Array.ext_getElem?
    intro i
    simp only [Array.getElem?_modify]
    split
    · rw [Option.map_map]
      exact congrArg (Option.map · _) (funext hkf)
    · rfl
  exact congrArg (fun objects => { h with objects }) hobjects

end Heap

/-- The realm with another table of own properties for an object. -/
def Realm.withProperties (r : Realm) (id : ObjectId) (t : PropertyTable) : Realm :=
  { r with heap := r.heap.modify id fun o => { o with properties := t } }

/-- The realm after a sequence of calls on an object. -/
def Realm.definingAll (r : Realm) (id : ObjectId) (ds : List Definition) : Realm :=
  ds.foldl (fun r d => (d.perform id r).2) r

theorem Realm.get?_withProperties {r : Realm} {id : ObjectId} {o : Object} (ho : r.heap.get? id = some o)
    (t : PropertyTable) : (r.withProperties id t).heap.get? id = some { o with properties := t } := by
  rw [withProperties, Heap.get?_modify, if_pos rfl, ho, Option.map_some]

theorem Realm.withProperties_withProperties (r : Realm) (id : ObjectId) (t t' : PropertyTable) :
    (r.withProperties id t).withProperties id t' = r.withProperties id t' :=
  congrArg (fun heap => { r with heap })
    (Heap.modify_modify r.heap id (fun o => { o with properties := t }) (fun o => { o with properties := t' })
      fun _ => rfl)

namespace Definition

variable {r : Realm} {id : ObjectId} {o : Object}

theorem withProperties_of_refused {d : Definition} (ho : r.heap.get? id = some o)
    (hd : d.permittedOn o.properties = false) : r.withProperties id (o.properties.define d) = r := by
  rw [Realm.withProperties, PropertyTable.define_of_refused hd, Heap.modify_of_fixed ho rfl]

theorem setProperty_apply (ho : r.heap.get? id = some o) (key : String) (v : Value) (a : Attributes) :
    Realm.setProperty id key v a r =
      ((value key v a).permittedOn o.properties, r.withProperties id (o.properties.define (.value key v a))) := by
  unfold Realm.setProperty
  rw [Realm.getHeap_bind_apply, ho, Option.bind_some, PropertyTable.setValue?_eq]
  cases hd : (value key v a).permittedOn o.properties with
  | true => rw [PropertyTable.define_of_permitted hd, if_pos rfl]; rfl
  | false => rw [withProperties_of_refused ho hd, if_neg Bool.false_ne_true]; rfl

theorem defineAccessor_apply (ho : r.heap.get? id = some o) (key : String) (getter setter : Handle) (a : Attributes) :
    Realm.defineAccessor id key getter setter a r =
      ((accessor key getter setter a).permittedOn o.properties,
        r.withProperties id (o.properties.define (.accessor key getter setter a))) := by
  unfold Realm.defineAccessor
  rw [Realm.getHeap_bind_apply, ho, Option.bind_some, PropertyTable.setAccessor?_eq]
  cases hd : (accessor key getter setter a).permittedOn o.properties with
  | true => rw [PropertyTable.define_of_permitted hd, if_pos rfl]; rfl
  | false => rw [withProperties_of_refused ho hd, if_neg Bool.false_ne_true]; rfl

theorem setMethod_apply (ho : r.heap.get? id = some o) (key : String) (v : Value) :
    Realm.setMethod id key v r = ((), r.withProperties id (o.properties.define (.method key v))) := by
  have hmodify := Heap.modify_congr ho (f := fun o => { o with properties := PropertyTable.setMethod o.properties key v })
    (k := fun p => { p with properties := o.properties.define (.method key v) })
    (by rw [PropertyTable.setMethod_eq_define])
  exact congrArg (fun heap => ((), { r with heap })) hmodify

/-- A call on an object is answered by what its table permits, and changes that table alone. -/
theorem perform_apply (ho : r.heap.get? id = some o) (d : Definition) :
    d.perform id r = (d.answerOn o.properties, r.withProperties id (o.properties.define d)) := by
  cases d with
  | value key v a =>
    show (some (Realm.setProperty id key v a r).1, (Realm.setProperty id key v a r).2) = _
    rw [setProperty_apply ho]
    rfl
  | accessor key getter setter a =>
    show (some (Realm.defineAccessor id key getter setter a r).1, (Realm.defineAccessor id key getter setter a r).2) = _
    rw [defineAccessor_apply ho]
    rfl
  | method key v =>
    show (none, (Realm.setMethod id key v r).2) = _
    rw [setMethod_apply ho]
    rfl

/-- A call on what is no object changes nothing, and is not answered as a permitted one. -/
theorem perform_of_missing (hnone : r.heap.get? id = none) (d : Definition) :
    (d.perform id r).1 ≠ some true ∧ (d.perform id r).2 = r := by
  cases d with
  | value key v a =>
    have hrefused : Realm.setProperty id key v a r = (false, r) := by
      unfold Realm.setProperty
      rw [Realm.getHeap_bind_apply, hnone]
      rfl
    show some (Realm.setProperty id key v a r).1 ≠ some true ∧ (Realm.setProperty id key v a r).2 = r
    rw [hrefused]
    exact ⟨nofun, rfl⟩
  | accessor key getter setter a =>
    have hrefused : Realm.defineAccessor id key getter setter a r = (false, r) := by
      unfold Realm.defineAccessor
      rw [Realm.getHeap_bind_apply, hnone]
      rfl
    show some (Realm.defineAccessor id key getter setter a r).1 ≠ some true ∧
      (Realm.defineAccessor id key getter setter a r).2 = r
    rw [hrefused]
    exact ⟨nofun, rfl⟩
  | method key v => exact ⟨nofun, congrArg (fun heap => { r with heap }) (Heap.modify_of_missing hnone _)⟩

theorem context_perform (d : Definition) (id : ObjectId) (r : Realm) : (d.perform id r).2.context = r.context := by
  cases ho : r.heap.get? id with
  | none => rw [(perform_of_missing ho d).2]
  | some o =>
    rw [perform_apply ho]
    rfl

theorem context_definingAll (ds : List Definition) (id : ObjectId) (r : Realm) :
    (r.definingAll id ds).context = r.context := by
  induction ds generalizing r with
  | nil => rfl
  | cons d ds ih => exact (ih (d.perform id r).2).trans (d.context_perform id r)

/-- A sequence of calls on an object changes its table alone, call by call. -/
theorem definingAll_eq (ho : r.heap.get? id = some o) (ds : List Definition) :
    r.definingAll id ds = r.withProperties id (o.properties.defineAll ds) := by
  induction ds generalizing r o with
  | nil =>
    show r = _
    rw [PropertyTable.defineAll, List.foldl_nil, Realm.withProperties, Heap.modify_of_fixed ho rfl]
  | cons d ds ih =>
    show (d.perform id r).2.definingAll id ds = _
    rw [perform_apply ho, ih (Realm.get?_withProperties ho _), Realm.withProperties_withProperties]
    rfl

end Definition

end IterationEngine
