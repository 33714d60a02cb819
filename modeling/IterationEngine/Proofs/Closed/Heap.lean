import IterationEngine.Program.Command
import IterationEngine.Proofs.Run

/-!
# Closed heaps

What an object stores is on the heap, and is of the class that it has to be.

Nothing checks an identity before it is used, so every object that is stored anywhere has to be on the heap, and where a
function, a map or a set is expected there has to be one. An object may be changed in many ways but it stays on the heap
and keeps its class (`Heap.Grows`), so what has once been live stays live.

1. `Object.values`, `Context.values`: everything that is stored, with handles as values.
2. `Value.LiveIn`, `Heap.Holds`: values that are on the heap, and the same for what is put into tables and collections.
3. `Heap.Grows`: what becomes of a heap; `LiveIn.mono` and its like are the facts that survive it.
4. `Heap.Closed`, `Realm.Closed`: the invariant, for an object that is added and for one that is changed.
-/

namespace IterationEngine

/-! ## What is stored -/

def Property.values : Property → List Value
  | data v _ => [v]
  | accessor getter setter _ => [.ofHandle getter, .ofHandle setter]

def PropertyTable.values (t : PropertyTable) : List Value := t.map.entries.flatMap fun e => e.2.values

/-- The values that the state of an object holds: members of a map, a set or a list, the function that may advance a
list iterator, and what a collection iterator runs over. -/
def ObjectKind.values : ObjectKind → List Value
  | plain _ | function .. | error .. => []
  | map data => data.entries.flatMap fun e => [e.1, e.2]
  | set data => data.values
  | listIterator cursor => .ofHandle cursor.next :: cursor.list.getD []
  | mapIterator cursor | setIterator cursor => [.object cursor.source]

def Object.values (o : Object) : List Value :=
  .ofHandle o.prototype :: (PropertyTable.values o.properties ++ o.slots.entries.map Prod.snd ++ o.kind.values)

def Heap.values (h : Heap) : List Value := h.objects.toList.flatMap Object.values

/-- The values that a context holds: receiver and active function of the running call, the global object, the registry
of built-in objects, and the exception that is stored. -/
def Context.values (c : Context) : List Value :=
  [c.frame.receiver, .ofHandle c.frame.active, .ofHandle c.global, c.exception] ++
    c.builtins.entries.map fun e => .ofHandle e.2

theorem Heap.mem_values {h : Heap} {v : Value} : v ∈ h.values ↔ ∃ id o, h.get? id = some o ∧ v ∈ o.values := by
  unfold values get?
  rw [List.mem_flatMap]
  constructor
  · rintro ⟨o, ho, hv⟩
    obtain ⟨i, hi⟩ := List.mem_iff_getElem?.mp ho
    rw [Array.getElem?_toList] at hi
    exact ⟨⟨i⟩, o, hi, hv⟩
  · rintro ⟨id, o, ho, hv⟩
    exact ⟨o, Array.mem_toList_iff.mpr (Array.mem_of_getElem? ho), hv⟩

/-! ## Live values -/

/-- The object that a value is, if it is one, is on the heap. -/
def Value.LiveIn (h : Heap) (v : Value) : Prop := ∀ id, v = .object id → h.contains id = true

/-- The heap holds all objects among the values. -/
def Heap.Holds (h : Heap) (vs : List Value) : Prop := ∀ v ∈ vs, v.LiveIn h

theorem Value.liveIn_object {h : Heap} {id : ObjectId} : (Value.object id).LiveIn h ↔ h.contains id = true := by
  constructor
  · intro hv
    exact hv id rfl
  · rintro hid _ ⟨⟩
    exact hid

theorem Value.liveIn_of_not_object {h : Heap} {v : Value} (hv : v.object? = none) : v.LiveIn h := by
  rintro id rfl
  cases hv

@[simp] theorem Value.liveIn_undefined (h : Heap) : Value.undefined.LiveIn h := nofun

@[simp] theorem Value.liveIn_boolean (h : Heap) (b : Bool) : (Value.boolean b).LiveIn h := nofun

@[simp] theorem Value.liveIn_number (h : Heap) (n : Number) : (Value.number n).LiveIn h := nofun

@[simp] theorem Value.liveIn_string (h : Heap) (s : String) : (Value.string s).LiveIn h := nofun

namespace Heap

@[simp] theorem holds_nil (h : Heap) : h.Holds [] := nofun

@[simp] theorem holds_cons {h : Heap} {v : Value} {vs : List Value} : h.Holds (v :: vs) ↔ v.LiveIn h ∧ h.Holds vs :=
  List.forall_mem_cons

@[simp] theorem holds_append {h : Heap} {vs ws : List Value} : h.Holds (vs ++ ws) ↔ h.Holds vs ∧ h.Holds ws :=
  List.forall_mem_append

theorem Holds.append {h : Heap} {vs ws : List Value} (hvs : h.Holds vs) (hws : h.Holds ws) : h.Holds (vs ++ ws) :=
  holds_append.mpr ⟨hvs, hws⟩

theorem Holds.head {h : Heap} {v : Value} {vs : List Value} (hvs : h.Holds (v :: vs)) : v.LiveIn h :=
  (holds_cons.mp hvs).1

theorem Holds.tail {h : Heap} {v : Value} {vs : List Value} (hvs : h.Holds (v :: vs)) : h.Holds vs :=
  (holds_cons.mp hvs).2

theorem Holds.singleton {h : Heap} {v : Value} (hv : v.LiveIn h) : h.Holds [v] := holds_cons.mpr ⟨hv, holds_nil h⟩

theorem holds_undefined (h : Heap) : h.Holds [.undefined] := .singleton (Value.liveIn_undefined h)

/-- The check of the operands of a command is the one that is meant here. -/
theorem all_contains_iff {h : Heap} {vs : List Value} :
    (vs.all fun v => v.object?.all h.contains) = true ↔ h.Holds vs := by
  rw [List.all_eq_true]
  refine forall₂_congr fun v _ => ?_
  cases v with
  | object id => exact Value.liveIn_object.symm
  | undefined | null | boolean | number | string | symbol =>
    exact iff_of_true rfl (Value.liveIn_of_not_object rfl)

end Heap

/-- The values of an object, part by part. -/
theorem Object.holds_values {h : Heap} {o : Object} : h.Holds o.values ↔
    (Value.ofHandle o.prototype).LiveIn h ∧ h.Holds (PropertyTable.values o.properties) ∧
      h.Holds (o.slots.entries.map Prod.snd) ∧ h.Holds o.kind.values := by
  simp only [values, Heap.holds_cons, Heap.holds_append, and_assoc]

/-- The values of a context, part by part. -/
theorem Context.holds_values {h : Heap} {c : Context} : h.Holds c.values ↔
    c.frame.receiver.LiveIn h ∧ (Value.ofHandle c.frame.active).LiveIn h ∧ (Value.ofHandle c.global).LiveIn h ∧
      c.exception.LiveIn h ∧ h.Holds (c.builtins.entries.map fun e => .ofHandle e.2) := by
  simp only [values, Heap.holds_cons, Heap.holds_append, Heap.holds_nil, and_true, and_assoc]

/-! ## What is put into tables and collections -/

theorem Table.mem_put {α : Type} {entries : List (String × α)} {key : String} {a : α} {e : String × α}
    (he : e ∈ Table.put entries key a) : e.2 = a ∨ e ∈ entries := by
  induction entries with
  | nil =>
    obtain rfl := List.mem_singleton.mp he
    exact .inl rfl
  | cons e' rest ih =>
    obtain ⟨k, b⟩ := e'
    unfold Table.put at he
    split at he
    · rcases List.mem_cons.mp he with rfl | hrest
      · exact .inl rfl
      · exact .inr (List.mem_cons_of_mem _ hrest)
    · rcases List.mem_cons.mp he with rfl | hrest
      · exact .inr List.mem_cons_self
      · exact (ih hrest).imp_right (List.mem_cons_of_mem _)

theorem Table.mem_of_lookup {α : Type} {entries : List (String × α)} {key : String} {a : α}
    (h : Table.lookup entries key = some a) : (key, a) ∈ entries := by
  induction entries with
  | nil => cases h
  | cons e rest ih =>
    obtain ⟨k, b⟩ := e
    unfold Table.lookup at h
    split at h
    · next hk =>
      obtain rfl := Option.some.inj h
      rw [hk]
      exact List.mem_cons_self
    · exact List.mem_cons_of_mem _ (ih h)

namespace Heap

variable {h : Heap}

theorem holds_map_snd_insert {t : Table Value} {key : String} {v : Value} (ht : h.Holds (t.entries.map Prod.snd))
    (hv : v.LiveIn h) : h.Holds ((t.insert key v).entries.map Prod.snd) := by
  intro w hw
  obtain ⟨e, he, rfl⟩ := List.mem_map.mp hw
  rcases Table.mem_put he with rfl | hold
  · exact hv
  · exact ht _ (List.mem_map_of_mem hold)

/-- The list of the keys holds no values. -/
theorem holds_insertProperty {t t' : PropertyTable} {key : String} {p : Property} (ht : h.Holds (PropertyTable.values t))
    (hp : h.Holds p.values) (hmap : t'.map = t.map.insert key p) : h.Holds (PropertyTable.values t') := by
  intro w hw
  rw [PropertyTable.values, hmap] at hw
  obtain ⟨e, he, hwe⟩ := List.mem_flatMap.mp hw
  rcases Table.mem_put he with rfl | hold
  · exact hp w hwe
  · exact ht w (List.mem_flatMap.mpr ⟨e, hold, hwe⟩)

theorem holds_setValue? {t t' : PropertyTable} {key : String} {v : Value} {a : Attributes}
    (ht : h.Holds (PropertyTable.values t)) (hv : v.LiveIn h) (h' : PropertyTable.setValue? t key v a = some t') :
    h.Holds (PropertyTable.values t') := by
  have hp : h.Holds (Property.data v a).values := .singleton hv
  unfold PropertyTable.setValue? at h'
  split at h'
  · split at h'
    · obtain rfl := Option.some.inj h'
      exact holds_insertProperty ht hp rfl
    · cases h'
  · obtain rfl := Option.some.inj h'
    exact holds_insertProperty ht hp rfl

theorem holds_setAccessor? {t t' : PropertyTable} {key : String} {getter setter : Handle} {a : Attributes}
    (ht : h.Holds (PropertyTable.values t)) (hp : h.Holds (Property.accessor getter setter a).values)
    (h' : PropertyTable.setAccessor? t key getter setter a = some t') : h.Holds (PropertyTable.values t') := by
  unfold PropertyTable.setAccessor? at h'
  split at h'
  · split at h'
    · obtain rfl := Option.some.inj h'
      exact holds_insertProperty ht hp rfl
    · cases h'
  · obtain rfl := Option.some.inj h'
    exact holds_insertProperty ht hp rfl

/-- A value that is written, or dropped if that is refused. -/
theorem holds_withValue {t : PropertyTable} {v : Value} (ht : h.Holds (PropertyTable.values t)) (hv : v.LiveIn h)
    (key : String) (a : Attributes) : h.Holds (PropertyTable.values (PropertyTable.withValue t key v a)) := by
  unfold PropertyTable.withValue
  cases hset : PropertyTable.setValue? t key v a with
  | none => exact ht
  | some t' => exact holds_setValue? ht hv hset

theorem liveIn_normalizeKey {key : Value} (hkey : key.LiveIn h) : key.normalizeKey.LiveIn h := by
  cases key with
  | object id => exact hkey
  | undefined | null | boolean | number | string | symbol => exact Value.liveIn_of_not_object rfl

theorem holds_put {entries : List (Value × Value)} {key v : Value}
    (hentries : h.Holds (entries.flatMap fun e => [e.1, e.2])) (hkey : key.LiveIn h) (hv : v.LiveIn h) :
    h.Holds ((MapData.put entries key v).flatMap fun e => [e.1, e.2]) := by
  induction entries with
  | nil => exact holds_cons.mpr ⟨liveIn_normalizeKey hkey, .singleton hv⟩
  | cons e rest ih =>
    rw [List.flatMap_cons, holds_append] at hentries
    obtain ⟨he, hrest⟩ := hentries
    unfold MapData.put
    split
    · rw [List.flatMap_cons, holds_append]
      exact ⟨holds_cons.mpr ⟨he.head, .singleton hv⟩, hrest⟩
    · rw [List.flatMap_cons, holds_append]
      exact ⟨he, ih hrest⟩

theorem holds_delete {data : MapData} {key : Value} (hdata : h.Holds (ObjectKind.map data).values) :
    h.Holds (ObjectKind.map (data.delete key).2).values := by
  unfold MapData.delete
  split
  · intro v hv
    obtain ⟨e, he, hve⟩ := List.mem_flatMap.mp hv
    exact hdata v (List.mem_flatMap.mpr ⟨e, List.mem_of_mem_eraseP he, hve⟩)
  · exact hdata

theorem holds_insertMember {data : SetData} {v : Value} (hdata : h.Holds data.values) (hv : v.LiveIn h) :
    h.Holds (data.insert v).values := by
  unfold SetData.insert
  split
  · exact hdata
  · exact holds_append.mpr ⟨hdata, .singleton (liveIn_normalizeKey hv)⟩

theorem holds_of_get? (hh : h.Holds h.values) {id : ObjectId} {o : Object} (ho : h.get? id = some o) :
    h.Holds o.values :=
  fun v hv => hh v (mem_values.mpr ⟨id, o, ho, hv⟩)

theorem holds_properties (hh : h.Holds h.values) {id : ObjectId} {o : Object} (ho : h.get? id = some o) :
    h.Holds (PropertyTable.values o.properties) :=
  (Object.holds_values.mp (holds_of_get? hh ho)).2.1

/-- What a lookup finds is stored on the heap. -/
theorem holds_lookup (hh : h.Holds h.values) {id : ObjectId} {key : String} {p : Property}
    (hp : h.lookup id key = some p) : h.Holds p.values := by
  obtain ⟨id', -, hown⟩ := List.exists_of_findSome?_eq_some hp
  obtain ⟨o, ho, hfind⟩ := Option.bind_eq_some_iff.mp hown
  intro v hv
  exact holds_properties hh ho v (List.mem_flatMap.mpr ⟨_, Table.mem_of_lookup hfind, hv⟩)

theorem liveIn_ofHandle_builtin {c : Context} (hc : h.Holds c.values) (name : String) :
    (Value.ofHandle (c.builtin name)).LiveIn h := by
  unfold Context.builtin
  cases hfind : c.builtins.find? name with
  | none => exact Value.liveIn_undefined h
  | some object =>
    have hmem := List.mem_map_of_mem (Table.mem_of_lookup hfind) (f := fun e => Value.ofHandle e.2)
    exact hc _ (List.mem_append_right _ hmem)

end Heap

/-! ## Growth -/

/-- What of the kind of an object never changes: its class, and all of its state but the members of a collection, the
index of a list iterator and the function that may advance it. -/
def ObjectKind.fixed : ObjectKind → ObjectKind
  | map _ => map .empty
  | set _ => set .empty
  | listIterator cursor => listIterator { list := cursor.list }
  | k => k

/-- `h'` has the objects of `h`, each of the same class. -/
def Heap.Grows (h h' : Heap) : Prop :=
  ∀ id o, h.get? id = some o → ∃ o', h'.get? id = some o' ∧ o'.kind.fixed = o.kind.fixed

namespace Heap.Grows

variable {h₁ h₂ h₃ : Heap}

theorem refl (h : Heap) : h.Grows h := fun _ o ho => ⟨o, ho, rfl⟩

theorem trans (h : h₁.Grows h₂) (h' : h₂.Grows h₃) : h₁.Grows h₃ := by
  intro id o ho
  obtain ⟨o₂, ho₂, hk⟩ := h id o ho
  obtain ⟨o₃, ho₃, hk'⟩ := h' id o₂ ho₂
  exact ⟨o₃, ho₃, hk'.trans hk⟩

theorem alloc (h : Heap) (o : Object) : h.Grows (h.alloc o).2 :=
  fun _ p hp => ⟨p, Heap.get?_alloc_of_some hp o, rfl⟩

theorem modify {f : Object → Object} (hf : ∀ o : Object, (f o).kind.fixed = o.kind.fixed) (h : Heap) (id : ObjectId) :
    h.Grows (h.modify id f) := by
  intro id' o ho
  rw [Heap.get?_modify, ho]
  by_cases hid : id = id'
  · exact ⟨f o, by rw [if_pos hid, Option.map_some], hf o⟩
  · exact ⟨o, by rw [if_neg hid], rfl⟩

theorem contains (h : h₁.Grows h₂) {id : ObjectId} (hid : h₁.contains id = true) : h₂.contains id = true := by
  obtain ⟨o, ho⟩ := (Heap.contains_iff h₁ id).mp hid
  obtain ⟨o', ho', -⟩ := h id o ho
  exact (Heap.contains_iff h₂ id).mpr ⟨o', ho'⟩

/-- A property of what never changes stays. -/
theorem keeps {p : ObjectKind → Bool} (hp : ∀ k, p k.fixed = p k) (h : h₁.Grows h₂) {id : ObjectId}
    (hid : ∃ o, h₁.get? id = some o ∧ p o.kind = true) : ∃ o, h₂.get? id = some o ∧ p o.kind = true := by
  obtain ⟨o, ho, hpo⟩ := hid
  obtain ⟨o', ho', hk⟩ := h id o ho
  exact ⟨o', ho', by rw [← hp, hk, hp, hpo]⟩

end Heap.Grows

/-- The heap has an object of that kind, up to what may change. -/
def Heap.HasKind (h : Heap) (id : ObjectId) (k : ObjectKind) : Prop := ∃ o, h.get? id = some o ∧ o.kind.fixed = k.fixed

theorem Heap.HasKind.contains {h : Heap} {id : ObjectId} {k : ObjectKind} (hk : h.HasKind id k) :
    h.contains id = true := by
  obtain ⟨o, ho, -⟩ := hk
  exact (Heap.contains_iff h id).mpr ⟨o, ho⟩

theorem Value.LiveIn.mono {h h' : Heap} {v : Value} (hv : v.LiveIn h) (hh : h.Grows h') : v.LiveIn h' :=
  fun id hid => hh.contains (hv id hid)

theorem Heap.Holds.mono {h h' : Heap} {vs : List Value} (hvs : h.Holds vs) (hh : h.Grows h') : h'.Holds vs :=
  fun v hv => (hvs v hv).mono hh

/-! ## Classes -/

namespace ObjectKind

def isFunction : ObjectKind → Bool
  | function .. => true
  | _ => false

def isMap : ObjectKind → Bool
  | map _ => true
  | _ => false

def isSet : ObjectKind → Bool
  | set _ => true
  | _ => false

theorem isFunction_fixed (k : ObjectKind) : k.fixed.isFunction = k.isFunction := by cases k <;> rfl

theorem isMap_fixed (k : ObjectKind) : k.fixed.isMap = k.isMap := by cases k <;> rfl

theorem isSet_fixed (k : ObjectKind) : k.fixed.isSet = k.isSet := by cases k <;> rfl

end ObjectKind

namespace Heap

theorem isFunction_iff {h : Heap} {id : ObjectId} :
    h.isFunction id = true ↔ ∃ o, h.get? id = some o ∧ o.kind.isFunction = true := by
  unfold isFunction
  cases h.get? id with
  | none => simp
  | some o =>
    obtain ⟨kind, _, _, _⟩ := o
    cases kind <;> simp [Object.isFunction, ObjectKind.isFunction]

theorem isSome_mapData?_iff {h : Heap} {id : ObjectId} :
    (h.mapData? id).isSome = true ↔ ∃ o, h.get? id = some o ∧ o.kind.isMap = true := by
  unfold mapData?
  cases h.get? id with
  | none => simp
  | some o =>
    obtain ⟨kind, _, _, _⟩ := o
    cases kind <;> simp [ObjectKind.isMap]

theorem isSome_setData?_iff {h : Heap} {id : ObjectId} :
    (h.setData? id).isSome = true ↔ ∃ o, h.get? id = some o ∧ o.kind.isSet = true := by
  unfold setData?
  cases h.get? id with
  | none => simp
  | some o =>
    obtain ⟨kind, _, _, _⟩ := o
    cases kind <;> simp [ObjectKind.isSet]

namespace Grows

variable {h h' : Heap} {id : ObjectId}

theorem isFunction (hh : h.Grows h') (hid : h.isFunction id = true) : h'.isFunction id = true :=
  isFunction_iff.mpr (hh.keeps ObjectKind.isFunction_fixed (isFunction_iff.mp hid))

theorem mapData? (hh : h.Grows h') (hid : (h.mapData? id).isSome = true) : (h'.mapData? id).isSome = true :=
  isSome_mapData?_iff.mpr (hh.keeps ObjectKind.isMap_fixed (isSome_mapData?_iff.mp hid))

theorem setData? (hh : h.Grows h') (hid : (h.setData? id).isSome = true) : (h'.setData? id).isSome = true :=
  isSome_setData?_iff.mpr (hh.keeps ObjectKind.isSet_fixed (isSome_setData?_iff.mp hid))

/-- What is a function after all has been one, if it was there. -/
theorem isFunction_of_contains (hh : h.Grows h') (hlive : h.contains id = true) (hid : h'.isFunction id = true) :
    h.isFunction id = true := by
  obtain ⟨o, ho⟩ := (Heap.contains_iff h id).mp hlive
  obtain ⟨o', ho', hk⟩ := hh id o ho
  obtain ⟨p, hp, hfunction⟩ := isFunction_iff.mp hid
  obtain rfl := Option.some.inj (ho'.symm.trans hp)
  rw [← ObjectKind.isFunction_fixed, hk, ObjectKind.isFunction_fixed] at hfunction
  exact isFunction_iff.mpr ⟨o, ho, hfunction⟩

end Grows

theorem HasKind.isFunction {h : Heap} {id : ObjectId} {name : String} {arity : UInt32} {code : Code}
    (hk : h.HasKind id (.function name arity code)) : h.isFunction id = true := by
  obtain ⟨o, ho, hfixed⟩ := hk
  refine isFunction_iff.mpr ⟨o, ho, ?_⟩
  rw [← ObjectKind.isFunction_fixed, hfixed]
  rfl

end Heap

theorem Value.liveIn_of_isFunction {h : Heap} {id : ObjectId} (hid : h.isFunction id = true) :
    (Value.object id).LiveIn h := by
  obtain ⟨o, ho, -⟩ := Heap.isFunction_iff.mp hid
  exact Value.liveIn_object.mpr ((Heap.contains_iff h id).mpr ⟨o, ho⟩)

/-! ## The invariant -/

/-- The classes that an object and those it refers to have to be of. What is bound to a list iterator is not checked, so
that it is a function is known under a condition, `bound`, which says that nothing else has been bound. -/
structure Object.WellTyped (bound : Prop) (h : Heap) (o : Object) : Prop where
  tag : o.classTag = .function → o.isFunction = true
  next : bound → ∀ cursor f, o.kind = .listIterator cursor → cursor.next = some f → h.isFunction f = true
  mapSource : ∀ cursor, o.kind = .mapIterator cursor → (h.mapData? cursor.source).isSome = true
  setSource : ∀ cursor, o.kind = .setIterator cursor → (h.setData? cursor.source).isSome = true

/-- Every object that an object refers to is on the heap and of the right class. -/
structure Heap.Closed (bound : Prop) (h : Heap) : Prop where
  values : h.Holds h.values
  typed : ∀ id o, h.get? id = some o → o.WellTyped bound h

/-- So is every object that the context refers to on the heap. -/
structure Realm.Closed (bound : Prop) (r : Realm) : Prop where
  heap : r.heap.Closed bound
  context : r.heap.Holds r.context.values

variable {bound : Prop} {h h' : Heap}

theorem Object.WellTyped.mono {o : Object} (ho : o.WellTyped bound h) (hh : h.Grows h') : o.WellTyped bound h' where
  tag := ho.tag
  next hb cursor f hk hf := hh.isFunction (ho.next hb cursor f hk hf)
  mapSource cursor hk := hh.mapData? (ho.mapSource cursor hk)
  setSource cursor hk := hh.setData? (ho.setSource cursor hk)

theorem Object.tag_isFunction (o : Object) : o.classTag = .function → o.isFunction = true := by
  obtain ⟨kind, _, _, _⟩ := o
  cases kind with
  | plain tag => cases tag <;> exact nofun
  | function => exact fun _ => rfl
  | error | map | set | listIterator | mapIterator | setIterator => exact nofun

/-- An object that refers to others of a certain class. -/
def ObjectKind.isCursor : ObjectKind → Bool
  | listIterator _ | mapIterator _ | setIterator _ => true
  | _ => false

theorem Object.WellTyped.of_no_cursor {o : Object} (ho : o.kind.isCursor = false) : o.WellTyped bound h where
  tag := o.tag_isFunction
  next _ cursor _ hk _ := by
    rw [hk] at ho
    cases ho
  mapSource cursor hk := by
    rw [hk] at ho
    cases ho
  setSource cursor hk := by
    rw [hk] at ho
    cases ho

/-- The parts of an object that are no part of its kind do not matter. -/
theorem Object.WellTyped.of_kind {o o' : Object} (ho : o.WellTyped bound h) (hk : o'.kind = o.kind) :
    o'.WellTyped bound h where
  tag := o'.tag_isFunction
  next hb cursor f hc hf := ho.next hb cursor f (hk.symm.trans hc) hf
  mapSource cursor hc := ho.mapSource cursor (hk.symm.trans hc)
  setSource cursor hc := ho.setSource cursor (hk.symm.trans hc)

theorem Heap.Closed.weaken {bound' : Prop} (hc : h.Closed bound) (hb : bound' → bound) : h.Closed bound' where
  values := hc.values
  typed id o ho := { hc.typed id o ho with next := fun hb' => (hc.typed id o ho).next (hb hb') }

theorem Realm.Closed.weaken {bound' : Prop} {r : Realm} (hc : r.Closed bound) (hb : bound' → bound) :
    r.Closed bound' :=
  ⟨hc.heap.weaken hb, hc.context⟩

theorem Heap.Closed.of_objects (hc : ∀ id o, h.get? id = some o → h.Holds o.values ∧ o.WellTyped bound h) :
    h.Closed bound where
  values := by
    intro v hv
    obtain ⟨id, o, ho, hvo⟩ := Heap.mem_values.mp hv
    exact (hc id o ho).1 v hvo
  typed id o ho := (hc id o ho).2

theorem Heap.get?_alloc_eq_some {o p : Object} {id : ObjectId} (hp : (h.alloc o).2.get? id = some p) :
    h.get? id = some p ∨ p = o := by
  change (h.objects.push o)[id.index]? = some p at hp
  rw [Array.getElem?_push] at hp
  split at hp
  · exact .inr (Option.some.inj hp).symm
  · exact .inl hp

/-- An object that is added may refer to what is on the heap already. -/
theorem Heap.Closed.alloc (hc : h.Closed bound) {o : Object} (hvalues : h.Holds o.values)
    (htyped : o.WellTyped bound h) : (h.alloc o).2.Closed bound := by
  have hgrows := Heap.Grows.alloc h o
  refine .of_objects fun id p hp => ?_
  rcases Heap.get?_alloc_eq_some hp with hold | rfl
  · exact ⟨(Heap.holds_of_get? hc.values hold).mono hgrows, (hc.typed id p hold).mono hgrows⟩
  · exact ⟨hvalues.mono hgrows, htyped.mono hgrows⟩

/-- So may an object that is changed. -/
theorem Heap.Closed.modify (hc : h.Closed bound) {f : Object → Object}
    (hfixed : ∀ o : Object, (f o).kind.fixed = o.kind.fixed)
    (hvalues : ∀ o : Object, h.Holds o.values → h.Holds (f o).values)
    (htyped : ∀ o : Object, o.WellTyped bound h → (f o).WellTyped bound h) (id : ObjectId) :
    (h.modify id f).Closed bound := by
  have hgrows := Heap.Grows.modify hfixed h id
  refine .of_objects fun id' o ho => ?_
  rw [Heap.get?_modify] at ho
  split at ho
  · obtain ⟨p, hp, rfl⟩ := Option.map_eq_some_iff.mp ho
    exact ⟨(hvalues p (Heap.holds_of_get? hc.values hp)).mono hgrows, (htyped p (hc.typed id' p hp)).mono hgrows⟩
  · exact ⟨(Heap.holds_of_get? hc.values ho).mono hgrows, (hc.typed id' o ho).mono hgrows⟩

end IterationEngine
