import IterationEngine.Proofs.Access
import IterationEngine.Proofs.Inheritance
import IterationEngine.Proofs.Protocol

/-!
# What operations look at and write

Which properties an operation of the engine reads, and which collections it adds to.

`Run.Confined` says of what a run is made: calls of function objects, reads of properties under certain keys,
questions about the context and about the kinds of objects, fresh objects, type errors, and additions to certain
collections. The operations of the protocol are confined (`confined_of`, `confined_item`, `confined_entryOf`), and so
are the consumers that never close their iterator.

What the functions do that it calls aside,

1. `Run.Confined.keepsKind`: a confined run leaves every object of its kind, with its entries, but for the collections
   it adds to;
2. `Run.Confined.sim_agreeing`: what stands under other keys makes no difference to it.
-/

namespace IterationEngine

variable {H α β : Type}

/-! ## Kinds of objects -/

namespace Heap

/-- What kind of object it is, with the entries of a map and the values of a set. -/
def kind? (h : Heap) (id : ObjectId) : Option ObjectKind := (h.get? id).map Object.kind

/-- Heaps with objects of the same kinds. They may differ in the prototypes, properties and slots of the objects. -/
def SameKinds (h h' : Heap) : Prop := ∀ id, h.kind? id = h'.kind? id

namespace SameKinds

variable {h h' : Heap}

theorem isFunction (hk : h.SameKinds h') (id : ObjectId) : h.isFunction id = h'.isFunction id := by
  have hid := hk id
  unfold Heap.kind? at hid
  unfold Heap.isFunction
  cases ho : h.get? id with
  | none =>
    rw [ho, Option.map_none] at hid
    rw [Option.map_eq_none_iff.mp hid.symm]
  | some o =>
    rw [ho, Option.map_some] at hid
    obtain ⟨o', ho', hkind⟩ := Option.map_eq_some_iff.mp hid.symm
    rw [ho']
    simp only [Object.isFunction, hkind]

theorem function? (hk : h.SameKinds h') (v : Value) : h.function? v = h'.function? v := by
  cases v with
  | object id => simp only [Heap.function?, hk.isFunction id]
  | _ => rfl

theorem typeName (hk : h.SameKinds h') (v : Value) : h.typeName v = h'.typeName v := by
  cases v with
  | object id => simp only [Heap.typeName, hk.isFunction id]
  | _ => rfl

end SameKinds

theorem mapData?_of_kind {h : Heap} {id : ObjectId} {data : MapData} (hk : h.kind? id = some (.map data)) :
    h.mapData? id = some data := by
  obtain ⟨⟨kind, _, _, _⟩, ho, rfl⟩ := Option.map_eq_some_iff.mp hk
  rw [mapData?, ho]

theorem setData?_of_kind {h : Heap} {id : ObjectId} {data : SetData} (hk : h.kind? id = some (.set data)) :
    h.setData? id = some data := by
  obtain ⟨⟨kind, _, _, _⟩, ho, rfl⟩ := Option.map_eq_some_iff.mp hk
  rw [setData?, ho]

/-- Allocation leaves the objects there were. -/
theorem kind?_alloc_of_some {h : Heap} {id : ObjectId} {k : ObjectKind} (hk : h.kind? id = some k) (o : Object) :
    (h.alloc o).2.kind? id = some k := by
  obtain ⟨p, hp, rfl⟩ := Option.map_eq_some_iff.mp hk
  rw [kind?, Heap.get?_alloc_of_some hp, Option.map_some]

theorem get?_alloc (h : Heap) (o : Object) (id : ObjectId) :
    (h.alloc o).2.get? id = if id.index = h.size then some o else h.get? id := by
  simp only [alloc, get?, Array.getElem?_push]
  rfl

theorem kind?_modify_of_ne {h : Heap} {id id' : ObjectId} (hne : id ≠ id') (f : Object → Object) :
    (h.modify id f).kind? id' = h.kind? id' := by
  rw [kind?, get?_modify, if_neg hne, kind?]

end Heap

/-! ## Confined runs -/

/-- A run that reads no properties but those under the keys `keys` and adds to no collections but those in
`written`. -/
inductive Run.Confined (g : Guest H) (keys : String → Prop) (written : ObjectId → Prop) :
    {α : Type} → Run H α → Prop
  | pure {α : Type} (a : α) : Confined g keys written (Pure.pure a)
  | diverge {α : Type} : Confined g keys written (Run.diverge : Run H α)
  | bind {α β : Type} {x : Run H α} {f : α → Run H β} :
      Confined g keys written x → (∀ a, Confined g keys written (f a)) → Confined g keys written (x >>= f)
  | call (f : ObjectId) (v : Value) (args : List Value) : Confined g keys written (g.call f v args)
  | get (id : ObjectId) {key : String} (receiver : Value) :
      keys key → Confined g keys written (Access.get g id key receiver)
  | context : Confined g keys written (liftM Realm.getContext)
  | pending : Confined g keys written (liftM Realm.isPending)
  /-- What comes next looks at the heap for nothing but the kinds of objects. -/
  | kinds {α : Type} {next : Heap → Run H α} :
      (∀ h h' : Heap, h.SameKinds h' → next h = next h') → (∀ h, Confined g keys written (next h)) →
      Confined g keys written (liftM Realm.getHeap >>= next)
  | text (v : Value) : Confined g keys written (liftM (Realm.textOf v))
  | raise (message : String) : Confined g keys written (liftM (Realm.raiseTypeError message))
  | intrinsic (i : Intrinsic) : Confined g keys written (liftM (Realm.intrinsic i))
  | alloc (o : Object) : Confined g keys written (liftM (Realm.alloc o))
  | insertEntry {map : ObjectId} (key v : Value) :
      written map → Confined g keys written (liftM (Iterator.insertEntry map key v))
  | insertValue {set : ObjectId} (v : Value) :
      written set → Confined g keys written (liftM (Iterator.insertValue set v))

namespace Run.Confined

variable {g : Guest H} {keys : String → Prop} {written : ObjectId → Prop}

/-- Looking for an exception and going on in one of two ways. -/
theorem ifPending {x y : Run H α} (hx : Confined g keys written x) (hy : Confined g keys written y) :
    Confined g keys written (do if ← Realm.isPending then x else y) := by
  refine .bind .pending fun pending => ?_
  cases pending with
  | true => exact hx
  | false => exact hy

theorem raiseNotCallable (key : String) (v : Value) :
    Confined g keys written (liftM (Access.raiseNotCallable key v)) := by
  have hkinds : Confined g keys written (do
      let heap ← Realm.getHeap
      Realm.raiseTypeError ("Property '" ++ key ++ "' is not a function (" ++ heap.typeName v ++ ")")) := by
    refine .kinds (fun h h' hk => ?_) fun h => .raise _
    rw [hk.typeName v]
  exact hkinds

theorem raiseNotResult (v : Value) : Confined g keys written (liftM (Iterator.raiseNotResult v)) := by
  have htext : Confined g keys written (do
      let text ← Realm.textOf v
      Realm.raiseTypeError ("Iterator result " ++ text ++ " is not an object")) :=
    .bind (.text v) fun _ => .raise _
  exact htext

/-! ### Access -/

theorem getFrom (object : Handle) {key : String} (hkey : keys key) :
    Confined g keys written (Access.getFrom g object key) := by
  cases object with
  | some id => exact .get id _ hkey
  | none => exact .bind (.raise _) fun _ => .pure _

theorem getV (v : Value) {key : String} (hkey : keys key) : Confined g keys written (Access.getV g v key) := by
  cases v with
  | undefined | null => exact .bind (.text _) fun _ => .bind (.raise _) fun _ => .pure _
  | object id => exact .get id _ hkey
  | boolean | number | string | symbol => exact .pure _

theorem getMethod (v : Value) {key : String} (hkey : keys key) :
    Confined g keys written (Access.getMethod g v key) := by
  refine .bind (getV v hkey) fun method => ifPending (.pure _) ?_
  split
  · exact .pure _
  refine .kinds (fun h h' hk => ?_) fun heap => ?_
  · rw [hk.function? method]
  · split
    · exact .pure _
    · exact .bind (raiseNotCallable _ _) fun _ => .pure _

theorem callValue (callable receiver : Value) (args : List Value) :
    Confined g keys written (Access.call g callable receiver args) := by
  refine .kinds (fun h h' hk => ?_) fun heap => ?_
  · rw [hk.function? callable]
  · split
    · exact .call _ _ _
    · exact .bind (.text _) fun _ => .bind (.raise _) fun _ => .pure _

theorem invoke (v : Value) {key : String} (args : List Value) (hkey : keys key) :
    Confined g keys written (Access.invoke g v key args) := by
  refine .bind (getV v hkey) fun method => ifPending (.pure _) ?_
  refine .kinds (fun h h' hk => ?_) fun heap => ?_
  · rw [hk.function? method]
  · split
    · exact .call _ _ _
    · exact .bind (raiseNotCallable _ _) fun _ => .pure _

end Run.Confined

namespace Iterator

open Run.Confined

variable {g : Guest H} {keys : String → Prop} {written : ObjectId → Prop}

/-! ### The protocol -/

theorem confined_ofMethod (v method : Value) : Run.Confined g keys written (ofMethod g v method) := by
  refine .bind (callValue method v []) fun iterator => ifPending (.pure _) ?_
  split
  · exact .pure _
  · exact .bind (.raise _) fun _ => .pure _

theorem confined_of (hkeys : ∀ c : Context, keys c.iteratorKey) (v : Value) :
    Run.Confined g keys written (of g v) := by
  refine .bind .context fun context => .bind (getMethod v (hkeys context)) fun method => ?_
  refine ifPending (.pure _) ?_
  split
  · exact confined_ofMethod v _
  · exact .bind (.text _) fun _ => .bind (.raise _) fun _ => .pure _

section Steps

variable (hnext : keys "next") (hdone : keys "done")
include hnext

theorem confined_next (iterator : Handle) (argument : Option Value) :
    Run.Confined g keys written (next g iterator argument) := by
  refine .bind (invoke _ _ hnext) fun result => ifPending (.pure _) ?_
  split
  · exact .pure _
  · exact .bind (Run.Confined.raiseNotResult _) fun _ => .pure _

include hdone

theorem confined_step (iterator : Handle) : Run.Confined g keys written (step g iterator) := by
  refine .bind (confined_next hnext iterator none) fun result => ?_
  cases result with
  | none => exact .pure _
  | some result =>
    have hisDone : Run.Confined g keys written (isDone g result) :=
      .bind (getFrom _ hdone) fun done => ifPending (.pure _) (.pure _)
    refine .bind hisDone fun done => ifPending (.pure _) ?_
    split <;> exact .pure _

/-- Taking an item reads `next`, `done` and `value`. -/
theorem confined_item (hvalue : keys "value") (iterator : ObjectId) :
    Run.Confined g keys written (item g iterator) := by
  refine .bind (confined_step hnext hdone _) fun result => ifPending (.pure _) ?_
  cases result with
  | none => exact .pure _
  | some r => exact .bind (getFrom _ hvalue) fun v => ifPending (.pure _) (.pure _)

end Steps

/-- Reading an entry reads `0` and `1`. -/
theorem confined_entryOf (hzero : keys "0") (hone : keys "1") (v : Value) :
    Run.Confined g keys written (entryOf g v) := by
  unfold entryOf
  split
  · refine .bind (getFrom _ hzero) fun key => ifPending (.pure _) ?_
    exact .bind (getFrom _ hone) fun entryValue => ifPending (.pure _) (.pure _)
  · exact .bind (.text _) fun _ => .bind (.raise _) fun _ => .pure _

end Iterator

/-! ## What a confined run leaves -/

/-- The calls in a journal leave an object of its kind, with its entries, as code does that has not been given the
object. -/
def Journal.Spares (j : Journal) (id : ObjectId) : Prop :=
  ∀ call, .called call ∈ j → call.after.heap.kind? id = call.before.heap.kind? id

/-- The call that an event tells of. -/
def Event.call? : Event → Option CallRecord
  | called call => some call
  | ranBody .. | performed .. => none

instance (j : Journal) (id : ObjectId) : Decidable (j.Spares id) :=
  decidable_of_iff (∀ ev ∈ j, ∀ call ∈ ev.call?, call.after.heap.kind? id = call.before.heap.kind? id) <| by
    constructor
    · intro h call hcall
      exact h _ hcall call rfl
    · intro h ev hev call hcall
      cases ev with
      | called c =>
        obtain rfl := Option.some.inj hcall
        exact h c hev
      | ranBody | performed => cases hcall

namespace Journal

theorem Spares.left {j j' : Journal} {id : ObjectId} (h : (j ++ j').Spares id) : j.Spares id :=
  fun call hcall => h call (List.mem_append_left _ hcall)

theorem Spares.right {j j' : Journal} {id : ObjectId} (h : (j ++ j').Spares id) : j'.Spares id :=
  fun call hcall => h call (List.mem_append_right _ hcall)

end Journal

/-- Between two machines that keep journals, the calls that have been made since then. If these leave an object as it
is, what else has happened has turned its kind from `k` into `f k`. -/
def Machine.Turned (id : ObjectId) (f : ObjectKind → ObjectKind) (n n' : Machine (H × Journal)) : Prop :=
  ∃ j, n'.journal = n.journal ++ j ∧
    ∀ k, j.Spares id → n.realm.heap.kind? id = some k → n'.realm.heap.kind? id = some (f k)

namespace Machine.Turned

variable {id : ObjectId} {f f' : ObjectKind → ObjectKind} {n n₁ n₂ : Machine (H × Journal)}

/-- A change of the realm without a call. -/
theorem ofRealm {r : Realm} (hr : ∀ k, n.realm.heap.kind? id = some k → r.heap.kind? id = some (f k)) :
    Turned id f n (n.withRealm r) :=
  ⟨[], (List.append_nil _).symm, fun k _ hk => hr k hk⟩

theorem refl (n : Machine (H × Journal)) : Turned id (fun k => k) n n := ofRealm fun _ hk => hk

theorem trans (h : Turned id f n n₁) (h' : Turned id f' n₁ n₂) : Turned id (fun k => f' (f k)) n n₂ := by
  obtain ⟨j, hj, hkind⟩ := h
  obtain ⟨j', hj', hkind'⟩ := h'
  refine ⟨j ++ j', by rw [hj', hj, List.append_assoc], ?_⟩
  intro k hspares hk
  exact hkind' (f k) hspares.right (hkind k hspares.left hk)

theorem modify {g : Object → Object} (hg : ∀ o : Object, (g o).kind = f o.kind) :
    Turned id f n (n.withRealm (Realm.modifyObject id g n.realm).2) := by
  refine ofRealm fun k hk => ?_
  obtain ⟨o, ho, rfl⟩ := Option.map_eq_some_iff.mp hk
  show ((n.realm.heap.modify id g).get? id).map Object.kind = _
  rw [Heap.get?_modify, if_pos rfl, ho, Option.map_some, Option.map_some, hg o]

theorem modifyOther {id' : ObjectId} (hne : id' ≠ id) (g : Object → Object) :
    Turned id (fun k => k) n (n.withRealm (Realm.modifyObject id' g n.realm).2) :=
  ofRealm fun _ hk => (Heap.kind?_modify_of_ne hne g).trans hk

theorem call {g : Guest H} {fn : ObjectId} {v a : Value} {args : List Value}
    (h : g.recorded.call fn v args n = some (a, n₁)) : Turned id (fun k => k) n n₁ := by
  obtain ⟨m', -, rfl⟩ := Guest.recorded_call_eq_some h
  refine ⟨_, rfl, fun k hspares hk => ?_⟩
  exact (hspares _ List.mem_cons_self).trans hk

end Machine.Turned

/-- A confined run keeps what it does not write to, unless the functions do not that it calls. -/
theorem Run.Confined.keepsKind {g : Guest H} {keys : String → Prop} {written : ObjectId → Prop} {id : ObjectId}
    {x : Run (H × Journal) α} (hx : Confined g.recorded keys written x) (hid : ¬ written id)
    {n n' : Machine (H × Journal)} {a : α} (h : x n = some (a, n')) : Machine.Turned id (fun k => k) n n' := by
  induction hx generalizing n n' with
  | pure a =>
    obtain ⟨-, rfl⟩ := Run.pure_eq_some h
    exact .refl n'
  | diverge => cases h
  | bind _ _ ihx ihf =>
    obtain ⟨b, n₁, hx, hf⟩ := Run.bind_eq_some.mp h
    exact (ihx hx).trans (ihf b hf)
  | call f v args => exact .call h
  | get object receiver _ =>
    rw [Access.get_apply] at h
    split at h
    · obtain ⟨-, rfl⟩ := Run.pure_eq_some h
      exact .refl n'
    · split at h
      · exact .call h
      · obtain ⟨-, rfl⟩ := Run.pure_eq_some h
        exact .refl n'
    · obtain ⟨-, rfl⟩ := Run.pure_eq_some h
      exact .refl n'
  | context | pending | text | intrinsic =>
    obtain ⟨-, rfl⟩ := Run.lift_eq_some h
    exact .refl n
  | kinds _ _ ih =>
    rw [Run.getHeap_bind_apply] at h
    exact ih _ h
  | raise message =>
    obtain ⟨-, rfl⟩ := Run.lift_eq_some h
    exact .ofRealm fun _ hk => Heap.kind?_alloc_of_some hk _
  | alloc o =>
    obtain ⟨-, rfl⟩ := Run.lift_eq_some h
    exact .ofRealm fun _ hk => Heap.kind?_alloc_of_some hk o
  | insertEntry key v hmap | insertValue v hmap =>
    obtain ⟨-, rfl⟩ := Run.lift_eq_some h
    refine .modifyOther ?_ _
    rintro rfl
    exact hid hmap

/-! ## What a confined run cannot see -/

/-- Objects that differ at most in their slots and in their properties under other keys than those. -/
structure Object.AgreeOn (keys : String → Prop) (o o' : Object) : Prop where
  kind : o.kind = o'.kind
  prototype : o.prototype = o'.prototype
  property : ∀ key, keys key → o.properties.find? key = o'.properties.find? key

/-- Heaps of objects that agree, each with each. -/
structure Heap.AgreeOn (keys : String → Prop) (h h' : Heap) : Prop where
  size : h.size = h'.size
  object : ∀ id, Option.Rel (Object.AgreeOn keys) (h.get? id) (h'.get? id)

namespace Heap.AgreeOn

variable {keys : String → Prop} {h h' : Heap}

/-- Under one identity there is no object in either heap, or there are two that agree. -/
theorem get? (ha : h.AgreeOn keys h') (id : ObjectId) :
    (h.get? id = none ∧ h'.get? id = none) ∨
      ∃ o o', h.get? id = some o ∧ h'.get? id = some o' ∧ o.AgreeOn keys o' := by
  have hid := ha.object id
  generalize h.get? id = p at hid
  generalize h'.get? id = q at hid
  cases hid with
  | none => exact .inl ⟨rfl, rfl⟩
  | some ho => exact .inr ⟨_, _, rfl, rfl, ho⟩

theorem sameKinds (ha : h.AgreeOn keys h') : h.SameKinds h' := by
  intro id
  unfold Heap.kind?
  rcases ha.get? id with ⟨hn, hn'⟩ | ⟨o, o', ho, ho', hagree⟩
  · rw [hn, hn']
  · rw [ho, ho', Option.map_some, Option.map_some, hagree.kind]

theorem objectText (ha : h.AgreeOn keys h') : h.objectText = h'.objectText := by
  funext id
  unfold Heap.objectText
  rcases ha.get? id with ⟨hn, hn'⟩ | ⟨o, o', ho, ho', hagree⟩
  · rw [hn, hn']
  · rw [ho, ho']
    simp only [Object.text, hagree.kind]

theorem ownProperty? (ha : h.AgreeOn keys h') {key : String} (hkey : keys key) (id : ObjectId) :
    h.ownProperty? key id = h'.ownProperty? key id := by
  unfold Heap.ownProperty?
  rcases ha.get? id with ⟨hn, hn'⟩ | ⟨o, o', ho, ho', hagree⟩
  · rw [hn, hn']
  · rw [ho, ho']
    exact hagree.property key hkey

theorem parent? (ha : h.AgreeOn keys h') (id : ObjectId) : h.parent? id = h'.parent? id := by
  unfold Heap.parent?
  rcases ha.get? id with ⟨hn, hn'⟩ | ⟨o, o', ho, ho', hagree⟩
  · rw [hn, hn']
  · rw [ho, ho']
    exact hagree.prototype

/-- What is found under a key on which the heaps agree. -/
theorem lookup (ha : h.AgreeOn keys h') {key : String} (hkey : keys key) (id : ObjectId) :
    h.lookup id key = h'.lookup id key :=
  lookup_congr ha.parent? (ha.ownProperty? hkey) id

theorem alloc (ha : h.AgreeOn keys h') (o : Object) :
    (h.alloc o).1 = (h'.alloc o).1 ∧ (h.alloc o).2.AgreeOn keys (h'.alloc o).2 := by
  refine ⟨congrArg ObjectId.mk ha.size, ?_, fun id => ?_⟩
  · rw [size_alloc, size_alloc, ha.size]
  · rw [get?_alloc, get?_alloc, ha.size]
    split
    · exact .some ⟨rfl, rfl, fun _ _ => rfl⟩
    · exact ha.object id

theorem modify (ha : h.AgreeOn keys h') {f : Object → Object}
    (hf : ∀ o o' : Object, o.AgreeOn keys o' → (f o).AgreeOn keys (f o')) (id : ObjectId) :
    (h.modify id f).AgreeOn keys (h'.modify id f) := by
  refine ⟨by rw [size_modify, size_modify, ha.size], fun id' => ?_⟩
  rw [get?_modify, get?_modify]
  split
  · rcases ha.get? id' with ⟨hn, hn'⟩ | ⟨o, o', ho, ho', hagree⟩
    · rw [hn, hn']
      exact .none
    · rw [ho, ho']
      exact .some (hf o o' hagree)
  · exact ha.object id'

end Heap.AgreeOn

/-- Machines that differ at most in the slots of objects and in their properties under other keys than those. -/
structure Machine.AgreeOn (keys : String → Prop) (m n : Machine H) : Prop where
  heap : m.realm.heap.AgreeOn keys n.realm.heap
  context : m.realm.context = n.realm.context
  registry : m.realm.registry = n.realm.registry
  host : m.host = n.host

/-- A confined run does the same whatever stands under other keys, if the functions do that it calls. -/
theorem Run.Confined.sim_agreeing {g : Guest H} {keys : String → Prop} {written : ObjectId → Prop} {x : Run H α}
    (hx : Confined g keys written x)
    (hcall : ∀ f v args, Run.Sim (Machine.AgreeOn keys) (g.call f v args) (g.call f v args)) :
    Run.Sim (Machine.AgreeOn keys) x x := by
  induction hx with
  | pure a => exact .pure a
  | diverge => exact .diverge
  | bind _ _ ihx ihf => exact ihx.bind ihf
  | call f v args => exact hcall f v args
  | get id receiver hkey =>
    intro m n hmn
    rw [Access.get_apply, Access.get_apply, hmn.heap.lookup hkey]
    split
    · exact .some ⟨rfl, hmn⟩
    · rw [hmn.heap.sameKinds.isFunction]
      split
      · exact hcall _ _ _ m n hmn
      · exact .some ⟨rfl, hmn⟩
    · exact .some ⟨rfl, hmn⟩
  | context => exact fun m n hmn => .some ⟨hmn.context, hmn⟩
  | pending => exact fun m n hmn => .some ⟨congrArg (·.cell.isPending) hmn.context, hmn⟩
  | intrinsic i => exact fun m n hmn => .some ⟨congrArg (·.intrinsic i) hmn.context, hmn⟩
  | kinds hnext _ ih =>
    intro m n hmn
    rw [Run.getHeap_bind_apply, Run.getHeap_bind_apply, hnext _ _ hmn.heap.sameKinds]
    exact ih _ m n hmn
  | text v => exact fun m n hmn => .some ⟨congrArg v.text hmn.heap.objectText, hmn⟩
  | raise message =>
    intro m n hmn
    obtain ⟨⟨heap, context, registry⟩, host⟩ := m
    obtain ⟨hheap, rfl, rfl, rfl⟩ := hmn
    obtain ⟨hid, hraised⟩ :=
      hheap.alloc (.ofError .typeError message (n.realm.context.intrinsic ErrorKind.typeError.prototype))
    refine .some ⟨rfl, hraised, ?_, rfl, rfl⟩
    exact congrArg (fun e => { n.realm.context with cell := .holding (.object e) }) hid
  | alloc o =>
    intro m n hmn
    obtain ⟨hid, hheap⟩ := hmn.heap.alloc o
    exact .some ⟨hid, hheap, hmn.context, hmn.registry, hmn.host⟩
  | insertEntry key v | insertValue v =>
    intro m n hmn
    refine .some ⟨rfl, hmn.heap.modify (fun o o' ho => ?_) _, hmn.context, hmn.registry, hmn.host⟩
    obtain ⟨kind, _, _, _⟩ := o
    obtain ⟨kind', _, _, _⟩ := o'
    obtain ⟨hkind, hprototype, hproperty⟩ := ho
    obtain rfl : kind = kind' := hkind
    cases kind <;> exact ⟨rfl, hprototype, hproperty⟩

end IterationEngine
