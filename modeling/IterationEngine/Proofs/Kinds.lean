import IterationEngine.Proofs.Commands

/-!
# Kinds of objects

Objects keep their kind, and with it the cursor of a list iterator and the code of a function object.

`Heap.KeepsKinds` allows any change of prototypes, properties and slots, and of the entries of maps and sets.
`Realm.KeepsKinds` shows it of the actions behind the commands. Two of them are left out, both of list iterators:
the step, which moves a cursor, and `ListIterator.bindNext`, which changes the function that may take it.
-/

namespace IterationEngine

variable {α β : Type}

/-! ## Heaps -/

/-- `h'` has the objects of `h`, each of the same kind but for the entries of maps and sets. -/
def Heap.KeepsKinds (h h' : Heap) : Prop :=
  ∀ id o, h.get? id = some o → ∃ o', h'.get? id = some o' ∧ o.kind.Alike o'.kind

namespace Heap

theorem listCursor?_eq_some {h : Heap} {id : ObjectId} {c : ListCursor} :
    h.listCursor? id = some c ↔ ∃ o, h.get? id = some o ∧ o.kind = .listIterator c := by
  unfold listCursor?
  cases h.get? id with
  | none => simp
  | some o =>
    obtain ⟨kind, _, _, _⟩ := o
    cases kind <;> simp

theorem code?_eq_some {h : Heap} {id : ObjectId} {c : Code} :
    h.code? id = some c ↔ ∃ o name arity, h.get? id = some o ∧ o.kind = .function name arity c := by
  unfold code?
  cases h.get? id with
  | none => simp
  | some o =>
    obtain ⟨kind, _, _, _⟩ := o
    cases kind <;> simp

/-- What has code is a function object. -/
theorem isFunction_of_code? {h : Heap} {id : ObjectId} {c : Code} (hc : h.code? id = some c) : h.isFunction id = true := by
  obtain ⟨⟨kind, _, _, _⟩, name, arity, ho, rfl⟩ := code?_eq_some.mp hc
  rw [isFunction, ho]
  rfl

namespace KeepsKinds

variable {h₁ h₂ h₃ : Heap}

theorem refl (h : Heap) : h.KeepsKinds h := fun _ o ho => ⟨o, ho, .same _⟩

theorem trans (h : h₁.KeepsKinds h₂) (h' : h₂.KeepsKinds h₃) : h₁.KeepsKinds h₃ := by
  intro id o ho
  obtain ⟨o₂, ho₂, ha⟩ := h id o ho
  obtain ⟨o₃, ho₃, ha'⟩ := h' id o₂ ho₂
  exact ⟨o₃, ho₃, ha.trans ha'⟩

theorem ofExtends (h : h₁.Extends h₂) : h₁.KeepsKinds h₂ := by
  intro id o ho
  obtain ⟨kind, hk, ha⟩ := h id o ho
  exact ⟨_, hk, ha⟩

theorem alloc (h : Heap) (o : Object) : h.KeepsKinds (h.alloc o).2 := .ofExtends (.alloc h o)

theorem modify {f : Object → Object} (hf : ∀ o : Object, o.kind.Alike (f o).kind) (h : Heap) (id : ObjectId) :
    h.KeepsKinds (h.modify id f) := by
  intro id' o ho
  rw [Heap.get?_modify, ho]
  by_cases hid : id = id'
  · exact ⟨f o, by rw [if_pos hid, Option.map_some], hf o⟩
  · exact ⟨o, by rw [if_neg hid], .same _⟩

/-- An object that is new may change in any way. -/
theorem modify_new (h : h₁.KeepsKinds h₂) {id : ObjectId} (hid : h₁.get? id = none) (f : Object → Object) :
    h₁.KeepsKinds (h₂.modify id f) := by
  intro id' o ho
  obtain ⟨o', ho', ha⟩ := h id' o ho
  have hne : id ≠ id' := by
    rintro rfl
    rw [hid] at ho
    cases ho
  exact ⟨o', by rw [Heap.get?_modify, if_neg hne, ho'], ha⟩

theorem listCursor? (h : h₁.KeepsKinds h₂) {id : ObjectId} {c : ListCursor}
    (hc : h₁.listCursor? id = some c) : h₂.listCursor? id = some c := by
  obtain ⟨⟨kind, _, _, _⟩, ho, rfl⟩ := listCursor?_eq_some.mp hc
  obtain ⟨o', ho', ha⟩ := h id _ ho
  refine listCursor?_eq_some.mpr ⟨o', ho', ?_⟩
  generalize o'.kind = kind at ha
  cases ha with
  | same => rfl

theorem code? (h : h₁.KeepsKinds h₂) {id : ObjectId} {c : Code} (hc : h₁.code? id = some c) :
    h₂.code? id = some c := by
  obtain ⟨⟨kind, _, _, _⟩, name, arity, ho, rfl⟩ := code?_eq_some.mp hc
  obtain ⟨o', ho', ha⟩ := h id _ ho
  refine code?_eq_some.mpr ⟨o', name, arity, ho', ?_⟩
  generalize o'.kind = kind at ha
  cases ha with
  | same => rfl

end KeepsKinds

end Heap

/-! ## Changes of list iterators -/

/-- The code of all function objects is kept. -/
def Heap.KeepsCode (h h' : Heap) : Prop := ∀ id c, h.code? id = some c → h'.code? id = some c

namespace Heap

theorem KeepsCode.ofKinds {h h' : Heap} (hk : h.KeepsKinds h') : h.KeepsCode h' := fun _ _ hc => hk.code? hc

theorem KeepsCode.trans {h₁ h₂ h₃ : Heap} (h : h₁.KeepsCode h₂) (h' : h₂.KeepsCode h₃) : h₁.KeepsCode h₃ :=
  fun id c hc => h' id c (h id c hc)

theorem listCursor?_modify_of_ne {h : Heap} {id id' : ObjectId} (hne : id ≠ id') (f : Object → Object) :
    (h.modify id f).listCursor? id' = h.listCursor? id' := by
  unfold listCursor?
  rw [get?_modify, if_neg hne]

/-- A change of list iterators alone. -/
theorem KeepsCode.modify {f : Object → Object}
    (hf : ∀ o : Object, (∃ c, o.kind = .listIterator c) ∨ (f o).kind = o.kind) (h : Heap) (id : ObjectId) :
    h.KeepsCode (h.modify id f) := by
  intro id' c hc
  obtain ⟨o, name, arity, ho, hkind⟩ := code?_eq_some.mp hc
  by_cases hid : id = id'
  · refine code?_eq_some.mpr ⟨f o, name, arity, by rw [get?_modify, if_pos hid, ho, Option.map_some], ?_⟩
    rcases hf o with ⟨cursor, hcursor⟩ | hsame
    · rw [hcursor] at hkind
      cases hkind
    · rw [hsame, hkind]
  · exact code?_eq_some.mpr ⟨o, name, arity, by rw [get?_modify, if_neg hid, ho], hkind⟩

end Heap

/-! ## Actions -/

/-- An action that keeps the kinds of all objects. -/
def Realm.KeepsKinds (x : Action α) : Prop := ∀ r : Realm, r.heap.KeepsKinds (x r).2.heap

namespace Realm.KeepsKinds

theorem ofQuiet {x : Action α} (hx : IsQuiet x) : KeepsKinds x := fun r => .ofExtends (hx r).heap

/-- Whatever happens to the context and to the symbols, the heap is the same. -/
theorem ofHeap {x : Action α} (hx : ∀ r : Realm, (x r).2.heap = r.heap) : KeepsKinds x := by
  intro r
  rw [hx r]
  exact .refl _

theorem pure (a : α) : KeepsKinds (Pure.pure a : Action α) := .ofHeap fun _ => rfl

theorem bind {x : Action α} {f : α → Action β} (hx : KeepsKinds x) (hf : ∀ a, KeepsKinds (f a)) :
    KeepsKinds (x >>= f) :=
  fun r => (hx r).trans (hf (x r).1 (x r).2)

theorem getHeap : KeepsKinds Realm.getHeap := .ofHeap fun _ => rfl

theorem getContext : KeepsKinds Realm.getContext := .ofHeap fun _ => rfl

theorem alloc (o : Object) : KeepsKinds (Realm.alloc o) := fun r => .alloc r.heap o

theorem modifyObject {f : Object → Object} (hf : ∀ o : Object, o.kind.Alike (f o).kind) (id : ObjectId) :
    KeepsKinds (Realm.modifyObject id f) :=
  fun r => .modify hf r.heap id

/-- Prototype, properties and slots are no part of the kind. -/
theorem modifyParts {f : Object → Object} (hf : ∀ o : Object, (f o).kind = o.kind) (id : ObjectId) :
    KeepsKinds (Realm.modifyObject id f) := by
  refine modifyObject (fun o => ?_) id
  rw [hf o]
  exact .same _

theorem raiseError (kind : ErrorKind) (message : String) : KeepsKinds (Realm.raiseError kind message) :=
  fun r => .alloc r.heap _

theorem rethrow (c : Completion) : KeepsKinds (Realm.rethrow c) := by
  cases c with
  | throws v => exact .ofHeap fun _ => rfl
  | normal | returns | breaks | continues => exact .pure ()

theorem setProperty (id : ObjectId) (key : String) (v : Value) (a : Attributes) :
    KeepsKinds (Realm.setProperty id key v a) := by
  refine getHeap.bind fun heap => ?_
  split
  · refine bind (modifyParts ?_ id) fun _ => .pure _
    exact fun _ => rfl
  · exact .pure _

theorem defineAccessor (id : ObjectId) (key : String) (getter setter : Handle) (a : Attributes) :
    KeepsKinds (Realm.defineAccessor id key getter setter a) := by
  refine getHeap.bind fun heap => ?_
  split
  · refine bind (modifyParts ?_ id) fun _ => .pure _
    exact fun _ => rfl
  · exact .pure _

theorem setMethod (id : ObjectId) (key : String) (v : Value) : KeepsKinds (Realm.setMethod id key v) := by
  refine modifyParts ?_ id
  exact fun _ => rfl

theorem setPrototype (id : ObjectId) (prototype : Handle) : KeepsKinds (Realm.setPrototype id prototype) := by
  refine modifyParts ?_ id
  exact fun _ => rfl

theorem setSlot (id : ObjectId) (slot : String) (v : Value) : KeepsKinds (Realm.setSlot id slot v) := by
  refine modifyParts ?_ id
  exact fun _ => rfl

theorem eraseFrom (map : ObjectId) (key : Value) : KeepsKinds (Command.eraseFrom map key) := by
  refine getHeap.bind fun heap => (modifyObject (fun o => ?_) map).bind fun _ => .pure _
  obtain ⟨kind, _, _, _⟩ := o
  cases kind with
  | map data => exact .map _ _
  | _ => exact .same _

theorem ofMap (source : Value) (kind : IterationKind) : KeepsKinds (CollectionIterator.ofMap source kind) :=
  ofQuiet (.ofMap source kind)

theorem ofSet (source : Value) (kind : IterationKind) : KeepsKinds (CollectionIterator.ofSet source kind) :=
  ofQuiet (.ofSet source kind)

theorem createListIterator (list : List Value) : KeepsKinds (ListIterator.create list) := by
  intro r
  have hnew := r.heap.get?_alloc_fst
    { kind := .listIterator { list := some list }, prototype := r.context.intrinsic .iteratorPrototype }
  exact (((Heap.KeepsKinds.alloc _ _).trans (.alloc _ _)).modify_new hnew _).modify_new hnew _

theorem sequential : Sequential KeepsKinds where
  bind := bind
  quiet := ofQuiet
  registerBuiltin _ _ := .ofHeap fun _ => rfl
  setProperty := setProperty
  setMethod := setMethod

end Realm.KeepsKinds

/-! ## Commands -/

/-- Every command that is an action keeps kinds, but for one. -/
theorem Realm.KeepsKinds.ofCommand {c : Command} {x : Action c.Reply} (hx : c.action? = some x)
    (hc : ∀ id f, c ≠ .bindNext id f) : KeepsKinds x := by
  cases c <;> cases hx
  case bindNext id f => exact absurd rfl (hc id f)
  -- questions about the state
  case getContext => exact .getContext
  case getHeap => exact .getHeap
  case textOf | keyOf => exact .ofHeap fun _ => rfl
  -- the context
  case setStrict | setMaxDepth | setGlobal | raise | takePending | clearPending | registerBuiltin | createSymbol =>
    exact .ofHeap fun _ => rfl
  case raiseError kind message => exact .raiseError kind message
  case rethrow c => exact .rethrow c
  case install part => exact sequential.install part
  -- construction
  case createObject | createFunction | createError | createUnbound | createMap | createSet => exact .alloc _
  case createResult v done => exact .ofQuiet (.createResult v done)
  case createListIterator list => exact .createListIterator list
  case createMapIterator source kind => exact .ofMap source kind
  case createSetIterator source kind => exact .ofSet source kind
  -- own properties
  case setProperty id key v a => exact .setProperty id key v a
  case defineAccessor id key getter setter a => exact .defineAccessor id key getter setter a
  case setMethod id key v => exact .setMethod id key v
  case setPrototype id prototype => exact .setPrototype id prototype
  case setSlot id slot v => exact .setSlot id slot v
  -- collections
  case insertEntry map key v => exact .ofQuiet (.insertEntry map key v)
  case eraseEntry map key => exact .eraseFrom map key
  case insertValue set v => exact .ofQuiet (.insertValue set v)

/-- A relation that survives every action which keeps kinds survives every command but one. -/
theorem Mirror.perform {H K : Type} {R : Machine H → Machine K → Prop} {g : Guest H} {g' : Guest K}
    (M : Mirror R g g')
    (hact : ∀ {α : Type} {x : Action α}, Realm.KeepsKinds x → Run.Sim R (liftM x) (liftM x)) (c : Command)
    (hc : ∀ id f, c ≠ .bindNext id f) : Run.Sim R (c.perform g) (c.perform g') :=
  M.command (fun _ => hact (.ofHeap fun _ => rfl)) c fun _ hx => hact (.ofCommand hx hc)

end IterationEngine
