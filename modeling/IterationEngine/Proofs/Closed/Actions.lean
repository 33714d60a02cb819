import IterationEngine.Proofs.Closed.Heap
import IterationEngine.Proofs.ListStep

/-!
# Actions on closed realms

Every elementary action keeps a closed realm closed, if the values it is given are live.

An action is given values that were live on an earlier heap, and meanwhile the heap has grown. So `Realm.KeepsClosed`
speaks of an action from all realms that have grown from a heap, and a sequence passes the heap on, with what is known
of the answer (`Realm.KeepsClosed.bind`).
-/

namespace IterationEngine

variable {α β : Type}

/-- From a closed realm whose heap has grown from `h₀`, the action leads to another one, and `post` holds of the answer
and the heap it leaves. -/
def Realm.KeepsClosed (h₀ : Heap) (post : α → Heap → Prop) (x : Action α) : Prop :=
  ∀ (bound : Prop) (r : Realm), r.Closed bound → h₀.Grows r.heap →
    (x r).2.Closed bound ∧ r.heap.Grows (x r).2.heap ∧ post (x r).1 (x r).2.heap

/-- All objects among the values of an answer are on the heap. -/
def Heap.holding (out : α → List Value) (a : α) (h : Heap) : Prop := h.Holds (out a)

namespace Realm.KeepsClosed

open Heap (holding)

variable {h₀ : Heap}

/-! ## Sequences -/

theorem weaken {post post' : α → Heap → Prop} {x : Action α} (hx : KeepsClosed h₀ post x)
    (hpost : ∀ a h, h₀.Grows h → post a h → post' a h) : KeepsClosed h₀ post' x := by
  intro bound r hr hgrows
  obtain ⟨hclosed, hgrows', ha⟩ := hx bound r hr hgrows
  exact ⟨hclosed, hgrows', hpost _ _ (hgrows.trans hgrows') ha⟩

theorem pure {out : α → List Value} {a : α} (ha : h₀.Holds (out a)) :
    KeepsClosed h₀ (holding out) (Pure.pure a : Action α) :=
  fun _ r hr hgrows => ⟨hr, .refl r.heap, ha.mono hgrows⟩

/-- What follows may use what is known of the answer, and of a heap that has grown meanwhile. -/
theorem bind {post : α → Heap → Prop} {post' : β → Heap → Prop} {x : Action α} {f : α → Action β}
    (hx : KeepsClosed h₀ post x) (hf : ∀ a h, h₀.Grows h → post a h → KeepsClosed h post' (f a)) :
    KeepsClosed h₀ post' (x >>= f) := by
  intro bound r hr hgrows
  obtain ⟨hr₁, hgrows₁, ha⟩ := hx bound r hr hgrows
  obtain ⟨hr₂, hgrows₂, hb⟩ := hf _ _ (hgrows.trans hgrows₁) ha bound _ hr₁ (.refl _)
  exact ⟨hr₂, hgrows₁.trans hgrows₂, hb⟩

/-- The answer may be a value that was live before. -/
theorem andPure {out : β → List Value} {post : α → Heap → Prop} {x : Action α} {b : β} (hx : KeepsClosed h₀ post x)
    (hb : h₀.Holds (out b)) : KeepsClosed h₀ (holding out) (do let _ ← x; return b) :=
  hx.bind fun _ _ hgrows _ => .pure (hb.mono hgrows)

/-! ## Questions -/

theorem getHeap : KeepsClosed h₀ (fun heap h => heap = h ∧ heap.Holds heap.values) Realm.getHeap :=
  fun _ r hr _ => ⟨hr, .refl r.heap, rfl, hr.heap.values⟩

theorem getContext : KeepsClosed h₀ (holding Context.values) Realm.getContext :=
  fun _ r hr _ => ⟨hr, .refl r.heap, hr.context⟩

theorem intrinsic (i : Intrinsic) : KeepsClosed h₀ (holding fun object => [.ofHandle object]) (Realm.intrinsic i) := by
  intro _ r hr _
  refine ⟨hr, .refl r.heap, ?_⟩
  exact .singleton (Heap.liveIn_ofHandle_builtin hr.context i.name)

/-- An answer that holds no value says nothing of the realm. -/
theorem ask {x : Action α} (hx : ∀ r, (x r).2 = r) : KeepsClosed h₀ (holding fun _ => []) x := by
  intro _ r hr _
  rw [hx r]
  exact ⟨hr, .refl r.heap, Heap.holds_nil _⟩

theorem isPending : KeepsClosed h₀ (holding fun _ => []) Realm.isPending := .ask fun _ => rfl

theorem textOf (v : Value) : KeepsClosed h₀ (holding fun _ => []) (Realm.textOf v) := .ask fun _ => rfl

theorem keyOf (v : Value) : KeepsClosed h₀ (holding fun _ => []) (Realm.keyOf v) := .ask fun _ => rfl

/-! ## The context -/

theorem modifyContext {f : Context → Context} (hf : ∀ h c, h₀.Grows h → h.Holds c.values → h.Holds (f c).values) :
    KeepsClosed h₀ (holding fun _ => []) (Realm.modifyContext f) :=
  fun _ r hr hgrows => ⟨⟨hr.heap, hf r.heap r.context hgrows hr.context⟩, .refl r.heap, Heap.holds_nil _⟩

theorem setGlobal {object : Handle} (hobject : (Value.ofHandle object).LiveIn h₀) :
    KeepsClosed h₀ (holding fun _ => []) (Realm.modifyContext fun c => { c with global := object }) := by
  refine modifyContext fun h c hgrows hc => ?_
  obtain ⟨hreceiver, hactive, -, hrest⟩ := Context.holds_values.mp hc
  exact Context.holds_values.mpr ⟨hreceiver, hactive, hobject.mono hgrows, hrest⟩

theorem raise {v : Value} (hv : v.LiveIn h₀) : KeepsClosed h₀ (holding fun _ => []) (Realm.raise v) := by
  refine modifyContext fun h c hgrows hc => ?_
  obtain ⟨hreceiver, hactive, hglobal, -, hbuiltins⟩ := Context.holds_values.mp hc
  exact Context.holds_values.mpr ⟨hreceiver, hactive, hglobal, hv.mono hgrows, hbuiltins⟩

theorem holds_cleared {h : Heap} {c : Context} (hc : h.Holds c.values) :
    h.Holds { c with cell := ExceptionCell.empty }.values := by
  obtain ⟨hreceiver, hactive, hglobal, -, hbuiltins⟩ := Context.holds_values.mp hc
  exact Context.holds_values.mpr ⟨hreceiver, hactive, hglobal, Value.liveIn_undefined h, hbuiltins⟩

theorem clearPending : KeepsClosed h₀ (holding fun _ => []) Realm.clearPending :=
  modifyContext fun _ _ _ hc => holds_cleared hc

theorem takePending : KeepsClosed h₀ (holding fun c => [c.value]) Realm.takePending := by
  intro _ r hr _
  obtain ⟨-, -, -, hexception, -⟩ := Context.holds_values.mp hr.context
  exact ⟨⟨hr.heap, holds_cleared hr.context⟩, .refl r.heap, .singleton hexception⟩

theorem rethrow {c : Completion} (hc : h₀.Holds [c.value]) :
    KeepsClosed h₀ (holding fun _ => []) (Realm.rethrow c) := by
  cases c with
  | throws v => exact raise hc.head
  | normal | returns | breaks | continues => exact pure (Heap.holds_nil _)

theorem registerBuiltin (name : String) {object : Handle} (hobject : (Value.ofHandle object).LiveIn h₀) :
    KeepsClosed h₀ (holding fun _ => []) (Realm.registerBuiltin name object) := by
  refine modifyContext fun h c hgrows hc => ?_
  obtain ⟨hreceiver, hactive, hglobal, hexception, hbuiltins⟩ := Context.holds_values.mp hc
  refine Context.holds_values.mpr ⟨hreceiver, hactive, hglobal, hexception, ?_⟩
  intro v hv
  obtain ⟨e, he, rfl⟩ := List.mem_map.mp hv
  rcases Table.mem_put he with heq | hold
  · rw [heq]
    exact hobject.mono hgrows
  · exact hbuiltins _ (List.mem_map_of_mem hold)

theorem freshSymbol (description : String) :
    KeepsClosed h₀ (holding fun _ => []) (Command.freshSymbol description) :=
  fun _ r hr _ => ⟨⟨hr.heap, hr.context⟩, .refl r.heap, Heap.holds_nil _⟩

/-! ## Objects that are made -/

theorem alloc {o : Object} (hvalues : h₀.Holds o.values) (htyped : ∀ bound h, h₀.Grows h → o.WellTyped bound h) :
    KeepsClosed h₀ (fun id h => h.HasKind id o.kind) (Realm.alloc o) := by
  intro bound r hr hgrows
  have hgrows' := Heap.Grows.alloc r.heap o
  have hheap := hr.heap.alloc (hvalues.mono hgrows) (htyped bound r.heap hgrows)
  exact ⟨⟨hheap, hr.context.mono hgrows'⟩, hgrows', o, Heap.get?_alloc_self _ _, rfl⟩

/-- An object that refers to no others by its kind. -/
theorem allocPlain {o : Object} (hkind : o.kind.isCursor = false) (hvalues : h₀.Holds o.values) :
    KeepsClosed h₀ (fun id h => h.HasKind id o.kind) (Realm.alloc o) :=
  alloc hvalues fun _ _ _ => .of_no_cursor hkind

/-- The object that has been made is live. -/
theorem live {k : ObjectKind} {x : Action ObjectId} (hx : KeepsClosed h₀ (fun id h => h.HasKind id k) x) :
    KeepsClosed h₀ (holding fun id => [.object id]) x :=
  hx.weaken fun _ _ _ hid => .singleton (Value.liveIn_object.mpr hid.contains)

end Realm.KeepsClosed

namespace Heap

variable {h : Heap}

theorem holds_plain {prototype : Handle} (hp : (Value.ofHandle prototype).LiveIn h) (tag : PlainTag) :
    h.Holds (Object.plain prototype tag).values :=
  Object.holds_values.mpr ⟨hp, holds_nil h, holds_nil h, holds_nil h⟩

theorem holds_ofCode (h : Heap) (name : String) (arity : UInt32) (code : Code) :
    h.Holds (Object.ofCode name arity code).values := by
  refine Object.holds_values.mpr ⟨Value.liveIn_undefined h, ?_, holds_nil h, holds_nil h⟩
  exact holds_withValue (holds_withValue (holds_nil h) (Value.liveIn_string h _) _ _) (Value.liveIn_number h _) _ _

theorem holds_ofError (kind : ErrorKind) (message : String) {prototype : Handle}
    (hp : (Value.ofHandle prototype).LiveIn h) : h.Holds (Object.ofError kind message prototype).values := by
  have hnamed : h.Holds (PropertyTable.values
      (PropertyTable.withValue .empty "name" (.string kind.name) .hidden)) :=
    holds_withValue (holds_nil h) (Value.liveIn_string h _) _ _
  refine Object.holds_values.mpr ⟨hp, ?_, holds_nil h, holds_nil h⟩
  show h.Holds (PropertyTable.values (if message.isEmpty then _ else _))
  split
  · exact hnamed
  · exact holds_withValue hnamed (Value.liveIn_string h _) _ _

theorem holds_ofResult {prototype : Handle} {v : Value} (hp : (Value.ofHandle prototype).LiveIn h) (hv : v.LiveIn h)
    (done : Bool) : h.Holds (Object.ofResult prototype v done).values := by
  refine Object.holds_values.mpr ⟨hp, ?_, holds_nil h, holds_nil h⟩
  exact holds_withValue (holds_withValue (holds_nil h) hv _ _) (Value.liveIn_boolean h _) _ _

/-- Slots that hold `undefined`. -/
theorem holds_slots (slots : List String) {t : Table Value} (ht : h.Holds (t.entries.map Prod.snd)) :
    h.Holds ((slots.foldl (fun t slot => t.insert slot .undefined) t).entries.map Prod.snd) := by
  induction slots generalizing t with
  | nil => exact ht
  | cons slot rest ih => exact ih (holds_map_snd_insert ht (Value.liveIn_undefined h))

end Heap

/-- A change of kind that stores live values only and binds nothing. -/
structure ObjectKind.Changes (h₀ : Heap) (k k' : ObjectKind) : Prop where
  fixed : k'.fixed = k.fixed
  values : ∀ h, h₀.Grows h → h.Holds k.values → h.Holds k'.values
  next : ∀ cursor', k' = .listIterator cursor' → ∃ cursor, k = .listIterator cursor ∧ cursor'.next = cursor.next

theorem ObjectKind.Changes.refl {h₀ : Heap} (k : ObjectKind) : Changes h₀ k k where
  fixed := rfl
  values _ _ hk := hk
  next cursor' hk := ⟨cursor', hk, rfl⟩

theorem ObjectKind.Changes.wellTyped {h₀ h : Heap} {bound : Prop} {o : Object} {kind : ObjectKind}
    (hc : Changes h₀ o.kind kind) (ho : o.WellTyped bound h) : ({ o with kind } : Object).WellTyped bound h where
  tag := Object.tag_isFunction _
  next hb cursor' f hk hf := by
    obtain ⟨cursor, hcursor, hnext⟩ := hc.next cursor' hk
    exact ho.next hb cursor f hcursor (hnext.symm.trans hf)
  mapSource cursor hk := by
    obtain rfl : kind = .mapIterator cursor := hk
    refine ho.mapSource cursor ?_
    have hfixed := hc.fixed
    cases hkind : o.kind <;> rw [hkind] at hfixed <;> cases hfixed
    rfl
  setSource cursor hk := by
    obtain rfl : kind = .setIterator cursor := hk
    refine ho.setSource cursor ?_
    have hfixed := hc.fixed
    cases hkind : o.kind <;> rw [hkind] at hfixed <;> cases hfixed
    rfl

namespace Realm.KeepsClosed

open Heap (holding)

variable {h₀ : Heap}

theorem createObject {prototype : Handle} (hp : (Value.ofHandle prototype).LiveIn h₀) (tag : PlainTag)
    (slots : List String) :
    KeepsClosed h₀ (holding fun id => [.object id]) (Realm.createObject prototype tag slots) := by
  refine (allocPlain rfl ?_).live
  exact Object.holds_values.mpr ⟨hp, Heap.holds_nil _, Heap.holds_slots slots (Heap.holds_nil _), Heap.holds_nil _⟩

theorem createFunction (name : String) (arity : UInt32) (code : Code) :
    KeepsClosed h₀ (fun id h => h.HasKind id (.function name arity code)) (Realm.alloc (.ofCode name arity code)) :=
  allocPlain rfl (Heap.holds_ofCode h₀ name arity code)

theorem createError (kind : ErrorKind) (message : String) {prototype : Handle}
    (hp : (Value.ofHandle prototype).LiveIn h₀) :
    KeepsClosed h₀ (holding fun id => [.object id]) (Realm.alloc (.ofError kind message prototype)) :=
  (allocPlain rfl (Heap.holds_ofError kind message hp)).live

theorem createResult {v : Value} (hv : v.LiveIn h₀) (done : Bool) :
    KeepsClosed h₀ (holding fun id => [.object id]) (Realm.createResult v done) := by
  refine (intrinsic _).bind fun prototype h hgrows hp => (allocPlain rfl ?_).live
  exact Heap.holds_ofResult hp.head (hv.mono hgrows) done

theorem createCollection {kind : ObjectKind} (hkind : kind = .map .empty ∨ kind = .set .empty) {prototype : Handle}
    (hp : (Value.ofHandle prototype).LiveIn h₀) :
    KeepsClosed h₀ (holding fun id => [.object id]) (Realm.alloc { kind, prototype }) := by
  have hcursor : kind.isCursor = false := by rcases hkind with rfl | rfl <;> rfl
  have hmembers : kind.values = [] := by rcases hkind with rfl | rfl <;> rfl
  refine (allocPlain hcursor (Object.holds_values.mpr ⟨hp, Heap.holds_nil _, Heap.holds_nil _, ?_⟩)).live
  show h₀.Holds kind.values
  rw [hmembers]
  exact Heap.holds_nil _

theorem createUnbound {prototype : Handle} {list : Option (List Value)} (hp : (Value.ofHandle prototype).LiveIn h₀)
    (hlist : h₀.Holds (list.getD [])) :
    KeepsClosed h₀ (holding fun id => [.object id]) (ListIterator.createUnbound prototype list) := by
  refine (alloc (Object.holds_values.mpr ⟨hp, Heap.holds_nil _, Heap.holds_nil _, ?_⟩) fun bound h _ => ?_).live
  · exact Heap.holds_cons.mpr ⟨Value.liveIn_undefined _, hlist⟩
  · refine ⟨nofun, fun _ cursor f hk hf => ?_, nofun, nofun⟩
    obtain rfl := ObjectKind.listIterator.inj hk
    cases hf

/-! ## Errors -/

theorem raiseError (kind : ErrorKind) (message : String) :
    KeepsClosed h₀ (holding fun _ => []) (Realm.raiseError kind message) := by
  refine (intrinsic _).bind fun prototype h _ hp => ?_
  exact (createError kind message hp.head).bind fun e h' _ he => raise he.head

theorem raiseTypeError (message : String) : KeepsClosed h₀ (holding fun _ => []) (Realm.raiseTypeError message) :=
  raiseError _ message

theorem raiseNotCallable (key : String) (v : Value) :
    KeepsClosed h₀ (holding fun _ => []) (Access.raiseNotCallable key v) :=
  getHeap.bind fun _ _ _ _ => raiseTypeError _

theorem raiseNotResult (v : Value) : KeepsClosed h₀ (holding fun _ => []) (Iterator.raiseNotResult v) :=
  (textOf v).bind fun _ _ _ _ => raiseTypeError _

theorem bodyOutcome {c : Completion} (hc : h₀.Holds [c.value]) :
    KeepsClosed h₀ (holding fun c => [c.value]) (Iterator.bodyOutcome c) := by
  refine isPending.bind fun pending h hgrows _ => ?_
  cases pending with
  | true => exact takePending
  | false => exact pure (hc.mono hgrows)

theorem outcome {v : Value} (hv : v.LiveIn h₀) :
    KeepsClosed h₀ (holding fun c => [c.value]) (Iterator.outcome v) :=
  bodyOutcome (.singleton hv)

/-! ## Objects that are changed -/

theorem modifyObject {f : Object → Object} (hfixed : ∀ o : Object, (f o).kind.fixed = o.kind.fixed)
    (hvalues : ∀ h o, h₀.Grows h → h.Holds o.values → h.Holds (f o).values)
    (htyped : ∀ bound h o, h₀.Grows h → o.WellTyped bound h → (f o).WellTyped bound h) (id : ObjectId) :
    KeepsClosed h₀ (holding fun _ => []) (Realm.modifyObject id f) := by
  intro bound r hr hgrows
  have hgrows' := Heap.Grows.modify hfixed r.heap id
  have hheap := hr.heap.modify hfixed (fun o => hvalues r.heap o hgrows) (fun o => htyped bound r.heap o hgrows) id
  exact ⟨⟨hheap, hr.context.mono hgrows'⟩, hgrows', Heap.holds_nil _⟩

/-- A change that leaves the kind alone. -/
theorem modifyParts {f : Object → Object} (hkind : ∀ o : Object, (f o).kind = o.kind)
    (hvalues : ∀ h o, h₀.Grows h → h.Holds o.values → h.Holds (f o).values) (id : ObjectId) :
    KeepsClosed h₀ (holding fun _ => []) (Realm.modifyObject id f) :=
  modifyObject (fun o => congrArg ObjectKind.fixed (hkind o)) hvalues (fun _ _ o _ ho => ho.of_kind (hkind o)) id

theorem writeProperties {properties : PropertyTable} (hproperties : h₀.Holds (PropertyTable.values properties))
    (id : ObjectId) : KeepsClosed h₀ (holding fun _ => []) (Realm.modifyObject id fun o => { o with properties }) := by
  refine modifyParts ?_ ?_ id
  · exact fun _ => rfl
  · intro h o hgrows ho
    obtain ⟨hprototype, -, hslots, hkind⟩ := Object.holds_values.mp ho
    exact Object.holds_values.mpr ⟨hprototype, hproperties.mono hgrows, hslots, hkind⟩

theorem setProperty {v : Value} (hv : v.LiveIn h₀) (id : ObjectId) (key : String) (a : Attributes) :
    KeepsClosed h₀ (holding fun _ => []) (Realm.setProperty id key v a) := by
  refine getHeap.bind fun heap h hgrows hheap => ?_
  obtain ⟨rfl, hh⟩ := hheap
  split
  · next properties hset =>
    obtain ⟨o, ho, hset⟩ := Option.bind_eq_some_iff.mp hset
    have hproperties := Heap.holds_setValue? (Heap.holds_properties hh ho) (hv.mono hgrows) hset
    exact (writeProperties hproperties id).andPure (Heap.holds_nil _)
  · exact pure (Heap.holds_nil _)

theorem defineAccessor {getter setter : Handle} (hp : h₀.Holds [.ofHandle getter, .ofHandle setter]) (id : ObjectId)
    (key : String) (a : Attributes) :
    KeepsClosed h₀ (holding fun _ => []) (Realm.defineAccessor id key getter setter a) := by
  refine getHeap.bind fun heap h hgrows hheap => ?_
  obtain ⟨rfl, hh⟩ := hheap
  split
  · next properties hset =>
    obtain ⟨o, ho, hset⟩ := Option.bind_eq_some_iff.mp hset
    have hproperties := Heap.holds_setAccessor? (Heap.holds_properties hh ho) (hp.mono hgrows) hset
    exact (writeProperties hproperties id).andPure (Heap.holds_nil _)
  · exact pure (Heap.holds_nil _)

theorem setMethod {v : Value} (hv : v.LiveIn h₀) (id : ObjectId) (key : String) :
    KeepsClosed h₀ (holding fun _ => []) (Realm.setMethod id key v) := by
  refine modifyParts ?_ ?_ id
  · exact fun _ => rfl
  · intro h o hgrows ho
    obtain ⟨hprototype, hproperties, hrest⟩ := Object.holds_values.mp ho
    exact Object.holds_values.mpr
      ⟨hprototype, Heap.holds_withValue hproperties (hv.mono hgrows) key .hidden, hrest⟩

theorem setPrototype {prototype : Handle} (hp : (Value.ofHandle prototype).LiveIn h₀) (id : ObjectId) :
    KeepsClosed h₀ (holding fun _ => []) (Realm.setPrototype id prototype) := by
  refine modifyParts ?_ ?_ id
  · exact fun _ => rfl
  · intro h o hgrows ho
    exact Object.holds_values.mpr ⟨hp.mono hgrows, (Object.holds_values.mp ho).2⟩

theorem setSlot {v : Value} (hv : v.LiveIn h₀) (id : ObjectId) (slot : String) :
    KeepsClosed h₀ (holding fun _ => []) (Realm.setSlot id slot v) := by
  refine modifyParts ?_ ?_ id
  · exact fun _ => rfl
  · intro h o hgrows ho
    obtain ⟨hprototype, hproperties, hslots, hkind⟩ := Object.holds_values.mp ho
    exact Object.holds_values.mpr
      ⟨hprototype, hproperties, Heap.holds_map_snd_insert hslots (hv.mono hgrows), hkind⟩

/-! ## Collections and list iterators -/

/-- An object may change its kind in that way. -/
theorem modifyKind {f : Object → Object}
    (hf : ∀ o : Object, ∃ kind, f o = { o with kind } ∧ ObjectKind.Changes h₀ o.kind kind) (id : ObjectId) :
    KeepsClosed h₀ (holding fun _ => []) (Realm.modifyObject id f) := by
  refine modifyObject (fun o => ?_) (fun h o hgrows ho => ?_) (fun bound h o _ ho => ?_) id
  all_goals obtain ⟨kind, heq, hchanges⟩ := hf o
  all_goals rw [heq]
  · exact hchanges.fixed
  · obtain ⟨hprototype, hproperties, hslots, hkind⟩ := Object.holds_values.mp ho
    exact Object.holds_values.mpr ⟨hprototype, hproperties, hslots, hchanges.values h hgrows hkind⟩
  · exact hchanges.wellTyped ho

theorem insertEntry {key v : Value} (hkey : key.LiveIn h₀) (hv : v.LiveIn h₀) (map : ObjectId) :
    KeepsClosed h₀ (holding fun _ => []) (Iterator.insertEntry map key v) := by
  refine modifyKind (fun o => ?_) map
  obtain ⟨kind, _, _, _⟩ := o
  cases kind with
  | map data =>
    refine ⟨_, rfl, rfl, fun h hgrows hdata => ?_, nofun⟩
    exact Heap.holds_put hdata (hkey.mono hgrows) (hv.mono hgrows)
  | _ => exact ⟨_, rfl, .refl _⟩

theorem eraseFrom (map : ObjectId) (key : Value) :
    KeepsClosed h₀ (holding fun _ => []) (Command.eraseFrom map key) := by
  refine getHeap.bind fun heap h _ _ => (modifyKind (fun o => ?_) map).andPure (Heap.holds_nil _)
  obtain ⟨kind, _, _, _⟩ := o
  cases kind with
  | map data => exact ⟨_, rfl, rfl, fun _ _ hdata => Heap.holds_delete hdata, nofun⟩
  | _ => exact ⟨_, rfl, .refl _⟩

theorem insertValue {v : Value} (hv : v.LiveIn h₀) (set : ObjectId) :
    KeepsClosed h₀ (holding fun _ => []) (Iterator.insertValue set v) := by
  refine modifyKind (fun o => ?_) set
  obtain ⟨kind, _, _, _⟩ := o
  cases kind with
  | set data => exact ⟨_, rfl, rfl, fun _ hgrows hdata => Heap.holds_insertMember hdata (hv.mono hgrows), nofun⟩
  | _ => exact ⟨_, rfl, .refl _⟩

theorem advance (iterator : ObjectId) : KeepsClosed h₀ (holding fun _ => []) (ListIterator.advance iterator) := by
  refine modifyKind (fun o => ?_) iterator
  obtain ⟨kind, _, _, _⟩ := o
  cases kind with
  | listIterator cursor =>
    refine ⟨_, rfl, rfl, fun _ _ hcursor => hcursor, fun cursor' heq => ⟨cursor, rfl, ?_⟩⟩
    rw [← ObjectKind.listIterator.inj heq]
  | _ => exact ⟨_, rfl, .refl _⟩

end Realm.KeepsClosed

theorem Realm.grows_bindNext (r : Realm) (iterator : ObjectId) (next : Handle) :
    r.heap.Grows (ListIterator.bindNext iterator next r).2.heap := by
  refine Heap.Grows.modify (fun o => ?_) r.heap iterator
  obtain ⟨kind, prototype, properties, slots⟩ := o
  cases kind <;> rfl

/-- Binding a function. Which condition makes the realm a closed one may change by it. -/
theorem Realm.Closed.bindNext {bound bound' : Prop} {r : Realm} {next : Handle} (hr : r.Closed bound)
    (hlive : (Value.ofHandle next).LiveIn r.heap)
    (hbound : bound' → bound ∧ ∀ f, next = some f → r.heap.isFunction f = true) (iterator : ObjectId) :
    (ListIterator.bindNext iterator next r).2.Closed bound' := by
  have hgrows := r.grows_bindNext iterator next
  have hclosed : r.Closed bound' := hr.weaken fun hb => (hbound hb).1
  refine ⟨hclosed.heap.modify (fun o => ?_) (fun o ho => ?_) (fun o ho => ?_) iterator, hclosed.context.mono hgrows⟩
  all_goals obtain ⟨kind, prototype, properties, slots⟩ := o
  · cases kind <;> rfl
  · cases kind with
    | listIterator cursor =>
      obtain ⟨hprototype, hproperties, hslots, hcursor⟩ := Object.holds_values.mp ho
      exact Object.holds_values.mpr ⟨hprototype, hproperties, hslots, Heap.holds_cons.mpr ⟨hlive, hcursor.tail⟩⟩
    | _ => exact ho
  · cases kind with
    | listIterator cursor =>
      refine ⟨nofun, fun hb cursor' f heq hf => ?_, nofun, nofun⟩
      obtain rfl := ObjectKind.listIterator.inj heq
      exact (hbound hb).2 f hf
    | _ => exact ho

namespace Realm.KeepsClosed

open Heap (holding)

variable {h₀ : Heap}

theorem bindNext {f : ObjectId} (hf : h₀.isFunction f = true) (iterator : ObjectId) :
    KeepsClosed h₀ (holding fun _ => []) (ListIterator.bindNext iterator (some f)) := by
  intro bound r hr hgrows
  have hfunction := hgrows.isFunction hf
  have hlive : (Value.ofHandle (some f)).LiveIn r.heap := Value.liveIn_of_isFunction hfunction
  have hbound : bound → bound ∧ ∀ f', some f = some f' → r.heap.isFunction f' = true := by
    intro hb
    refine ⟨hb, ?_⟩
    rintro f' ⟨⟩
    exact hfunction
  exact ⟨hr.bindNext hlive hbound iterator, r.grows_bindNext iterator _, Heap.holds_nil _⟩

theorem createListIterator {list : List Value} (hlist : h₀.Holds list) :
    KeepsClosed h₀ (holding fun id => [.object id]) (ListIterator.create list) := by
  refine (intrinsic _).bind fun prototype h₁ hgrows₁ hp => ?_
  have hlist₁ : h₁.Holds ((some list).getD []) := hlist.mono hgrows₁
  refine (createUnbound hp.head hlist₁).bind fun iterator h₂ _ hiterator => ?_
  refine (createFunction "next" 0 _).bind fun next h₃ hgrows₃ hnext => ?_
  refine (bindNext hnext.isFunction iterator).bind fun _ h₄ hgrows₄ _ => ?_
  have hlive : (Value.object next).LiveIn h₄ := (Value.liveIn_object.mpr hnext.contains).mono hgrows₄
  exact (setMethod hlive iterator "next").andPure ((hiterator.mono hgrows₃).mono hgrows₄)

theorem listNext : KeepsClosed h₀ (holding fun v => [v]) ListIterator.next := by
  refine getHeap.bind fun heap h _ hheap => getContext.bind fun context h' hgrows' _ => ?_
  obtain ⟨rfl, hh⟩ := hheap
  split
  · exact (raiseTypeError _).andPure (Heap.holds_undefined _)
  · next iterator values index hpermitted =>
    obtain ⟨-, hcursor⟩ := ListIterator.permitted_eq_ok hpermitted
    obtain ⟨o, ho, hkind⟩ := Heap.listCursor?_eq_some.mp hcursor
    have hlist : heap.Holds values := by
      have hstored := (Object.holds_values.mp (Heap.holds_of_get? hh ho)).2.2.2
      rw [hkind] at hstored
      exact hstored.tail
    split
    · exact (createResult (Value.liveIn_undefined _) true).bind fun result _ _ hresult => pure hresult
    · next v hv =>
      refine (advance iterator).bind fun _ h₁ hgrows₁ _ => ?_
      have hlive : v.LiveIn h₁ := ((hlist v (List.mem_of_getElem? hv)).mono hgrows').mono hgrows₁
      exact (createResult hlive false).bind fun result _ _ hresult => pure hresult

/-! ## Iterators over collections -/

/-- A fresh object that runs over a source of the right class. -/
theorem allocCursor {kind : ObjectKind} {source : ObjectId} (hsource : h₀.contains source = true)
    (hvalues : kind.values = [.object source]) (i : Intrinsic)
    (htyped : ∀ bound h prototype, h₀.Grows h → ({ kind, prototype } : Object).WellTyped bound h) :
    KeepsClosed h₀ (holding fun object => [.ofHandle object]) (do
      let prototype ← Realm.intrinsic i
      let iterator ← Realm.alloc { kind, prototype }
      return some iterator) := by
  refine (intrinsic i).bind fun prototype h hgrows hp => ?_
  refine (live (alloc ?_ fun bound h' hgrows' => htyped bound h' prototype (hgrows.trans hgrows'))).bind
    fun iterator _ _ hiterator => pure hiterator
  refine Object.holds_values.mpr ⟨hp.head, Heap.holds_nil _, Heap.holds_nil _, ?_⟩
  show h.Holds kind.values
  rw [hvalues]
  exact .singleton (Value.liveIn_object.mpr (hgrows.contains hsource))

theorem ofMap {source : Value} (hsource : source.LiveIn h₀) (kind : IterationKind) :
    KeepsClosed h₀ (holding fun object => [.ofHandle object]) (CollectionIterator.ofMap source kind) := by
  refine getHeap.bind fun heap h hgrows hheap => ?_
  obtain ⟨rfl, -⟩ := hheap
  split
  · next id =>
    split
    · next data hdata =>
      have hmap : (heap.mapData? id).isSome = true := by rw [hdata, Option.isSome_some]
      refine allocCursor (hgrows.contains (Value.liveIn_object.mp hsource)) rfl _ fun bound h' prototype hgrows' => ?_
      refine ⟨nofun, nofun, fun cursor heq => ?_, nofun⟩
      obtain rfl := ObjectKind.mapIterator.inj heq
      exact hgrows'.mapData? hmap
    · exact (raiseTypeError _).andPure (Heap.holds_undefined _)
  · exact (textOf _).bind fun _ _ _ _ => (raiseTypeError _).andPure (Heap.holds_undefined _)

theorem ofSet {source : Value} (hsource : source.LiveIn h₀) (kind : IterationKind) :
    KeepsClosed h₀ (holding fun object => [.ofHandle object]) (CollectionIterator.ofSet source kind) := by
  refine getHeap.bind fun heap h hgrows hheap => ?_
  obtain ⟨rfl, -⟩ := hheap
  split
  · next id =>
    split
    · next data hdata =>
      have hset : (heap.setData? id).isSome = true := by rw [hdata, Option.isSome_some]
      refine allocCursor (hgrows.contains (Value.liveIn_object.mp hsource)) rfl _ fun bound h' prototype hgrows' => ?_
      refine ⟨nofun, nofun, nofun, fun cursor heq => ?_⟩
      obtain rfl := ObjectKind.setIterator.inj heq
      exact hgrows'.setData? hset
    · exact (raiseTypeError _).andPure (Heap.holds_undefined _)
  · exact (textOf _).bind fun _ _ _ _ => (raiseTypeError _).andPure (Heap.holds_undefined _)

/-- Every function that the engine supplies. -/
theorem builtin (b : Builtin) : KeepsClosed h₀ (holding fun v => [v]) b.run := by
  cases b with
  | listNext => exact listNext
  | mapIterator kind =>
    refine getContext.bind fun context h _ hcontext => ?_
    exact (ofMap (Context.holds_values.mp hcontext).1 kind).bind fun _ _ _ hiterator => pure hiterator
  | setIterator kind =>
    refine getContext.bind fun context h _ hcontext => ?_
    exact (ofSet (Context.holds_values.mp hcontext).1 kind).bind fun _ _ _ hiterator => pure hiterator
  | receiver =>
    refine getContext.bind fun context h _ hcontext => pure ?_
    exact .singleton (Context.holds_values.mp hcontext).1

end Realm.KeepsClosed

end IterationEngine
